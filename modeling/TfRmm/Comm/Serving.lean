import TfRmm.Comm.Release

namespace TfRmm.Comm

namespace Sys

structure AppSound (s : Sys) (p : Nat) (pd : Pdev) : Prop where
  root : pd.category = .rootPort → pd.yielded = false
  owned : pd.yielded → ∃ o, pd.yieldOwner = some o
  own : pd.yielded → pd.yieldOwner = some .pdev →
    pd.commState = .active ∧ pd.task = pd.operation
  child : pd.yielded → ∀ v, pd.yieldOwner = some (.vdev v) →
    ∃ vd, s.vdevs v = some vd ∧ vd.pdev = p ∧ vd.commState = .active ∧ pd.task = vd.operation
  native : pd.foreign = false

structure VdevSound (s : Sys) (v : Nat) (vd : Vdev) : Prop where
  parent : ∃ pd, s.pdevs vd.pdev = some pd ∧ pd.category = .endpoint ∧
    (vd.commState = .active → pd.yielded ∧ pd.yieldOwner = some (.vdev v))
  quiet : vd.commState ≠ .error
  busy : vd.commState ≠ .idle → vd.op ≠ .none
  unlocks : vd.commState ≠ .idle → vd.op = .unlock →
    vd.rmiState = .started ∨ vd.rmiState = .locked ∨ vd.rmiState = .error
  inits : vd.commState ≠ .idle → vd.op = .init → vd.rmiState = .new

structure Sound (s : Sys) : Prop where
  app : ∀ {p pd}, s.pdevs p = some pd → s.AppSound p pd
  vdev : ∀ {v vd}, s.vdevs v = some vd → s.VdevSound v vd
  children : ∀ {p pd}, s.pdevs p = some pd → ∃ F : Finset Nat,
    (∀ v, v ∈ F ↔ ∃ vd, s.vdevs v = some vd ∧ vd.pdev = p) ∧ F.card = pd.numVdevs
  childless : ∀ {p pd}, s.pdevs p = some pd → pd.op = .stop ∨ pd.rmiState = .stopped →
    pd.numVdevs = 0

variable {s t : Sys} {p v : Nat} {pd pd' : Pdev} {vd : Vdev}

structure Rerun (pd pd' : Pdev) : Prop where
  category : pd'.category = pd.category
  numVdevs : pd'.numVdevs = pd.numVdevs
  native : pd'.foreign = pd.foreign
  stops : pd'.op = .stop ∨ pd'.rmiState = .stopped →
    pd.op = .stop ∨ pd.rmiState = .stopped ∨ pd.numVdevs = 0
  yields : pd'.yielded →
    pd.category = .endpoint ∧ pd'.yieldOwner = some .pdev ∧ pd'.commState = .active ∧ pd'.task = pd'.operation ∨
      pd.yielded ∧ (∃ v, pd.yieldOwner = some (.vdev v)) ∧ pd'.yieldOwner = pd.yieldOwner ∧
        pd'.task = pd.task
  keeps : pd.yielded → ∀ v, pd.yieldOwner = some (.vdev v) →
    pd'.yielded ∧ pd'.yieldOwner = some (.vdev v)

theorem AppSound.rerun (h : s.AppSound p pd) (r : Rerun pd pd') (hv : t.vdevs = s.vdevs) : t.AppSound p pd' := by
  refine ⟨?_,?_,?_,?_,?_⟩
  · intro hc
    rw [r.category] at hc
    by_contra hy
    rcases r.yields (by simpa using hy) with ⟨hc',_⟩ | ⟨hy',_⟩
    · rw [hc] at hc'
      cases hc'
    · rw [h.root hc] at hy'
      cases hy'
  · intro hy
    rcases r.yields hy with ⟨_,ho,_⟩ | ⟨_,⟨v,hv'⟩,ho,_⟩
    · exact ⟨_,ho⟩
    · exact ⟨_,ho.trans hv'⟩
  · intro hy ho
    rcases r.yields hy with ⟨_,_,h1,h2⟩ | ⟨_,⟨v,hv'⟩,ho',_⟩
    · exact ⟨h1,h2⟩
    · rw [ho',hv'] at ho
      cases ho
  · intro hy v ho
    rcases r.yields hy with ⟨_,ho',_⟩ | ⟨hy',_,ho',ht⟩
    · rw [ho'] at ho
      cases ho
    · rw [ho'] at ho
      rw [hv,ht]
      exact h.child hy' v ho
  · rw [r.native]
    exact h.native

theorem Sound.rerun (h : s.Sound) (ht : t.pdevs = Function.update s.pdevs p (some pd'))
    (hv : t.vdevs = s.vdevs) (hp : s.pdevs p = some pd) (r : Rerun pd pd') : t.Sound := by
  refine ⟨?_,?_,?_,?_⟩
  · refine @(of_update ht ((h.app hp).rerun r hv) fun x c _ hx => ?_)
    obtain ⟨h1,h2,h3,h4,h5⟩ := h.app hx
    refine ⟨h1,h2,h3,?_,h5⟩
    rw [hv]
    exact h4
  · intro v vd hvd
    rw [hv] at hvd
    obtain ⟨⟨c,hc,h1,h2⟩,h3,h4,h5,h6⟩ := h.vdev hvd
    refine ⟨?_,h3,h4,h5,h6⟩
    rw [ht]
    by_cases hx : vd.pdev = p
    · rw [hx,hp] at hc
      cases hc
      rw [hx]
      refine ⟨pd',Function.update_self ..,r.category.trans h1,fun ha => ?_⟩
      obtain ⟨h7,h8⟩ := h2 ha
      exact r.keeps h7 v h8
    · rw [Function.update_of_ne hx]
      exact ⟨c,hc,h1,h2⟩
  · simp only [hv]
    refine @(of_update ht ?_ fun x c _ hx => h.children hx)
    rw [r.numVdevs]
    exact h.children hp
  · refine @(of_update ht (fun hc => ?_) fun x c _ hx => h.childless hx)
    rw [r.numVdevs]
    rcases r.stops hc with hc | hc | hc
    · exact h.childless hp (.inl hc)
    · exact h.childless hp (.inr hc)
    · exact hc

theorem Sound.no_child (h : s.Sound) (hp : s.pdevs p = some pd) (hn : pd.numVdevs = 0)
    (hv : s.vdevs v = some vd) : vd.pdev ≠ p := by
  obtain ⟨F,hF,hc⟩ := h.children hp
  rw [hn,Finset.card_eq_zero] at hc
  intro hx
  have : v ∈ F := (hF v).mpr ⟨vd,hv,hx⟩
  rw [hc] at this
  exact Finset.notMem_empty v this

theorem Rerun.starts (hc : pd'.category = pd.category) (hn : pd'.numVdevs = pd.numVdevs) (hf : pd'.foreign = pd.foreign)
    (hs : pd'.op = .stop ∨ pd'.rmiState = .stopped → pd.op = .stop ∨ pd.rmiState = .stopped ∨ pd.numVdevs = 0)
    (hy : pd'.yielded = pd.yielded) (ho : pd'.yieldOwner = pd.yieldOwner) (ht : pd'.task = pd.task)
    (hown : pd.yielded → ∃ v, pd.yieldOwner = some (.vdev v)) : Rerun pd pd' := by
  refine ⟨hc,hn,hf,hs,fun hy' => .inr ?_,fun hy' v ho' => ?_⟩
  · rw [hy] at hy'
    exact ⟨hy',hown hy',ho,ht⟩
  · exact ⟨hy.trans hy',ho.trans ho'⟩

theorem AppSound.served (h : s.AppSound p pd) (hv : s.vdevs v = some vd) (hy : pd.yielded)
    (ho : pd.yieldOwner = some (.vdev v)) : vd.commState = .active ∧ pd.task = vd.operation := by
  obtain ⟨c,hc,_,h1,h2⟩ := h.child hy v ho
  rw [hv] at hc
  cases hc
  exact ⟨h1,h2⟩

theorem AppSound.child_of_idle (h : s.AppSound p pd) (hc : pd.commState ≠ .active)
    (hy : pd.yielded) : ∃ v, pd.yieldOwner = some (.vdev v) := by
  obtain ⟨o,ho⟩ := h.owned hy
  cases o with
  | pdev => exact absurd (h.own hy ho).1 hc
  | vdev v => exact ⟨v,ho⟩

end Sys

namespace Pdev

variable {pd pd' : Pdev} {i : Exchange} {r : Status × Pdev}

structure Ran (pd : Pdev) (i : Exchange) (r : Status × Pdev) : Prop where
  native : r.2.foreign = pd.foreign
  numVdevs : r.2.numVdevs = pd.numVdevs
  exited : r.1 = .success → r.2.yielded = false
  yields : r.2.yielded → pd.category = .endpoint ∧ i.app = .yield ∧ r.2.task = pd.operation ∧
    (r.1 = .blocked ∨ i.digest = false ∧ r.1 = .error)

theorem leaveApp_ran {w : Pdev} (hw : w.foreign = pd.foreign) (hn : w.numVdevs = pd.numVdevs)
    (hc : pd.category = .endpoint) : Ran pd i (w.leaveApp pd.operation i.app) := by
  cases he : i.app
  · exact ⟨hw,hn,fun _ => rfl,nofun⟩
  · exact ⟨hw,hn,fun _ => rfl,nofun⟩
  · exact ⟨hw,hn,nofun,fun _ => ⟨hc,he,rfl,.inl rfl⟩⟩

theorem appRun_ran (hc : pd.category = .endpoint) (h : pd.appRun pd.operation i.app = some r) : Ran pd i r := by
  unfold appRun at h
  split at h
  · cases h
  · cases h
    exact leaveApp_ran rfl rfl hc

theorem appResume_ran (hc : pd.category = .endpoint) (ht : pd.task = pd.operation)
    (h : pd.appResume pd.operation i.app = some r) : Ran pd i r := by
  unfold appResume at h
  split at h
  · cases h
    refine leaveApp_ran ?_ rfl hc
    simp [ht]
  · cases h

theorem Ran.digest {known : CacheType → Bool} {r' : Status × Pdev} (h : Ran pd i r)
    (hd : copyDigest known i r = some r') : Ran pd i r' := by
  obtain ⟨rc,w⟩ := r'
  obtain ⟨rfl,rfl | ⟨hf,rfl⟩⟩ := copyDigest_cases hd
  · exact h
  · refine ⟨h.native,h.numVdevs,nofun,fun hy => ?_⟩
    obtain ⟨h1,h2,h3,_⟩ := h.yields hy
    exact ⟨h1,h2,h3,.inr ⟨hf,rfl⟩⟩

theorem Ran.still {rc : Status} (hy : pd.yielded = false) (o : StreamOpState) :
    Ran pd i (rc,{ pd with opState := o }) :=
  ⟨rfl,rfl,fun _ => hy,fun h => by
    rw [show pd.yielded = true from h] at hy
    cases hy⟩

theorem resumeEp_ran {r' : Status × Pdev} (h : Ran pd i r) (hd : resumeEp i r = some r') : Ran pd i r' := by
  unfold resumeEp at hd
  split at hd
  · next hs =>
    have hy := h.exited hs.1
    obtain ⟨rc,w⟩ := r'
    obtain ⟨rfl,-⟩ := copyDigest_cases hd
    refine ⟨h.native,h.numVdevs,?_,fun hy' => ?_⟩
    · exact fun _ => hy
    · rw [show r.2.yielded = true from hy'] at hy
      cases hy
  · exact h.digest hd

theorem dispatchReadyEp_ran (hc : pd.category = .endpoint) (hy : pd.yielded = false)
    (h : pd.dispatchReadyEp i = some r) : Ran pd i r := by
  unfold dispatchReadyEp at h
  split at h
  · cases h
  · cases h
    exact .still hy pd.opState
  · cases h
    exact .still hy pd.opState
  · split at h
    · exact appRun_ran hc h
    · cases h
  · cases h
    exact .still hy pd.opState

theorem dispatchReadyRp_ran (hy : pd.yielded = false) (h : pd.dispatchReadyRp i = some r) : Ran pd i r := by
  unfold dispatchReadyRp at h
  repeat' split at h
  all_goals cases h
  all_goals exact .still hy _

theorem dispatch_ran (hroot : pd.category = .rootPort → pd.yielded = false)
    (hown : pd.yielded → pd.task = pd.operation) (h : pd.dispatch i = some r) : Ran pd i r := by
  unfold dispatch at h
  split at h
  · next hc =>
    have hy := hroot hc
    unfold dispatchRp at h
    split at h
    · cases h
      exact .still hy pd.opState
    split at h
    · exact dispatchReadyRp_ran hy h
    · cases h
      exact .still hy pd.opState
    · cases h
  · next hc =>
    have hrun : (pd.appRun pd.operation i.app).bind (copyDigest CacheType.ofPdev i) = some r → Ran pd i r := by
      intro h
      obtain ⟨w,hw,hd⟩ := Option.bind_eq_some_iff.mp h
      exact (appRun_ran hc hw).digest hd
    unfold dispatchEp at h
    split at h
    · next hy =>
      obtain ⟨w,hw,hd⟩ := Option.bind_eq_some_iff.mp h
      exact resumeEp_ran (appResume_ran hc (hown hy) hw) hd
    next hy =>
    have hy : pd.yielded = false := by simpa using hy
    split at h
    · exact hrun h
    split at h
    · exact hrun h
    · exact hrun h
    · exact dispatchReadyEp_ran hc hy h
    · cases h

structure Settled (pd : Pdev) (i : Exchange) (r : Status × Pdev) : Prop where
  native : r.2.foreign = pd.foreign
  numVdevs : r.2.numVdevs = pd.numVdevs
  exited : r.1 = .success → r.2.yielded = false
  yields : r.2.yielded → pd.category = .endpoint ∧ r.2.task = pd.operation ∧
    (r.1 = .blocked ∨ pd.op = .stop ∧ r.1 = .error)

theorem copyout_settled (h : Ran pd i r) (ha : Alike pd r.2) (hg : pd.op ≠ .stop → i.app = .yield → i.copied ∧ i.digest) :
    Settled pd i (copyout i r) := by
  have hstop : ∀ {hd : i.digest = false}, i.app = .yield → pd.op = .stop := by
    intro hd ha
    by_contra hs
    rw [(hg hs ha).2] at hd
    cases hd
  unfold copyout
  split
  · refine ⟨h.native,h.numVdevs,h.exited,fun hy => ?_⟩
    obtain ⟨h1,h2,h3,h4⟩ := h.yields hy
    refine ⟨h1,h3,h4.imp id fun h4 => ⟨?_,h4.2⟩⟩
    exact @hstop h4.1 h2
  next hcp =>
  split
  · next hs =>
    unfold abortAppOperation
    split
    · next hy =>
      obtain ⟨h1,_,h3,_⟩ := h.yields hy
      refine ⟨?_,h.numVdevs,nofun,fun _ => ⟨h1,h3,.inr ⟨ha.op.symm.trans hs.1,rfl⟩⟩⟩
      simp only [h3,ha.operation,bne_self_eq_false,Bool.or_false]
      exact h.native
    · next hy => exact ⟨h.native,h.numVdevs,nofun,fun hy' => absurd hy' hy⟩
  · refine ⟨h.native,h.numVdevs,nofun,fun hy => ?_⟩
    obtain ⟨h1,h2,h3,_⟩ := h.yields hy
    refine ⟨h1,h3,.inr ⟨?_,rfl⟩⟩
    by_contra hs
    exact hcp (hg hs h2).1

theorem complete_app {rc : Status} {u : Bool} (h : pd.complete rc u = some pd') :
    pd'.foreign = pd.foreign ∧ pd'.numVdevs = pd.numVdevs ∧ pd'.yielded = pd.yielded ∧
      pd'.yieldOwner = pd.yieldOwner ∧ pd'.task = pd.task ∧
      (rc = .blocked ∨ pd.op = .stop ∧ rc = .error ∧ u = false → pd'.commState = .active) := by
  unfold complete at h
  split at h
  case isFalse => cases h
  cases rc with
  | blocked =>
    cases h
    exact ⟨rfl,rfl,rfl,rfl,rfl,fun _ => rfl⟩
  | error =>
    simp only at h
    split at h
    · split at h <;> cases h
      · next hu =>
        refine ⟨rfl,rfl,rfl,rfl,rfl,?_⟩
        rintro (hb | ⟨_,_,hu'⟩)
        · cases hb
        · rw [hu] at hu'
          cases hu'
      · exact ⟨rfl,rfl,rfl,rfl,rfl,fun _ => rfl⟩
    · next hs =>
      cases h
      refine ⟨rfl,rfl,rfl,rfl,rfl,?_⟩
      rintro (hb | ⟨hs',_⟩)
      · cases hb
      · exact absurd hs' hs
  | success =>
    simp only at h
    repeat' split at h
    all_goals cases h
    all_goals exact ⟨rfl,rfl,rfl,rfl,rfl,fun hb => hb.elim nofun fun hb => nomatch hb.2.1⟩

theorem communicate_app (h : pd.communicate i = some pd') (hroot : pd.category = .rootPort → pd.yielded = false)
    (hown : pd.yielded → pd.yieldOwner = some .pdev → pd.task = pd.operation)
    (hg : pd.op ≠ .stop → i.app = .yield → i.copied ∧ i.digest) :
    pd' = pd ∨ (pd.yielded → pd.yieldOwner = some .pdev) ∧ pd'.foreign = pd.foreign ∧ pd'.numVdevs = pd.numVdevs ∧
      (pd'.yielded → pd.category = .endpoint ∧ pd'.yieldOwner = some .pdev ∧
        pd'.commState = .active ∧ pd'.task = pd'.operation) := by
  unfold communicate at h
  split at h
  · cases h
    exact .inl rfl
  split at h
  · cases h
    exact .inl rfl
  next hb =>
  simp only [not_and,not_not] at hb
  obtain ⟨r,hr,hf⟩ := Option.bind_eq_some_iff.mp h
  have hran := dispatch_ran hroot (fun hy => hown hy (hb hy)) hr
  have ha := (dispatch_alike hr).1
  have hset := copyout_settled hran ha hg
  have ha' := ha.trans (copyout_alike i r)
  generalize copyout i r = w at hf hset ha'
  unfold finish at hf
  have hfr := (complete_goes hf).1
  obtain ⟨h1,h2,h3,h4,h5,h6⟩ := complete_app hf
  refine .inr ⟨hb,h1.trans hset.native,h2.trans hset.numVdevs,fun hy => ?_⟩
  rw [h3] at hy
  obtain ⟨hc,ht,hrc⟩ := hset.yields hy
  have hu : w.2.unwound = false := by
    unfold unwound
    rw [ha'.category,hc,show w.2.yielded = true from hy]
    rfl
  refine ⟨hc,?_,h6 (hrc.imp id fun hrc => ⟨ha'.op.trans hrc.1,hrc.2,hu⟩),?_⟩
  · rw [h4]
    simp only [hu,Bool.false_eq_true,if_false]
  · rw [h5,hfr.operation]
    exact ht.trans ha'.operation.symm

end Pdev

open Function

namespace Sys

variable {s t : Sys} {p v : Nat} {pd pd' : Pdev} {vd vd' : Vdev}

structure Shares (v : Nat) (pd pd' : Pdev) (vd vd' : Vdev) : Prop where
  alike : Pdev.Alike pd pd'
  numVdevs : pd'.numVdevs = pd.numVdevs
  native : pd'.foreign = pd.foreign
  pdev : vd'.pdev = vd.pdev
  yields : pd'.yielded →
    pd'.yieldOwner = some (.vdev v) ∧ vd'.commState = .active ∧ pd'.task = vd'.operation ∨
      pd.yielded ∧ pd'.yieldOwner = pd.yieldOwner ∧ pd.yieldOwner ≠ some (.vdev v) ∧
        pd'.task = pd.task
  active : vd'.commState = .active → pd'.yielded ∧ pd'.yieldOwner = some (.vdev v)
  keeps : pd.yielded → pd.yieldOwner ≠ some (.vdev v) →
    pd'.yielded ∧ pd'.yieldOwner = pd.yieldOwner
  quiet : vd'.commState ≠ .error
  busy : vd'.commState ≠ .idle → vd'.op ≠ .none
  unlocks : vd'.commState ≠ .idle → vd'.op = .unlock →
    vd'.rmiState = .started ∨ vd'.rmiState = .locked ∨ vd'.rmiState = .error
  inits : vd'.commState ≠ .idle → vd'.op = .init → vd'.rmiState = .new

theorem Sound.shares_app (h : s.Sound) (hv : s.vdevs v = some vd) (hp : s.pdevs vd.pdev = some pd)
    (r : Shares v pd pd' vd vd') (htv : t.vdevs = update s.vdevs v (some vd')) : t.AppSound vd.pdev pd' := by
  have ha := h.app hp
  obtain ⟨⟨c,hc,hcat,_⟩,_⟩ := h.vdev hv
  rw [hp] at hc
  cases hc
  refine ⟨?_,?_,?_,?_,?_⟩
  · intro hr
    rw [r.alike.category,hcat] at hr
    cases hr
  · intro hy
    rcases r.yields hy with ⟨ho,_⟩ | ⟨hy',ho,_⟩
    · exact ⟨_,ho⟩
    · rw [ho]
      exact ha.owned hy'
  · intro hy ho
    rw [r.alike.commState,r.alike.operation]
    rcases r.yields hy with ⟨ho',_⟩ | ⟨hy',ho',_,ht⟩
    · rw [ho] at ho'
      cases ho'
    · rw [ht]
      exact ha.own hy' (ho'.symm.trans ho)
  · intro hy w ho
    rw [htv]
    rcases r.yields hy with ⟨ho',hact,ht⟩ | ⟨hy',ho',hne,ht⟩
    · rw [ho] at ho'
      cases ho'
      exact ⟨vd',update_self ..,r.pdev,hact,ht⟩
    rw [ho] at ho'
    have hw : w ≠ v := by
      rintro rfl
      exact hne ho'.symm
    rw [update_of_ne hw,ht]
    exact ha.child hy' w ho'.symm
  · rw [r.native]
    exact ha.native

theorem Sound.shares (h : s.Sound) (ht : t.pdevs = update s.pdevs vd.pdev (some pd'))
    (htv : t.vdevs = update s.vdevs v (some vd')) (hv : s.vdevs v = some vd)
    (hp : s.pdevs vd.pdev = some pd) (r : Shares v pd pd' vd vd') : t.Sound := by
  have hchild : ∀ {x}, (∀ w, (∃ c, t.vdevs w = some c ∧ c.pdev = x) ↔ ∃ c, s.vdevs w = some c ∧ c.pdev = x) := by
    intro x w
    rw [htv]
    by_cases hw : w = v
    · subst hw
      rw [update_self,hv]
      simp only [Option.some.injEq,exists_eq_left',r.pdev]
    · rw [update_of_ne hw]
  refine ⟨?_,?_,?_,?_⟩
  · refine @(of_update ht (h.shares_app hv hp r htv) fun x c hxp hx => ?_)
    obtain ⟨h1,h2,h3,h4,h5⟩ := h.app hx
    refine ⟨h1,h2,h3,fun hy w ho => ?_,h5⟩
    obtain ⟨c',hc',hcp,hact⟩ := h4 hy w ho
    have hw : w ≠ v := by
      rintro rfl
      rw [hv] at hc'
      cases hc'
      exact hxp hcp.symm
    rw [htv,update_of_ne hw]
    exact ⟨c',hc',hcp,hact⟩
  · refine @(of_update htv ?_ fun x c hne hw => ?_)
    · obtain ⟨⟨d,hd,hcat,_⟩,_⟩ := h.vdev hv
      rw [hp] at hd
      cases hd
      refine ⟨⟨pd',?_,r.alike.category.trans hcat,r.active⟩,r.quiet,r.busy,r.unlocks,r.inits⟩
      rw [r.pdev,ht,update_self]
    · obtain ⟨⟨d,hd,hcat,hact⟩,h3,h4,h5,h6⟩ := h.vdev hw
      refine ⟨?_,h3,h4,h5,h6⟩
      rw [ht]
      by_cases hx : c.pdev = vd.pdev
      · rw [hx,hp] at hd
        cases hd
        rw [hx]
        refine ⟨pd',update_self ..,r.alike.category.trans hcat,fun ha => ?_⟩
        obtain ⟨h7,h8⟩ := hact ha
        obtain ⟨h9,h10⟩ := r.keeps h7 (by
          rw [h8]
          rintro he
          cases he
          exact hne rfl)
        exact ⟨h9,h10.trans h8⟩
      · rw [update_of_ne hx]
        exact ⟨d,hd,hcat,hact⟩
  · simp only [hchild]
    refine @(of_update ht ?_ fun x c _ hx => h.children hx)
    rw [r.numVdevs]
    exact h.children hp
  · refine @(of_update ht (fun hc => ?_) fun x c _ hx => h.childless hx)
    rw [r.alike.op,r.alike.rmiState] at hc
    rw [r.numVdevs]
    exact h.childless hp hc

theorem Sound.swap {o : Option Pdev} (h : s.Sound) (ht : t.pdevs = update s.pdevs p o)
    (hv : t.vdevs = s.vdevs) (hno : ∀ w c, s.vdevs w = some c → c.pdev ≠ p)
    (ho : ∀ c, o = some c → c.yielded = false ∧ c.foreign = false ∧ c.numVdevs = 0) : t.Sound := by
  have hcases : ∀ {x c}, t.pdevs x = some c → x = p ∧ o = some c ∨ x ≠ p ∧ s.pdevs x = some c := by
    intro x c hx
    rw [ht] at hx
    by_cases hxp : x = p
    · subst hxp
      rw [update_self] at hx
      exact .inl ⟨rfl,hx⟩
    · rw [update_of_ne hxp] at hx
      exact .inr ⟨hxp,hx⟩
  refine ⟨?_,?_,?_,?_⟩
  · intro x c hx
    rcases hcases hx with ⟨_,hc⟩ | ⟨_,hx⟩
    · obtain ⟨h1,h2,_⟩ := ho c hc
      refine ⟨fun _ => h1,?_,?_,?_,h2⟩ <;> rw [h1] <;> exact nofun
    obtain ⟨h1,h2,h3,h4,h5⟩ := h.app hx
    refine ⟨h1,h2,h3,?_,h5⟩
    rw [hv]
    exact h4
  · intro w c hw
    rw [hv] at hw
    obtain ⟨h1,h2,h3,h4,h5⟩ := h.vdev hw
    refine ⟨?_,h2,h3,h4,h5⟩
    rw [ht,update_of_ne (hno w c hw)]
    exact h1
  · intro x c hx
    rw [hv]
    rcases hcases hx with ⟨rfl,hc⟩ | ⟨_,hx⟩
    · refine ⟨∅,fun w => ⟨fun hw => absurd hw (Finset.notMem_empty w),?_⟩,(ho c hc).2.2.symm⟩
      rintro ⟨d,hd,hdp⟩
      exact absurd hdp (hno w d hd)
    · exact h.children hx
  · intro x c hx hc
    rcases hcases hx with ⟨_,hc'⟩ | ⟨_,hx⟩
    · exact (ho c hc').2.2
    · exact h.childless hx hc

theorem Sound.adds (h : s.Sound) (hp : s.pdevs p = some pd) (hv : s.vdevs v = none)
    (hvd : vd.pdev = p) (hcat : pd.category = .endpoint) (hns : pd.op ≠ .stop)
    (hnt : pd.rmiState ≠ .stopped) (hcs : vd.commState = .pending) (hop : vd.op = .init)
    (hrs : vd.rmiState = .new)
    (ht : t.pdevs = update s.pdevs p (some { pd with numVdevs := pd.numVdevs+1 }))
    (htv : t.vdevs = update s.vdevs v (some vd)) : t.Sound := by
  have hold : ∀ {w c}, s.vdevs w = some c → t.vdevs w = some c := by
    intro w c hw
    have hwv : w ≠ v := by
      rintro rfl
      rw [hv] at hw
      cases hw
    rw [htv,update_of_ne hwv]
    exact hw
  refine ⟨?_,?_,?_,?_⟩
  · have happ : ∀ {x c}, s.AppSound x c → t.AppSound x c := by
      intro x c hc
      obtain ⟨h1,h2,h3,h4,h5⟩ := hc
      refine ⟨h1,h2,h3,fun hy w ho => ?_,h5⟩
      obtain ⟨d,hd,hr⟩ := h4 hy w ho
      exact ⟨d,hold hd,hr⟩
    refine @(of_update ht ?_ fun x c _ hx => happ (h.app hx))
    obtain ⟨h1,h2,h3,h4,h5⟩ := happ (h.app hp)
    exact ⟨h1,h2,h3,h4,h5⟩
  · refine @(of_update htv ?_ fun x c _ hw => ?_)
    · refine ⟨⟨{ pd with numVdevs := pd.numVdevs+1 },?_,hcat,?_⟩,?_,?_,?_,fun _ _ => hrs⟩
      · rw [hvd,ht,update_self]
      · rw [hcs]
        nofun
      · rw [hcs]
        nofun
      all_goals
        rw [hop]
        exact fun _ => nofun
    · obtain ⟨⟨d,hd,h1,h2⟩,h3,h4,h5,h6⟩ := h.vdev hw
      refine ⟨?_,h3,h4,h5,h6⟩
      rw [ht]
      refine exists_update _ (fun hx => ?_) ⟨d,hd,h1,h2⟩
      rw [hx,hp] at hd
      cases hd
      exact ⟨h1,h2⟩
  · refine @(of_update ht ?_ fun x c hxp hx => ?_)
    · obtain ⟨F,hF,hcard⟩ := h.children hp
      have hvF : v ∉ F := fun hm => by
        obtain ⟨d,hd,_⟩ := (hF v).mp hm
        rw [hv] at hd
        cases hd
      refine ⟨insert v F,fun w => ?_,?_⟩
      · rw [Finset.mem_insert,htv]
        by_cases hw : w = v
        · subst hw
          rw [update_self]
          exact ⟨fun _ => ⟨vd,rfl,hvd⟩,fun _ => .inl rfl⟩
        · rw [update_of_ne hw,hF]
          exact ⟨fun hm => hm.resolve_left hw,.inr⟩
      · rw [Finset.card_insert_of_notMem hvF,hcard]
    · obtain ⟨F,hF,hcard⟩ := h.children hx
      refine ⟨F,fun w => ?_,hcard⟩
      rw [hF,htv]
      by_cases hw : w = v
      · subst hw
        rw [update_self,hv]
        refine ⟨fun ⟨d,hd,_⟩ => (nomatch hd),?_⟩
        rintro ⟨d,hd,hdp⟩
        cases hd
        exact absurd (hdp.symm.trans hvd) hxp
      · rw [update_of_ne hw]
  · exact @(of_update ht (fun hc => (hc.elim hns hnt).elim) fun x c _ hx => h.childless hx)

theorem Sound.drops (h : s.Sound) (hp : s.pdevs p = some pd) (hv : s.vdevs v = some vd)
    (hvd : vd.pdev = p) (hown : ¬(pd.yielded ∧ pd.yieldOwner = some (.vdev v)))
    (ht : t.pdevs = update s.pdevs p (some { pd with numVdevs := pd.numVdevs-1 }))
    (htv : t.vdevs = update s.vdevs v none) : t.Sound := by
  have hback : ∀ {w c}, t.vdevs w = some c → w ≠ v ∧ s.vdevs w = some c := by
    intro w c hw
    rw [htv] at hw
    by_cases hwv : w = v
    · rw [hwv,update_self] at hw
      cases hw
    · rw [update_of_ne hwv] at hw
      exact ⟨hwv,hw⟩
  have hfar : ∀ {w}, w ≠ v → t.vdevs w = s.vdevs w := by
    intro w hw
    rw [htv,update_of_ne hw]
  have happ : ∀ {x c}, s.pdevs x = some c → t.AppSound x c := by
    intro x c hx
    obtain ⟨h1,h2,h3,h4,h5⟩ := h.app hx
    refine ⟨h1,h2,h3,fun hy w ho => ?_,h5⟩
    obtain ⟨d,hd,hdp,hr⟩ := h4 hy w ho
    have hwv : w ≠ v := by
      rintro rfl
      rw [hv] at hd
      cases hd
      rw [hvd] at hdp
      subst hdp
      rw [hp] at hx
      cases hx
      exact hown ⟨hy,ho⟩
    rw [hfar hwv]
    exact ⟨d,hd,hdp,hr⟩
  refine ⟨?_,?_,?_,?_⟩
  · refine @(of_update ht ?_ fun x c _ hx => happ hx)
    obtain ⟨h1,h2,h3,h4,h5⟩ := happ hp
    exact ⟨h1,h2,h3,h4,h5⟩
  · intro w c hw
    obtain ⟨⟨d,hd,h1,h2⟩,h3,h4,h5,h6⟩ := h.vdev (hback hw).2
    refine ⟨?_,h3,h4,h5,h6⟩
    rw [ht]
    refine exists_update _ (fun hx => ?_) ⟨d,hd,h1,h2⟩
    rw [hx,hp] at hd
    cases hd
    exact ⟨h1,h2⟩
  · have hmem : ∀ x w, (∃ d, t.vdevs w = some d ∧ d.pdev = x) ↔ w ≠ v ∧ ∃ d, s.vdevs w = some d ∧ d.pdev = x := by
      intro x w
      refine ⟨fun ⟨d,hd,hdp⟩ => ⟨(hback hd).1,d,(hback hd).2,hdp⟩,fun ⟨hw,hd⟩ => ?_⟩
      rw [hfar hw]
      exact hd
    simp only [hmem]
    refine @(of_update ht ?_ fun x c hxp hx => ?_)
    · obtain ⟨F,hF,hcard⟩ := h.children hp
      refine ⟨F.erase v,fun w => ?_,?_⟩
      · rw [Finset.mem_erase,hF]
      · rw [Finset.card_erase_of_mem ((hF v).mpr ⟨vd,hv,hvd⟩),hcard]
    · obtain ⟨F,hF,hcard⟩ := h.children hx
      refine ⟨F,fun w => ?_,hcard⟩
      rw [hF]
      refine ⟨fun hd => ⟨?_,hd⟩,(·.2)⟩
      rintro rfl
      obtain ⟨d,hd,hdp⟩ := hd
      rw [hv] at hd
      cases hd
      exact hxp (hdp.symm.trans hvd)
  · refine @(of_update ht (fun hc => ?_) fun x c _ hx => h.childless hx)
    have := h.childless hp hc
    simp only [this]

end Sys

variable {id : Nat} {rc : Status} {u : Bool}

namespace Pdev

variable {pd pd' : Pdev} {i : Exchange} {r : Status × Pdev} {p : Nat}

theorem Shape.working (h : pd.Shape p) (l : pd.Live) (hs : pd.op ≠ .stop) :
    pd.op = .none ∧ (pd.rmiState = .new ∨ pd.rmiState = .hasKey) ∨ pd.op.isStream ∧ pd.Up := by
  cases ho : pd.op with
  | none => exact .inl ⟨rfl,h.quiet ho l⟩
  | stop => exact absurd ho hs
  | streamComplete => exact absurd (h.awaits ho) l.not_idle
  | streamAborted => exact absurd ho h.never.2
  | keyPurge => exact absurd ho h.never.1
  | connect | disconnect | keyRefresh =>
    have hst : pd.op.isStream := by
      rw [ho]
      rfl
    exact .inr ⟨rfl,(h.engaged (.inl hst)).1⟩

theorem appRun_isSome (id : Nat) (e : AppExit) (h : pd.yielded = false) : ∃ r, pd.appRun id e = some r := by
  unfold appRun
  rw [h]
  exact ⟨_,rfl⟩

theorem appResume_isSome (id : Nat) (e : AppExit) (h : pd.yielded) : ∃ r, pd.appResume id e = some r := by
  unfold appResume
  rw [h]
  exact ⟨_,rfl⟩

theorem appRun_digest_isSome {known : CacheType → Bool} (h : pd.yielded = false) (hk : known i.digestType = true) :
    ∃ r, (pd.appRun id i.app).bind (copyDigest known i) = some r := by
  obtain ⟨r,hr⟩ := appRun_isSome id i.app h
  rw [hr]
  exact copyDigest_isSome hk r

theorem dispatchReadyEp_isSome (h : pd.Shape p) (hy : pd.yielded = false) (ho : pd.op.isStream)
    (hst : pd.opState ≠ .none) : ∃ r, pd.dispatchReadyEp i = some r := by
  have hop : pd.op = .connect ∨ pd.op = .disconnect ∨ pd.op = .keyRefresh := by
    have hk := h.never.1
    cases hp : pd.op <;> rw [hp] at ho hk <;> simp_all [PdevOp.isStream]
  unfold dispatchReadyEp
  cases hs : pd.opState with
  | none => exact absurd hs hst
  | start | epReady | rpConnected => exact ⟨_,rfl⟩
  | rpReady =>
    simp only [if_pos hop]
    exact appRun_isSome _ _ hy

theorem dispatchReadyRp_isSome (hst : pd.opState ≠ .none) (hst' : pd.opState ≠ .rpConnected) :
    ∃ r, pd.dispatchReadyRp i = some r := by
  unfold dispatchReadyRp
  cases hs : pd.opState with
  | none => exact absurd hs hst
  | rpConnected => exact absurd hs hst'
  | start | rpReady | epReady =>
    simp only
    split <;> exact ⟨_,rfl⟩

theorem complete_isSome (l : pd.Live) (hu : rc = .success → u = true) : ∃ pd', pd.complete rc u = some pd' := by
  unfold complete
  unfold Live at l
  rw [if_pos l]
  cases rc with
  | blocked => exact ⟨_,rfl⟩
  | error =>
    simp only
    repeat' split
    all_goals exact ⟨_,rfl⟩
  | success =>
    rw [hu rfl]
    simp only [if_true]
    split <;> exact ⟨_,rfl⟩

section

variable (h : pd.Shape p) (l : pd.Live) (herr : pd.rmiState = .error → pd.op = .stop)

include h l herr

theorem dispatchRp_isSome (hc : pd.category = .rootPort)
    (hst : pd.op.isStream → pd.opState ≠ .none ∧ pd.opState ≠ .rpConnected) : ∃ r, pd.dispatchRp i = some r := by
  unfold dispatchRp
  by_cases hs : pd.op = .stop
  · exact ⟨_,if_pos hs⟩
  rw [if_neg hs]
  rcases h.working l hs with ⟨_,hr | hr⟩ | ⟨ho,hr | hr⟩
  · rw [hr]
    exact ⟨_,rfl⟩
  · exact absurd hr (h.keyless hc).2
  · rw [hr]
    exact dispatchReadyRp_isSome (hst ho).1 (hst ho).2
  · exact absurd (herr hr) hs

theorem dispatchEp_isSome (hk : i.digestType.ofPdev = true) (hst : pd.op.isStream → pd.opState ≠ .none) :
    ∃ r, pd.dispatchEp i = some r := by
  unfold dispatchEp
  by_cases hy : pd.yielded
  · rw [if_pos hy]
    obtain ⟨r,hr⟩ := appResume_isSome pd.operation i.app hy
    rw [hr]
    show ∃ r', resumeEp i r = some r'
    unfold resumeEp
    split <;> exact copyDigest_isSome hk _
  have hy' : pd.yielded = false := by simpa using hy
  rw [if_neg hy]
  by_cases hs : pd.op = .stop
  · rw [if_pos hs]
    exact appRun_digest_isSome hy' hk
  rw [if_neg hs]
  rcases h.working l hs with ⟨_,hr | hr⟩ | ⟨ho,hr | hr⟩
  · rw [hr]
    exact appRun_digest_isSome hy' hk
  · rw [hr]
    exact appRun_digest_isSome hy' hk
  · rw [hr]
    exact dispatchReadyEp_isSome h hy' ho (hst ho)
  · exact absurd (herr hr) hs

variable (hst : pd.op.isStream → pd.opState ≠ .none ∧ (pd.category = .rootPort → pd.opState ≠ .rpConnected))

include hst

theorem dispatch_isSome (hk : i.digestType.ofPdev = true) : ∃ r, pd.dispatch i = some r := by
  unfold dispatch
  cases hc : pd.category with
  | rootPort => exact dispatchRp_isSome h l herr hc fun ho => ⟨(hst ho).1,(hst ho).2 hc⟩
  | endpoint => exact dispatchEp_isSome h l herr hk fun ho => (hst ho).1

theorem communicate_isSome (hk : i.digestType.ofPdev = true) (hroot : pd.category = .rootPort → pd.yielded = false)
    (hown : pd.yielded → pd.yieldOwner = some .pdev → pd.task = pd.operation)
    (hg : pd.op ≠ .stop → i.app = .yield → i.copied ∧ i.digest) : ∃ pd', pd.communicate i = some pd' := by
  unfold communicate
  split
  · exact ⟨_,rfl⟩
  split
  · exact ⟨_,rfl⟩
  next hb =>
  simp only [not_and,not_not] at hb
  obtain ⟨r,hr⟩ := dispatch_isSome h l herr hst hk
  rw [hr]
  have ha := (dispatch_alike hr).1
  have hset := copyout_settled (dispatch_ran hroot (fun hy => hown hy (hb hy)) hr) ha hg
  have ha' := ha.trans (copyout_alike i r)
  change ∃ pd', finish (copyout i r) = some pd'
  generalize copyout i r = w at hset ha'
  unfold finish
  refine complete_isSome ?_ fun hs => ?_
  · exact (Live.congr ha'.commState).mpr l
  · unfold unwound
    rw [hset.exited hs]
    exact Bool.or_true _

end

end Pdev

namespace Sys

variable {s : Sys} {v : Nat} {pd : Pdev} {vd vd' w : Vdev} {i : Exchange} {k : Nat × Nat}

structure Served (pd : Pdev) (id : Nat) (r : Status × Pdev) : Prop where
  native : r.2.foreign = pd.foreign
  numVdevs : r.2.numVdevs = pd.numVdevs
  blocked : r.1 = .blocked → r.2.yielded
  exited : r.1 = .success → r.2.yielded = false
  task : r.2.yielded → r.2.task = id

theorem leaveApp_served {c : Pdev} (id : Nat) (e : AppExit) (hf : c.foreign = pd.foreign)
    (hn : c.numVdevs = pd.numVdevs) : Served pd id (c.leaveApp id e) := by
  cases e
  · exact ⟨hf,hn,nofun,fun _ => rfl,nofun⟩
  · exact ⟨hf,hn,nofun,fun _ => rfl,nofun⟩
  · exact ⟨hf,hn,fun _ => rfl,nofun,fun _ => rfl⟩

theorem Served.digest {r : Status × Pdev} (h : Served pd id r) (hk : i.digestType.ofVdev = true) :
    ∃ r', copyDigest CacheType.ofVdev i r = some r' ∧ Served pd id r' := by
  obtain ⟨⟨rc,w⟩,hd⟩ := Pdev.copyDigest_isSome hk r
  refine ⟨_,hd,?_⟩
  obtain ⟨rfl,rfl | ⟨-,rfl⟩⟩ := Pdev.copyDigest_cases hd
  · exact h
  · exact ⟨h.native,h.numVdevs,nofun,nofun,h.task⟩

theorem run_served (hy : pd.yielded = false) (hk : i.digestType.ofVdev = true) :
    ∃ r, (pd.appRun id i.app).bind (copyDigest CacheType.ofVdev i) = some r ∧ Served pd id r := by
  unfold Pdev.appRun
  rw [hy]
  exact (leaveApp_served id i.app rfl rfl).digest hk

theorem dispatchVdev_served (i : Exchange) (hk : i.digestType.ofVdev = true) (hact : vd.commState = .active → pd.yielded ∧ pd.task = vd.operation)
    (hpen : vd.commState ≠ .active → pd.yielded = false) (hbusy : vd.op ≠ .none)
    (hun : vd.op = .unlock → vd.rmiState = .started ∨ vd.rmiState = .locked ∨ vd.rmiState = .error) :
    ∃ r, pd.dispatchVdev i vd = some r ∧ Served pd vd.operation r := by
  unfold Pdev.dispatchVdev
  by_cases ha : vd.commState = .active
  · obtain ⟨hy,ht⟩ := hact ha
    rw [if_pos ha]
    unfold Pdev.appResume
    rw [if_pos hy]
    have hf : { pd with foreign := pd.foreign || pd.task != vd.operation }.foreign = pd.foreign := by
      simp [ht]
    exact (leaveApp_served vd.operation i.app hf rfl).digest hk
  rw [if_neg ha]
  have hy := hpen ha
  cases ho : vd.op with
  | none => exact absurd ho hbusy
  | init =>
    refine ⟨_,rfl,rfl,rfl,nofun,fun _ => hy,fun h => ?_⟩
    rw [hy] at h
    cases h
  | unlock =>
    simp only [if_pos (hun ho)]
    exact run_served hy hk
  | getMeas | lock | getReport | start => exact run_served hy hk

theorem copyoutVdev_served {r : Status × Pdev} (h : Served pd vd.operation r) :
    Served pd vd.operation (Pdev.copyoutVdev i vd r) := by
  unfold Pdev.copyoutVdev
  split
  · exact h
  split
  · unfold Pdev.abortAppOperation
    split
    · next hy =>
      refine ⟨?_,h.numVdevs,nofun,nofun,fun _ => h.task hy⟩
      simp only [h.task hy,bne_self_eq_false,Bool.or_false]
      exact h.native
    · exact ⟨h.native,h.numVdevs,nofun,nofun,h.task⟩
  · exact ⟨h.native,h.numVdevs,nofun,nofun,h.task⟩

theorem settle_cases (h : vd.setCommState rc u = some w) (k : w.settle = some vd') :
    vd'.pdev = vd.pdev ∧ vd'.operation = vd.operation ∧
      (vd'.commState = .active ∧ u = false ∧ vd'.op = vd.op ∧ vd'.rmiState = vd.rmiState ∨
        vd'.commState = .idle ∧ u = true) := by
  have hidle : w.commState = .idle → w.pdev = vd.pdev → w.operation = vd.operation → u = true →
      vd'.pdev = vd.pdev ∧ vd'.operation = vd.operation ∧ vd'.commState = .idle ∧ u = true := fun hc h1 h2 h3 => by
    unfold Vdev.settle at k
    rw [hc] at k
    simp only at k
    split at k
    · split at k <;> cases k
      exact ⟨h1,h2,rfl,h3⟩
    · split at k <;> cases k
      exact ⟨h1,h2,rfl,h3⟩
    all_goals cases k
    all_goals exact ⟨h1,h2,rfl,h3⟩
  unfold Vdev.setCommState at h
  cases rc with
  | blocked =>
    cases u
    · cases h
      cases k
      exact ⟨rfl,rfl,.inl ⟨rfl,rfl,rfl,rfl⟩⟩
    · cases h
  | error =>
    cases u
    · cases h
      cases k
      exact ⟨rfl,rfl,.inl ⟨rfl,rfl,rfl,rfl⟩⟩
    · cases h
      cases k
      exact ⟨rfl,rfl,.inr ⟨rfl,rfl⟩⟩
  | success =>
    cases u
    · cases h
    · cases h
      obtain ⟨h1,h2,h3⟩ := hidle rfl rfl rfl rfl
      exact ⟨h1,h2,.inr h3⟩

theorem settle_isSome (hb : rc = .blocked → u = false) (hx : rc = .success → u = true) (hop : vd.op ≠ .none)
    (hun : vd.op = .unlock → vd.rmiState = .started ∨ vd.rmiState = .locked ∨ vd.rmiState = .error)
    (hin : vd.op = .init → vd.rmiState = .new) : ∃ w vd', vd.setCommState rc u = some w ∧ w.settle = some vd' := by
  cases rc with
  | blocked =>
    rw [hb rfl]
    exact ⟨_,_,rfl,rfl⟩
  | error =>
    cases u <;> exact ⟨_,_,rfl,rfl⟩
  | success =>
    rw [hx rfl]
    have hset : ∃ vd', { vd with commState := .idle }.settle = some vd' := by
      unfold Vdev.settle
      cases ho : vd.op with
      | none => exact absurd ho hop
      | init => exact ⟨_,if_pos (hin ho)⟩
      | unlock =>
        refine ⟨_,if_pos ?_⟩
        rcases hun ho with h | h | h
        · exact .inr (.inl h)
        · exact .inl h
        · exact .inr (.inr h)
      | getMeas | lock | getReport | start => exact ⟨_,rfl⟩
    obtain ⟨vd',hvd⟩ := hset
    exact ⟨_,vd',rfl,hvd⟩

theorem Sound.vdevCommunicate (h : s.Sound) (hv : s.vdevs v = some vd) (hp : s.pdevs vd.pdev = some pd)
    (hi : vd.commState ≠ .idle) (hk : i.digestType.ofVdev = true) :
    ∃ r, pd.vdevCommunicate v vd i = some r ∧ Shares v pd r.1 vd r.2 := by
  have happ := h.app hp
  obtain ⟨⟨c,hc,hcat,hact⟩,hq,hbusy,hun,hin⟩ := h.vdev hv
  rw [hp] at hc
  cases hc
  have hchild := happ.served hv
  have hsame : Shares v pd pd vd vd := by
    refine ⟨.refl pd,rfl,rfl,rfl,fun hy => ?_,hact,fun hy _ => ⟨hy,rfl⟩,hq,hbusy,hun,hin⟩
    by_cases ho : pd.yieldOwner = some (.vdev v)
    · obtain ⟨h1,h2⟩ := hchild hy ho
      exact .inl ⟨ho,h1,h2⟩
    · exact .inr ⟨hy,rfl,ho,rfl⟩
  unfold Pdev.vdevCommunicate
  split
  · exact ⟨_,rfl,hsame⟩
  split
  · exact ⟨_,rfl,hsame⟩
  next hb =>
  simp only [not_and,not_not] at hb
  obtain ⟨r₀,hr₀,hs₀⟩ := dispatchVdev_served i hk (fun ha => ⟨(hact ha).1,(hchild (hact ha).1 (hact ha).2).2⟩)
    (fun ha => by
      by_contra hy
      have hy : pd.yielded = true := by simpa using hy
      exact ha (hchild hy (hb hy)).1) (hbusy hi) (hun hi)
  rw [hr₀]
  have hs := copyoutVdev_served (i := i) hs₀
  have hal := (dispatchVdev_alike hr₀).trans (copyoutVdev_alike i vd r₀)
  have hunw : ∀ c : Pdev, c.category = pd.category → c.unwound = !c.yielded := fun c hc => by
    unfold Pdev.unwound
    rw [hc,hcat]
    rfl
  simp only [Option.bind_some]
  generalize Pdev.copyoutVdev i vd r₀ = r at hs hal
  have hu := hunw r.2 hal.category
  obtain ⟨w,vd',hw,hw'⟩ := settle_isSome
    (show r.1 = .blocked → r.2.unwound = false from fun hb => by rw [hu,hs.blocked hb]; rfl)
    (fun hx => by rw [hu,hs.exited hx]; rfl) (hbusy hi)
    (hun hi) (hin hi)
  rw [hw]
  simp only [Option.bind_some,hw',Option.map_some]
  refine ⟨_,rfl,?_⟩
  obtain ⟨h1,h2,hcs⟩ := settle_cases hw hw'
  have howner : r.2.yielded = true → (if r.2.unwound = true then none else some (Owner.vdev v)) = some (.vdev v) := by
    intro hy
    rw [hu,hy]
    rfl
  refine ⟨hal.trans ⟨rfl,rfl,rfl,rfl,rfl,rfl,rfl,rfl⟩,hs.numVdevs,hs.native,h1,?_,?_,?_,?_,?_,?_,?_⟩
  · intro hy
    rcases hcs with ⟨hcs,_⟩ | ⟨_,hcs⟩
    · exact .inl ⟨howner hy,hcs,(hs.task hy).trans h2.symm⟩
    · rw [hu,hy] at hcs
      cases hcs
  · intro ha
    rcases hcs with ⟨_,hcs,_⟩ | ⟨hcs,_⟩
    · have hy : r.2.yielded = true := by simpa [hu] using hcs
      exact ⟨hy,howner hy⟩
    · rw [hcs] at ha
      cases ha
  · exact fun hy ho => absurd (hb hy) ho
  · rcases hcs with ⟨hcs,_⟩ | ⟨hcs,_⟩ <;> rw [hcs] <;> exact nofun
  all_goals
    intro hne
    rcases hcs with ⟨_,_,ho,hr⟩ | ⟨hcs,_⟩
    · rw [ho]
      first
        | exact hbusy hi
        | rw [hr]
          first
            | exact hun hi
            | exact hin hi
    · exact absurd hcs hne

end Sys

end TfRmm.Comm
