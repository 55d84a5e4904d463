import TfRmm.Tracking.Return

namespace TfRmm.Tracking

open Sys

variable {size : Nat} {s t u : Sys} {k r : Nat} {c : Ctx} {v : Region} {target : TrState}

variable {p cpu : Nat} {g : GranuleState} {w : Region} {current : TrState}

theorem Inv.page_base (hi : Inv size s) (hp : p / size = r) : (s.regions r).base + p % size = p := by
  rw [hi.base,← hp,mul_comm]
  exact Nat.div_add_mod p size

theorem Inv.metadata_backing (hi : Inv size s) (hp : p / size = r)
    (hm : (s.regions r).metadata (.conv,p % size)) : ∃ i, (s.regions r).backing i = some p := by
  simp only [Region.metadata,Region.isSelfDescribing,decide_true,Bool.true_and,List.any_eq_true,
    List.mem_range,decide_eq_true_eq] at hm
  obtain ⟨i,-,hb⟩ := hm
  exact ⟨i,by rw [hb,hi.page_base hp]⟩

theorem allowed_ne_internal (h : fineSourceStateAllowed target g) : g ≠ .internal := by
  rintro rfl
  unfold fineSourceStateAllowed at h
  split at h <;> cases h

theorem Inv.uniform_apart (hi : Inv size s) (hu : (s.regions r).Uniform target g) {q i : Nat} (hq : q ≠ r)
    (hb : (s.regions q).backing i = some p) : p / size ≠ r := fun hp => by
  have hheld := hi.stored.held q i p hb
  have hmem := conventional_mem hheld.conv
  have hint := (hheld.outside (hp.trans_ne hq.symm)).2
  simp only [Sys.granule] at hint
  rw [hp] at hmem hint
  obtain ⟨-,hm⟩ | hg := hu.2.1 _ hmem
  · obtain ⟨j,hj⟩ := hi.metadata_backing hp hm
    exact hq (hi.stored.inj q i r j p hb hj).1
  · exact allowed_ne_internal hu.1 (hg.symm.trans hint)

theorem Inv.uniform_realm (hi : Inv size s) (hs : (s.regions r).state = .fine)
    (hu : (s.regions r).Uniform target .delegated) (hp : p / size = r) (hc : s.conventional size p) : s.pas p = .realm := by
  have hmem := conventional_mem hc
  rw [hp] at hmem
  obtain ⟨-,hm⟩ | hg := hu.2.1 _ hmem
  · obtain ⟨j,hj⟩ := hi.metadata_backing hp hm
    exact (hi.stored.held r j p hj).realm fun _ => .inl hs
  · rw [← hp] at hs hg
    exact hi.agree.fine p hs hc hg

theorem Region.Installs.leave (h : w.Installs target v) (hs : w.state = .fine)
    (ht : target ≠ .fine) : ∃ g, w.Uniform target g ∧ v.fine = w.fine ∧ v.Unfine ∧
      (v.state = .coarse → v.coarse.state = g) := by
  cases h with
  | same => exact absurd hs ht
  | noneFine h | coarseFine h _ _ => exact absurd rfl ht
  | noneCoarse h | coarseNone h _ => cases hs.symm.trans h
  | fineNone _ hu => exact ⟨_,hu,rfl,.inl rfl,nofun⟩
  | fineCoarse _ hu => exact ⟨_,hu,rfl,.inr rfl,fun _ => rfl⟩

theorem Region.backingPages_eq {f : Nat → Nat} (h : ∀ i, i < w.metadataPages → w.backing i = some (f i)) :
    w.backingPages = (List.range w.metadataPages).map f := by
  unfold backingPages
  rw [← List.filterMap_eq_map]
  exact List.filterMap_congr fun i hi => h i (List.mem_range.1 hi)

theorem Inv.backingPages (hi : Inv size s) (hs : (s.regions r).state = .fine) :
    (s.regions r).backingPages.length = (s.regions r).metadataPages ∧
      (∀ i, (s.regions r).backing i = (s.regions r).backingPages[i]?) ∧
      (s.regions r).backingPages.Nodup := by
  have hf : ∀ i, ∃ p, i < (s.regions r).metadataPages → (s.regions r).backing i = some p := fun i => by
    by_cases hlt : i < (s.regions r).metadataPages
    · obtain ⟨p,hp⟩ := hi.full r hs i hlt
      exact ⟨p,fun _ => hp⟩
    · exact ⟨0,fun h => absurd h hlt⟩
  choose f hf using hf
  rw [Region.backingPages_eq hf]
  refine ⟨by simp,fun i => ?_,?_⟩
  · by_cases hlt : i < (s.regions r).metadataPages
    · rw [hf i hlt]
      simp [hlt]
    · rw [hi.within r i (by omega)]
      simp [hlt]
  · refine List.Nodup.map_on ?_ List.nodup_range
    intro i hii j hj hij
    have hbi := hf i (List.mem_range.1 hii)
    have hbj := hf j (List.mem_range.1 hj)
    rw [← hij] at hbj
    exact (hi.stored.inj r i r j (f i) hbi hbj).2

theorem Inv.sameWorld (hi : Inv size s) (hreg : ∀ q, ∃ b, t.regions q = { s.regions q with pending := b })
    (hpas : t.pas = s.pas) (hz : t.zeroed = s.zeroed)
    (hops : ∀ k e, e.active → (t.ops k = some e ↔ s.ops k = some e)) (hm : MarkerInv t)
    (hsyncing : ∀ cpu q target, t.calls cpu = some (.sync q target) → target ≠ .fine)
    (hclaiming : ∀ cpu q target current, t.calls cpu = some (.claiming q target current) →
      current ≠ target ∧ (target = .fine ∨ current = .fine) ∧ target ≠ .reserved)
    (hclaimed : ∀ cpu q target, t.calls cpu = some (.claimed q target) → target = .fine ∧ (s.regions q).Unfine ∨
        (target = .none ∨ target = .coarse) ∧ (s.regions q).state = .fine) : Inv size t := by
  choose b hb using hreg
  obtain ⟨regions,pas,zeroed,ops,calls⟩ := t
  obtain rfl : regions = fun q => { s.regions q with pending := b q } := funext hb
  subst hpas hz
  refine ⟨hm,hi.base,⟨hi.agree.fine,hi.agree.coarse⟩,⟨fun q i p hb => ?_,hi.stored.inj⟩,
    fun k e hk ha => (hi.op k e ((hops k e ha).1 hk) ha).frame ⟨rfl,rfl,rfl,rfl,fun _ _ _ => ⟨rfl,fun _ => rfl⟩,id⟩,
    hi.within,hi.full,fun q hf ho => hi.unowned q hf ?_,hsyncing,hclaiming,hclaimed⟩
  · have hheld := hi.stored.held q i p hb
    refine ⟨fun hl => hheld.realm fun hp => ?_,hheld.conv,hheld.outside,fun hp hf hnc => ?_⟩
    · obtain hf | ⟨k,e,hk,ha,hr⟩ := hl hp
      · exact .inl hf
      · exact .inr ⟨k,e,(hops k e ha).1 hk,ha,hr⟩
    · refine hheld.inside hp hf fun ⟨k,e,hk,ha,hr,hrun⟩ => ?_
      exact hnc ⟨k,e,(hops k e ha).2 hk,ha,hr,hrun⟩
  · rintro k ⟨e,hk,ha,rfl⟩
    exact ho k ⟨e,(hops k e ha).2 hk,ha,rfl⟩

theorem Region.transitionClaim_source {v : Region}
    (h : w.transitionClaim current target = (.success,v)) : current ≠ .reserved := by
  unfold Region.transitionClaim at h
  split at h
  · cases h
  split at h
  · cases h
  split at h
  · cases h
  split at h
  · cases h
  next hok => exact fun hr => hok (.inl hr)

theorem Inv.callStep (hi : Inv size s) {x : Option Call} (hm : MarkerInv (u.setCall cpu x))
    (hsync : ∀ q tg, x = some (.sync q tg) → tg ≠ .fine := by simp)
    (hclaiming : ∀ q tg cur, x = some (.claiming q tg cur) →
      cur ≠ tg ∧ (tg = .fine ∨ cur = .fine) ∧ tg ≠ .reserved := by simp)
    (hclaimed : ∀ q tg, x ≠ some (.claimed q tg) := by simp)
    (hreg : ∀ q, ∃ b, u.regions q = { s.regions q with pending := b } := by exact fun _ => ⟨_,rfl⟩)
    (hpas : u.pas = s.pas := by rfl) (hz : u.zeroed = s.zeroed := by rfl) (hops : u.ops = s.ops := by rfl)
    (hcalls : u.calls = s.calls := by rfl) : Inv size (u.setCall cpu x) := by
  have hother : ∀ {cpu' y}, (u.setCall cpu x).calls cpu' = some y → x = some y ∨ s.calls cpu' = some y := by
    intro cpu' y hy
    by_cases hcpu : cpu' = cpu
    · simp only [setCall,hcpu,Function.update_self] at hy
      exact .inl hy
    · simp only [setCall,Function.update_of_ne hcpu,hcalls] at hy
      exact .inr hy
  refine hi.sameWorld hreg hpas hz (fun k e _ => ?_) hm (fun cpu' q tg hy => ?_) (fun cpu' q tg cur hy => ?_)
    fun cpu' q tg hy => ?_
  · show u.ops k = some e ↔ _
    rw [hops]
  · exact (hother hy).elim (hsync q tg) (hi.syncing cpu' q tg)
  · exact (hother hy).elim (hclaiming q tg cur) (hi.claiming cpu' q tg cur)
  · exact (hother hy).elim (fun h => absurd h (hclaimed q tg)) (hi.claimed cpu' q tg)

theorem Inv.claimStep (hi : Inv size s) (hc : s.calls cpu = some (.claiming r target current))
    (hx : claimStep s cpu r target current = t) (hm : MarkerInv t) : Inv size t := by
  obtain ⟨hne,hor,hres⟩ := hi.claiming cpu r target current hc
  unfold Tracking.claimStep at hx
  split at hx
  next w hw =>
    subst hx
    have hsource := Region.transitionClaim_source hw
    obtain ⟨-,-,hcur,rfl⟩ := (Region.transitionClaim_cases hw).resolve_right fun h => h.1 rfl
    have hother : ∀ {cpu' y}, cpu' ≠ cpu → ((s.setRegion r { s.regions r with pending := true }).setCall
        cpu (some (.claimed r target))).calls cpu' = some y → s.calls cpu' = some y := by
      intro cpu' y hcpu hy
      simpa [setCall,setRegion,hcpu] using hy
    refine hi.sameWorld (fun q => ?_) rfl rfl (fun _ _ _ => Iff.rfl) hm (fun cpu' q tg hy => ?_)
      (fun cpu' q tg cur hy => ?_) fun cpu' q tg hy => ?_
    · by_cases hq : q = r
      · subst hq
        exact ⟨true,by simp [setCall,setRegion]⟩
      · exact ⟨(s.regions q).pending,by simp [setCall,setRegion,hq]⟩
    · by_cases hcpu : cpu' = cpu
      · simp [setCall,hcpu] at hy
      · exact hi.syncing cpu' q tg (hother hcpu hy)
    · by_cases hcpu : cpu' = cpu
      · simp [setCall,hcpu] at hy
      · exact hi.claiming cpu' q tg cur (hother hcpu hy)
    · by_cases hcpu : cpu' = cpu
      swap
      · exact hi.claimed cpu' q tg (hother hcpu hy)
      simp only [setCall,hcpu,Function.update_self,Option.some.injEq,Call.claimed.injEq] at hy
      obtain ⟨rfl,rfl⟩ := hy
      cases target with
      | reserved => exact absurd rfl hres
      | fine =>
        refine .inl ⟨rfl,?_⟩
        rw [Region.Unfine,hcur]
        cases current with
        | reserved => exact absurd rfl hsource
        | none => exact .inl rfl
        | coarse => exact .inr rfl
        | fine => exact absurd rfl hne
      | none => exact .inr ⟨.inl rfl,hcur.trans (hor.resolve_left (by simp))⟩
      | coarse => exact .inr ⟨.inr rfl,hcur.trans (hor.resolve_left (by simp))⟩
  next w hns hw =>
    subst hx
    obtain ⟨-,rfl⟩ := (Region.transitionClaim_cases hw).resolve_left fun h => hns h.1
    rw [setRegion_self] at hm ⊢
    exact hi.callStep hm

theorem Inv.beginSet (hi : Inv size s) (hx : beginSet s cpu r target = some t) (hm : MarkerInv t) : Inv size t := by
  unfold Tracking.beginSet at hx
  split at hx
  · cases hx
  rename_i hok
  obtain ⟨-,hres⟩ := not_or.1 hok
  split at hx
  · cases hx
    exact hi
  rename_i hpend
  split at hx
  next hsync =>
    cases hx
    refine hi.callStep hm ?_
    rintro q tg ⟨⟩
    exact hsync.1
  next hsync =>
    cases hx
    refine hi.callStep hm (by simp) ?_
    rintro q tg cur ⟨⟩
    refine ⟨(not_or.1 hpend).2,?_,hres⟩
    by_contra hno
    exact hsync (not_or.1 hno)

theorem Inv.reserveStep {slot : Option Nat} (hi : Inv size s) (hc : s.calls cpu = some (.claimed r target))
    (hx : reserveStep s cpu r target slot = some t) (hm : MarkerInv t) : Inv size t := by
  have hcond := hi.claimed cpu r target hc
  have hnoop : ∀ k e, s.ops k = some e → e.active → e.region ≠ r := fun k e hk ha hr =>
    hi.unclaimed hk ha hc hr.symm
  simp only [Tracking.reserveStep] at hx
  split at hx
  · cases hx
  rename_i hok
  obtain ⟨hpages,hback⟩ := not_or.1 hok
  cases slot with
  | none =>
    cases hx
    exact hi.callStep hm
  | some h =>
    simp only at hx
    split at hx
    · cases hx
    rename_i hfree
    have hfree : s.ops h = none := by simpa using hfree
    cases hx
    generalize hnew : (if target = .fine then donateCtx r (s.regions r).metadataPages
      else reclaimCtx r target (s.regions r).metadataPages) = c at hm ⊢
    have hregion : c.region = r := by
      rw [← hnew]
      split <;> rfl
    have hother : ∀ {cpu' y}, ((s.setCall cpu none).setOp h (some c)).calls cpu' = some y →
        cpu' ≠ cpu ∧ s.calls cpu' = some y := by
      intro cpu' y hy
      by_cases hcpu : cpu' = cpu
      · simp [setCall,setOp,hcpu] at hy
      · exact ⟨hcpu,by simpa [setCall,setOp,hcpu] using hy⟩
    refine hi.localStep (r := r) ?_ ?_ hm (fun k e he _ => ?_)
      (fun cpu' q tg hy => hi.syncing cpu' q tg (hother hy).2)
      (fun cpu' q tg cur hy => hi.claiming cpu' q tg cur (hother hy).2)
      fun cpu' q tg hy => .inl ⟨?_,(hother hy).2⟩
    · exact ⟨fun _ _ => ⟨rfl,rfl,rfl⟩,fun _ => ⟨rfl,rfl,rfl⟩,fun _ _ => rfl,fun _ _ _ => rfl,
        fun _ _ _ _ _ hg => hg,fun q i p hq hb hp => hi.stored.outside_fine hq hb hp⟩
    · have hempty : target = .fine → ∀ i, (s.regions r).backing i = none := fun htarget => by
        have hu : (s.regions r).Unfine := by
          obtain ⟨-,hu⟩ | ⟨h | h,-⟩ := hcond
          · exact hu
          · cases htarget.symm.trans h
          · cases htarget.symm.trans h
        obtain h | h := hi.unowned r hu.not_fine (by rintro k ⟨e,hk,ha,hr⟩; exact hnoop k e hk ha hr)
        · exact h
        obtain ⟨p,hp⟩ := h 0 (pos_of_ne_zero hpages)
        have hb : (s.regions r).backing 0 = none := by
          by_contra hb
          exact hback ⟨fun h => absurd h hb,fun h => absurd htarget h⟩
        cases hb.symm.trans hp
      refine ⟨fun p hp hf hcv hg => ?_,fun p hp hf hcv hg => ?_,fun _ _ hg => .inl hg,
        fun i p hb => ?_,fun k' e hk ha hr => ?_,hi.within r,hi.full r,fun hf ho => ?_⟩
      · subst hp
        exact hi.agree.fine p hf hcv hg
      · subst hp
        exact hi.agree.coarse p hf hcv hg
      · have hfine : (s.regions r).state = .fine := by
          obtain ⟨h,-⟩ | ⟨-,h⟩ := hcond
          · cases (hempty h i).symm.trans hb
          · exact h
        obtain ⟨hheld,hrest⟩ := hi.stored.own hb
        have hnc : ¬ s.Completing r := by
          rintro ⟨k',e,hk,ha,hr,-⟩
          exact hnoop k' e hk ha hr
        exact ⟨hheld.mono (fun _ => hheld.realm fun _ => .inl hfine) rfl (fun _ => ⟨rfl,rfl⟩) fun hp hf _ => hheld.inside hp hf hnc,hrest⟩
      · by_cases hkh : k' = h
        · subst hkh
          simp only [setOp,Function.update_self,Option.some.injEq] at hk
          subst hk
          rw [← hnew]
          obtain ⟨rfl,hu⟩ | ⟨htarget,hf⟩ := hcond
          · rw [if_pos rfl]
            refine .inl ⟨⟨rfl,hu,rfl,Nat.zero_le _,rfl,⟨rfl,rfl,rfl,rfl,rfl⟩,fun i => ?_,by rintro _ ⟨⟩⟩,
              .inl ⟨rfl,rfl,.inl rfl⟩⟩
            exact (hempty rfl i).trans (if_neg (Nat.not_lt_zero _)).symm
          · have hnf : target ≠ .fine := by
              rintro rfl
              rcases htarget with h | h <;> cases h
            rw [if_neg hnf]
            exact .inr (.inr (.inr ⟨rfl,htarget,hf,rfl⟩))
        · simp only [setOp,Function.update_of_ne hkh] at hk
          exact absurd hr (hnoop k' e hk ha)
      · refine absurd ⟨c,by simp [setOp],?_,hregion⟩ (ho h)
        rw [← hnew]
        split <;> rfl
    · by_cases hkh : k = h
      · subst hkh
        simp only [setOp,Function.update_self,hfree,Option.some.injEq]
        constructor
        · rintro rfl
          exact absurd hregion he
        · simp
      · simp [setOp,setCall,hkh]
    · rintro rfl
      obtain ⟨hcpu,hy⟩ := hother hy
      have := hi.marker.unique (.call cpu') (.call cpu) q (.inl ⟨tg,hy⟩) (.inl ⟨target,hc⟩)
      exact hcpu (Owner.call.inj this)

open TfRmm.Lib

section

variable (hi : Inv size s) (hc : s.ops k = some c) (ha : c.active)

include hi hc ha

theorem Inv.startLeave (hst : Starting s c) (hv : (s.regions c.region).Installs c.target v)
    (hm : MarkerInv ((s.setRegion c.region v).setOp k (some { c with run := .idle,accepted := v.backingPages }))) :
    Inv size ((s.setRegion c.region v).setOp k (some { c with run := .idle,accepted := v.backingPages })) := by
  have hlive := live_of_op hc ha
  have htarget : c.target ≠ .fine := by
    rcases hst.target with h | h <;> rw [h] <;> nofun
  obtain ⟨hlayout,hbase,hpages,hback,hstate⟩ := hv.kept
  obtain ⟨g,hu,hfine,hunfine,hcoarse⟩ := hv.leave hst.state htarget
  obtain ⟨hlen,hget,hnodup⟩ := hi.backingPages hst.state
  have hvpages : v.backingPages = (s.regions c.region).backingPages := by
    simp only [Region.backingPages,hback,hpages]
  have hrep : Replaced size s (s.setRegion c.region v) c.region v :=
    replaced_setRegion hlayout hbase hpages
  have hself := hrep.self
  have hctx := hst.fresh
  have hreq : c.requested = (s.regions c.region).metadataPages := by rw [hctx]; rfl
  refine hi.opStep hc ha rfl rfl rfl hm (hrep.localTo rfl rfl rfl
    (fun q i p hq hb hp => absurd hp (hi.uniform_apart hu hq hb))
    fun q i p hq hb hp => absurd hp (hi.uniform_apart hu hq hb)) ?_
  refine .ofUnfine hi hc ha rfl rfl ha ?_ (fun p hp hco hcv hg => ?_) (fun p hp hg => .inl ?_)
    (fun i p hb => ?_) (fun i hle => ?_) (.inr (.inl ?_))
  · rw [hself]
    exact hunfine
  · rw [hself] at hco hg
    have hgd : g = .delegated := (hcoarse hco).symm.trans hg
    subst hgd
    exact hi.uniform_realm hst.state hu hp ((hrep.conventional p).symm.trans hcv)
  · exact (hrep.granule hp).symm.trans hg
  · rw [hself,hback] at hb
    obtain ⟨hheld,huniq,hdisj⟩ := hi.stored.own hb
    refine ⟨⟨hheld.realm fun _ => hlive,(hrep.conventional p).trans hheld.conv,fun hp => ?_⟩,fun j hj => huniq j ?_,hdisj⟩
    · rw [hrep.ne _ hp,hrep.granule hp]
      exact hheld.outside hp
    · rwa [hself,hback] at hj
  · rw [hself] at hle ⊢
    rw [hback]
    exact hi.within _ i (hpages ▸ hle)
  · have hgpi : c.gpi = none := by rw [hctx]; rfl
    have hfd : c.failedDonor = none := by rw [hctx]; rfl
    have hzero : c.reclaimPage = 0 := by rw [hctx]; rfl
    refine ⟨.inl ⟨?_,.inl rfl⟩,?_,?_,?_,?_,fun i => ?_,fun p hp => ?_,fun p hp => ?_,?_,?_⟩
    · rw [hctx]
      rfl
    · show ((s.setRegion c.region v).regions c.region).Unfine
      rw [hself]
      exact hunfine
    · show c.requested ≤ ((s.setRegion c.region v).regions c.region).metadataPages
      rw [hself,hreq,hpages]
    · rw [hvpages,hlen,hreq]
    · rw [hgpi,hfd,hzero]
      exact Nat.zero_le _
    · show ((s.setRegion c.region v).regions c.region).backing i =
        if c.reclaimPage+(if c.gpi.isSome then 1 else 0) ≤ i ∧
          i < c.requested-(if c.failedDonor.isSome then 1 else 0) then v.backingPages[i]? else none
      rw [hself,hback,hvpages,hget i,hgpi,hfd,hzero,hreq,← hlen]
      by_cases hlt : i < (s.regions c.region).backingPages.length <;> simp [hlt]
    · cases hgpi.symm.trans hp
    · cases hfd.symm.trans hp
    · rw [← hvpages] at hnodup
      exact hnodup
    · rw [hctx]
      exact ⟨rfl,List.Perm.refl _⟩

theorem Inv.startFail (hst : Starting s c) {status : Status}
    (hm : MarkerInv ((s.setRegion c.region { s.regions c.region with pending := false }).setOp k
      (some { c with run := .idle,ended := some status }))) :
    Inv size ((s.setRegion c.region { s.regions c.region with pending := false }).setOp k
      (some { c with run := .idle,ended := some status })) := by
  have hnc := hi.not_completing hc ha (by rw [hst.run]; nofun)
  refine hi.endFine hc ha (replaced_setRegion rfl rfl rfl) hst.state hst.state rfl (fun p hp hg => ?_)
    (fun p hp hg => ?_) (fun i p hb hp _ => ?_) rfl rfl hm
  · rwa [Sys.granule,hp]
  · rwa [Sys.granule,hp] at hg
  · have := (hi.stored.own hb).1.inside hp hst.state hnc
    rwa [Sys.granule,hp] at this

theorem Inv.finish (hd : Draining size s c) (hcb : c.callback = .finish) {status : Status}
    (hm : MarkerInv ((s.setPending c.region false).setOp k (some { c with ended := some status }))) :
    Inv size ((s.setPending c.region false).setOp k (some { c with ended := some status })) := by
  have hrep : Replaced size s (s.setPending c.region false)
      c.region { s.regions c.region with pending := false } := replaced_setRegion rfl rfl rfl
  have hself := hrep.self
  have hall : c.reclaimPage = c.requested := by
    rcases hd.stage with h | h
    · cases hcb.symm.trans h.1
    · exact h.2.2
  have hempty : ∀ i, ((s.setPending c.region false).regions c.region).backing i = none := fun i => by
    rw [hself]
    exact (hd.mapped i).trans (if_neg (by omega))
  have hu : ((s.setPending c.region false).regions c.region).Unfine := by
    rw [hself]
    exact hd.source
  have hnot : ∀ q i p, q ≠ c.region → (s.regions q).backing i = some p → p / size ≠ c.region := fun q i p hq hb hp =>
    hd.source.not_fine (hi.stored.outside_fine hq hb hp)
  refine hi.opStep hc ha rfl rfl rfl hm (hrep.localTo rfl rfl rfl (fun q i p hq hb hp => absurd hp (hnot q i p hq hb))
    fun q i p hq hb hp => absurd hp (hnot q i p hq hb)) ?_
  refine ⟨fun p _ hf => absurd hf hu.not_fine,fun p hp hco hcv hg => ?_,
    fun p hp hg => .inl ((hrep.granule hp).symm.trans hg),fun i p hb => ?_,
    op_unique hi hc ha rfl nofun,fun i _ => hempty i,fun hf => absurd hf hu.not_fine,fun _ _ => .inl hempty⟩
  · have hco : ((s.setPending c.region false).regions c.region).state = .coarse := hco
    have hg : ((s.setPending c.region false).regions c.region).coarse.state = .delegated := hg
    rw [hself] at hco hg
    rw [← hp] at hco hg
    exact hi.agree.coarse p hco ((hrep.conventional p).symm.trans hcv) hg
  · cases (hempty i).symm.trans hb

end

theorem Region.transition_unmarked {w : Region} (h : w.transition target false = (.success,v)) : w.pending = false := by
  unfold Region.transition at h
  split at h
  · cases h
  split at h
  · cases h
  split at h
  · cases h
  next hp => simpa using hp

theorem Region.Installs.sync {w : Region} (h : w.Installs target v) (ht : target ≠ .fine) :
    v = w ∨ v.Unfine ∧ (w.Unfine ∨ w.state = .fine) ∧ (w.Unfine → v.state = .coarse → v.coarse.state = .ns) := by
  cases h with
  | same => exact .inl rfl
  | noneFine _ | coarseFine _ _ _ => exact absurd rfl ht
  | noneCoarse h => exact .inr ⟨.inr rfl,.inl (.inl h),fun _ _ => rfl⟩
  | coarseNone h _ => exact .inr ⟨.inl rfl,.inl (.inr h),nofun⟩
  | fineNone h _ => exact .inr ⟨.inl rfl,.inr h,nofun⟩
  | fineCoarse h _ => exact .inr ⟨.inr rfl,.inr h,fun hu => absurd h hu.not_fine⟩

theorem Inv.sync {cpu : Nat} {status : Status} (hi : Inv size s) (hc : s.calls cpu = some (.sync r target))
    (hv : (s.regions r).transition target false = (status,v)) (hm : MarkerInv ((s.setRegion r v).setCall cpu none)) : Inv
    size ((s.setRegion r v).setCall cpu none) := by
  have htarget := hi.syncing cpu r target hc
  have hsame : v = s.regions r → Inv size ((s.setRegion r v).setCall cpu none) := by
    rintro rfl
    rw [setRegion_self] at hm ⊢
    exact hi.callStep hm
  obtain ⟨rfl,hins⟩ | ⟨-,hv⟩ := Region.transition_cases hv
  swap
  · exact hsame hv
  obtain hv' | ⟨hunfine,hsource,hns⟩ := hins.sync htarget
  · exact hsame hv'
  have hpend := Region.transition_unmarked hv
  have hnone : ∀ o, ¬ s.Owns o r := fun o ho => by
    rw [(hi.marker.marked r).2 ⟨o,ho⟩] at hpend
    cases hpend
  obtain ⟨hlayout,hbase,hpages,hback,-⟩ := hins.kept
  have hrep : Replaced size s (s.setRegion r v) r v := replaced_setRegion hlayout hbase hpages
  have hreg : ((s.setRegion r v).setCall cpu none).regions r = v := hrep.self
  have hnot : ∀ q i p, q ≠ r → (s.regions q).backing i = some p → p / size ≠ r := fun q i p hq hb hp => by
    obtain hu | hf := hsource
    · exact hu.not_fine (hi.stored.outside_fine hq hb hp)
    · obtain ⟨g,hu,-⟩ := hins.leave hf htarget
      exact hi.uniform_apart hu hq hb hp
  have hcalls : ∀ {cpu' y}, ((s.setRegion r v).setCall cpu none).calls cpu' = some y → s.calls cpu' = some y := by
    intro cpu' y hy
    by_cases hcpu : cpu' = cpu
    · simp [Sys.setCall,hcpu] at hy
    · simpa [Sys.setCall,Sys.setRegion,hcpu] using hy
  refine hi.localStep (hrep.localTo rfl rfl rfl (fun q i p hq hb hp => absurd hp (hnot q i p hq hb))
    fun q i p hq hb hp => absurd hp (hnot q i p hq hb)) ?_ hm (fun _ _ _ _ => Iff.rfl)
    (fun cpu' q tg hy => hi.syncing cpu' q tg (hcalls hy))
    (fun cpu' q tg cur hy => hi.claiming cpu' q tg cur (hcalls hy)) fun cpu' q tg hy => .inl ⟨?_,hcalls hy⟩
  · have hvnf : (((s.setRegion r v).setCall cpu none).regions r).state ≠ .fine := by
      rw [hreg]
      exact hunfine.not_fine
    refine ⟨fun p _ hf => absurd hf hvnf,fun p hp hco hcv hg => ?_,
      fun p hp hg => .inl ((hrep.granule hp).symm.trans hg),fun i p hb => ?_,
      fun k' e hk ha hr => absurd ⟨e,hk,ha,hr⟩ (hnone (.op k')),fun i hle => ?_,
      fun hf => absurd hf hvnf,fun _ _ => ?_⟩
    · rw [hreg] at hco hg
      obtain hu | hf := hsource
      · cases (hns hu hco).symm.trans hg
      obtain ⟨g,hu,-,-,hgc⟩ := hins.leave hf htarget
      have hgd : g = .delegated := (hgc hco).symm.trans hg
      subst hgd
      exact hi.uniform_realm hf hu hp ((hrep.conventional p).symm.trans hcv)
    · have hdead : ¬ ((s.setRegion r v).setCall cpu none).Live r := by
        rintro (hf | ⟨k',e,hk,ha,hr⟩)
        · exact hvnf hf
        · exact hnone (.op k') ⟨e,hk,ha,hr⟩
      rw [hreg,hback] at hb
      obtain ⟨hheld,huniq,hdisj⟩ := hi.stored.own hb
      refine ⟨hheld.mono (fun hl => hheld.realm fun hp => absurd (hl hp) hdead) (hrep.shape _).1
        (fun hp => ⟨?_,hrep.granule hp⟩) (fun _ hf => absurd hf hvnf),fun j hj => huniq j ?_,hdisj⟩
      · exact congrArg Region.state (hrep.ne _ hp)
      · rwa [hreg,hback] at hj
    · rw [hreg] at hle ⊢
      rw [hback]
      exact hi.within r i (hpages ▸ hle)
    · rw [hreg,hback,hpages]
      obtain hu | hf := hsource
      · exact hi.unowned r hu.not_fine fun k' => hnone (.op k')
      · exact .inr (hi.full r hf)
  · rintro rfl
    exact hnone (.call cpu') (.inl ⟨tg,hcalls hy⟩)

theorem Inv.release (hi : Inv size s) (hc : s.ops k = some c) (ha : c.active = false)
    (hm : MarkerInv (s.setOp k none)) : Inv size (s.setOp k none) := by
  refine hi.sameWorld (fun q => ⟨_,rfl⟩) rfl rfl (fun k' e he => ?_) hm hi.syncing hi.claiming hi.claimed
  by_cases hk : k' = k
  · subst hk
    simp only [Sys.setOp,Function.update_self,hc,Option.some.injEq]
    refine ⟨by simp,?_⟩
    rintro rfl
    rw [ha] at he
    cases he
  · simp [Sys.setOp,hk]

theorem Inv.rely (hi : Inv size s) (h : s.Rely size t) (hm : MarkerInv t) : Inv size t := by
  have hreg : ∀ q, ∃ pending gate coarse fine, t.regions q =
      { s.regions q with pending := pending,gate := gate,coarse := coarse,fine := fine } := fun q => by
    have h := h.same q
    generalize t.regions q = v at h ⊢
    obtain ⟨layout,base,state,pending,gate,coarse,fine,pages,backing⟩ := v
    obtain ⟨rfl,rfl,rfl,rfl,rfl⟩ := h
    exact ⟨pending,gate,coarse,fine,rfl⟩
  choose pending gate coarse fine hreg using hreg
  obtain ⟨regions,pas,zeroed,ops,calls⟩ := t
  obtain rfl : regions = _ := funext hreg
  obtain ⟨rfl,rfl⟩ := h.others
  refine ⟨hm,hi.base,h.agree hi.agree,⟨fun q i p hb => ?_,hi.stored.inj⟩,fun k e hk ha => ?_,hi.within,hi.full,
    hi.unowned,hi.syncing,hi.claiming,hi.claimed⟩
  · have hheld := hi.stored.held q i p hb
    have hkeep := h.backing p q i hb
    refine ⟨fun hl => ?_,hheld.conv,fun hpq => ?_,fun hpq hf hnc => ?_⟩
    · by_cases hpq : p / size = q
      · by_cases hp : (s.regions (p / size)).pending = true
        · exact (h.marked p hp).1.trans (hheld.realm hl)
        · obtain hf | ⟨k,e,hk,ha,hr⟩ := hl hpq
          · have hnc : ¬ s.Completing q := fun hcomp => by
              rw [hpq] at hp
              exact hp (hi.completing_pending hcomp)
            exact (hkeep (hpq ▸ hf) (hheld.inside hpq hf hnc)).2.trans (hheld.realm hl)
          · rw [hpq] at hp
            exact absurd ((hi.marker.marked q).2 ⟨.op k,e,hk,ha,hr⟩) hp
      · obtain ⟨hf,hg⟩ := hheld.outside hpq
        exact (hkeep hf hg).2.trans (hheld.realm hl)
    · obtain ⟨hf,hg⟩ := hheld.outside hpq
      exact ⟨hf,(hkeep hf hg).1⟩
    · exact (hkeep (hpq ▸ hf) (hheld.inside hpq hf hnc)).1
  · have hp : (s.regions e.region).pending = true := (hi.marker.marked _).2 ⟨.op k,e,hk,ha,rfl⟩
    refine (hi.op k e hk ha).frame ⟨rfl,rfl,rfl,rfl,fun p hpr _ => ?_,fun hself => ?_⟩
    · rw [← hpr] at hp
      exact h.marked p hp
    unfold selfDescribingState at hself ⊢
    dsimp only
    split at hself
    · simp
    · split at hself
      next hns => simp [show (coarse e.region).state = .ns from h.coarse _ hp hns]
      · cases hself
      · cases hself
    · cases hself

theorem Inv.draining (hi : Inv size s) (hc : s.ops k = some c) (ha : c.active) (hrun : c.run = .idle)
    (h : c.list ≠ [] ∨ c.callback = .reclaim ∨ c.callback = .finish) : Draining size s c := by
  rcases hi.op k c hc ha with hf | hd | hd | hd
  · rcases h with h | h | h
    · exact absurd hf.unreported.2.2.1 h
    all_goals rcases hf.stage with hs | hs | hs <;> cases hs.1.symm.trans h
  · exact hd
  · cases hrun.symm.trans hd.run
  · cases hrun.symm.trans hd.run

theorem Draining.deliver (hd : Draining size s c) (n : Nat) :
    Draining size s { c with list := c.list.drop n,delivered := c.delivered ++ c.list.take n } := by
  refine { hd with ledger := ⟨hd.ledger.1,?_⟩ }
  rw [List.append_assoc,List.take_append_drop]
  exact hd.ledger.2

section

variable (hi : Inv size s) (hc : s.ops k = some c) (ha : c.active)

include hi hc ha

theorem Inv.finished (hrun : c.run = .completing ∨ c.run = .starting) : Installed s c ∨ Starting s c := by
  rcases hi.op k c hc ha with h | h | h | h
  · rcases h.stage with ⟨-,-,h | ⟨_,h⟩⟩ | ⟨-,-,h⟩ | ⟨-,-,-,h⟩ <;> simp [h] at hrun
  · rcases h.stage with ⟨-,h | ⟨_,h⟩⟩ | ⟨-,h,-⟩ <;> simp [h] at hrun
  · exact .inl h
  · exact .inr h

theorem Inv.installed (hrun : c.run = .completing) : Installed s c :=
  (hi.finished hc ha (.inl hrun)).resolve_right fun h => absurd (hrun.symm.trans h.run) nofun

theorem Inv.starting (hrun : c.run = .starting) : Starting s c :=
  (hi.finished hc ha (.inr hrun)).resolve_left fun h => absurd (hrun.symm.trans h.run) nofun

theorem Inv.startReclaim {x : Sys × Ctx} (hrun : c.run = .starting) (hx : startReclaim s c = x)
    (hm : MarkerInv (x.1.setOp k (some x.2))) : Inv size (x.1.setOp k (some x.2)) := by
  have hst := hi.starting hc ha hrun
  unfold Tracking.startReclaim at hx
  split at hx
  next v hv =>
    subst hx
    obtain ⟨-,hins⟩ | ⟨h,-⟩ := Region.transition_cases hv
    · exact hi.startLeave hc ha hst hins hm
    · exact absurd rfl h
  next status v hne hv =>
    subst hx
    obtain ⟨h,-⟩ | ⟨-,rfl⟩ := Region.transition_cases hv
    · exact absurd h hne
    · exact hi.startFail hc ha hst hm

end

theorem Inv.exec {l : Label} (hi : Inv size s) (hel3 : El3.Meets s l) (hfresh : Fresh size s l)
    (h : exec size s l = some t) : Inv size t := by
  have hm := hi.marker.move (exec_move h)
  cases exec_executed h with
  | begin h => exact hi.beginSet h hm
  | sync hc => exact hi.sync hc rfl hm
  | claim hc => exact hi.claimStep hc rfl hm
  | reserve hc h => exact hi.reserveStep hc h hm
  | @unclaim cpu r hc =>
    refine hi.callStep hm (by simp) (by simp) (by simp) fun q => ?_
    by_cases hq : q = r
    · subst hq
      exact ⟨false,by simp [Sys.setPending,Sys.setRegion]⟩
    · exact ⟨(s.regions q).pending,by simp [Sys.setPending,Sys.setRegion,hq]⟩
  | op hc ha hx =>
    cases hx with
    | start hrun => exact hi.startReclaim hc ha hrun rfl hm
    | @donate pages hrun hcb =>
      have hf := hi.filling hc ha hrun (by rw [hcb]; exact ⟨by simp,by simp⟩)
      refine hi.ctxStep hc ha hf.source rfl ha hm (.inl ⟨{ hf.toLoaded with },.inl ?_⟩)
      rcases hf.stage with h | h | h
      · exact ⟨h.1,h.2.1,.inr ⟨pages,rfl⟩⟩
      · cases hcb.symm.trans h.1
      · cases hcb.symm.trans h.1
    | page hx => exact hi.donatePage hc ha hel3 hfresh hx hm
    | delegateContinue hrun hcb hx =>
      exact hi.delegateContinue hc ha (hi.filling hc ha hrun (by rw [hcb]; exact ⟨by simp,by simp⟩)) hx hm
    | resume hrun hcb => exact hi.resume hc ha (hi.filling hc ha hrun (by rw [hcb]; exact ⟨by simp,by simp⟩)) hcb rfl hm
    | complete hrun => exact hi.complete hc ha (hi.installed hc ha hrun) hm
    | reclaim hrun hcb =>
      have hd := hi.draining hc ha hrun (.inr (.inl hcb))
      exact hi.ctxStep hc ha hd.source rfl ha hm (.inr (.inl { hd with stage := .inl ⟨hcb,.inr ⟨_,rfl⟩⟩ }))
    | returnPage hx => exact (hi.returnPage hc ha hx hm).1
    | deliver hrun hl =>
      have hd := hi.draining hc ha hrun (.inl hl)
      exact hi.ctxStep hc ha hd.source rfl ha hm (.inr (.inl (hd.deliver _)))
    | finish hrun hcb => exact hi.finish hc ha (hi.draining hc ha hrun (.inr (.inr hcb))) hcb hm
  | release hc ha => exact hi.release hc ha hm

theorem inv_init (h : (transferSystem size).init s) : Inv size s := by
  obtain ⟨h0,hbase,hagree,hunfine⟩ := h
  have hm := markerInv_init h0
  obtain ⟨-,hops,hcalls⟩ := h0
  refine ⟨hm,hbase,hagree,⟨fun r i p hb => ?_,fun r i r' i' p hb _ => ?_⟩,fun k c hk => ?_,
    fun r i _ => (hunfine r).2 i,fun r hf => absurd hf (hunfine r).1,fun r _ _ => .inl (hunfine r).2,
    fun cpu r tg hc => ?_,fun cpu r tg cur hc => ?_,fun cpu r tg hc => ?_⟩
  · rw [(hunfine r).2 i] at hb
    cases hb
  · rw [(hunfine r).2 i] at hb
    cases hb
  · rw [hops k] at hk
    cases hk
  all_goals
    rw [hcalls cpu] at hc
    cases hc

theorem inv_step (hi : Inv size s) (hfresh : Fresh size s l) (h : (transferSystem size).step s l t) : Inv size t := by
  obtain ⟨hel3,h⟩ | ⟨-,h⟩ := h
  · exact hi.exec hel3 hfresh h
  · have hmove : MarkerMove False s t := h.others.move
    exact hi.rely h (hi.marker.move hmove)

theorem inv_reachable (h : (transferSystem size).ReachableUnder (Fresh size) s) : Inv size s :=
  h.invariant (fun _ => inv_init) fun _ _ _ => inv_step

end TfRmm.Tracking
