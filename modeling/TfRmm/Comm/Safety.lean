import TfRmm.Comm.Serving
import TfRmm.Comm.Consistency

namespace TfRmm.Comm

def Cmd.Orderly (s : Sys) : Cmd → Prop
  | .vdevCommunicate _ _ _ i => i.digestType.ofVdev = true
  | .pdevCommunicate p i => i.digestType.ofPdev = true ∧ ∀ pd ∈ s.pdevs p,
      (pd.rmiState = .error → pd.op = .stop) ∧
        (pd.op ≠ .stop → i.app = .yield → i.copied ∧ i.digest)
  | .pdevSetPubkey p _ _ | .streamConnect p _ _ => ∀ pd ∈ s.pdevs p, pd.yielded = false
  | .streamDisconnect p _ _ | .streamKeyRefresh p _ _ | .streamInfo p _ _
  | .streamComplete p _ _ => ∀ pd ∈ s.pdevs p, pd.streamAux ≠ none
  | _ => True

instance (s : Sys) (c : Cmd) : Decidable (c.Orderly s) := by
  cases c <;> unfold Cmd.Orderly <;> infer_instance

namespace Sys

variable {s t : Sys} {size p q v : Nat} {pd pd' a b : Pdev} {vd w : Vdev} {i : Exchange} {k : Nat × Nat} {op : PdevOp}
    {u : Bool} {st : Stream} {n : Nat} {x : Bool} {c : Cmd}

def Lands (o : Option Sys) : Prop := ∃ t, o = some t ∧ t.Sound

theorem Lands.stay (h : s.Sound) : Lands (some s) := ⟨s,rfl,h⟩

theorem lands_create {c : Category} (h : s.Sound) : Lands (s.pdevCreate size p c) := by
  unfold pdevCreate
  split
  case isFalse => exact .stay h
  next hc =>
  refine ⟨_,rfl,h.swap rfl rfl ?_ ?_⟩
  · intro w d hw hd
    obtain ⟨⟨e,he,_⟩,_⟩ := h.vdev hw
    rw [hd,hc.2] at he
    cases he
  · rintro d hd
    cases hd
    exact ⟨rfl,rfl,rfl⟩

theorem Sound.reruns (h : s.Sound) (hp : s.pdevs p = some pd) (ha : Pdev.Frame pd pd') (hg : Pdev.Goes pd pd')
    (happ : pd'.foreign = pd.foreign ∧ pd'.numVdevs = pd.numVdevs)
    (hy : pd'.yielded → pd.category = .endpoint ∧ pd'.yieldOwner = some .pdev ∧
        pd'.commState = .active ∧ pd'.task = pd'.operation ∨
      pd.yielded ∧ (∃ v, pd.yieldOwner = some (.vdev v)) ∧ pd'.yieldOwner = pd.yieldOwner ∧ pd'.task = pd.task)
    (hk : pd.yielded → ∀ v, pd.yieldOwner = some (.vdev v) → pd'.yielded ∧ pd'.yieldOwner = some (.vdev v))
    (ht : t.pdevs = Function.update s.pdevs p (some pd')) (hv : t.vdevs = s.vdevs) : t.Sound := by
  refine h.rerun ht hv hp ⟨ha.category,happ.2,happ.1,?_,hy,hk⟩
  have hfin : pd'.op = pd.op.finish → pd'.op ≠ .stop := fun ho => by
    rw [ho]
    unfold PdevOp.finish
    split <;> exact nofun
  intro hs
  cases hg with
  | stays r c o | waits l r c o =>
    rw [r,o] at hs
    exact hs.imp id .inl
  | stops l w r c o => exact .inl w
  | fails n r c o =>
    rcases hs with hs | hs
    · exact absurd hs (hfin o)
    · rw [r] at hs
      cases hs
  | succeeds l w r c o =>
    rcases hs with hs | hs
    · exact absurd hs (hfin o)
    rcases r with ⟨_,r⟩ | ⟨_,r⟩ | ⟨_,_,r⟩
    · rw [r] at hs
      split at hs <;> cases hs
    · rw [r] at hs
      cases hs
    · exact .inr (.inl (r.symm.trans hs))

theorem AppSound.yields (h : s.AppSound p pd) (hy : pd.yielded) :
    pd.category = .endpoint ∧ pd.yieldOwner = some .pdev ∧ pd.commState = .active ∧ pd.task = pd.operation ∨
      pd.yielded ∧ (∃ v, pd.yieldOwner = some (.vdev v)) ∧ pd.yieldOwner = pd.yieldOwner ∧ pd.task = pd.task := by
  obtain ⟨o,ho⟩ := h.owned hy
  cases o with
  | pdev =>
    obtain ⟨h1,h2⟩ := h.own hy ho
    refine .inl ⟨?_,ho,h1,h2⟩
    cases hc : pd.category with
    | endpoint => rfl
    | rootPort =>
      rw [h.root hc] at hy
      cases hy
  | vdev v => exact .inr ⟨hy,⟨v,ho⟩,rfl,rfl⟩

theorem lands_communicate_one (o : StreamOpState) (hs : s.Sound) (hp : s.pdevs p = some pd)
    (hsh : pd.Shape p) (l : pd.Live) (herr : pd.rmiState = .error → pd.op = .stop)
    (hst : pd.op.isStream → o ≠ .none ∧ (pd.category = .rootPort → o ≠ .rpConnected))
    (hk : i.digestType.ofPdev = true) (hg : pd.op ≠ .stop → i.app = .yield → i.copied ∧ i.digest) :
    ∃ pd', { pd with opState := o }.communicate i = some pd' ∧
      ∀ t : Sys, t.pdevs = Function.update s.pdevs p (some pd') → t.vdevs = s.vdevs → t.Sound := by
  have happ := hs.app hp
  have hal : Pdev.Alike pd { pd with opState := o } := ⟨rfl,rfl,rfl,rfl,rfl,rfl,rfl,rfl⟩
  have hsh' : { pd with opState := o }.Shape p := hsh.stays hal.frame rfl rfl rfl
  obtain ⟨pd',hc⟩ := Pdev.communicate_isSome hsh' l herr hst hk happ.root (fun hy ho => (happ.own hy ho).2) hg
  refine ⟨pd',hc,fun t ht hv => ?_⟩
  obtain ⟨hf,hgo,_⟩ := Pdev.communicate_goes hc
  have hf := hal.frame.trans hf
  have hgo := hgo.of_alike hal
  rcases Pdev.communicate_app hc happ.root (fun hy ho => (happ.own hy ho).2) hg with
    rfl | ⟨hown,h1,h2,h3⟩
  · exact hs.reruns hp hf hgo ⟨rfl,rfl⟩ (fun hy => happ.yields hy) (fun hy v ho => ⟨hy,ho⟩) ht hv
  refine hs.reruns hp hf hgo ⟨h1,h2⟩ (fun hy => .inl (h3 hy)) (fun hy v ho => ?_) ht hv
  have hown : pd.yieldOwner = some .pdev := hown hy
  rw [hown] at ho
  cases ho

theorem lands_communicate (hi : s.Inv size) (hr : s.Progressing) (hs : s.Sound)
    (hg : (Cmd.pdevCommunicate p i).Orderly s) : Lands (s.pdevCommunicate p i) := by
  unfold pdevCommunicate
  split
  · exact .stay hs
  next pd hp =>
  obtain ⟨hk,hg⟩ := hg
  obtain ⟨herr,hbuf⟩ := hg pd hp
  have hsh := (hi.shape hp).2
  split
  · exact .stay hs
  next hc =>
  have l : pd.Live := by
    unfold Pdev.Live
    cases hcs : pd.commState <;> simp_all
  split
  · next hsy =>
    have hen : pd.Engaged := by
      unfold Pdev.Engaged
      cases ho : pd.op <;> rw [ho] at hsy <;> first | exact .inl rfl | exact .inr rfl | cases hsy
    obtain ⟨_,haux,hty⟩ := hsh.engaged hen
    split
    · next he =>
      rw [he] at haux
      cases haux
    next e he =>
    obtain ⟨pd',hc,ht⟩ := lands_communicate_one (s.streams (e,pd.opStreamType)).opState hs hp
      hsh l herr (fun ho => by rw [hty]; exact hr.progress hp ho he) hk hbuf
    simp only [hc]
    exact ⟨_,rfl,ht _ rfl rfl⟩
  · next hsy =>
    obtain ⟨pd',hc,ht⟩ := lands_communicate_one pd.opState hs hp hsh l herr (fun ho => by
      cases hop : pd.op <;> simp_all [syncs,PdevOp.isStream]) hk hbuf
    rw [show pd.communicate i = some pd' from hc]
    exact ⟨_,rfl,ht _ rfl rfl⟩

theorem lands_setPubkey {key accepted : Bool} (hs : s.Sound) (hg : (Cmd.pdevSetPubkey p key accepted).Orderly s) :
    Lands (s.pdevSetPubkey p key accepted) := by
  unfold pdevSetPubkey
  split
  · exact .stay hs
  next pd hp =>
  have hy := hg pd hp
  split
  · exact .stay hs
  next hc =>
  simp only [not_or,not_not] at hc
  rw [hy]
  simp only [Bool.false_eq_true,if_false]
  split
  · have hb : pd.beginKey s.clock =
        some { pd with rmiState := .hasKey,commState := .pending,operation := s.clock } := by
      unfold Pdev.beginKey
      rw [if_pos hc.2]
    rw [hb]
    refine ⟨_,rfl,hs.rerun rfl rfl hp ⟨rfl,rfl,rfl,fun ho => ?_,?_,?_⟩⟩
    · rcases ho with ho | ho
      · exact .inl ho
      · cases ho
    · intro hy'
      rw [show pd.yielded = true from hy'] at hy
      cases hy
    · intro hy'
      rw [hy'] at hy
      cases hy
  · exact .stay hs

theorem start_eq {id : Nat} (hc : pd.commState = .idle) (ho : op ≠ .none) :
    pd.start op id = some { pd with op := op,commState := .pending,operation := id } := by
  unfold Pdev.start
  rw [if_pos ⟨hc,ho⟩]

theorem lands_stop (hs : s.Sound) : Lands (s.pdevStop p) := by
  unfold pdevStop
  split
  · exact .stay hs
  next pd hp =>
  split
  · exact .stay hs
  split
  · exact .stay hs
  next hc =>
  simp only [not_or,not_not] at hc
  rw [start_eq hc.1 (by decide)]
  refine ⟨_,rfl,hs.rerun rfl rfl hp (.starts rfl rfl rfl (fun _ => .inr (.inr hc.2.2)) rfl rfl rfl
    fun hy => (hs.app hp).child_of_idle ?_ hy)⟩
  rw [hc.1]
  nofun

theorem commAbort_isSome (h : pd.commState ≠ .idle) : ∃ pd', pd.commAbort = some pd' := by
  unfold Pdev.commAbort
  rw [if_neg h]
  split <;> exact ⟨_,rfl⟩

theorem commAbort_app (h : pd.commAbort = some pd') :
    pd'.category = pd.category ∧ pd'.numVdevs = pd.numVdevs ∧ pd'.foreign = pd.foreign ∧
      pd'.yielded = pd.yielded ∧ pd'.yieldOwner = pd.yieldOwner ∧ pd'.task = pd.task ∧
      pd'.op ≠ .stop ∧ pd'.rmiState = .error := by
  unfold Pdev.commAbort at h
  split at h
  · cases h
  split at h <;> cases h <;> exact ⟨rfl,rfl,rfl,rfl,rfl,rfl,nofun,rfl⟩

inductive Unwinds (o : Owner) (c : Pdev) : Bool × Pdev → Prop
  | done {d : Pdev} (hf : d.foreign = c.foreign) (hn : d.numVdevs = c.numVdevs)
      (hy : d.yielded = false) (ho : c.yielded → c.yieldOwner = some o) : Unwinds o c (true,d)
  | other (hy : c.yielded) (ho : c.yieldOwner ≠ some o) : Unwinds o c (true,c)
  | stuck {d : Pdev} (hf : d.foreign = c.foreign) (hn : d.numVdevs = c.numVdevs)
      (hy : d.yielded) (ho : c.yieldOwner = some o) (ho' : d.yieldOwner = some o)
      (ht : d.task = c.task) (hy₀ : c.yielded) : Unwinds o c (false,d)

theorem abortAppIfOwner_unwinds (o : Owner) (id : Nat) (u : Bool) (hroot : pd.category = .rootPort → pd.yielded = false)
    (hid : pd.yielded → pd.yieldOwner = some o → pd.task = id) : Unwinds o pd (pd.abortAppIfOwner o id u) := by
  unfold Pdev.abortAppIfOwner
  split
  · next hc =>
    have hy : pd.yielded = false := hc.elim hroot fun h => h
    refine .done rfl rfl hy fun h => ?_
    rw [hy] at h
    cases h
  next hc =>
  simp only [not_or,Bool.not_eq_false] at hc
  have hy := hc.2
  split
  · next ho => exact .other hy ho
  next ho =>
  simp only [not_not] at ho
  have hf : (pd.foreign || pd.task != id) = pd.foreign := by
    simp [hid hy ho]
  unfold Pdev.abortAppOperation
  simp only [hy,if_true]
  split
  · exact .done hf rfl rfl fun _ => ho
  · exact .stuck hf rfl rfl ho ho rfl hy

theorem lands_abort (hs : s.Sound) : Lands (s.pdevAbort p u) := by
  unfold pdevAbort
  split
  · exact .stay hs
  next pd hp =>
  have happ := hs.app hp
  split
  · exact .stay hs
  next hc =>
  have hun := abortAppIfOwner_unwinds .pdev pd.operation u happ.root fun hy ho => (happ.own hy ho).2
  have hal := Pdev.abortAppIfOwner_alike pd .pdev pd.operation u
  generalize pd.abortAppIfOwner .pdev pd.operation u = r at hun hal
  cases hun with
  | done hf hn hy ho =>
    rename_i pd₁
    obtain ⟨pd',hpd⟩ := commAbort_isSome (show pd₁.commState ≠ .idle by rw [hal.commState]; exact hc)
    obtain ⟨h1,h2,h3,h4,_,_,h7,h8⟩ := commAbort_app hpd
    simp only [hpd]
    refine ⟨_,rfl,hs.rerun rfl rfl hp ⟨h1.trans hal.category,h2.trans hn,h3.trans hf,?_,?_,?_⟩⟩
    · rintro (ho' | ho')
      · exact absurd ho' h7
      · rw [h8] at ho'
        cases ho'
    · rw [h4,hy]
      nofun
    · intro hy' v hv
      rw [ho hy'] at hv
      cases hv
  | other hy ho =>
    obtain ⟨pd',hpd⟩ := commAbort_isSome hc
    obtain ⟨h1,h2,h3,h4,h5,h6,h7,h8⟩ := commAbort_app hpd
    simp only [hpd]
    refine ⟨_,rfl,hs.rerun rfl rfl hp (.starts h1 h2 h3 ?_ h4 h5 h6 ?_)⟩
    · rintro (ho' | ho')
      · exact absurd ho' h7
      · rw [h8] at ho'
        cases ho'
    · intro hy'
      obtain ⟨o,ho'⟩ := happ.owned hy'
      cases o with
      | pdev => exact absurd ho' ho
      | vdev v => exact ⟨v,ho'⟩
  | stuck hf hn hy ho ho' ht hy₀ =>
    obtain ⟨h1,h2⟩ := happ.own hy₀ ho
    refine ⟨_,rfl,hs.rerun rfl rfl hp ⟨hal.category,hn,hf,?_,fun _ => .inl ?_,?_⟩⟩
    · rw [hal.op,hal.rmiState]
      exact fun h => h.imp id .inl
    · refine ⟨?_,ho',hal.commState.trans h1,?_⟩
      · cases hcat : pd.category with
        | endpoint => rfl
        | rootPort =>
          rw [happ.root hcat] at hy₀
          cases hy₀
      · rw [ht,hal.operation]
        exact h2
    · intro _ v hv
      rw [ho] at hv
      cases hv

theorem lands_destroy {r : Bool} (hi : s.Inv size) (hs : s.Sound) : Lands (s.pdevDestroy p r) := by
  unfold pdevDestroy
  split
  · exact .stay hs
  next pd hp =>
  split
  · exact .stay hs
  next hr =>
  simp only [not_not] at hr
  have hn := hs.childless hp (.inr hr)
  have hsh := (hi.shape hp).2
  have hfree : ∀ w c, s.vdevs w = some c → c.pdev ≠ p := fun _ _ hw => hs.no_child hp hn hw
  have hremove : ({ s with pdevs := Function.update s.pdevs p none } : Sys).Sound :=
    hs.swap rfl rfl hfree fun _ hc => by cases hc
  have hy : pd.yielded = false := by
    by_contra hy
    have hy : pd.yielded = true := by simpa using hy
    have happ := hs.app hp
    obtain ⟨o,ho⟩ := happ.owned hy
    cases o with
    | pdev => exact (hsh.stopped hr).2 (.inr (happ.own hy ho).1)
    | vdev v =>
      obtain ⟨c,hc,hcp,_⟩ := happ.child hy v ho
      exact hs.no_child hp hn hc hcp
  cases pd.category with
  | rootPort => exact ⟨_,rfl,hremove⟩
  | endpoint =>
    simp only
    split
    · exact .stay hs
    · rw [hy]
      exact ⟨_,rfl,hremove⟩

theorem Sound.pair (hs : s.Sound) (ht : t.pdevs = Function.update (Function.update s.pdevs p (some pd)) q (some pd'))
    (hv : t.vdevs = s.vdevs) (hp : s.pdevs p = some a) (hq : s.pdevs q = some b) (hpq : p ≠ q)
    (ra : Rerun a pd) (rb : Rerun b pd') : t.Sound := by
  have h1 : (s.setPdev p pd).Sound := hs.rerun rfl rfl hp ra
  have h2 : (s.setPdev p pd).pdevs q = some b := by
    simp only [setPdev]
    rw [Function.update_of_ne hpq.symm]
    exact hq
  exact h1.rerun ht hv h2 rb

theorem rerun_idle (hs : s.Sound) (hp : s.pdevs p = some a) (hc : a.commState = .idle) (h7 : pd.op ≠ .stop)
    (h1 : pd.category = a.category := by rfl) (h2 : pd.numVdevs = a.numVdevs := by rfl)
    (h3 : pd.foreign = a.foreign := by rfl) (h4 : pd.yielded = a.yielded := by rfl)
    (h5 : pd.yieldOwner = a.yieldOwner := by rfl) (h6 : pd.task = a.task := by rfl)
    (h8 : pd.rmiState = a.rmiState := by rfl) : Rerun a pd := by
  refine .starts h1 h2 h3 ?_ h4 h5 h6 fun hy => (hs.app hp).child_of_idle ?_ hy
  · rintro (ho | ho)
    · exact absurd ho h7
    · exact .inr (.inl (h8.symm.trans ho))
  · rw [hc]
    nofun

theorem lands_join (hs : s.Sound) (hp : s.pdevs p = some a) (hq : s.pdevs q = some b) (hpq : p ≠ q)
    (ha : a.commState = .idle) (hb : b.commState = .idle) (ho : op ≠ .none) (ho' : op ≠ .stop) : Lands
    (s.join p q a b k op st n) := by
  unfold join
  rw [start_eq ha ho,start_eq hb ho]
  refine ⟨_,rfl,hs.pair rfl rfl hp hq hpq (rerun_idle hs hp ha ?_)
    (rerun_idle hs hq hb ?_)⟩
  · exact ho'
  · exact ho'

theorem lands_connect {ty : Nat} (hi : s.Inv size) (hs : s.Sound)
    (hg : (Cmd.streamConnect p q ty).Orderly s) : Lands (s.streamConnect p q ty) := by
  unfold streamConnect
  split
  · exact .stay hs
  split
  · exact .stay hs
  next a b htwo =>
  obtain ⟨hpq,hp,hq⟩ := twoPdevs_spec htwo
  split
  · exact .stay hs
  next hc =>
  simp only [not_or,not_not] at hc
  obtain ⟨hca,_,_,hia,_,_,_,hib⟩ := hc
  have hta := (hi.shape hp).2.table hca
  split
  · next hn =>
    rw [hta] at hn
    cases hn
  split
  · exact .stay hs
  rw [hg a hp]
  exact lands_join hs hp hq hpq hia hib nofun nofun

theorem lands_disconnect (hs : s.Sound) (hg : (Cmd.streamDisconnect p q k).Orderly s) :
    Lands (s.streamDisconnect p q k) := by
  unfold streamDisconnect
  split
  · exact .stay hs
  split
  · exact .stay hs
  next a b htwo =>
  obtain ⟨hpq,hp,hq⟩ := twoPdevs_spec htwo
  simp only
  split
  · next hn => exact absurd hn (hg a hp)
  split
  · exact .stay hs
  split
  · exact .stay hs
  next hc =>
  simp only [not_or,not_not] at hc
  exact lands_join hs hp hq hpq hc.2.1 hc.2.2.2 nofun nofun

theorem lands_keyRefresh (hs : s.Sound) (hg : (Cmd.streamKeyRefresh p q k).Orderly s) :
    Lands (s.streamKeyRefresh p q k) := by
  unfold streamKeyRefresh
  split
  · exact .stay hs
  next a b htwo =>
  obtain ⟨hpq,hp,hq⟩ := twoPdevs_spec htwo
  simp only
  split
  · exact .stay hs
  split
  · next hn => exact absurd hn (hg a hp)
  split
  · exact .stay hs
  split
  · exact .stay hs
  next hc =>
  simp only [not_or,not_not] at hc
  obtain ⟨_,_,hia,_,_,hib⟩ := hc
  split
  · exact .stay hs
  exact lands_join hs hp hq hpq hia hib nofun nofun

theorem lands_info (hs : s.Sound) (hg : (Cmd.streamInfo p q k).Orderly s) : Lands (s.streamInfo p q k) := by
  unfold streamInfo
  split
  · exact .stay hs
  split
  · exact .stay hs
  next pd hpd =>
  have hp : s.pdevs p = some pd := by
    split at hpd
    · exact hpd
    · obtain ⟨ab,hab,rfl⟩ := Option.map_eq_some_iff.mp hpd
      obtain ⟨c,d⟩ := ab
      exact (twoPdevs_spec hab).2.1
  split
  · next hn => exact absurd hn (hg pd hp)
  · exact .stay hs

theorem lands_settle (hi : s.Inv size) (hs : s.Sound) (hp : s.pdevs p = some a) (hq : s.pdevs q = some b) (hpq : p ≠ q)
    (ha : a.op = .streamComplete) (hb : b.op = .streamComplete) : Lands (s.settle p q a b k st n) := by
  unfold settle Pdev.streamComplete
  rw [if_pos (.inl ha),if_pos (.inl hb)]
  exact ⟨_,rfl,hs.pair rfl rfl hp hq hpq
    (rerun_idle hs hp ((hi.shape hp).2.awaits ha) nofun)
    (rerun_idle hs hq ((hi.shape hq).2.awaits hb) nofun)⟩

theorem commit_isSome (st : Stream) (ha : a.op = .streamComplete) (hb : b.op = .streamComplete) :
    ∃ c, st.commit a b = some c := by
  unfold Stream.commit
  split
  · split <;> exact ⟨_,rfl⟩
  · split <;> exact ⟨_,rfl⟩
  · split <;> exact ⟨_,rfl⟩
  · rw [ha,hb]
    split <;> exact ⟨_,rfl⟩
  · exact ⟨_,rfl⟩
  · exact ⟨_,rfl⟩

theorem lands_complete (hi : s.Inv size) (hs : s.Sound)
    (hg : (Cmd.streamComplete p q k).Orderly s) : Lands (s.streamComplete p q k) := by
  unfold streamComplete
  split
  · exact .stay hs
  split
  · exact .stay hs
  next a b htwo =>
  obtain ⟨hpq,hp,hq⟩ := twoPdevs_spec htwo
  simp only
  split
  · next hn => exact absurd hn (hg a hp)
  next e _ =>
  split
  · exact .stay hs
  split
  · exact .stay hs
  split
  · exact .stay hs
  next hops =>
  simp only [not_or,not_and,not_not] at hops
  have ha := hi.awaited hp hops.1
  have hb := hi.awaited hq hops.2
  obtain ⟨c,hc⟩ := commit_isSome (s.streams (e,k.2)) ha hb
  rw [hc]
  cases c with
  | refused => exact .stay hs
  | kept st | released st => exact lands_settle hi hs hp hq hpq ha hb

theorem lands_vdevCreate {x y : Bool} (hi : s.Inv size) (hs : s.Sound) : Lands (s.vdevCreate v p x y) := by
  unfold vdevCreate
  split
  case h_2 => exact .stay hs
  next pd hv hp =>
  split
  · exact .stay hs
  next hc =>
  simp only [not_or,not_not] at hc
  obtain ⟨_,hcat,hr⟩ := hc
  have hsh := (hi.shape hp).2
  have hta := hsh.table hcat
  split
  · next hn =>
    rw [hta] at hn
    cases hn
  next e he =>
  rw [hta] at he
  cases he
  split
  · exact .stay hs
  next hst =>
  simp only [not_or,not_not,Bool.not_eq_false] at hst
  split
  · exact .stay hs
  refine ⟨_,rfl,hs.adds hp hv rfl hcat ?_ ?_ rfl rfl rfl rfl rfl⟩
  · intro ho
    have h1 := (hsh.stopping ho).2.1
    have h2 := hi.count_pos hp hst.1 (.inl rfl)
    omega
  · rw [hr]
    decide

theorem lands_vdevBegin {op : VdevOp} (hs : s.Sound) : Lands (s.vdevBegin v p op x) := by
  unfold vdevBegin
  cases hv : s.vdevs v with
  | none => exact .stay hs
  | some vd =>
    simp only
    split
    · exact .stay hs
    next hc =>
    simp only [not_or,not_not,Bool.not_eq_false] at hc
    obtain ⟨_,_,hidle,hall⟩ := hc
    obtain ⟨⟨pd,hp,hcat,hact⟩,_⟩ := hs.vdev hv
    have happ := hs.app hp
    refine ⟨_,rfl,hs.shares (Function.update_eq_self_iff.mpr hp.symm).symm rfl hv hp ?_⟩
    · refine ⟨.refl pd,rfl,rfl,rfl,fun hy => .inr ⟨hy,rfl,fun ho => ?_,rfl⟩,nofun,
        fun hy _ => ⟨hy,rfl⟩,nofun,fun _ ho => ?_,fun _ ho => ?_,fun _ ho => ?_⟩
      · obtain ⟨hca,_⟩ := happ.served hv hy ho
        rw [hidle] at hca
        cases hca
      · rw [show op = .none from ho] at hall
        cases hall
      · rw [show op = .unlock from ho] at hall
        simp only [vdevAllows,Bool.or_eq_true,beq_iff_eq] at hall
        rcases hall with (h | h) | h
        · exact .inr (.inl h)
        · exact .inl h
        · exact .inr (.inr h)
      · rw [show op = .init from ho] at hall
        cases hall

theorem lands_vdevCommunicate (hs : s.Sound) (hk : i.digestType.ofVdev = true) : Lands (s.vdevCommunicate v p x i) := by
  unfold vdevCommunicate
  split
  case h_2 => exact .stay hs
  next vd pd hv hp =>
  split
  · exact .stay hs
  next hc =>
  simp only [not_or,not_not] at hc
  obtain ⟨rfl,hne,_⟩ := hc
  obtain ⟨r,hr,hsh⟩ := hs.vdevCommunicate hv hp hne hk
  rw [hr]
  exact ⟨_,rfl,hs.shares rfl rfl hv hp hsh⟩

theorem lands_vdevAbort (hs : s.Sound) : Lands (s.vdevAbort v p u) := by
  unfold vdevAbort
  split
  case h_2 => exact .stay hs
  next vd pd hv hp =>
  split
  · exact .stay hs
  next hc =>
  simp only [not_or,not_not] at hc
  obtain ⟨_,rfl⟩ := hc
  have happ := hs.app hp
  obtain ⟨_,hq,hbusy,hun,hin⟩ := hs.vdev hv
  have hchild := happ.served hv
  have hunw := abortAppIfOwner_unwinds (.vdev v) vd.operation u happ.root fun hy ho => (hchild hy ho).2
  have hal := Pdev.abortAppIfOwner_alike pd (.vdev v) vd.operation u
  generalize pd.abortAppIfOwner (.vdev v) vd.operation u = r at hunw hal
  cases hunw with
  | done hf hn hy ho =>
    refine ⟨_,rfl,hs.shares rfl rfl hv hp ⟨hal,hn,hf,rfl,?_,nofun,?_,nofun,?_,?_,?_⟩⟩
    · rw [hy]
      nofun
    · exact fun hy' ho' => absurd (ho hy') ho'
    all_goals exact fun h => absurd rfl h
  | other hy ho =>
    refine ⟨_,rfl,hs.shares rfl rfl hv hp ⟨hal,rfl,rfl,rfl,?_,nofun,?_,nofun,?_,?_,?_⟩⟩
    · exact fun hy => .inr ⟨hy,rfl,ho,rfl⟩
    · exact fun hy _ => ⟨hy,rfl⟩
    all_goals exact fun h => absurd rfl h
  | stuck hf hn hy ho ho' ht hy₀ =>
    obtain ⟨h1,h2⟩ := hchild hy₀ ho
    refine ⟨_,rfl,hs.shares rfl (Function.update_eq_self_iff.mpr hv.symm).symm hv hp
      ⟨hal,hn,hf,rfl,fun _ => .inl ⟨ho',h1,ht.trans h2⟩,fun _ => ⟨hy,ho'⟩,?_,hq,hbusy,hun,hin⟩⟩
    exact fun _ hne => absurd ho hne

theorem lands_vdevDestroy (hs : s.Sound) : Lands (s.vdevDestroy v p x) := by
  unfold vdevDestroy
  split
  case h_2 => exact .stay hs
  next vd pd hv hp =>
  split
  · exact .stay hs
  next hc =>
  simp only [not_or,not_not] at hc
  split
  · exact .stay hs
  next hown =>
  split
  · exact .stay hs
  exact ⟨_,rfl,hs.drops hp hv hc.1 hown rfl rfl⟩

theorem exec_lands (hi : s.Inv size) (hr : s.Progressing) (hs : s.Sound) (hg : c.Orderly s) : Lands (s.exec size c) := by
  cases c with
  | pdevCreate p c => exact lands_create hs
  | pdevCommunicate p i => exact lands_communicate hi hr hs hg
  | pdevSetPubkey p a b => exact lands_setPubkey hs hg
  | pdevStop p => exact lands_stop hs
  | pdevAbort p u => exact lands_abort hs
  | pdevDestroy p r => exact lands_destroy hi hs
  | streamConnect p q ty => exact lands_connect hi hs hg
  | streamDisconnect p q k => exact lands_disconnect hs hg
  | streamKeyRefresh p q k => exact lands_keyRefresh hs hg
  | streamInfo p q k => exact lands_info hs hg
  | streamComplete p q k => exact lands_complete hi hs hg
  | vdevCreate v p a b => exact lands_vdevCreate hi hs
  | vdevBegin v p op a => exact lands_vdevBegin hs
  | vdevCommunicate v p a i => exact lands_vdevCommunicate hs hg
  | vdevAbort v p u => exact lands_vdevAbort hs
  | vdevDestroy v p a => exact lands_vdevDestroy hs

theorem sound_of_reachable (h : (system size).ReachableUnder (fun s c => c.Orderly s) s) :
    s.Inv size ∧ s.Progressing ∧ s.Sound := by
  apply h.invariant
  · rintro _ rfl
    exact ⟨inv_empty,⟨nofun,nofun⟩,nofun,nofun,nofun,nofun⟩
  rintro s c t ⟨hi,hr,hs⟩ hg he
  obtain ⟨h1,_,h3⟩ := exec_preserves hi he
  obtain ⟨t',ht,hs'⟩ := exec_lands hi hr hs hg
  rw [he] at ht
  cases ht
  exact ⟨h1,h3 hr,hs'⟩

structure Undefied (size : Nat) (guard : Sys → Cmd → Prop) (s : Sys) : Prop where
  runs : ∀ c : Cmd, guard s c → ∃ t, s.exec size c = some t
  native : ∀ p pd, s.pdevs p = some pd → pd.foreign = false
  owner : ∀ p pd, s.pdevs p = some pd → pd.yielded →
    pd.yieldOwner = some .pdev ∧ pd.commState = .active ∧ pd.task = pd.operation ∨
      ∃ v vd, pd.yieldOwner = some (.vdev v) ∧ s.vdevs v = some vd ∧ vd.pdev = p ∧
        vd.commState = .active ∧ pd.task = vd.operation

theorem communication_undefied (h : (system size).ReachableUnder (fun s c => c.Orderly s) s) :
    s.Undefied size fun s c => c.Orderly s := by
  obtain ⟨hi,hr,hs⟩ := sound_of_reachable h
  refine ⟨fun c hc => ?_,fun p pd hp => (hs.app hp).native,fun p pd hp hy => ?_⟩
  · obtain ⟨t,ht,_⟩ := exec_lands hi hr hs hc
    exact ⟨t,ht⟩
  have happ := hs.app hp
  obtain ⟨o,ho⟩ := happ.owned hy
  cases o with
  | pdev => exact .inl ⟨ho,happ.own hy ho⟩
  | vdev v =>
    obtain ⟨vd,hv⟩ := happ.child hy v ho
    exact .inr ⟨v,vd,ho,hv⟩

def orderlyRun (s : Sys) (size : Nat) : List Cmd → Option Sys
  | [] => some s
  | c :: cs => if c.Orderly s then (s.exec size c).bind fun t => t.orderlyRun size cs else none

theorem reachable_of_orderlyRun {cs : List Cmd} (h : (system size).ReachableUnder (fun s c => c.Orderly s) s)
    (hr : s.orderlyRun size cs = some t) : (system size).ReachableUnder (fun s c => c.Orderly s) t := by
  induction cs generalizing s with
  | nil =>
    cases hr
    exact h
  | cons c cs ih =>
    unfold orderlyRun at hr
    split at hr
    · next hg =>
      obtain ⟨u,hu,hr⟩ := Option.bind_eq_some_iff.mp hr
      exact ih (h.next hg hu) hr
    · cases hr

def connected : List Cmd :=
  endpointUp 0 ++ rootPortUp 1 ++ connecting 0 1 ++
    [.pdevCommunicate 0 (sampleExchange .success),.streamComplete 0 1 (0,ncoh)]

def measuring : List Cmd :=
  [.vdevBegin 0 0 .getMeas true,.vdevCommunicate 0 0 true (sampleExchange .yield)]

def withVdev : List Cmd :=
  [.vdevCreate 0 0 true true,.vdevCommunicate 0 0 true (sampleExchange .success)]

theorem communication_undefied_measuring : ∃ s, (system 2).ReachableUnder (fun s c => c.Orderly s) s ∧
      (s.pdevs 0).map (fun pd => (pd.yielded,pd.yieldOwner)) = some (true,some (.vdev 0)) ∧
      s.Undefied 2 fun s c => c.Orderly s := by
  have hrun : ((Sys.empty.orderlyRun 2 (connected ++ withVdev ++ measuring)).map fun s =>
      (s.pdevs 0).map (fun pd => (pd.yielded,pd.yieldOwner))) = some (some (true,some (.vdev 0))) := by
    decide +kernel
  obtain ⟨s,hs,ht⟩ := Option.map_eq_some_iff.mp hrun
  have hr := reachable_of_orderlyRun (.initial rfl) hs
  exact ⟨s,hr,ht,communication_undefied hr⟩

def refused : Exchange := { sampleExchange .yield with copied := false }

def disconnecting : List Cmd :=
  [.streamDisconnect 0 1 (0,ncoh),.pdevCommunicate 1 (sampleExchange .success),
    .pdevCommunicate 0 (sampleExchange .yield),.pdevCommunicate 0 (sampleExchange .success),
    .pdevCommunicate 1 (sampleExchange .success),.pdevCommunicate 0 (sampleExchange .success),
    .streamComplete 0 1 (0,ncoh)]

def failing : List Cmd :=
  [.streamKeyRefresh 0 1 (0,ncoh),.pdevAbort 0 true,.pdevAbort 1 true,.streamComplete 0 1 (0,ncoh),
    .streamDisconnect 0 1 (0,ncoh)]

def stopping : List Cmd :=
  [.pdevCreate 0 .endpoint,.pdevCommunicate 0 (sampleExchange .success),.pdevStop 0,
    .pdevCommunicate 0 (sampleExchange .yield)]

def stranded : List Cmd :=
  [.pdevCreate 0 .endpoint,.pdevCommunicate 0 refused,.pdevStop 0,.pdevCommunicate 0 (sampleExchange .success)]

theorem asserts_of_run (cs : List Cmd) (h : ((Sys.empty.run size cs).map fun s => (s.exec size c).isNone) = some true) :
    ∃ s, (system size).Reachable s ∧ s.exec size c = none := by
  obtain ⟨s,hs,hc⟩ := Option.map_eq_some_iff.mp h
  exact ⟨s,reachable_of_run (fun _ _ _ => trivial) (.initial rfl) hs,by simpa using hc⟩

theorem communication_defied : (∃ s, (system 2).Reachable s ∧ ¬s.Undefied 2 fun _ _ => True) ∧
    (∃ s, (system 2).Reachable s ∧ s.exec 2 (.streamComplete 1 0 (1,ncoh)) = none) ∧
    (∃ s, (system 2).Reachable s ∧ s.exec 2 (.pdevCommunicate 0 (sampleExchange .yield)) = none) ∧
    (∃ s, (system 2).Reachable s ∧ s.exec 2 (.pdevSetPubkey 0 true true) = none) ∧
    (∃ s, (system 2).Reachable s ∧ s.exec 2 (.streamConnect 0 1 ncoh) = none) ∧
    ∃ s, (system 2).Reachable s ∧ (s.pdevs 0).map Pdev.foreign = some true := by
  have hroot : ∃ s, (system 2).Reachable s ∧ s.exec 2 (.streamComplete 1 0 (1,ncoh)) = none :=
    asserts_of_run (endpointUp 0 ++ rootPortUp 1) (by decide +kernel)
  refine ⟨?_,hroot,asserts_of_run (connected ++ failing) (by decide +kernel),
    asserts_of_run (stopping) (by decide +kernel),
    asserts_of_run (connected ++ withVdev ++ disconnecting ++ measuring) (by decide +kernel),?_⟩
  · obtain ⟨s,hs,hn⟩ := hroot
    refine ⟨s,hs,fun hu => ?_⟩
    obtain ⟨t,ht⟩ := hu.runs _ trivial
    rw [hn] at ht
    cases ht
  · have hrun : ((Sys.empty.run 2 stranded).map fun s => (s.pdevs 0).map Pdev.foreign) = some (some true) := by
      decide +kernel
    obtain ⟨s,hs,ht⟩ := Option.map_eq_some_iff.mp hrun
    exact ⟨s,reachable_of_run (fun _ _ _ => trivial) (.initial rfl) hs,ht⟩

end Sys

end TfRmm.Comm
