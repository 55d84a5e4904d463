import TfRmm.Da.System

namespace TfRmm.Da

open TfRmm.Smmu

namespace Rmm

variable {s : Rmm} {g : Rtt.GranuleState}

theorem setRd_self (a : Nat) : s.setRd a (s.rd a) = s := by
  unfold setRd
  rw [Function.update_eq_self]

theorem setSmmu_self (i : Nat) : s.setSmmu i (s.smmu i) = s := by
  unfold setSmmu
  rw [Function.update_eq_self]

theorem setVdev_setVdev (a : Nat) (v v' : Vdev) : (s.setVdev a v).setVdev a v' = s.setVdev a v' := by
  unfold setVdev
  simp only [Function.update_idem]

theorem setPdev_self (a : Nat) : s.setPdev a (s.pdev a) = s := by
  unfold setPdev
  rw [Function.update_eq_self]

theorem vdev_setVdev (a : Nat) (v : Vdev) : (s.setVdev a v).vdev a = v := by
  unfold setVdev
  exact Function.update_self ..

theorem isObject_iff {a : Nat} : s.isObject a g = true ↔ s.granule a = g := by
  unfold isObject
  exact beq_iff_eq

theorem objects_iff {a b c : Nat} :
    (!(s.isObject a .rd && s.isObject b .pdev && s.isObject c g)) = false ↔
      s.granule a = .rd ∧ s.granule b = .pdev ∧ s.granule c = g := by
  simp [isObject_iff,and_assoc]

end Rmm

def startable : VdevOp → VdevState → Bool
  | .lock, st => st == .unlocked
  | .start, st => st == .locked
  | .getMeas, _ => true
  | .getReport, st => st == .locked || st == .started
  | _, _ => false

inductive Finishes (st : VdevState) : VdevOp → VdevState → Prop where
  | unlock : Finishes st .unlock .unlocked
  | init : Finishes st .init .unlocked
  | start : Finishes st .start .started

inductive Move (v : Vdev) : Vdev → Prop where
  | start (op : VdevOp) (hidle : v.commState = .idle) (hop : startable op v.rmiState = true) :
      Move v { v with op := op,commState := .pending }
  | unlock (hidle : v.commState = .idle) (hoff : v.dmaEnabled = false)
      (hst : v.rmiState = .locked ∨ v.rmiState = .started ∨ v.rmiState = .error) :
      Move v { v with op := .unlock,commState := .pending }
  | active (hcomm : v.commState ≠ .idle) : Move v { v with commState := .active }
  | fail (hcomm : v.commState ≠ .idle) : Move v { v with rmiState := .error,commState := .idle }
  | abort (hcomm : v.commState ≠ .idle) :
      Move v { v with rmiState := Rmm.abortState v.rmiState,commState := .idle }
  | finish (st : VdevState) (hcomm : v.commState ≠ .idle) (hf : Finishes v.rmiState v.op st) :
      Move v { v with rmiState := st,commState := .idle,op := .none }

inductive Renews (r : Realm) (f : Freshness) (st : VdevState) :
    VdevOp → Realm → Freshness → VdevState → Prop where
  | lock (h : r.lastVdevLockSeq ≠ seqMax) :
      Renews r f st .lock { r with lastVdevLockSeq := r.lastVdevLockSeq+1 } ⟨r.lastVdevLockSeq+1,0,0⟩
        .locked
  | meas (h : f.measSeq ≠ seqMax) : Renews r f st .getMeas r { f with measSeq := f.measSeq+1 } st
  | report (h : f.reportSeq ≠ seqMax) :
      Renews r f st .getReport r { f with reportSeq := f.reportSeq+1 } st

def Enables (v : Vdev) (c : Command) : Prop :=
  v.rmiState = .started ∧ ∃ n e e', c = .dmaEnable v.rd v.id n v.freshness e e'

def Command.quiet : Command → Bool
  | .vdevUnlock _ _ _ _ e => e.isNone
  | .dmaEnable _ _ _ _ e e' => e.isNone && e'.isNone
  | .dmaDisable _ _ e => e.isNone
  | .vdevDestroy _ _ _ e => e.isNone
  | _ => true

def Command.releases : Command → Bool
  | .vdevDestroy _ _ _ e => e.isNone
  | _ => true

def Command.creates : Command → Option Nat
  | .vdevCreate rd .. => some rd
  | _ => none

def Held (s : Rmm) (a : Nat) (v : Vdev) : Prop :=
  s.vdev a = v ∧ s.granule v.rd = .rd ∧ (s.granule a = .vdev ∨ (s.rd v.rd).vdevMap v.id = some a)

inductive Effect (s : Rmm) : Command → Rmm → Prop where
  | same (c : Command) : Effect s c s
  | granule (c : Command) (a : Nat) (g : Rtt.GranuleState) (h : s.granule a ≠ .rd ∧ s.granule a ≠ .vdev)
      (hg : g ≠ .rd ∧ g ≠ .vdev) (hc : c = .granule a g ∨ s.granule a = .pdev) :
      Effect s c (s.setGranule a g)
  | pdev (c : Command) (a : Nat) (p : Pdev) : Effect s c (s.setPdev a p)
  | pdevCreate (c : Command) (a : Nat) (p : Pdev) (h : s.granule a = .delegated) :
      Effect s c ((s.setPdev a p).setGranule a .pdev)
  | realmCreate (c : Command) (a : Nat) (m : VdevCount) (n : Nat) (d : Bool) (h : s.granule a = .delegated)
      (hc : c = .realmCreate a m n d) :
      Effect s c { (s.setRd a ⟨s.realms,d,m,0,n,0,fun _ => none⟩).setGranule a .rd with
        realms := s.realms+1 }
  | realmDestroy (c : Command) (a : Nat) (h : s.granule a = .rd) (hv : (s.rd a).vdevRefcount = 0)
      (hc : c = .realmDestroy a) :
      Effect s c (s.setGranule a .delegated)
  | psmmu (c : Command) (i : Nat) (op : PsmmuOp) :
      Effect s c (s.setSmmu i (StreamTable.psmmu (s.smmu i) op))
  | move (c : Command) (a p : Nat) (x : Pdev) (v v' : Vdev) (ha : s.granule a = .vdev)
      (hv : s.vdev a = v) (hm : Move v v') : Effect s c ((s.setPdev p x).setVdev a v')
  | renew (c : Command) (a p : Nat) (x : Pdev) (v : Vdev) (r : Realm) (f : Freshness) (st : VdevState)
      (ha : s.granule a = .vdev) (hv : s.vdev a = v) (hr : s.granule v.rd = .rd)
      (hcomm : v.commState ≠ .idle) (hf : Renews (s.rd v.rd) v.freshness v.rmiState v.op r f st) :
      Effect s c ((((s.setPdev p x).setRd v.rd r).setVdev a
        { v with rmiState := st,commState := .idle,freshness := f,op := .none }).record
        ⟨(s.rd v.rd).incarnation,v.id,v.op,f⟩)
  | toggle (c : Command) (a : Nat) (v : Vdev) (b : Bool) (ha : Held s a v) (hq : c.quiet = false)
      (hb : b = true → Enables v c) :
      Effect s c (s.setSmmu v.smmuIdx (toggledTable (s.smmu v.smmuIdx) v.sid b))
  | dma (c : Command) (a : Nat) (v : Vdev) (b : Bool) (ha : Held s a v) (hb : b = true → Enables v c) :
      Effect s c ((s.setSmmu v.smmuIdx (toggledTable (s.smmu v.smmuIdx) v.sid b)).setVdev a
        { v with dmaEnabled := b })
  | unlockDma (c : Command) (a : Nat) (v : Vdev) (ha : s.granule a = .vdev) (hv : s.vdev a = v)
      (hidle : v.commState = .idle)
      (hst : v.rmiState = .locked ∨ v.rmiState = .started ∨ v.rmiState = .error) :
      Effect s c ((s.setSmmu v.smmuIdx (toggledTable (s.smmu v.smmuIdx) v.sid false)).setVdev a
        { v with dmaEnabled := false,op := .unlock,commState := .pending })
  | release (c : Command) (a : Nat) (v : Vdev) (ha : s.granule a = .vdev) (hv : s.vdev a = v)
      (hq : c.quiet = false) (hc : c.releases = false) :
      Effect s c (s.setSmmu v.smmuIdx (releasedTable (s.smmu v.smmuIdx) v.sid))
  | create (c : Command) (rd p a sid i slot : Nat) (x : VdevParams) (hr : s.granule rd = .rd)
      (ha : s.granule a = .delegated) (hi : i < s.numSmmus) (hready : (s.smmu i).ready sid = true)
      (hz : (s.smmu i).ste sid = .zero) (hid : (s.rd rd).vdevMap x.id = none) (hc : c.creates = some rd) :
      Effect s c ((s.setSmmu i (configuredTable (s.smmu i) sid)).insertVdev rd p a sid i slot x)
  | destroy (c : Command) (p a : Nat) (v : Vdev) (ha : s.granule a = .vdev) (hv : s.vdev a = v)
      (hr : s.granule v.rd = .rd) (hst : v.rmiState = .unlocked) (hoff : v.dmaEnabled = false) :
      Effect s c ((s.setSmmu v.smmuIdx
        (releasedTable (s.smmu v.smmuIdx) v.sid)).removeVdev v.rd p a)

variable {s : Rmm} {cfg : Config} {t : StreamTable} {sid i : Nat} {b : Bool} {e e' : Option Errno}

theorem onStream_fst {f : StreamTable → StreamTable × Option Errno} :
    (s.onStream i f).1 = s ∧ (s.onStream i f).2 = some .einval ∨
      i < s.numSmmus ∧ (s.onStream i f).1 = s.setSmmu i (f (s.smmu i)).1 ∧ (s.onStream i f).2 = (f (s.smmu i)).2 := by
  unfold Rmm.onStream
  split
  next hi => exact .inr ⟨hi,rfl,rfl⟩
  · exact .inl ⟨rfl,rfl⟩

theorem onStream_change {r : Rmm × Option Errno} (h : (s.onStream i fun t => t.changeSte sid b e e') = r) :
    r.1 = s ∧ r.2 = some .einval ∨ r.1 = s.setSmmu i (toggledTable (s.smmu i) sid b) ∧
        (r.2 ≠ none → e ≠ none ∨ b = true ∧ e' ≠ none) := by
  subst h
  rcases @onStream_fst s i fun t => t.changeSte sid b e e' with h | ⟨_,h1,h2⟩
  · exact .inl h
  rcases @changeSte_cases (s.smmu i) sid b e e' with hc | ⟨hc,hn⟩
  · rw [hc] at h1 h2
    exact .inl ⟨h1.trans (Rmm.setSmmu_self i),h2⟩
  · exact .inr ⟨h1.trans (by rw [hc]),fun h => hn (by rwa [← h2])⟩

theorem onStream_release {r : Rmm × Option Errno} (h : (s.onStream i fun t => t.releaseSte sid e) = r) :
    r.1 = s ∧ r.2 = some .einval ∨ r.1 = s.setSmmu i (releasedTable (s.smmu i) sid) ∧ r.2 = e := by
  subst h
  rcases @onStream_fst s i fun t => t.releaseSte sid e with h | ⟨_,h1,h2⟩
  · exact .inl h
  rcases @releaseSte_cases (s.smmu i) sid e with hc | hc
  · rw [hc] at h1 h2
    exact .inl ⟨h1.trans (Rmm.setSmmu_self i),h2⟩
  · rw [hc] at h1 h2
    exact .inr ⟨h1,h2⟩

theorem onStream_configure {r : Rmm × Option Errno} (h : (s.onStream i fun t => t.configureStream sid e) = r) :
    r.1 = s ∧ r.2 ≠ none ∨ r = (s.setSmmu i (configuredTable (s.smmu i) sid),none) ∧ i < s.numSmmus ∧
        (s.smmu i).ready sid = true ∧ (s.smmu i).ste sid = .zero := by
  subst h
  rcases @onStream_fst s i fun t => t.configureStream sid e with ⟨h1,h2⟩ | ⟨hi,h1,h2⟩
  · exact .inl ⟨h1,by rw [h2]; simp⟩
  rcases @configureStream_cases (s.smmu i) sid e with ⟨x,hc⟩ | ⟨hc,hready,hz⟩
  · rw [hc] at h1 h2
    exact .inl ⟨h1.trans (Rmm.setSmmu_self i),by rw [h2]; simp⟩
  · rw [hc] at h1 h2
    exact .inr ⟨Prod.ext h1 h2,hi,hready,hz⟩

theorem onStream_release_configured (hi : i < s.numSmmus) (hready : (s.smmu i).ready sid = true)
    (hz : (s.smmu i).ste sid = .zero) :
    ((s.setSmmu i (configuredTable (s.smmu i) sid)).onStream i fun t => t.releaseSte sid e).1 = s := by
  have hsmmu : (s.setSmmu i (configuredTable (s.smmu i) sid)).smmu i = configuredTable (s.smmu i) sid :=
    Function.update_self ..
  have hrel : ((configuredTable (s.smmu i) sid).releaseSte sid e).1 = s.smmu i := by
    have hr : (configuredTable (s.smmu i) sid).ready sid = true := hready
    have hn : (configuredTable (s.smmu i) sid).refcount (l1stdIdx sid) ≠ 0 := by
      simp [configuredTable,StreamTable.setSte,StreamTable.setRefcount]
    have hv : ((configuredTable (s.smmu i) sid).ste sid).v = false := by
      simp [configuredTable,StreamTable.setSte]
    unfold StreamTable.releaseSte
    simp only [hr,hn,hv,Bool.not_true,Bool.false_eq_true,if_false]
    exact released_configured hz
  unfold Rmm.onStream
  rw [if_pos (show i < (s.setSmmu i (configuredTable (s.smmu i) sid)).numSmmus from hi),hsmmu,hrel]
  unfold Rmm.setSmmu
  simp only [Function.update_idem,Function.update_eq_self]

variable {c : Command} {rd p a id : Nat} {env : Rmm.CommEnv} {st : Status} {r : Rmm × Status}

open Rmm

theorem startOp_effect {w : Status} {allowed : VdevState → Bool} {op : VdevOp}
    (hop : ∀ st, allowed st = true → startable op st = true) : Effect s c (s.startOp rd p a w allowed op).1 := by
  unfold Rmm.startOp
  extract_lets v
  split
  · exact .same c
  next hobj =>
  split
  · exact .same c
  split
  · exact .same c
  next hst =>
  simp only [not_or,Bool.not_eq_false,not_not] at hst
  have ha := (objects_iff.mp (Bool.eq_false_of_not_eq_true hobj)).2.2
  have := Effect.move c a p (s.pdev p) _ _ ha rfl (.start op hst.2.2 (hop _ hst.2.1))
  rwa [Rmm.setPdev_self] at this

theorem vdevGetMeasurements_effect : Effect s c (s.vdevGetMeasurements rd p a b).1 := by
  have h : Effect s c (s.startOp rd p a .errorInput (fun _ => true) .getMeas).1 :=
    startOp_effect fun _ h => h
  unfold Rmm.vdevGetMeasurements
  split
  next s' st he =>
  rw [he] at h
  split
  · exact .same c
  · exact h

theorem vdevUnlock_effect {probe : Nat → Rmm.Probe} :
    Effect s (.vdevUnlock rd p a probe e) (s.vdevUnlock rd p a probe e).1 := by
  unfold Rmm.vdevUnlock
  extract_lets v
  split
  · exact .same _
  next hobj =>
  have hobj := objects_iff.mp (Bool.eq_false_of_not_eq_true hobj)
  split
  · exact .same _
  next hown =>
  have hrd : s.granule (s.vdev a).rd = .rd := by
    rw [not_not.mp (not_or.mp hown).1]
    exact hobj.1
  split
  · exact .same _
  next hst =>
  have hst : (s.vdev a).rmiState = .locked ∨ (s.vdev a).rmiState = .started ∨ (s.vdev a).rmiState = .error := by
    simp only [v] at hst
    tauto
  split
  · exact .same _
  next hidle =>
  have hidle := not_not.mp hidle
  split
  · exact .same _
  split
  · split
    next s' x hs =>
      rcases onStream_change hs with ⟨h1,_⟩ | ⟨h1,h2⟩
      · rw [show s' = s from h1]
        exact .same _
      · rw [show s' = _ from h1]
        refine .toggle _ a _ false ⟨rfl,hrd,.inl hobj.2.2⟩ ?_ fun h => absurd h (by simp)
        simpa [Command.quiet,Option.isSome_iff_ne_none] using h2 (by simp)
    next s' hs =>
    rcases onStream_change hs with ⟨_,h2⟩ | ⟨h1,_⟩
    · cases h2
    · rw [show s' = _ from h1]
      exact .unlockDma _ a _ hobj.2.2 rfl hidle hst
  next hoff =>
  have := Effect.move (.vdevUnlock rd p a probe e) a p (s.pdev p) _ _ hobj.2.2 rfl
    (.unlock hidle (Bool.eq_false_of_not_eq_true hoff) hst)
  rwa [Rmm.setPdev_self] at this

theorem devCommunicate_some {s' : Rmm} (h : s.devCommunicate p a env = (some s',st)) :
    st ≠ .errorDevice ∧ ∃ x k, k ≠ .pending ∧ s' = (s.setPdev p x).setVdev a { s.vdev a with commState := k } := by
  unfold Rmm.devCommunicate at h
  extract_lets x v rc u at h
  split at h
  · cases h
  split at h
  · cases h
  split at h
  next rc' u' st' hsplit =>
  simp only [Prod.mk.injEq,Option.some.injEq] at h
  refine ⟨?_,_,_,?_,h.1.symm⟩
  · rw [← h.2]
    split at hsplit <;> simp only [Prod.mk.injEq] at hsplit <;> rw [← hsplit.2.2] <;> simp
  · cases rc' <;> cases u' <;> simp [Rmm.setCommState]

theorem completeOp_cases {v : Vdev} (hv : s.vdev a = v) (hst : st ≠ .errorDevice) (hex : s.exhausted rd a = false) (h : s.completeOp rd a st = .ok r) :
    (∃ z, Finishes v.rmiState v.op z ∧ r.1 = s.setVdev a { v with rmiState := z,op := .none }) ∨
      ∃ y f z, Renews (s.rd rd) v.freshness v.rmiState v.op y f z ∧
        r.1 = ((s.setRd rd y).setVdev a { v with rmiState := z,freshness := f,op := .none }).record
          ⟨(s.rd rd).incarnation,v.id,v.op,f⟩ := by
  subst hv
  unfold Rmm.completeOp at h
  extract_lets v y f at h
  have hroom : (v.op = .lock → y.lastVdevLockSeq ≠ seqMax) ∧ (v.op = .getMeas → f.measSeq ≠ seqMax) ∧
      (v.op = .getReport → f.reportSeq ≠ seqMax) := by
    simpa [Rmm.exhausted,and_assoc] using hex
  split at h
  next hu =>
    split at h
    · cases h
      exact .inl ⟨_,by rw [hu]; exact .unlock,rfl⟩
    · cases h
  next hu =>
    split at h
    · cases h
      exact .inl ⟨_,by rw [hu]; exact .init,rfl⟩
    · cases h
  next hu =>
    have hseq := hroom.1 hu
    rw [if_neg hseq] at h
    cases h
    refine .inr ⟨_,_,_,by rw [hu]; exact .lock hseq,?_⟩
    simp only [renew,hu,y,v]
    congr 2
    simp [setRd]
  next hu =>
    cases h
    exact .inl ⟨_,by rw [hu]; exact .start,rfl⟩
  next hu =>
    have hseq := hroom.2.1 hu
    rw [if_neg hseq] at h
    cases h
    refine .inr ⟨_,_,_,by rw [hu]; exact .meas hseq,?_⟩
    simp only [renew,hu,Rmm.setRd_self,f,v]
  next hu =>
    have hseq := hroom.2.2 hu
    rw [if_neg hseq] at h
    cases h
    refine .inr ⟨_,_,_,by rw [hu]; exact .report hseq,?_⟩
    simp only [renew,hu,Rmm.setRd_self,f,v]
  next hu =>
  split at h
  next he => exact absurd he hst
  · cases h

theorem active_of_ne {k : CommState} (hidle : k ≠ .idle) (herror : k ≠ .error) (hpend : k ≠ .pending) : k = .active := by
  cases k with
  | idle => exact absurd rfl hidle
  | pending => exact absurd rfl hpend
  | active => rfl
  | error => exact absurd rfl herror

theorem vdevCommunicate_effect (h : s.vdevCommunicate rd p a env = .ok r) : Effect s c r.1 := by
  unfold Rmm.vdevCommunicate at h
  extract_lets v at h
  split at h
  · cases h; exact .same c
  next hobj =>
  have hobj := objects_iff.mp (Bool.eq_false_of_not_eq_true hobj)
  split at h
  · cases h; exact .same c
  next hrd =>
  have hrd : s.granule v.rd = .rd := by rw [not_not.mp hrd]; exact hobj.1
  have hrd' : v.rd = rd := by tauto
  split at h
  · cases h; exact .same c
  split at h
  · cases h; exact .same c
  next hcomm =>
  have hcomm : v.commState ≠ .idle := fun h => hcomm (.inl h)
  split at h
  · cases h; exact .same c
  next hex =>
  split at h
  · cases h; exact .same c
  next s' st hs =>
  obtain ⟨hst,x,k,hpend,rfl⟩ := devCommunicate_some hs
  have hv : ((s.setPdev p x).setVdev a { v with commState := k }).vdev a = { v with commState := k } :=
    Rmm.vdev_setVdev a _
  split at h
  next hk =>
    have hk : k = .idle := by rwa [hv] at hk
    subst hk
    have hex' : ((s.setPdev p x).setVdev a { v with commState := .idle }).exhausted rd a = false := by
      unfold Rmm.exhausted at hex ⊢
      rw [hv]
      exact Bool.eq_false_of_not_eq_true hex
    rcases completeOp_cases hv hst hex' h with ⟨z,hz,he⟩ | ⟨y,f,z,hz,he⟩
    · rw [he,Rmm.setVdev_setVdev]
      exact .move c a p x v _ hobj.2.2 rfl (.finish z hcomm hz)
    rw [he,← hrd']
    rw [← hrd'] at hz
    have := Effect.renew c a p x v y f z hobj.2.2 rfl hrd hcomm hz
    convert this using 1
    unfold Rmm.record setRd
    simp only [Rmm.setVdev,Function.update_idem]
    rfl
  · split at h
    · cases h
      rw [hv,Rmm.setVdev_setVdev]
      exact .move c a p x v _ hobj.2.2 rfl (.fail hcomm)
    next hk hk' =>
    cases h
    rw [hv] at hk hk'
    rw [show k = .active from active_of_ne hk hk' hpend]
    exact .move c a p x v _ hobj.2.2 rfl (.active hcomm)

theorem vdevAbort_effect : Effect s c (s.vdevAbort rd p a b).1 := by
  unfold Rmm.vdevAbort
  extract_lets v x
  split
  · exact .same c
  next hobj =>
  split
  · exact .same c
  next hcomm =>
  split
  · exact .same c
  · split
    · exact .same c
    · exact .move c a p _ v _ (objects_iff.mp (Bool.eq_false_of_not_eq_true hobj)).2.2 rfl (.abort hcomm)

theorem effect_ite {P : Prop} [Decidable P] {x y : Rmm × Status} (hx : P → Effect s c x.1)
    (hy : ¬ P → Effect s c y.1) : Effect s c (if P then x else y).1 := by
  by_cases h : P
  · rw [if_pos h]
    exact hx h
  · rw [if_neg h]
    exact hy h

theorem vdevCreate_effect {params : Option VdevParams} {env : CreateEnv} (hc : c.creates = some rd) :
    Effect s c (s.vdevCreate cfg rd p a params env).1 := by
  unfold Rmm.vdevCreate
  extract_lets r x
  refine effect_ite (fun _ => .same c) fun hobj => ?_
  have hobj := objects_iff.mp (Bool.eq_false_of_not_eq_true hobj)
  refine effect_ite (fun _ => .same c) fun _ => effect_ite (fun _ => .same c) fun _ => ?_
  cases params with
  | none => exact .same c
  | some y =>
  refine effect_ite (fun _ => .same c) fun _ => effect_ite (fun _ => .same c) fun _ => ?_
  refine effect_ite (fun _ => .same c) fun _ => effect_ite (fun _ => .same c) fun _ => ?_
  cases x.findFreeVdevSlot with
  | none => exact .same c
  | some slot =>
  refine effect_ite (fun _ => .same c) fun _ => effect_ite (fun _ => .same c) fun _ => ?_
  rcases cfg.bdfToSmmu x.ecamAddr y.tdiId with _ | ⟨i,sid⟩
  · exact .same c
  dsimp only
  cases hs : s.onStream i fun t => t.configureStream sid env.configure with
  | mk s' z =>
  rcases onStream_configure hs with ⟨h1,h2⟩ | ⟨h1,hi,hready,hz⟩
  · cases z with
    | none => exact absurd rfl h2
    | some z =>
      rw [show s' = s from h1]
      exact .same c
  · obtain ⟨rfl,rfl⟩ := Prod.mk.inj h1
    refine effect_ite (fun _ => ?_) fun hid => ?_
    · -- The entry written for a VDEV that cannot be inserted is released again.
      rw [onStream_release_configured hi hready hz]
      exact .same c
    · exact .create c rd p a sid i slot y hobj.1 hobj.2.2 hi hready hz (by simpa using hid) hc

theorem vdevDestroy_effect (h : s.vdevDestroy rd p a e = .ok r) : Effect s (.vdevDestroy rd p a e) r.1 := by
  unfold Rmm.vdevDestroy at h
  extract_lets v x at h
  split at h
  · cases h; exact .same _
  next hobj =>
  have hobj := objects_iff.mp (Bool.eq_false_of_not_eq_true hobj)
  split at h
  · cases h; exact .same _
  next hrd =>
  have hrd := not_not.mp hrd
  split at h
  · cases h; exact .same _
  split at h
  · cases h; exact .same _
  next hst =>
  have hst : v.rmiState = .unlocked := not_not.mp (not_or.mp hst).1
  split at h
  · cases h; exact .same _
  split at h
  · cases h
  next hoff =>
  split at h
  · cases h
  split at h
  next s' z hs =>
    cases h
    rcases onStream_release hs with ⟨h1,_⟩ | ⟨h1,h2⟩
    · rw [show s' = s from h1]
      exact .same _
    · rw [show s' = _ from h1]
      exact .release _ a v hobj.2.2 rfl (by simp [Command.quiet,← h2]) (by simp [Command.releases,← h2])
  next s' hs =>
  split at h
  · cases h
  cases h
  rcases onStream_release hs with ⟨_,h2⟩ | ⟨h1,_⟩
  · cases h2
  · rw [show s' = _ from h1,← hrd]
    exact .destroy _ p a v hobj.2.2 rfl (by rw [hrd]; exact hobj.1) hst (Bool.eq_false_of_not_eq_true hoff)

theorem claimObjects_ok (h : s.claimObjects rd id = .ok a) :
    (s.rd rd).vdevMap id = some a ∧ (s.vdev a).rd = rd ∧ (s.vdev a).id = id := by
  unfold Rmm.claimObjects at h
  split at h
  · cases h
  next x hx =>
  split at h
  · cases h
  next hown =>
    cases h
    exact ⟨hx,not_not.mp (not_or.mp hown).1,not_not.mp (not_or.mp hown).2⟩

theorem held_of_claim (hr : s.granule rd = .rd) (h : s.claimObjects rd id = .ok a) : Held s a (s.vdev a) := by
  obtain ⟨hmap,hrd,hid⟩ := claimObjects_ok h
  exact ⟨rfl,by rw [hrd]; exact hr,.inr (by rw [hrd,hid]; exact hmap)⟩

theorem dmaEnable_effect {n : Nat} {f : Freshness} (hr : s.granule rd = .rd) :
    Effect s (.dmaEnable rd id n f e e') (s.rsiVdevDmaEnable rd id n f e e').1 := by
  unfold Rmm.rsiVdevDmaEnable
  extract_lets r
  split
  · exact .same _
  split
  · exact .same _
  next a hclaim =>
  have hheld := held_of_claim hr hclaim
  obtain ⟨_,hrd,hid⟩ := claimObjects_ok hclaim
  extract_lets v
  split
  · exact .same _
  split
  · exact .same _
  next hst =>
  simp only [not_or,not_not] at hst
  have hen : Enables v (.dmaEnable rd id n f e e') :=
    ⟨hst.1,n,e,e',by rw [show v.rd = rd from hrd,show v.id = id from hid,hst.2]⟩
  split
  · exact .same _
  split
  next s' z hs =>
    rcases onStream_change hs with ⟨h1,_⟩ | ⟨h1,h2⟩
    · rw [show s' = s from h1]
      exact .same _
    rw [show s' = _ from h1]
    refine .toggle _ a v true hheld ?_ fun _ => hen
    rcases h2 (by simp) with he | ⟨_,he⟩
    · simp [Command.quiet,he]
    · simp [Command.quiet,Option.isNone_iff_eq_none.not.mpr he]
  next s' hs =>
  rcases onStream_change hs with ⟨_,h2⟩ | ⟨h1,_⟩
  · cases h2
  · rw [show s' = _ from h1]
    exact .dma _ a v true hheld fun _ => hen

theorem dmaDisable_effect (hr : s.granule rd = .rd) : Effect s (.dmaDisable rd id e) (s.rsiVdevDmaDisable rd id e).1 := by
  unfold Rmm.rsiVdevDmaDisable
  extract_lets r
  split
  · exact .same _
  split
  · exact .same _
  next a hclaim =>
  have hheld := held_of_claim hr hclaim
  extract_lets v
  split
  · exact .same _
  split
  next s' z hs =>
    rcases onStream_change hs with ⟨h1,_⟩ | ⟨h1,h2⟩
    · rw [show s' = s from h1]
      exact .same _
    · rw [show s' = _ from h1]
      refine .toggle _ a v false hheld ?_ fun h => absurd h (by simp)
      simpa [Command.quiet,Option.isSome_iff_ne_none] using h2 (by simp)
  next s' hs =>
  rcases onStream_change hs with ⟨_,h2⟩ | ⟨h1,_⟩
  · cases h2
  · rw [show s' = _ from h1]
    exact .dma _ a v false hheld fun h => absurd h (by simp)

theorem plain_ne {g : Rtt.GranuleState} (h : plain g = true) : g ≠ .rd ∧ g ≠ .vdev := by
  cases g <;> simp_all [plain]

theorem exec_effect (h : s.exec cfg c = .ok r) : Effect s c r.1 := by
  cases c with
  | granule a g =>
    cases h
    unfold Rmm.setState
    split
    next hp =>
      simp only [Bool.and_eq_true] at hp
      exact .granule _ a g (plain_ne hp.1) (plain_ne hp.2) (.inl rfl)
    · exact .same _
  | realmCreate rd m n d =>
    cases h
    unfold Rmm.realmCreate
    split
    next hd => exact .realmCreate _ rd m n d (isObject_iff.mp hd) rfl
    · exact .same _
  | realmDestroy rd =>
    cases h
    unfold Rmm.realmDestroy
    split
    next hd =>
      simp only [Bool.and_eq_true,isObject_iff,beq_iff_eq] at hd
      exact .realmDestroy _ rd hd.1 hd.2 rfl
    · exact .same _
  | pdevCreate a x =>
    cases h
    unfold Rmm.pdevCreate
    split
    next hd => exact .pdevCreate _ a _ (isObject_iff.mp hd)
    · exact .same _
  | pdevUpdate a b x y o =>
    cases h
    unfold Rmm.pdevUpdate
    split
    · exact .pdev _ a _
    · exact .same _
  | pdevDestroy a =>
    cases h
    unfold Rmm.pdevDestroy
    split
    next hd =>
      simp only [Bool.and_eq_true,isObject_iff] at hd
      exact .granule _ a _ (by rw [hd.1]; simp) (by simp) (.inr hd.1)
    · exact .same _
  | psmmu i op => cases h; exact .psmmu _ i op
  | vdevCreate rd p a x env => cases h; exact vdevCreate_effect rfl
  | vdevLock rd p a | vdevStart rd p a => cases h; exact startOp_effect fun _ h => h
  | vdevGetMeasurements rd p a b => cases h; exact vdevGetMeasurements_effect
  | vdevGetInterfaceReport rd p a => cases h; exact startOp_effect fun _ h => h
  | vdevUnlock rd p a probe e => cases h; exact vdevUnlock_effect
  | vdevCommunicate rd p a env => exact vdevCommunicate_effect h
  | vdevAbort rd p a b => cases h; exact vdevAbort_effect
  | vdevDestroy rd p a e => exact vdevDestroy_effect h
  | dmaEnable rd id n f e e' =>
    cases h
    unfold Rmm.fromRec
    split
    next hr => exact dmaEnable_effect (isObject_iff.mp hr)
    · exact .same _
  | dmaDisable rd id e =>
    cases h
    unfold Rmm.fromRec
    split
    next hr => exact dmaDisable_effect (isObject_iff.mp hr)
    · exact .same _

open Function

variable {s' : Rmm} {v v' : Vdev}

structure Vdev.Sane (v : Vdev) : Prop where
  keys : v.rmiState ≠ .keyRefresh ∧ v.rmiState ≠ .keyPurge
  fresh : v.rmiState = .new → v.op = .init ∧ v.commState ≠ .idle
  none : v.op = .none → v.commState = .idle
  init : v.op = .init → v.commState ≠ .idle → v.rmiState = .new
  start : v.op = .start → v.commState ≠ .idle → v.rmiState = .locked
  unlock : v.op = .unlock → v.commState ≠ .idle →
    v.rmiState = .locked ∨ v.rmiState = .started ∨ v.rmiState = .error
  locked : v.rmiState = .locked ∨ v.rmiState = .started → v.freshness.lockSeq ≠ 0
  bounded : v.freshness.lockSeq ≤ seqMax ∧ v.freshness.measSeq ≤ seqMax ∧ v.freshness.reportSeq ≤ seqMax

theorem abortState_eq (h : v.Sane) : Rmm.abortState v.rmiState = .error := by
  have := h.keys
  cases hst : v.rmiState <;> simp_all [Rmm.abortState]

structure SameVdev (v v' : Vdev) : Prop where
  rd : v'.rd = v.rd
  id : v'.id = v.id
  sid : v'.sid = v.sid
  smmuIdx : v'.smmuIdx = v.smmuIdx

theorem Move.sameVdev (hm : Move v v') : SameVdev v v' := by
  cases hm <;> exact ⟨rfl,rfl,rfl,rfl⟩

theorem Move.sane (h : v.Sane) (hm : Move v v') : v'.Sane := by
  cases hm with
  | start op hidle hop =>
    refine ⟨h.keys,fun hn => absurd hidle (h.fresh hn).2,?_,?_,?_,?_,h.locked,h.bounded⟩
    · rintro rfl
      exact absurd hop (by simp [startable])
    · rintro rfl
      exact absurd hop (by simp [startable])
    · rintro rfl _
      simpa [startable] using hop
    · rintro rfl
      exact absurd hop (by simp [startable])
  | unlock hidle hoff hst =>
    exact ⟨h.keys,fun hn => absurd hidle (h.fresh hn).2,fun hn => absurd hn (by simp),
      fun hn => absurd hn (by simp),fun hn => absurd hn (by simp),fun _ _ => hst,h.locked,h.bounded⟩
  | active hcomm =>
    exact ⟨h.keys,fun hn => ⟨(h.fresh hn).1,by simp⟩,fun hn => absurd (h.none hn) hcomm,
      fun ho _ => h.init ho hcomm,fun ho _ => h.start ho hcomm,fun ho _ => h.unlock ho hcomm,h.locked,
      h.bounded⟩
  | fail hcomm =>
    exact ⟨by simp,fun hn => absurd hn (by simp),fun _ => rfl,fun _ hn => absurd rfl hn,
      fun _ hn => absurd rfl hn,fun _ hn => absurd rfl hn,fun hn => by simp at hn,h.bounded⟩
  | abort hcomm =>
    rw [abortState_eq h]
    exact ⟨by simp,fun hn => absurd hn (by simp),fun _ => rfl,fun _ hn => absurd rfl hn,
      fun _ hn => absurd rfl hn,fun _ hn => absurd rfl hn,fun hn => by simp at hn,h.bounded⟩
  | finish st hcomm hf =>
    have hst : st = .unlocked ∨ st = .error ∨ st = .started ∧ v.rmiState = .locked := by
      generalize hop : v.op = op at hf
      cases hf with
      | unlock | init => exact .inl rfl
      | start => exact .inr (.inr ⟨rfl,h.start hop hcomm⟩)
    refine ⟨?_,?_,fun _ => rfl,fun hn => absurd hn (by simp),fun hn => absurd hn (by simp),
      fun hn => absurd hn (by simp),?_,h.bounded⟩
    · rcases hst with rfl | rfl | ⟨rfl,_⟩ <;> simp
    · rcases hst with rfl | rfl | ⟨rfl,_⟩ <;> simp
    rcases hst with rfl | rfl | ⟨rfl,hl⟩
    · simp
    · simp
    · exact fun _ => h.locked (.inl hl)

variable {r r' : Realm} {f : Freshness} {st : VdevState} {slot : Nat} {t : Rmm} {g : Rtt.GranuleState}
    {x : VdevParams}

theorem Renews.sane (h : v.Sane) (hr : r.lastVdevLockSeq ≤ seqMax)
    (hf : Renews r v.freshness v.rmiState v.op r' f st) :
    Vdev.Sane { v with rmiState := st,commState := .idle,freshness := f,op := .none } := by
  have hnew : v.op ≠ .init → v.rmiState ≠ .new := fun hop hn => hop (h.fresh hn).1
  generalize hop : v.op = op at hf
  cases hf with
  | lock hseq =>
    refine ⟨by simp,fun hn => absurd hn (by simp),fun _ => rfl,fun _ hn => absurd rfl hn,
      fun _ hn => absurd rfl hn,fun _ hn => absurd rfl hn,fun _ => Nat.succ_ne_zero _,?_,?_⟩
    · show r.lastVdevLockSeq+1 ≤ seqMax
      omega
    · exact ⟨Nat.zero_le _,Nat.zero_le _⟩
  | meas hseq =>
    refine ⟨h.keys,fun hn => absurd hn (hnew (by rw [hop]; simp)),fun _ => rfl,fun _ hn => absurd rfl hn,
      fun _ hn => absurd rfl hn,fun _ hn => absurd rfl hn,h.locked,h.bounded.1,?_,h.bounded.2.2⟩
    have := h.bounded.2.1
    show v.freshness.measSeq+1 ≤ seqMax
    omega
  | report hseq =>
    refine ⟨h.keys,fun hn => absurd hn (hnew (by rw [hop]; simp)),fun _ => rfl,fun _ hn => absurd rfl hn,
      fun _ hn => absurd rfl hn,fun _ hn => absurd rfl hn,h.locked,h.bounded.1,h.bounded.2.1,?_⟩
    have := h.bounded.2.2
    show v.freshness.reportSeq+1 ≤ seqMax
    omega

structure Objects (s : Rmm) : Prop where
  mapped : ∀ a, s.granule a = .vdev →
    s.granule (s.vdev a).rd = .rd ∧ (s.rd (s.vdev a).rd).vdevMap (s.vdev a).id = some a
  back : ∀ r id a, s.granule r = .rd → (s.rd r).vdevMap id = some a →
    s.granule a = .vdev ∧ (s.vdev a).rd = r ∧ (s.vdev a).id = id
  counted : ∀ r, s.granule r = .rd → ∃ l : List Nat, l.Nodup ∧ l.length = (s.rd r).vdevRefcount ∧
    ∀ a, a ∈ l ↔ s.granule a = .vdev ∧ (s.vdev a).rd = r
  sane : ∀ a, s.granule a = .vdev → (s.vdev a).Sane
  lastLock : ∀ r, s.granule r = .rd → (s.rd r).lastVdevLockSeq ≤ seqMax

structure SameObjects (s s' : Rmm) : Prop where
  vdevs : ∀ a, s'.granule a = .vdev ↔ s.granule a = .vdev
  realms : ∀ r, s'.granule r = .rd ↔ s.granule r = .rd
  vdev : ∀ a, s.granule a = .vdev → SameVdev (s.vdev a) (s'.vdev a)
  map : ∀ r, s.granule r = .rd → (s'.rd r).vdevMap = (s.rd r).vdevMap
  count : ∀ r, s.granule r = .rd → (s'.rd r).vdevRefcount = (s.rd r).vdevRefcount

theorem Objects.transfer (h : Objects s) (hs : SameObjects s s') (hsane : ∀ a, s.granule a = .vdev → (s'.vdev a).Sane)
    (hlast : ∀ r, s.granule r = .rd → (s'.rd r).lastVdevLockSeq ≤ seqMax) : Objects s' := by
  refine ⟨fun a ha => ?_,fun r id a hr hm => ?_,fun r hr => ?_,fun a ha => hsane a ((hs.vdevs a).mp ha),
    fun r hr => hlast r ((hs.realms r).mp hr)⟩
  · have ha := (hs.vdevs a).mp ha
    obtain ⟨h1,h2⟩ := h.mapped a ha
    rw [(hs.vdev a ha).rd,(hs.vdev a ha).id,hs.realms,hs.map _ h1]
    exact ⟨h1,h2⟩
  · have hr := (hs.realms r).mp hr
    rw [hs.map r hr] at hm
    obtain ⟨h1,h2,h3⟩ := h.back r id a hr hm
    rw [hs.vdevs,(hs.vdev a h1).rd,(hs.vdev a h1).id]
    exact ⟨h1,h2,h3⟩
  · have hr := (hs.realms r).mp hr
    obtain ⟨l,hl,hn,hmem⟩ := h.counted r hr
    refine ⟨l,hl,hn.trans (hs.count r hr).symm,fun a => ?_⟩
    rw [hmem,hs.vdevs]
    exact and_congr_right fun ha => by rw [(hs.vdev a ha).rd]

theorem SameVdev.refl (v : Vdev) : SameVdev v v := ⟨rfl,rfl,rfl,rfl⟩

theorem Objects.held (h : Objects s) (ha : Held s a v) : s.granule a = .vdev ∧ s.vdev a = v := by
  obtain ⟨hv,hr,ha | ha⟩ := ha
  · exact ⟨ha,hv⟩
  · exact ⟨(h.back _ _ a hr ha).1,hv⟩

theorem SameObjects.setVdev (ht : SameObjects s t) (hv : t.vdev = s.vdev)
    (hsame : SameVdev (s.vdev a) v) : SameObjects s (t.setVdev a v) := by
  refine ⟨ht.vdevs,ht.realms,fun b hb => ?_,ht.map,ht.count⟩
  show SameVdev (s.vdev b) (update t.vdev a v b)
  rw [hv]
  by_cases hba : b = a
  · subst hba
    rw [update_self]
    exact hsame
  · rw [update_of_ne hba]
    exact .refl _

theorem SameObjects.setGranule (h : s.granule a ≠ .rd ∧ s.granule a ≠ .vdev) (hg : g ≠ .rd ∧ g ≠ .vdev) :
    SameObjects s (s.setGranule a g) := by
  have hne : ∀ b x, (x = .rd ∨ x = .vdev) → ((s.setGranule a g).granule b = x ↔ s.granule b = x) := fun b x hx => by
    show update s.granule a g b = x ↔ s.granule b = x
    by_cases hb : b = a
    · subst hb
      rw [update_self]
      rcases hx with rfl | rfl
      · exact ⟨fun hx => absurd hx hg.1,fun hx => absurd hx h.1⟩
      · exact ⟨fun hx => absurd hx hg.2,fun hx => absurd hx h.2⟩
    · rw [update_of_ne hb]
  exact ⟨fun b => hne b _ (.inr rfl),fun b => hne b _ (.inl rfl),fun _ _ => .refl _,fun _ _ => rfl,fun _ _ => rfl⟩

theorem Objects.setVdev (h : Objects s) (ht : SameObjects s t) (hv : t.vdev = s.vdev)
    (hsame : SameVdev (s.vdev a) v) (hsane : s.granule a = .vdev → v.Sane)
    (hlast : ∀ r, s.granule r = .rd → (t.rd r).lastVdevLockSeq ≤ seqMax) : Objects (t.setVdev a v) := by
  refine h.transfer (ht.setVdev hv hsame) (fun b hb => ?_) hlast
  show (update t.vdev a v b).Sane
  rw [hv]
  by_cases hba : b = a
  · subst hba
    rw [update_self]
    exact hsane hb
  · rw [update_of_ne hba]
    exact h.sane b hb

theorem Vdev.Sane.setDma (h : v.Sane) (b : Bool) : Vdev.Sane { v with dmaEnabled := b } :=
  ⟨h.keys,h.fresh,h.none,h.init,h.start,h.unlock,h.locked,h.bounded⟩

theorem SameObjects.setPdev (p : Nat) (x : Pdev) : SameObjects s (s.setPdev p x) :=
  ⟨fun _ => Iff.rfl,fun _ => Iff.rfl,fun _ _ => .refl _,fun _ _ => rfl,fun _ _ => rfl⟩

theorem SameObjects.setSmmu (i : Nat) (t : StreamTable) : SameObjects s (s.setSmmu i t) :=
  ⟨fun _ => Iff.rfl,fun _ => Iff.rfl,fun _ _ => .refl _,fun _ _ => rfl,fun _ _ => rfl⟩

theorem SameObjects.setRd (ht : SameObjects s t) (hrd : t.rd = s.rd) (hmap : r.vdevMap = (s.rd a).vdevMap)
    (hcount : r.vdevRefcount = (s.rd a).vdevRefcount) : SameObjects s (t.setRd a r) := by
  refine ⟨ht.vdevs,ht.realms,ht.vdev,fun b _ => ?_,fun b _ => ?_⟩
  all_goals
    by_cases hb : b = a
    · subst hb
      simpa [Rmm.setRd] using by assumption
    · simp [Rmm.setRd,update_of_ne hb,hrd]

theorem Renews.realm {f' : Freshness} {st' : VdevState} {op : VdevOp} (hf : Renews r f st op r' f' st') : r'.vdevMap =
    r.vdevMap ∧ r'.vdevRefcount = r.vdevRefcount ∧ r'.incarnation = r.incarnation ∧ r.lastVdevLockSeq ≤ r'.lastVdevLockSeq ∧
    (r.lastVdevLockSeq ≤ seqMax → r'.lastVdevLockSeq ≤ seqMax) := by
  cases hf with
  | lock h =>
    refine ⟨rfl,rfl,rfl,Nat.le_succ _,fun hl => ?_⟩
    show r.lastVdevLockSeq+1 ≤ seqMax
    omega
  | meas h | report h => exact ⟨rfl,rfl,rfl,le_refl _,id⟩

theorem Rmm.granule_setGranule {b : Nat} :
    (s.setGranule a g).granule b = if b = a then g else s.granule b := update_apply ..

theorem granule_kept {f : Nat → Rtt.GranuleState} {y k : Rtt.GranuleState} (ha : f a ≠ k) (hy : y ≠ k) (b : Nat) :
    update f a y b = k ↔ f b = k := by
  rw [update_apply]
  split
  next hb => subst hb; simp [ha,hy]
  · exact Iff.rfl

theorem Objects.realmCreate (h : Objects s) {m : VdevCount} {n k : Nat} {d : Bool} (ha : s.granule a = .delegated) :
    Objects { (s.setRd a ⟨k,d,m,0,n,0,fun _ => none⟩).setGranule a .rd with realms := s.realms+1 } := by
  have hne : ∀ b, s.granule b ≠ .delegated → b ≠ a := fun b hb hba => hb (by rw [hba,ha])
  have hvdev : ∀ b, update s.granule a .rd b = .vdev ↔ s.granule b = .vdev := granule_kept (by simp [ha]) (by simp)
  have hreal : ∀ b, update s.granule a .rd b = .rd ↔ b = a ∨ s.granule b = .rd := fun b => by
    rw [update_apply]
    split <;> simp [*]
  have hrd : ∀ b, b ≠ a → update s.rd a ⟨k,d,m,0,n,0,fun _ => none⟩ b = s.rd b := fun b hb =>
    update_of_ne hb ..
  refine ⟨fun b hb => ?_,fun r id b hr hm => ?_,fun r hr => ?_,fun b hb => h.sane b ((hvdev b).mp hb),fun r hr => ?_⟩
  · obtain ⟨h1,h2⟩ := h.mapped b ((hvdev b).mp hb)
    refine ⟨(hreal _).mpr (.inr h1),?_⟩
    show (update s.rd a _ (s.vdev b).rd).vdevMap (s.vdev b).id = some b
    rw [hrd _ (hne _ (by rw [h1]; simp))]
    exact h2
  · by_cases hra : r = a
    · subst hra
      exact absurd hm (by simp [Rmm.setGranule,Rmm.setRd])
    · have hr := ((hreal r).mp hr).resolve_left hra
      have hm : (update s.rd a _ r).vdevMap id = some b := hm
      rw [hrd r hra] at hm
      obtain ⟨h1,h2⟩ := h.back r id b hr hm
      exact ⟨(hvdev b).mpr h1,h2⟩
  · by_cases hra : r = a
    · subst hra
      refine ⟨[],List.nodup_nil,by simp [Rmm.setGranule,Rmm.setRd],fun b => ?_⟩
      simp only [List.not_mem_nil,false_iff,not_and]
      intro hb hbr
      have := (h.mapped b ((hvdev b).mp hb)).1
      rw [show (s.vdev b).rd = r from hbr,ha] at this
      cases this
    · have hr := ((hreal r).mp hr).resolve_left hra
      obtain ⟨l,hl,hn,hmem⟩ := h.counted r hr
      refine ⟨l,hl,?_,fun b => ?_⟩
      · show l.length = (update s.rd a _ r).vdevRefcount
        rw [hrd r hra]
        exact hn
      · rw [hmem]
        exact and_congr_left fun _ => (hvdev b).symm
  · show (update s.rd a _ r).lastVdevLockSeq ≤ seqMax
    by_cases hra : r = a
    · subst hra
      simp
    · rw [hrd r hra]
      exact h.lastLock r (((hreal r).mp hr).resolve_left hra)

theorem Objects.realmDestroy (h : Objects s) (ha : s.granule a = .rd)
    (hv : (s.rd a).vdevRefcount = 0) : Objects (s.setGranule a .delegated) := by
  have hvdev : ∀ b, (s.setGranule a .delegated).granule b = .vdev ↔ s.granule b = .vdev :=
    granule_kept (by simp [ha]) (by simp)
  have hreal : ∀ b, (s.setGranule a .delegated).granule b = .rd ↔ b ≠ a ∧ s.granule b = .rd := fun b => by
    rw [Rmm.granule_setGranule]
    split <;> simp [*]
  have hnone : ∀ b, s.granule b = .vdev → (s.vdev b).rd ≠ a := fun b hb hba => by
    obtain ⟨l,_,hn,hmem⟩ := h.counted a ha
    rw [hv] at hn
    have := (hmem b).mpr ⟨hb,hba⟩
    rw [List.eq_nil_of_length_eq_zero hn] at this
    cases this
  refine ⟨fun b hb => ?_,fun r id b hr hm => ?_,fun r hr => ?_,fun b hb => h.sane b ((hvdev b).mp hb),
    fun r hr => h.lastLock r ((hreal r).mp hr).2⟩
  · have hb := (hvdev b).mp hb
    exact ⟨(hreal _).mpr ⟨hnone b hb,(h.mapped b hb).1⟩,(h.mapped b hb).2⟩
  · obtain ⟨h1,h2⟩ := h.back r id b ((hreal r).mp hr).2 hm
    exact ⟨(hvdev b).mpr h1,h2⟩
  · obtain ⟨l,hl,hn,hmem⟩ := h.counted r ((hreal r).mp hr).2
    refine ⟨l,hl,hn,fun b => ?_⟩
    rw [hmem,hvdev]
    exact Iff.rfl

theorem newVdev_sane : (Rmm.newVdev rd p sid i slot x).Sane := by
  refine ⟨by simp [Rmm.newVdev],fun _ => ⟨rfl,by simp [Rmm.newVdev]⟩,fun h => ?_,fun _ _ => rfl,fun h => ?_,
    fun h => ?_,fun h => ?_,?_⟩
  · simp [Rmm.newVdev] at h
  · simp [Rmm.newVdev] at h
  · simp [Rmm.newVdev] at h
  · simp [Rmm.newVdev] at h
  · simp [Rmm.newVdev,Freshness.zero]

attribute [local simp] Rmm.setRd Rmm.setGranule Rmm.setPdev Rmm.insertVdev Rmm.setVdev Rmm.removeVdev Realm.mapVdev
  Rmm.newVdev

theorem Objects.insertVdev (h : Objects s) (hr : s.granule rd = .rd) (ha : s.granule a = .delegated)
    (hid : (s.rd rd).vdevMap x.id = none) : Objects (s.insertVdev rd p a sid i slot x) := by
  have hra : rd ≠ a := fun hra => by rw [hra,ha] at hr; cases hr
  let t := s.insertVdev rd p a sid i slot x
  have hvdev : ∀ b, t.vdev b = if b = a then Rmm.newVdev rd p sid i slot x else s.vdev b := fun b => update_apply ..
  have hvdevs : ∀ b, t.granule b = .vdev ↔ b = a ∨ s.granule b = .vdev := fun b => by
    rw [show t.granule b = _ from update_apply ..]
    split <;> simp [*]
  have hreal : ∀ b, t.granule b = .rd ↔ s.granule b = .rd := granule_kept (by simp [ha]) (by simp)
  have hmap : ∀ r id, (t.rd r).vdevMap id = if r = rd ∧ id = x.id then some a else (s.rd r).vdevMap id := fun r id => by
    by_cases hrr : r = rd
    · subst hrr
      by_cases hx : id = x.id <;> simp [t,hx]
    · simp [t,hrr]
  have hother : ∀ r, r ≠ rd → t.rd r = s.rd r := fun r hrr => update_of_ne hrr ..
  have hself : (t.rd rd).vdevRefcount = (s.rd rd).vdevRefcount + 1 ∧
      (t.rd rd).lastVdevLockSeq = (s.rd rd).lastVdevLockSeq := by
    simp [t]
  have hold : ∀ b, s.granule b = .vdev → b ≠ a := fun b hb hba => by
    rw [hba,ha] at hb
    cases hb
  refine show Objects t from ⟨fun b hb => ?_,fun r id b hr' hm => ?_,fun r hr' => ?_,fun b hb => ?_,fun r hr' => ?_⟩
  · rw [hvdev,hreal,hmap]
    split
    next hba => exact ⟨hr,by rw [if_pos ⟨rfl,rfl⟩,hba]⟩
    next hba =>
    have hb := ((hvdevs b).mp hb).resolve_left hba
    obtain ⟨h1,h2⟩ := h.mapped b hb
    refine ⟨h1,?_⟩
    rw [if_neg]
    · exact h2
    · rintro ⟨h3,h4⟩
      rw [h3,h4,hid] at h2
      cases h2
  · rw [hmap] at hm
    rw [hvdevs,hvdev]
    split at hm
    next hx =>
      cases hm
      exact ⟨.inl rfl,by rw [if_pos rfl]; exact ⟨hx.1.symm,hx.2.symm⟩⟩
    next hx =>
    obtain ⟨h1,h2⟩ := h.back r id b ((hreal r).mp hr') hm
    rw [if_neg (hold b h1)]
    exact ⟨.inr h1,h2⟩
  · obtain ⟨l,hl,hn,hmem⟩ := h.counted r ((hreal r).mp hr')
    have hal : a ∉ l := fun hal => hold a ((hmem a).mp hal).1 rfl
    by_cases hrr : r = rd
    · subst hrr
      refine ⟨a :: l,List.nodup_cons.mpr ⟨hal,hl⟩,by rw [hself.1,← hn,List.length_cons],fun b => ?_⟩
      rw [List.mem_cons,hmem,hvdevs,hvdev]
      by_cases hba : b = a <;> simp [hba]
    · refine ⟨l,hl,by rw [hother r hrr]; exact hn,fun b => ?_⟩
      rw [hmem,hvdevs,hvdev]
      by_cases hba : b = a
      · subst hba
        simp [ha,Ne.symm hrr]
      · simp [hba]
  · rw [hvdev]
    split
    · exact newVdev_sane
    next hba => exact h.sane b (((hvdevs b).mp hb).resolve_left hba)
  · have hr' := (hreal r).mp hr'
    by_cases hrr : r = rd
    · rw [hrr,hself.2]
      exact h.lastLock rd hr
    · rw [hother r hrr]
      exact h.lastLock r hr'

theorem Objects.removeVdev (h : Objects s) (ha : s.granule a = .vdev) (hv : s.vdev a = v) :
    Objects (s.removeVdev v.rd p a) := by
  obtain ⟨hr,hmapped⟩ := h.mapped a ha
  rw [hv] at hr hmapped
  have hra : v.rd ≠ a := fun hra => by rw [hra,ha] at hr; cases hr
  let t := s.removeVdev v.rd p a
  have hvdevs : ∀ b, t.granule b = .vdev ↔ b ≠ a ∧ s.granule b = .vdev := fun b => by
    rw [show t.granule b = _ from update_apply ..]
    split <;> simp [*]
  have hreal : ∀ b, t.granule b = .rd ↔ s.granule b = .rd := granule_kept (by simp [ha]) (by simp)
  have hmap : ∀ r id, (t.rd r).vdevMap id = if r = v.rd ∧ id = v.id then none else (s.rd r).vdevMap id := fun r id => by
    by_cases hrr : r = v.rd
    · subst hrr
      by_cases hx : id = v.id <;> simp [t,hx,hv]
    · simp [t,hrr]
  have hother : ∀ r, r ≠ v.rd → t.rd r = s.rd r := fun r hrr => update_of_ne hrr ..
  have hself : (t.rd v.rd).vdevRefcount = (s.rd v.rd).vdevRefcount - 1 ∧
      (t.rd v.rd).lastVdevLockSeq = (s.rd v.rd).lastVdevLockSeq := by
    simp [t]
  refine show Objects t from ⟨fun b hb => ?_,fun r id b hr' hm => ?_,fun r hr' => ?_,fun b hb => ?_,fun r hr' => ?_⟩
  · obtain ⟨hba,hb⟩ := (hvdevs b).mp hb
    obtain ⟨h1,h2⟩ := h.mapped b hb
    refine ⟨(hreal _).mpr h1,?_⟩
    show (t.rd (s.vdev b).rd).vdevMap (s.vdev b).id = some b
    rw [hmap,if_neg]
    · exact h2
    · rintro ⟨h3,h4⟩
      rw [h3,h4,hmapped] at h2
      exact hba (Option.some.inj h2).symm
  · rw [hmap] at hm
    split at hm
    · cases hm
    next hx =>
    obtain ⟨h1,h2,h3⟩ := h.back r id b ((hreal r).mp hr') hm
    refine ⟨(hvdevs b).mpr ⟨?_,h1⟩,h2,h3⟩
    rintro rfl
    exact hx ⟨by rw [← h2,hv],by rw [← h3,hv]⟩
  · obtain ⟨l,hl,hn,hmem⟩ := h.counted r ((hreal r).mp hr')
    by_cases hrr : r = v.rd
    · subst hrr
      have hal : a ∈ l := (hmem a).mpr ⟨ha,by rw [hv]⟩
      refine ⟨l.erase a,hl.erase a,by rw [hself.1,← hn,List.length_erase_of_mem hal],fun b => ?_⟩
      rw [hl.mem_erase_iff,hmem,hvdevs]
      exact ⟨fun ⟨h1,h2,h3⟩ => ⟨⟨h1,h2⟩,h3⟩,fun ⟨⟨h1,h2⟩,h3⟩ => ⟨h1,h2,h3⟩⟩
    · refine ⟨l,hl,by rw [hother r hrr]; exact hn,fun b => ?_⟩
      rw [hmem,hvdevs]
      refine ⟨fun ⟨h1,h2⟩ => ⟨⟨?_,h1⟩,h2⟩,fun ⟨⟨_,h1⟩,h2⟩ => ⟨h1,h2⟩⟩
      rintro rfl
      exact hrr (by rw [← h2,hv])
  · exact h.sane b ((hvdevs b).mp hb).2
  · have hr' := (hreal r).mp hr'
    by_cases hrr : r = v.rd
    · subst hrr
      rw [hself.2]
      exact h.lastLock _ hr'
    · rw [hother r hrr]
      exact h.lastLock r hr'

theorem Objects.setSmmu (h : Objects s) (i : Nat) (t : StreamTable) : Objects (s.setSmmu i t) :=
  h.transfer (.setSmmu i t) h.sane h.lastLock

theorem Objects.record (h : Objects s) (e : Renewal) : Objects (s.record e) :=
  ⟨h.mapped,h.back,h.counted,h.sane,h.lastLock⟩

theorem Objects.effect (h : Objects s) (he : Effect s c s') : Objects s' := by
  cases he with
  | same => exact h
  | granule a g ha hg => exact h.transfer (.setGranule ha hg) h.sane h.lastLock
  | pdev a x => exact h.transfer (.setPdev a x) h.sane h.lastLock
  | pdevCreate a x ha =>
    have h' : Objects (s.setPdev a x) := h.transfer (.setPdev a x) h.sane h.lastLock
    refine h'.transfer (.setGranule ?_ (by simp)) h'.sane h'.lastLock
    show s.granule a ≠ .rd ∧ s.granule a ≠ .vdev
    rw [ha]
    simp
  | realmCreate a m n d ha => exact h.realmCreate ha
  | realmDestroy a ha hv => exact h.realmDestroy ha hv
  | psmmu i op => exact h.setSmmu i _
  | move a p x v v' ha hv hm =>
    exact h.setVdev (.setPdev p x) rfl (by rw [hv]; exact hm.sameVdev)
      (fun _ => hm.sane (by rw [← hv]; exact h.sane a ha)) h.lastLock
  | renew a p x v r f st ha hv hr hcomm hf =>
    have hsane : v.Sane := by rw [← hv]; exact h.sane a ha
    have hlast := h.lastLock _ hr
    refine Objects.record (h.setVdev ((SameObjects.setPdev p x).setRd rfl hf.realm.1 hf.realm.2.1) rfl ?_
      (fun _ => hf.sane hsane hlast) fun b hb => ?_) _
    · rw [hv]
      exact ⟨rfl,rfl,rfl,rfl⟩
    show (update s.rd v.rd r b).lastVdevLockSeq ≤ seqMax
    rw [update_apply]
    split
    · exact hf.realm.2.2.2.2 hlast
    · exact h.lastLock b hb
  | toggle a v b ha hq hb | release a v ha hv hq => exact h.setSmmu _ _
  | dma a v b ha hb =>
    obtain ⟨hvdev,hv⟩ := h.held ha
    exact h.setVdev (.setSmmu _ _) rfl (by rw [hv]; exact ⟨rfl,rfl,rfl,rfl⟩)
      (fun _ => Vdev.Sane.setDma (by rw [← hv]; exact h.sane a hvdev) b) h.lastLock
  | unlockDma a v ha hv hidle hst =>
    have hsane : v.Sane := by rw [← hv]; exact h.sane a ha
    exact h.setVdev (.setSmmu _ _) rfl (by rw [hv]; exact ⟨rfl,rfl,rfl,rfl⟩)
      (fun _ => Move.sane (hsane.setDma false) (.unlock hidle rfl hst)) h.lastLock
  | create rd p a sid i slot x hr ha hi hready hz hid => exact (h.setSmmu i _).insertVdev hr ha hid
  | destroy p a v ha hv hr hst hoff => exact (h.setSmmu _ _).removeVdev ha hv

theorem objects_initial (h : s.Initial) : Objects s := by
  have hv : ∀ a, s.granule a ≠ .vdev := fun a => (plain_ne (h.granule a)).2
  have hr : ∀ a, s.granule a ≠ .rd := fun a => (plain_ne (h.granule a)).1
  exact ⟨fun a ha => absurd ha (hv a),fun r _ _ hr' => absurd hr' (hr r),fun r hr' => absurd hr' (hr r),
    fun a ha => absurd ha (hv a),fun r hr' => absurd hr' (hr r)⟩

end TfRmm.Da
