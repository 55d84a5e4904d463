import TfRmm.Lib.Transition
import TfRmm.Rtt.Map

namespace TfRmm.Rtt.Rmm

open TfRmm.S2tt

variable (s : Rmm) (t i : Nat) (q n x : Nat)

@[simp] theorem setEntry_frame (e : S2tte) : (s.setEntry t i e).granule = s.granule ∧ (s.setEntry t i e).sro = s.sro :=
  ⟨rfl,rfl⟩

@[simp] theorem putRef_frame (q n : Nat) : (s.putRef q n).entry = s.entry ∧ (s.putRef q n).sro = s.sro := ⟨rfl,rfl⟩

@[simp] theorem setSro_frame (h : Nat) (c : Sro) : (s.setSro h c).granule = s.granule ∧ (s.setSro h c).tracking = s.tracking
    ∧ (s.setSro h c).entry = s.entry ∧ (s.setSro h c).rd = s.rd ∧ (s.setSro h c).content = s.content :=
  ⟨rfl,rfl,rfl,rfl,rfl⟩

theorem setEntry_entry (e : S2tte) (t' i' : Nat) :
    (s.setEntry t i e).entry t' i' = if t' = t ∧ i' = i then e else s.entry t' i' := by
  by_cases ht : t' = t
  · subst ht
    simp [setEntry,Function.update_apply]
  · simp [setEntry,ht]

@[simp] theorem setState_state (q : Nat) (st : GranuleState) (x : Nat) :
    ((s.setState q st).granule x).state = if x = q then st else (s.granule x).state := by
  by_cases h : x = q <;> simp [setState,h]

@[simp] theorem setState_refcount (q : Nat) (st : GranuleState) (x : Nat) :
    ((s.setState q st).granule x).refcount = (s.granule x).refcount := by
  by_cases h : x = q <;> simp [setState,h]

@[simp] theorem setRange_state (lo n : Nat) (st : GranuleState) (x : Nat) : ((s.setRange lo n st).granule x).state =
      if lo ≤ x ∧ x < lo+n ∧ x % granuleSize = 0 then st else (s.granule x).state := by
  unfold setRange
  dsimp only
  split <;> rfl

@[simp] theorem setRange_refcount (lo n : Nat) (st : GranuleState) (x : Nat) :
    ((s.setRange lo n st).granule x).refcount = (s.granule x).refcount := by
  unfold setRange
  dsimp only
  split <;> rfl

@[simp] theorem getRef_refcount :
    ((s.getRef q n).granule x).refcount = (s.granule x).refcount + if x = q then n else 0 := by
  by_cases h : x = q <;> simp [getRef,h]

@[simp] theorem putRef_state : ((s.putRef q n).granule x).state = (s.granule x).state := by
  by_cases h : x = q <;> simp [putRef,h]

@[simp] theorem putRef_refcount :
    ((s.putRef q n).granule x).refcount = (s.granule x).refcount - if x = q then n else 0 := by
  by_cases h : x = q <;> simp [putRef,h]

@[simp] theorem setSro_sro (h : Nat) (c : Sro) (x : Nat) : (s.setSro h c).sro x = if x = h then c else s.sro x :=
  Function.update_apply ..

@[simp] theorem write_content (q v x : Nat) : (s.write q v).content x = if x = q then v else s.content x :=
  Function.update_apply ..

end TfRmm.Rtt.Rmm
