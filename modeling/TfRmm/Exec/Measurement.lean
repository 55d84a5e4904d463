import TfRmm.Exec.Machine

namespace TfRmm.Exec.Measurement

open TfRmm.Arch

variable {V : Type}

inductive HashAlgo where
  | sha256
  | sha512
  | sha384
  deriving DecidableEq

def measurementGetSize : HashAlgo → Nat
  | .sha256 => 32
  | .sha512 => 64
  | .sha384 => 48

def measurementSlotNr : Nat := 5
def maxMeasurementWords : Nat := 64 / 8
def smcResultRegs : Nat := 8

structure Rd where
  algorithm : HashAlgo
  measurement : Nat → Nat → Word

def words (rd : Rd) : Nat := measurementGetSize rd.algorithm / 8

def copyLoop (src : Nat → Word) (first last : Nat) (dst : Nat → Word) : Nat → Word :=
  (List.range' first (last-first)).foldl (fun d i => Function.update d (i+1) (src i)) dst

theorem foldl_update_apply (src : Nat → Word) (j first n : Nat) (dst : Nat → Word) :
    (List.range' first n).foldl (fun d i => Function.update d (i+1) (src i)) dst j =
      if first < j ∧ j ≤ first+n then src (j-1) else dst j := by
  induction n generalizing first dst with
  | zero =>
    have : ¬ (first < j ∧ j ≤ first+0) := by omega
    rw [if_neg this]
    rfl
  | succ n ih =>
    rw [List.range'_succ,List.foldl_cons,ih]
    by_cases hj : j = first+1
    · subst hj
      have h₁ : ¬ (first+1 < first+1 ∧ first+1 ≤ first + 1 + n) := by omega
      have h₂ : first < first+1 ∧ first+1 ≤ first+(n+1) := by omega
      rw [if_neg h₁,if_pos h₂]
      simp
    · rw [Function.update_of_ne hj]
      have : (first+1 < j ∧ j ≤ first + 1 + n) ↔ (first < j ∧ j ≤ first+(n+1)) := by omega
      simp only [this]

theorem copyLoop_apply (src : Nat → Word) (first last j : Nat) (dst : Nat → Word) : copyLoop src first last dst j =
      if first < j ∧ j ≤ last then src (j-1) else dst j := by
  rw [copyLoop,foldl_update_apply]
  have : (first < j ∧ j ≤ first+(last-first)) ↔ (first < j ∧ j ≤ last) := by omega
  simp only [this]

def resWords (rd : Rd) : Nat :=
  if words rd < smcResultRegs-1 then words rd else smcResultRegs-1

def resultSlots (rd : Rd) (idx : Nat) (x : Nat → Word) : Nat → Word :=
  Function.update (copyLoop (rd.measurement idx) 0 (resWords rd) x) 0 rsiSuccess

def planeRegs (rd : Rd) (idx : Nat) (regs : Nat → Word) : Nat → Word :=
  copyLoop (fun _ => 0) (words rd) maxMeasurementWords
    (copyLoop (rd.measurement idx) (resWords rd) (words rd) regs)

def handleRsiMeasurementRead (rd : Rd) (x : Nat → Word) (m : Machine V) : Machine V × RsiResult :=
  let plane := m.r.activePlane
  let idx := (plane.regs 1).toNat
  if measurementSlotNr ≤ idx then
    (m,.returnToRealm (Function.update x 0 rsiErrorInput))
  else
    (m.setPlane { plane with regs := planeRegs rd idx plane.regs },
      .returnToRealm (resultSlots rd idx x))

def prefill (regs : Nat → Word) : Nat → Word :=
  fun i => if 4 ≤ i ∧ i < smcResultRegs then regs i else 0

def rsiMeasurementRead (rd : Rd) (m : Machine V) : Machine V × Cont :=
  let plane := m.r.activePlane
  let (m,res) := handleRsiMeasurementRead rd (prefill plane.regs) m
  m.rsiFinish (functionId (plane.regs 0)) plane res

def regsAfter (rd : Rd) (m : Machine V) : Nat → Word :=
  (rsiMeasurementRead rd m).1.r.activePlane.regs

def ZeroExtended (rd : Rd) (idx : Nat) (before after : Nat → Word) : Prop :=
  (∀ i, 1 ≤ i → i ≤ 8 → after i = if i ≤ words rd then rd.measurement idx (i-1) else 0) ∧
  ∀ i, 8 < i → after i = before i

def StaleFree (rd : Rd) (before : Nat → Word) : Prop :=
  ∀ i, words rd < i → i < smcResultRegs → before i = 0

theorem words_bounds (rd : Rd) : 4 ≤ words rd ∧ words rd ≤ 8 := by
  unfold words
  cases rd.algorithm <;> decide

theorem regsAfter_of_result (rd : Rd) (m m' : Machine V) (x : Nat → Word)
    (h : handleRsiMeasurementRead rd (prefill m.r.activePlane.regs) m = (m',.returnToRealm x)) (i : Nat) :
    regsAfter rd m i = if i < smcResultRegs then x i else m'.r.activePlane.regs i := by
  simp only [regsAfter,rsiMeasurementRead,h,Machine.rsiFinish,Machine.rsiUpdateRec,Machine.rsiAdvance,
    RsiResult.returnToRealm,RsiAction.updateRec,if_true,Machine.setPlane,
    Rec.activePlane_setActivePlane]
  rfl

variable {rd : Rd} {m : Machine V} {i : Nat}

theorem index_of_success (h : regsAfter rd m 0 = rsiSuccess) : (m.r.activePlane.regs 1).toNat < measurementSlotNr := by
  by_contra hidx
  have hres : handleRsiMeasurementRead rd (prefill m.r.activePlane.regs) m =
      (m,.returnToRealm (Function.update (prefill m.r.activePlane.regs) 0 rsiErrorInput)) := by
    rw [handleRsiMeasurementRead,if_pos (by omega)]
  rw [regsAfter_of_result rd m m _ hres] at h
  exact absurd h (by simp [smcResultRegs,rsiErrorInput,rsiSuccess])

theorem regsAfter_apply (h : (m.r.activePlane.regs 1).toNat < measurementSlotNr) (i : Nat) : regsAfter rd m i =
      if i < smcResultRegs then resultSlots rd (m.r.activePlane.regs 1).toNat (prefill m.r.activePlane.regs) i
      else planeRegs rd (m.r.activePlane.regs 1).toNat m.r.activePlane.regs i := by
  have hres : handleRsiMeasurementRead rd (prefill m.r.activePlane.regs) m = (m.setPlane { m.r.activePlane with
        regs := planeRegs rd (m.r.activePlane.regs 1).toNat m.r.activePlane.regs },
        .returnToRealm (resultSlots rd (m.r.activePlane.regs 1).toNat (prefill m.r.activePlane.regs))) := by
    rw [handleRsiMeasurementRead,if_neg (by omega)]
  rw [regsAfter_of_result rd m _ _ hres]
  simp only [Machine.setPlane,Rec.activePlane_setActivePlane]

theorem resultSlots_apply (rd : Rd) (idx i : Nat) (x : Nat → Word) (h : 1 ≤ i) :
    resultSlots rd idx x i = if i ≤ resWords rd then rd.measurement idx (i-1) else x i := by
  have h0 : i ≠ 0 := by omega
  rw [resultSlots,Function.update_of_ne h0,copyLoop_apply]
  simp only [show (0 < i) from h,true_and]

theorem resWords_eq (rd : Rd) : resWords rd = min (words rd) 7 := by
  unfold resWords smcResultRegs
  split <;> omega

theorem regsAfter_low (h : (m.r.activePlane.regs 1).toNat < measurementSlotNr) (h1 : 1 ≤ i) (h8 : i < 8) :
    regsAfter rd m i =
      if i ≤ words rd then rd.measurement (m.r.activePlane.regs 1).toNat (i-1)
      else m.r.activePlane.regs i := by
  have hb := words_bounds rd
  rw [regsAfter_apply h,if_pos (show i < smcResultRegs from h8),resultSlots_apply rd _ i _ h1,resWords_eq]
  by_cases hi : i ≤ words rd
  · rw [if_pos (by omega),if_pos hi]
  · rw [if_neg (by omega),if_neg hi,prefill,if_pos ⟨by omega,h8⟩]

theorem regsAfter_high (h : (m.r.activePlane.regs 1).toNat < measurementSlotNr) (h8 : 8 ≤ i) : regsAfter rd m i =
      if i ≤ words rd then rd.measurement (m.r.activePlane.regs 1).toNat (i-1)
      else if i = 8 then 0 else m.r.activePlane.regs i := by
  have hb := words_bounds rd
  have hge : ¬ i < smcResultRegs := by unfold smcResultRegs; omega
  rw [regsAfter_apply h,if_neg hge,planeRegs,copyLoop_apply,copyLoop_apply,resWords_eq]
  by_cases hi : i ≤ words rd
  · rw [if_neg (by omega),if_pos ⟨by omega,hi⟩,if_pos hi]
  rw [if_neg (show ¬ (min (words rd) 7 < i ∧ i ≤ words rd) by omega),if_neg hi]
  by_cases he : i = 8
  · rw [if_pos ⟨by omega,by simp [maxMeasurementWords,he]⟩,if_pos he]
  · rw [if_neg (by simp only [maxMeasurementWords]; omega),if_neg he]

theorem measurement_read_zero_extended_iff (rd : Rd) (m : Machine V) (hsuccess : regsAfter rd m 0 = rsiSuccess) :
    ZeroExtended rd (m.r.activePlane.regs 1).toNat m.r.activePlane.regs (regsAfter rd m) ↔
      StaleFree rd m.r.activePlane.regs := by
  have hidx := index_of_success hsuccess
  have hb := words_bounds rd
  constructor
  · rintro ⟨hlow,_⟩ i hw h8
    have hi : ¬ i ≤ words rd := by omega
    have hzero := hlow i (by omega) (by unfold smcResultRegs at h8; omega)
    rwa [regsAfter_low hidx (by omega) h8,if_neg hi,if_neg hi] at hzero
  · intro hstale
    refine ⟨fun i h1 h8 => ?_,fun i h8 => ?_⟩
    · by_cases hlt : i < 8
      · rw [regsAfter_low hidx h1 hlt]
        by_cases hi : i ≤ words rd
        · rw [if_pos hi,if_pos hi]
        · rw [if_neg hi,if_neg hi]
          exact hstale i (by omega) hlt
      · rw [regsAfter_high hidx (by omega),if_pos (show i = 8 by omega)]
    · rw [regsAfter_high hidx (by omega),if_neg (by omega),if_neg (by omega)]

section Instances

def zeroPlane : RecPlane where
  regs := fun _ => 0
  pstate := 0
  pc := 0
  trapHc := false
  trapSimd := false
  trapWfi := false
  trapWfe := false
  lastRunInfo := ⟨0,0,0⟩

def zeroEl1 : El1Regs := ⟨0,0,0,0,0,0,0⟩

def freshMachine (regs : Nat → Word) : Machine Unit where
  r := {
    refcount := 1
    plane0 := { zeroPlane with regs := regs }
    plane1 := zeroPlane
    sysregs := fun _ => ⟨zeroEl1,0,0⟩
    commonHcrEl2 := 0
    requests := ⟨⟨0,0,0,.empty⟩,⟨0,0,0⟩,⟨0,0,0,0⟩,false,true⟩
    realmInfo := ⟨40,0,false,⟨false,false⟩⟩
    simdCtx := ⟨true,true,()⟩
    activeSimdCtx := none
    serrorVsesr := 0
    serrorInject := false
    hostCall := false
    activePlaneId := 0
    gicOwner := 0 }
  cpu := ⟨(),true,none,⟨true,true,()⟩,false⟩
  live := ⟨zeroEl1,0,0,0,0,0,0,0⟩
  exit := .zero
  assertFailed := false

def sha256Rd : Rd := ⟨.sha256,fun _ i => BitVec.ofNat 64 (i+1)⟩

end Instances

theorem measurement_read_sha256_cleared : regsAfter sha256Rd (freshMachine fun _ => 0) 0 = rsiSuccess ∧
      ZeroExtended sha256Rd 0 (fun _ => 0) (regsAfter sha256Rd (freshMachine fun _ => 0)) :=
  ⟨rfl,(measurement_read_zero_extended_iff sha256Rd (freshMachine fun _ => 0) rfl).mpr fun _ _ _ => rfl⟩

theorem measurement_read_keeps_stale_register :
    regsAfter sha256Rd (freshMachine fun i => if i = 5 then 7 else 0) 0 = rsiSuccess ∧
      regsAfter sha256Rd (freshMachine fun i => if i = 5 then 7 else 0) 5 = 7 ∧
      ¬ ZeroExtended sha256Rd 0 (fun i => if i = 5 then 7 else 0)
        (regsAfter sha256Rd (freshMachine fun i => if i = 5 then 7 else 0)) := by
  refine ⟨rfl,rfl,fun h => ?_⟩
  have h5 := h.1 5 (by decide) (by decide)
  cases h5

end TfRmm.Exec.Measurement
