import TfRmm.Arch.Syndrome
import TfRmm.Overlay.Effects

namespace TfRmm.S2tt.Descriptor

open TfRmm.Arch

def nsBit : Word := bit 55
def afBit : Word := bit 10
def descTypeMask : Word := 3
def descValidMask : Word := 1
def l012Block : Word := 1
def l012Table : Word := 3
def l3Page : Word := 3
def hipasMask : Word := mask 3 3
def hipasUnassigned : Word := inplace 3 0
def hipasAssigned : Word := inplace 3 1
def hipasAssignedDev : Word := inplace 3 3
def ripasMask : Word := mask 1 2
def ripasEmpty : Word := inplace 1 0
def ripasRam : Word := inplace 1 1
def ripasDestroyed : Word := inplace 1 2
def memattrMask : Word := mask 2 3
def memattrFwbNc : Word := bit 4 ||| inplace 2 1
def memattrFwbNormalWb : Word := bit 4 ||| inplace 2 2
def memattrDevCoh : Word := bit 4 ||| inplace 2 3
def shMask : Word := mask 8 2
def shOs : Word := inplace 8 2
def shIs : Word := inplace 8 3
def devAttrsMask : Word := nsBit ||| afBit
def devCohAttrs : Word := afBit ||| memattrDevCoh
def devNcohAttrs : Word := afBit ||| memattrFwbNc
def dirtyBit : Word := bit 7
def rwApMask : Word := mask 6 2
def permXnMask : Word := mask 53 2
def permXnuXnpWord : Word := inplace 53 2
def poIndexMask : Word := mask 59 4
def piIndexMask : Word := bit 6 ||| bit 51 ||| bit 53 ||| bit 54
def drainPendingBit : Word := bit 32
def tlbiPendingBit : Word := bit 33
def drainMask : Word := drainPendingBit ||| tlbiPendingBit ||| mask 16 16

structure Ctx where
  lpa2 : Bool
  indirectS2ap : Bool
  overlayPerm : Nat

def sharable (lpa2 : Bool) (w : Word) : Word := if lpa2 then 0 else w

section Constructors

variable (c : Ctx) (pa : Word) (ap : Word) (s2tte : Word) (level : Int)

def s2tteSetPiIndex (idx : Nat) : Word :=
  s2tte &&& ~~~piIndexMask ||| (inplace 6 (idx % 2) ||| inplace 51 (idx / 2 % 2) |||
    inplace 53 (idx / 4 % 2) ||| inplace 54 (idx / 8 % 2))

def s2tteSetPoIndex (idx : Nat) : Word := s2tte &&& ~~~poIndexMask ||| inplace 59 idx

def paToS2tte : Word :=
  if c.lpa2 then pa &&& ~~~mask 50 2 ||| inplace 8 (extract 50 2 (pa &&& mask 12 40)) else pa

def s2tteGetAp (dev : Bool) : Word :=
  if c.indirectS2ap then
    s2tteSetPiIndex (s2tte &&& poIndexMask ||| dirtyBit) (if dev then devDefBasePermIdx else defBasePermIdx)
  else s2tte &&& rwApMask ||| (if dev then permXnuXnpWord else s2tte &&& permXnMask)

def s2tteCreateUnassignedEmpty : Word := s2tteGetAp c ap false ||| (hipasUnassigned ||| ripasEmpty)

def s2tteCreateUnassignedRam : Word := hipasUnassigned ||| ripasRam ||| s2tteGetAp c ap false

def s2tteCreateUnassignedDestroyed : Word :=
  s2tteGetAp c ap false ||| (hipasUnassigned ||| ripasDestroyed)

def s2tteCreateUnassignedNs : Word := nsBit ||| hipasUnassigned

def leafType : Word := if level = 3 then l3Page else l012Block

def s2tteCreateAssigned (ripas : Word) : Word :=
  if ripas = ripasRam then
    paToS2tte c pa ||| (memattrFwbNormalWb ||| afBit ||| sharable c.lpa2 shIs ||| leafType level)
  else paToS2tte c pa ||| hipasAssigned ||| ripas

def s2tteCreateAssignedDestroyed (ap : Word) : Word :=
  s2tteGetAp c ap false ||| s2tteCreateAssigned c pa level ripasDestroyed

def s2tteCreateAssignedEmpty (ap : Word) : Word :=
  s2tteGetAp c ap false ||| s2tteCreateAssigned c pa level ripasEmpty

def s2tteCreateAssignedRam (ap : Word) : Word :=
  s2tteCreateAssigned c pa level ripasRam ||| s2tteGetAp c ap false

def s2tteCreateAssignedUnchanged (s2tte pa : Word) (level : Int) : Word :=
  s2tteCreateAssigned c pa level (s2tte &&& ripasMask) ||| s2tteGetAp c s2tte false

def s2tteCreateAssignedDev (pa ripas : Word) : Word := paToS2tte c pa ||| hipasAssignedDev ||| ripas

def s2tteCreateAssignedDevEmpty (pa ap : Word) : Word :=
  s2tteGetAp c ap true ||| s2tteCreateAssignedDev c pa ripasEmpty

def s2tteCreateAssignedDevDestroyed (pa ap : Word) : Word :=
  s2tteGetAp c ap true ||| s2tteCreateAssignedDev c pa ripasDestroyed

def s2tteCreateAssignedDevUnchanged (s2tte pa : Word) : Word :=
  s2tteCreateAssignedDev c pa (s2tte &&& ripasMask) ||| s2tteGetAp c s2tte true

def createAssignedDevDevAttr (pa attr : Word) (level : Int) (ap : Word) : Word :=
  attr ||| paToS2tte c pa ||| s2tteGetAp c ap true ||| leafType level

def s2tteCreateAssignedDevDevFromPa (pa source : Word) (level : Int) (ap : Word) : Word :=
  createAssignedDevDevAttr c pa (source &&& (devAttrsMask ||| memattrMask ||| sharable c.lpa2 shMask)) level ap

def s2tteCreateAssignedDevDevCohType (coherent : Bool) (ap : Word) : Word :=
  createAssignedDevDevAttr c pa
    (if coherent then devCohAttrs ||| sharable c.lpa2 shIs else devNcohAttrs ||| sharable c.lpa2 shOs) level ap

def s2tteCreateAssignedNs (level : Int) : Word :=
  let new := s2tte &&& ~~~descTypeMask ||| sharable c.lpa2 shIs
  let new := if c.indirectS2ap then s2tteSetPoIndex (new ||| dirtyBit) Overlay.defUnprotOverlayIdx
    else new &&& ~~~permXnMask ||| permXnuXnpWord
  new ||| (afBit ||| nsBit ||| leafType level)

def s2tteCreateTable : Word := paToS2tte c pa ||| l012Table

def permWord (p : Overlay.Perm) : Word :=
  (if p.r then bit 6 else 0) ||| (if p.w then bit 7 else 0) ||| inplace 53 p.xn

def s2tteUpdateProtAp (baseIndex overlayIndex : Nat) : Word :=
  if c.indirectS2ap then s2tteSetPoIndex (s2tteSetPiIndex s2tte baseIndex) overlayIndex
  else s2tte &&& ~~~(rwApMask ||| permXnMask) |||
    permWord (Overlay.flattenedAp c.overlayPerm baseIndex overlayIndex)

def s2tteSetDrainPending (handle : Nat) : Word :=
  s2tte &&& ~~~drainMask ||| drainPendingBit ||| inplace 16 handle

def s2tteClearDrainPending : Word := s2tte &&& ~~~drainMask

def s2tteSetTlbiPending : Word := s2tte ||| tlbiPendingBit

def s2tteClearTlbiPending : Word := s2tte &&& ~~~tlbiPendingBit

end Constructors

def s2tteHasHipas (s2tte hipas : Word) : Bool := s2tte &&& descValidMask == 0 && s2tte &&& hipasMask == hipas

def s2tteHasRipas (s2tte hipas ripas : Word) : Bool := s2tte &&& ripasMask == ripas && s2tteHasHipas s2tte hipas

section Kinds

variable (s2tte : Word) (level : Int)

def s2tteIsUnassignedEmpty : Bool :=
  s2tte &&& nsBit == 0 && s2tteHasRipas s2tte hipasUnassigned ripasEmpty

def s2tteIsUnassignedRam : Bool := s2tteHasRipas s2tte hipasUnassigned ripasRam

def s2tteIsUnassignedDestroyed : Bool := s2tteHasRipas s2tte hipasUnassigned ripasDestroyed

def s2tteIsUnassignedNs : Bool := s2tte &&& nsBit != 0 && s2tteHasHipas s2tte hipasUnassigned

def invalidWith (s2tte hipas ripas : Word) : Bool :=
  s2tte &&& descValidMask == 0 && s2tteHasRipas s2tte hipas ripas

def s2tteIsAssignedDestroyed : Bool := invalidWith s2tte hipasAssigned ripasDestroyed

def s2tteIsAssignedEmpty : Bool := invalidWith s2tte hipasAssigned ripasEmpty

def s2tteIsAssignedDevEmpty : Bool := invalidWith s2tte hipasAssignedDev ripasEmpty

def s2tteIsAssignedDevDestroyed : Bool := invalidWith s2tte hipasAssignedDev ripasDestroyed

def devAttr : Word := s2tte &&& (devAttrsMask ||| memattrMask)

def leafTypeAt : Bool :=
  if level = 3 then s2tte &&& descTypeMask == l3Page else 1 ≤ level && s2tte &&& descTypeMask == l012Block

def s2tteCheckAssignedRamOrNs (ns : Word) : Bool :=
  s2tte &&& nsBit == ns && !(devAttr s2tte == devCohAttrs || devAttr s2tte == devNcohAttrs) &&
    leafTypeAt s2tte level

def s2tteIsAssignedRam : Bool := s2tteCheckAssignedRamOrNs s2tte level 0

def s2tteIsAssignedNs : Bool := s2tteCheckAssignedRamOrNs s2tte level nsBit

def devLeafType : Bool :=
  level == 3 && s2tte &&& descTypeMask == l3Page ||
    1 ≤ level && level < 3 && s2tte &&& descTypeMask == l012Block

def s2tteIsAssignedDevDev : Bool :=
  devLeafType s2tte level && (devAttr s2tte == devCohAttrs || devAttr s2tte == devNcohAttrs)

def devDevAsserts (lpa2 : Bool) (s2tte : Word) (level : Int) : Bool :=
  lpa2 || !s2tteIsAssignedDevDev s2tte level ||
    s2tte &&& shMask == (if devAttr s2tte == devCohAttrs then shIs else shOs)

def s2tteIsTable : Bool := level < 3 && s2tte &&& descTypeMask == l012Table

inductive Kind where
  | unassignedEmpty
  | unassignedRam
  | unassignedDestroyed
  | unassignedNs
  | assignedEmpty
  | assignedRam
  | assignedDestroyed
  | assignedNs
  | assignedDevEmpty
  | assignedDevDestroyed
  | assignedDevDev
  | table
  deriving DecidableEq

def is : Kind → Bool
  | .unassignedEmpty => s2tteIsUnassignedEmpty s2tte
  | .unassignedRam => s2tteIsUnassignedRam s2tte
  | .unassignedDestroyed => s2tteIsUnassignedDestroyed s2tte
  | .unassignedNs => s2tteIsUnassignedNs s2tte
  | .assignedEmpty => s2tteIsAssignedEmpty s2tte
  | .assignedRam => s2tteIsAssignedRam s2tte level
  | .assignedDestroyed => s2tteIsAssignedDestroyed s2tte
  | .assignedNs => s2tteIsAssignedNs s2tte level
  | .assignedDevEmpty => s2tteIsAssignedDevEmpty s2tte
  | .assignedDevDestroyed => s2tteIsAssignedDevDestroyed s2tte
  | .assignedDevDev => s2tteIsAssignedDevDev s2tte level
  | .table => s2tteIsTable s2tte level

end Kinds

def readEntryOrder : List Kind :=
  [.unassignedEmpty,.unassignedRam,.unassignedDestroyed,.assignedEmpty,.assignedRam,.assignedDestroyed,
    .assignedDevEmpty,.assignedDevDestroyed,.assignedDevDev,.unassignedNs,.assignedNs,.table]

def rttCreateOrder : List Kind :=
  [.unassignedEmpty,.unassignedRam,.unassignedNs,.unassignedDestroyed,.assignedDestroyed,.assignedEmpty,
    .assignedRam,.assignedNs,.assignedDevEmpty,.assignedDevDestroyed,.assignedDevDev,.table]

structure OutputAddress (c : Ctx) (level : Int) (pa : Word) : Prop where
  leaf : 1 ≤ level
  aligned : pa.toNat % 2 ^ (12 + 9 * (3-level).toNat) = 0
  bounded : pa.toNat < 2 ^ (if c.lpa2 then 52 else 48)

inductive Made (c : Ctx) : Int → Kind → Word → Prop
  | unassignedEmpty (ap : Word) : Made c level .unassignedEmpty (s2tteCreateUnassignedEmpty c ap)
  | unassignedRam (ap : Word) : Made c level .unassignedRam (s2tteCreateUnassignedRam c ap)
  | unassignedDestroyed (ap : Word) : Made c level .unassignedDestroyed (s2tteCreateUnassignedDestroyed c ap)
  | unassignedNs : Made c level .unassignedNs s2tteCreateUnassignedNs
  | assignedEmpty (hpa : OutputAddress c level pa) (ap : Word) :
      Made c level .assignedEmpty (s2tteCreateAssignedEmpty c pa level ap)
  | assignedRam (hpa : OutputAddress c level pa) (ap : Word) :
      Made c level .assignedRam (s2tteCreateAssignedRam c pa level ap)
  | assignedDestroyed (hpa : OutputAddress c level pa) (ap : Word) :
      Made c level .assignedDestroyed (s2tteCreateAssignedDestroyed c pa level ap)
  | assignedNs (hl : 1 ≤ level) (s2tte : Word) : Made c level .assignedNs (s2tteCreateAssignedNs c s2tte level)
  | assignedDevEmpty (hpa : OutputAddress c level pa) (ap : Word) :
      Made c level .assignedDevEmpty (s2tteCreateAssignedDevEmpty c pa ap)
  | assignedDevDestroyed (hpa : OutputAddress c level pa) (ap : Word) :
      Made c level .assignedDevDestroyed (s2tteCreateAssignedDevDestroyed c pa ap)
  | devCohType (hpa : OutputAddress c level pa) (coherent : Bool) (ap : Word) :
      Made c level .assignedDevDev (s2tteCreateAssignedDevDevCohType c pa level coherent ap)
  | devFromPa (hpa : OutputAddress c level pa) (h : Made c level' .assignedDevDev source) (ap : Word) :
      Made c level .assignedDevDev (s2tteCreateAssignedDevDevFromPa c pa source level ap)
  | emptyUnchanged (hpa : OutputAddress c level pa) (h : s2tte &&& ripasMask = ripasEmpty) :
      Made c level .assignedEmpty (s2tteCreateAssignedUnchanged c s2tte pa level)
  | ramUnchanged (hpa : OutputAddress c level pa) (h : s2tte &&& ripasMask = ripasRam) :
      Made c level .assignedRam (s2tteCreateAssignedUnchanged c s2tte pa level)
  | destroyedUnchanged (hpa : OutputAddress c level pa) (h : s2tte &&& ripasMask = ripasDestroyed) :
      Made c level .assignedDestroyed (s2tteCreateAssignedUnchanged c s2tte pa level)
  | devEmptyUnchanged (hpa : OutputAddress c level pa) (h : s2tte &&& ripasMask = ripasEmpty) :
      Made c level .assignedDevEmpty (s2tteCreateAssignedDevUnchanged c s2tte pa)
  | devDestroyedUnchanged (hpa : OutputAddress c level pa) (h : s2tte &&& ripasMask = ripasDestroyed) :
      Made c level .assignedDevDestroyed (s2tteCreateAssignedDevUnchanged c s2tte pa)
  | table (hl : level < 3) (hpa : OutputAddress c 3 pa) : Made c level .table (s2tteCreateTable c pa)
  | updateProtAp (h : Made c level k d) (base : Nat) (hoverlay : overlay < 16) :
      Made c level k (s2tteUpdateProtAp c d base overlay)
  | setDrainPending (h : Made c level k d) (hhandle : handle < 2 ^ 16) :
      Made c level k (s2tteSetDrainPending d handle)
  | clearDrainPending (h : Made c level k d) : Made c level k (s2tteClearDrainPending d)
  | setTlbiPending (h : Made c level k d) : Made c level k (s2tteSetTlbiPending d)
  | clearTlbiPending (h : Made c level k d) : Made c level k (s2tteClearTlbiPending d)

structure Partitioned (c : Ctx) (level : Int) (k : Kind) (s2tte : Word) : Prop where
  own : ∀ k',is s2tte level k' = decide (k' = k)
  asserts : devDevAsserts c.lpa2 s2tte level
  readEntry : readEntryOrder.find? (is s2tte level) = some k
  rttCreate : rttCreateOrder.find? (is s2tte level) = some k

def sig (lpa2 : Bool) : Word := mask 0 6 ||| bit 10 ||| bit 55 ||| sharable lpa2 shMask

section Words

variable {lpa2 : Bool} {c : Ctx} {shift width v : Nat} {x m n w d l : Word} {level : Int}

theorem inplace_masked (hv : v < 2 ^ width) : inplace shift v = inplace shift v &&& mask shift width := by
  apply BitVec.eq_of_getLsbD_eq
  intro i hi
  simp only [inplace,BitVec.getLsbD_and,getLsbD_mask,BitVec.getLsbD_ofNat,Nat.testBit_shiftLeft,hi,decide_true,
    Bool.true_and]
  by_cases hw : i-shift < width
  · simp +contextual [hw]
  · have := Nat.testBit_lt_two_pow (Nat.lt_of_lt_of_le hv (Nat.pow_le_pow_right (by decide) (Nat.le_of_not_lt hw)))
    simp [this]

theorem extract_lt (shift width : Nat) (x : Word) : extract shift width x < 2 ^ width := by
  refine Nat.lt_pow_two_of_testBit _ fun i hi => ?_
  rw [extract,BitVec.testBit_toNat,BitVec.getLsbD_ushiftRight,BitVec.getLsbD_and,getLsbD_mask]
  simp [Nat.not_lt.2 hi]

theorem inplace_extract (x : Word) : inplace shift (extract shift width x) = x &&& mask shift width := by
  apply BitVec.eq_of_getLsbD_eq
  intro i hi
  rw [inplace,extract,BitVec.getLsbD_ofNat,Nat.testBit_shiftLeft,BitVec.testBit_toNat,BitVec.getLsbD_ushiftRight]
  by_cases hs : shift ≤ i
  · simp [hs,hi,Nat.add_sub_cancel' hs]
  · simp [hs,getLsbD_mask]

theorem keep_eq (h : m &&& l &&& ~~~w = n &&& l &&& ~~~w) : (x &&& m ||| w) &&& l = (x &&& n ||| w) &&& l := by
  apply BitVec.eq_of_getLsbD_eq
  intro i hi
  have hb := congrArg (·.getLsbD i) h
  simp only [BitVec.getLsbD_and,BitVec.getLsbD_or,BitVec.getLsbD_not,hi,decide_true,Bool.true_and] at hb ⊢
  cases hl : l.getLsbD i <;> cases hw : w.getLsbD i <;> simp [hl,hw] at hb ⊢
  rw [hb]

theorem masked_sig (h : m &&& sig lpa2 = 0#64) (x : Word) : (x &&& m) &&& sig lpa2 = 0#64 := by
  rw [BitVec.and_assoc,h,BitVec.and_zero]

theorem inplace_sig (width : Nat) (hv : v < 2 ^ width) (h : mask shift width &&& sig lpa2 = 0#64) :
    inplace shift v &&& sig lpa2 = 0#64 := by
  rw [inplace_masked hv,masked_sig h]

theorem replace_sig (hm : ~~~m &&& sig lpa2 = sig lpa2) (hw : w &&& sig lpa2 = 0#64) :
    (d &&& ~~~m ||| w) &&& sig lpa2 = d &&& sig lpa2 := by
  rw [BitVec.and_or_distrib_right,BitVec.and_assoc,hm,hw,BitVec.or_zero]

theorem setPiIndex_sig (d : Word) (idx : Nat) : s2tteSetPiIndex d idx &&& sig lpa2 = d &&& sig lpa2 := by
  apply replace_sig (by cases lpa2 <;> decide)
  have hbit : ∀ s ∈ [6,51,53,54],∀ v,inplace s (v % 2) &&& sig lpa2 = 0#64 := fun s hs v =>
    inplace_sig 1 (Nat.mod_lt _ (by decide)) (by revert s; cases lpa2 <;> decide)
  simp only [BitVec.and_or_distrib_right,hbit 6 (by decide),hbit 51 (by decide),hbit 53 (by decide),
    hbit 54 (by decide),BitVec.or_zero]

theorem getAp_sig (ap : Word) (dev : Bool) : s2tteGetAp c ap dev &&& sig lpa2 = 0#64 := by
  have hfields : poIndexMask &&& sig lpa2 = 0#64 ∧ dirtyBit &&& sig lpa2 = 0#64 ∧ rwApMask &&& sig lpa2 = 0#64 ∧
      permXnMask &&& sig lpa2 = 0#64 ∧ permXnuXnpWord &&& sig lpa2 = 0#64 := by
    cases lpa2 <;> decide
  obtain ⟨hpo,hdirty,hrw,hxn,hxnp⟩ := hfields
  unfold s2tteGetAp
  split
  · rw [setPiIndex_sig,BitVec.and_or_distrib_right,masked_sig hpo,hdirty,BitVec.or_zero]
  · cases dev <;> simp only [BitVec.and_or_distrib_right,masked_sig hrw,masked_sig hxn,hxnp,if_true,if_false,
      Bool.false_eq_true,BitVec.or_zero]

theorem OutputAddress.masked (h : OutputAddress c level x) : x = x &&& mask 12 (if c.lpa2 then 40 else 36) := by
  have hmod : x.toNat % 2 ^ 12 = 0 :=
    Nat.mod_eq_zero_of_dvd ((pow_dvd_pow 2 (Nat.le_add_right ..)).trans (Nat.dvd_of_mod_eq_zero h.aligned))
  apply BitVec.eq_of_getLsbD_eq
  intro i hi
  simp only [BitVec.getLsbD_and,getLsbD_mask,hi,decide_true,Bool.true_and]
  by_cases h12 : 12 ≤ i
  · by_cases hlt : i-12 < if c.lpa2 then 40 else 36
    · simp [h12,hlt]
    · have hle : (if c.lpa2 then 52 else 48) ≤ i := by split at hlt <;> simp_all <;> omega
      have hb := Nat.testBit_lt_two_pow (lt_of_lt_of_le h.bounded (Nat.pow_le_pow_right (by decide) hle))
      rw [BitVec.testBit_toNat] at hb
      simp [hb]
  · have hb : (x.toNat % 2 ^ 12).testBit i = false := by rw [hmod]; exact Nat.zero_testBit i
    rw [Nat.testBit_mod_two_pow,BitVec.testBit_toNat] at hb
    have hlt : i < 12 := by omega
    simpa [h12,hlt] using hb

theorem pa_sig (h : OutputAddress c level x) : paToS2tte c x &&& sig c.lpa2 = 0#64 := by
  have hpa := h.masked
  unfold paToS2tte
  cases hc : c.lpa2 <;> simp only [hc,if_true,Bool.false_eq_true,if_false] at hpa ⊢
  · rw [hpa]
    exact masked_sig (by decide) x
  · rw [BitVec.and_or_distrib_right,inplace_sig 2 (extract_lt 50 2 _) (by decide),BitVec.or_zero,hpa,BitVec.and_assoc x]
    exact masked_sig (by decide) x

theorem updateProtAp_sig (d : Word) (base : Nat) {overlay : Nat} (h : overlay < 16) :
    s2tteUpdateProtAp c d base overlay &&& sig lpa2 = d &&& sig lpa2 := by
  unfold s2tteUpdateProtAp
  split
  · rw [s2tteSetPoIndex,replace_sig (by cases lpa2 <;> decide) (inplace_sig 4 h (by cases lpa2 <;> decide)),setPiIndex_sig]
  have hxn : (Overlay.flattenedAp c.overlayPerm base overlay).xn < 2 ^ 2 := by
    unfold Overlay.flattenedAp Overlay.ovrEncodings
    dsimp only
    split <;> [decide; (split <;> decide)]
  have hbits : bit 6 &&& sig lpa2 = 0#64 ∧ bit 7 &&& sig lpa2 = 0#64 ∧ mask 53 2 &&& sig lpa2 = 0#64 := by
    cases lpa2 <;> decide
  obtain ⟨h6,h7,h53⟩ := hbits
  apply replace_sig (by cases lpa2 <;> decide)
  unfold permWord
  split <;> split <;> simp [BitVec.and_or_distrib_right,h6,h7,inplace_sig 2 hxn h53]

theorem setDrainPending_sig (d : Word) {handle : Nat} (h : handle < 2 ^ 16) :
    s2tteSetDrainPending d handle &&& sig lpa2 = d &&& sig lpa2 := by
  rw [s2tteSetDrainPending,BitVec.or_assoc]
  apply replace_sig (by cases lpa2 <;> decide)
  rw [BitVec.and_or_distrib_right,inplace_sig 16 h (by cases lpa2 <;> decide),BitVec.or_zero]
  cases lpa2 <;> decide

end Words

def variants : Kind → Nat
  | .assignedNs => 16
  | .assignedDevDev => 2
  | _ => 1

def devWord (lpa2 : Bool) (variant : Nat) : Word :=
  if variant = 1 then devCohAttrs ||| sharable lpa2 shIs else devNcohAttrs ||| sharable lpa2 shOs

def kindWord (lpa2 : Bool) (level : Int) (variant : Nat) : Kind → Word
  | .unassignedEmpty => hipasUnassigned ||| ripasEmpty
  | .unassignedRam => hipasUnassigned ||| ripasRam
  | .unassignedDestroyed => hipasUnassigned ||| ripasDestroyed
  | .unassignedNs => nsBit ||| hipasUnassigned
  | .assignedEmpty => hipasAssigned ||| ripasEmpty
  | .assignedRam => memattrFwbNormalWb ||| afBit ||| sharable lpa2 shIs ||| leafType level
  | .assignedDestroyed => hipasAssigned ||| ripasDestroyed
  | .assignedNs => inplace 2 variant ||| (sharable lpa2 shIs ||| (afBit ||| nsBit ||| leafType level))
  | .assignedDevEmpty => hipasAssignedDev ||| ripasEmpty
  | .assignedDevDestroyed => hipasAssignedDev ||| ripasDestroyed
  | .assignedDevDev => devWord lpa2 variant ||| leafType level
  | .table => l012Table

def fits (level : Int) : Kind → Bool
  | .assignedRam | .assignedNs | .assignedDevDev => 1 ≤ level
  | .table => level < 3
  | _ => true

structure Signature (c : Ctx) (level : Int) (k : Kind) (d : Word) : Prop where
  fits : fits level k
  word : ∃ v < variants k,d &&& sig c.lpa2 = kindWord c.lpa2 level v k &&& sig c.lpa2

section Signatures

variable {c : Ctx} {level level' : Int} {k : Kind} {d pa source : Word}

theorem Signature.of_sig {d' : Word} (h : Signature c level k d) (hsig : d' &&& sig c.lpa2 = d &&& sig c.lpa2) :
    Signature c level k d' :=
  ⟨h.fits,hsig ▸ h.word⟩

def nsKept (c : Ctx) : Word := ~~~descTypeMask &&& if c.indirectS2ap then ~~~poIndexMask else ~~~permXnMask

theorem assignedNs_split (c : Ctx) (s2tte : Word) (level : Int) :
    s2tteCreateAssignedNs c s2tte level = s2tte &&& nsKept c ||| s2tteCreateAssignedNs c 0#64 level := by
  unfold s2tteCreateAssignedNs s2tteSetPoIndex nsKept
  cases c.indirectS2ap <;>
    simp only [if_true,if_false,Bool.false_eq_true,BitVec.and_or_distrib_right,BitVec.and_assoc,BitVec.or_assoc,
      BitVec.zero_and,BitVec.zero_or]

theorem assignedNs_sig (c : Ctx) (level : Int) (s2tte : Word) : s2tteCreateAssignedNs c s2tte level &&& sig c.lpa2 =
      kindWord c.lpa2 level (extract 2 4 s2tte) .assignedNs &&& sig c.lpa2 := by
  have hfixed : s2tteCreateAssignedNs c 0#64 level &&& sig c.lpa2 =
      (sharable c.lpa2 shIs ||| (afBit ||| nsBit ||| leafType level)) &&& sig c.lpa2 ∧
      nsKept c &&& sig c.lpa2 &&& ~~~s2tteCreateAssignedNs c 0#64 level =
        mask 2 4 &&& sig c.lpa2 &&& ~~~s2tteCreateAssignedNs c 0#64 level := by
    simp only [s2tteCreateAssignedNs,leafType,nsKept]
    cases c.lpa2 <;> cases c.indirectS2ap <;> by_cases h3 : level = 3 <;> simp only [h3,if_true,if_false] <;> decide
  rw [assignedNs_split,keep_eq hfixed.2,kindWord,inplace_extract,BitVec.and_or_distrib_right,hfixed.1,
    ← BitVec.and_or_distrib_right]

theorem devFromPa_sig (hpa : OutputAddress c level pa) (h : Signature c level' .assignedDevDev source) (ap : Word) :
    ∃ v < 2,s2tteCreateAssignedDevDevFromPa c pa source level ap &&& sig c.lpa2 =
      kindWord c.lpa2 level v .assignedDevDev &&& sig c.lpa2 := by
  obtain ⟨v,hv,hd⟩ := h.word
  have hkept : source &&& (devAttrsMask ||| memattrMask ||| sharable c.lpa2 shMask) = devWord c.lpa2 v := by
    rw [← and_mask_of_sub (m := sig c.lpa2) source (by cases c.lpa2 <;> decide),hd]
    clear hd
    unfold kindWord leafType
    revert v
    cases c.lpa2 <;> by_cases h3 : level' = 3 <;> simp only [h3,if_true,if_false] <;> decide
  refine ⟨v,hv,?_⟩
  simp only [s2tteCreateAssignedDevDevFromPa,createAssignedDevDevAttr,hkept,BitVec.and_or_distrib_right,pa_sig hpa,
    getAp_sig,BitVec.or_zero,kindWord]

theorem Made.signature (h : Made c level k d) : Signature c level k d := by
  have hne : ripasEmpty ≠ ripasRam ∧ ripasDestroyed ≠ ripasRam := by decide
  induction h with
  | assignedNs hl s2tte => exact ⟨decide_eq_true hl,_,extract_lt 2 4 s2tte,assignedNs_sig c _ s2tte⟩
  | devFromPa hpa _ ap ih => exact ⟨decide_eq_true hpa.leaf,devFromPa_sig hpa ih ap⟩
  | devCohType hpa coherent ap =>
    refine ⟨decide_eq_true hpa.leaf,coherent.toNat,coherent.toNat_lt,?_⟩
    cases coherent <;> simp [s2tteCreateAssignedDevDevCohType,createAssignedDevDevAttr,
      BitVec.and_or_distrib_right,pa_sig hpa,getAp_sig,kindWord,devWord]
  | updateProtAp _ base hoverlay ih => exact ih.of_sig (updateProtAp_sig _ base hoverlay)
  | setDrainPending _ hhandle ih => exact ih.of_sig (setDrainPending_sig _ hhandle)
  | clearDrainPending _ ih | clearTlbiPending _ ih =>
    apply ih.of_sig
    simp only [s2tteClearDrainPending,s2tteClearTlbiPending,BitVec.and_assoc]
    congr 1
    cases c.lpa2 <;> decide
  | setTlbiPending _ ih =>
    apply ih.of_sig
    rw [s2tteSetTlbiPending,BitVec.and_or_distrib_right,show tlbiPendingBit &&& sig c.lpa2 = 0#64 by
      cases c.lpa2 <;> decide,BitVec.or_zero]
  | unassignedEmpty _ | unassignedRam _ | unassignedDestroyed _ | unassignedNs =>
    refine ⟨rfl,0,by decide,?_⟩
    simp only [s2tteCreateUnassignedEmpty,s2tteCreateUnassignedRam,s2tteCreateUnassignedDestroyed,
      s2tteCreateUnassignedNs,BitVec.and_or_distrib_right,getAp_sig,BitVec.or_zero,BitVec.zero_or,kindWord]
  | _ =>
    have hpa := ‹OutputAddress c _ _›
    refine ⟨by first | rfl | exact decide_eq_true hpa.leaf | exact decide_eq_true ‹_›,0,by decide,?_⟩
    simp only [s2tteCreateAssignedEmpty,s2tteCreateAssignedDestroyed,s2tteCreateAssignedRam,
      s2tteCreateAssignedUnchanged,s2tteCreateAssigned,s2tteCreateAssignedDevEmpty,s2tteCreateAssignedDevDestroyed,
      s2tteCreateAssignedDevUnchanged,s2tteCreateAssignedDev,s2tteCreateTable, *,BitVec.and_or_distrib_right,
      getAp_sig,pa_sig hpa,BitVec.or_zero,BitVec.zero_or,kindWord,if_true,if_false]

end Signatures

theorem mem_readEntryOrder (k : Kind) : k ∈ readEntryOrder := by
  cases k <;> decide

theorem kindWord_partitioned (lpa2 : Bool) : ∀ level ∈ [-1,0,1,2,3],∀ k ∈ readEntryOrder,∀ v < variants k,
    fits level k → (∀ k' ∈ readEntryOrder,is (kindWord lpa2 level v k &&& sig lpa2) level k' = decide (k' = k)) ∧
      devDevAsserts lpa2 (kindWord lpa2 level v k &&& sig lpa2) level := by
  cases lpa2 <;> decide +kernel

theorem is_sig (lpa2 : Bool) (d : Word) (level : Int) (k : Kind) : is (d &&& sig lpa2) level k = is d level k := by
  have hsub : sig lpa2 &&& nsBit = nsBit ∧ sig lpa2 &&& descValidMask = descValidMask ∧
      sig lpa2 &&& hipasMask = hipasMask ∧ sig lpa2 &&& ripasMask = ripasMask ∧
      sig lpa2 &&& descTypeMask = descTypeMask ∧
      sig lpa2 &&& (devAttrsMask ||| memattrMask) = devAttrsMask ||| memattrMask := by
    cases lpa2 <;> decide
  cases k <;> simp only [is,s2tteIsUnassignedEmpty,s2tteIsUnassignedRam,s2tteIsUnassignedDestroyed,s2tteIsUnassignedNs,
    s2tteIsAssignedEmpty,s2tteIsAssignedRam,s2tteIsAssignedDestroyed,s2tteIsAssignedNs,s2tteIsAssignedDevEmpty,
    s2tteIsAssignedDevDestroyed,s2tteIsAssignedDevDev,s2tteIsTable,invalidWith,s2tteHasRipas,s2tteHasHipas,
    s2tteCheckAssignedRamOrNs,leafTypeAt,devLeafType,devAttr,BitVec.and_assoc,hsub]

theorem devDevAsserts_sig (lpa2 : Bool) (d : Word) (level : Int) :
    devDevAsserts lpa2 (d &&& sig lpa2) level = devDevAsserts lpa2 d level := by
  cases lpa2 with
  | true => rfl
  | false =>
    have his : s2tteIsAssignedDevDev _ level = _ := is_sig false d level .assignedDevDev
    simp only [devDevAsserts,his,devAttr,BitVec.and_assoc,show sig false &&& shMask = shMask by decide,
      show sig false &&& (devAttrsMask ||| memattrMask) = devAttrsMask ||| memattrMask by decide]
    rfl

theorem descriptor_kinds_partition (c : Ctx) {level : Int} (hmin : -1 ≤ level) (hmax : level ≤ 3) {k : Kind}
    {d : Word} (h : Made c level k d) : Partitioned c level k d := by
  obtain ⟨hfits,v,hv,hd⟩ := h.signature
  have hlevel : level ∈ [-1,0,1,2,3] := by
    simp only [List.mem_cons,List.not_mem_nil,or_false]
    omega
  obtain ⟨hown,hasserts⟩ := kindWord_partitioned c.lpa2 level hlevel k (mem_readEntryOrder k) v hv hfits
  simp only [← hd,is_sig,devDevAsserts_sig] at hown hasserts
  have his : is d level = fun k' => decide (k' = k) := funext fun k' => hown k' (mem_readEntryOrder k')
  refine ⟨congrFun his,hasserts,?_,?_⟩ <;> rw [his] <;> cases k <;> rfl

theorem descriptor_kinds_partition_draining : Partitioned ⟨true,true,0⟩ 3 .assignedDevDev
    (s2tteSetDrainPending (s2tteCreateAssignedDevDevCohType ⟨true,true,0⟩ 0x4000000001000 3 true 0) 5) :=
  descriptor_kinds_partition _ (by decide) (by decide)
    (.setDrainPending (.devCohType ⟨by decide,by decide,by decide⟩ true 0) (by decide))

def s2tteLvlMask (level : Int) (lpa2 : Bool) : Word :=
  let lsb := (3-level).toNat * 9 + 12
  mask lsb (48-lsb) ||| if lpa2 then mask 8 2 ||| mask 48 2 else 0

def s2tteGetPiIndex (s2tte : Word) : Nat :=
  extract 6 1 s2tte ||| extract 51 1 s2tte <<< 1 ||| extract 53 1 s2tte <<< 2 ||| extract 54 1 s2tte <<< 3

def hostMask (c : Ctx) (level : Int) : Word :=
  s2tteLvlMask level c.lpa2 ||| memattrMask ||| if c.indirectS2ap then piIndexMask else rwApMask

def hostNsS2tteIsValid (c : Ctx) (s2tte : Word) (level : Int) : Bool :=
  s2tte &&& ~~~hostMask c level == 0 && !(c.indirectS2ap && 5 ≤ s2tteGetPiIndex s2tte) &&
    s2tte &&& memattrMask != bit 4

def hostNsS2tte (c : Ctx) (s2tte : Word) (level : Int) : Word := s2tte &&& hostMask c level

structure HostMapped (c : Ctx) (level : Int) (host : Word) : Prop where
  readBack : hostNsS2tte c (s2tteCreateAssignedNs c host level) level = host
  kind : ∀ k,is (s2tteCreateAssignedNs c host level) level k = decide (k = .assignedNs)
  confined : ∀ host',hostNsS2tteIsValid c host' level → s2tteCreateAssignedNs c host' level &&& ~~~hostMask c level =
    s2tteCreateAssignedNs c host level &&& ~~~hostMask c level

section Host

variable {c : Ctx} {level : Int} {host : Word}

theorem and_of_clear {d m : Word} (h : d &&& ~~~m = 0#64) : d &&& m = d := by
  have hall : d &&& (m ||| ~~~m) = d := by rw [BitVec.or_not_self,BitVec.and_allOnes]
  rwa [BitVec.and_or_distrib_left,h,BitVec.or_zero] at hall

theorem hostMask_fixed (c : Ctx) (hmin : 1 ≤ level) (hmax : level ≤ 3) :
    nsKept c &&& hostMask c level = hostMask c level ∧ s2tteCreateAssignedNs c 0#64 level &&& hostMask c level = 0#64 := by
  obtain rfl | rfl | rfl : level = 1 ∨ level = 2 ∨ level = 3 := by omega
  all_goals
    unfold nsKept hostMask s2tteCreateAssignedNs
    cases c.lpa2 <;> cases c.indirectS2ap <;> decide

theorem host_descriptor_round_trip (c : Ctx) (hmin : 1 ≤ level) (hmax : level ≤ 3)
    (h : hostNsS2tteIsValid c host level) : HostMapped c level host := by
  have hclear : ∀ {d},hostNsS2tteIsValid c d level → d &&& ~~~hostMask c level = 0#64 := fun h => by
    simp only [hostNsS2tteIsValid,Bool.and_eq_true,beq_iff_eq] at h
    exact h.1.1
  obtain ⟨hkept,hfixed⟩ := hostMask_fixed c hmin hmax
  have hout : ∀ {d},hostNsS2tteIsValid c d level → s2tteCreateAssignedNs c d level &&& ~~~hostMask c level =
      s2tteCreateAssignedNs c 0#64 level &&& ~~~hostMask c level := fun h => by
    rw [assignedNs_split,BitVec.and_or_distrib_right,BitVec.and_assoc,BitVec.and_comm (nsKept c),← BitVec.and_assoc,
      hclear h,BitVec.zero_and,BitVec.zero_or]
  refine ⟨?_,fun k => ?_,fun host' h' => (hout h').trans (hout h).symm⟩
  · rw [hostNsS2tte,assignedNs_split,BitVec.and_or_distrib_right,BitVec.and_assoc,hkept,hfixed,BitVec.or_zero]
    exact and_of_clear (hclear h)
  · have hlevel : level ∈ [-1,0,1,2,3] := by
      simp only [List.mem_cons,List.not_mem_nil,or_false]
      omega
    have hown := (kindWord_partitioned c.lpa2 level hlevel .assignedNs (mem_readEntryOrder _) _ (extract_lt 2 4 host)
      (decide_eq_true hmin)).1 k (mem_readEntryOrder k)
    rwa [← assignedNs_sig,is_sig] at hown

theorem host_descriptor_round_trip_lpa2 : HostMapped ⟨true,true,0⟩ 3 (0x0008000040001248#64) :=
  host_descriptor_round_trip _ (by decide) (by decide) (by decide)

end Host

end TfRmm.S2tt.Descriptor
