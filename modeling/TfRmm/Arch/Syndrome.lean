import Mathlib.Algebra.Group.Nat.Defs
import Mathlib.Logic.Function.Basic

namespace TfRmm.Arch

abbrev Word := BitVec 64

variable (shift width : Nat) (esr : Word) (cptr : Word)

def mask : Word := BitVec.ofNat 64 ((2 ^ width - 1) <<< shift)

def inplace (shift value : Nat) : Word := BitVec.ofNat 64 (value <<< shift)

def extract (w : Word) : Nat := ((w &&& mask shift width) >>> shift).toNat

def bit (n : Nat) : Word := inplace n 1

def bitSet (n : Nat) (w : Word) : Bool := w &&& bit n != 0

theorem getLsbD_mask (shift width i : Nat) :
    (mask shift width).getLsbD i = (decide (i < 64) && (decide (shift ≤ i) && decide (i-shift < width))) := by
  simp only [mask,BitVec.getLsbD_ofNat,Nat.testBit_shiftLeft,Nat.testBit_two_pow_sub_one]

theorem bitSet_of_getLsbD {n : Nat} {w : Word} (h : w.getLsbD n = true) : bitSet n w = true := by
  have hn := BitVec.lt_of_getLsbD h
  have hb : (w &&& bit n).getLsbD n = true := by
    rw [BitVec.getLsbD_and,h,bit,inplace,BitVec.getLsbD_ofNat]
    simp [hn]
  simp only [bitSet,bne_iff_ne,ne_eq]
  intro h0
  rw [h0] at hb
  simp at hb

theorem and_mask_of_sub {m n : Word} (x : Word) (h : m &&& n = n) : (x &&& m) &&& n = x &&& n := by
  rw [BitVec.and_assoc,h]

def ecMask : Word := mask 26 6

inductive Ec where
  | unknown
  | wfx
  | fpu
  | hvc
  | smc
  | sysreg
  | sve
  | sme
  | instAbort
  | dataAbort
  | serror
  deriving DecidableEq

def Ec.code : Ec → Nat
  | .unknown => 0
  | .wfx => 1
  | .fpu => 7
  | .hvc => 22
  | .smc => 23
  | .sysreg => 24
  | .sve => 25
  | .sme => 29
  | .instAbort => 32
  | .dataAbort => 36
  | .serror => 47

def Ec.word (c : Ec) : Word := inplace 26 c.code

def esrEc : Word := esr &&& ecMask

def hasEc (c : Ec) (esr : Word) : Bool := esrEc esr == c.word

def isvBit : Word := bit 24
def s1ptwBit : Word := bit 7
def wnrBit : Word := bit 6
def fnvBit : Word := bit 10
def eaBit : Word := bit 9
def sfBit : Word := bit 15
def sseBit : Word := bit 21
def ilMask : Word := mask 25 1
def fscMask : Word := mask 0 6
def setMask : Word := mask 11 2
def sasMask : Word := mask 22 2
def sysregRtMask : Word := mask 5 5
def sysregDirection : Word := bit 0

def esrIsv : Bool := esr &&& isvBit != 0
def esrSrt : Nat := extract 16 5 esr
def esrIsWrite : Bool := esr &&& wnrBit != 0
def esrSignExtend : Bool := esr &&& sseBit != 0
def esrSixtyFour : Bool := esr &&& sfBit != 0
def esrSas : Nat := extract 22 2 esr
def esrFsc : Nat := extract 0 6 esr
def esrSet : Nat := extract 11 2 esr

def accessLen : Nat :=
  match esrSas esr with
  | 0 => 1
  | 1 => 2
  | 2 => 4
  | _ => 8

def accessMask : Word :=
  match esrSas esr with
  | 0 => 0xff
  | 1 => 0xffff
  | 2 => 0xffffffff
  | _ => BitVec.allOnes 64

def sysregIsWrite : Bool := esr &&& sysregDirection == 0
def sysregIssRt : Nat := extract 5 5 esr

def nonemulatedAbortMask : Word := ecMask ||| setMask ||| fnvBit ||| eaBit ||| fscMask
def instructionAbortMask : Word := ecMask ||| setMask ||| eaBit ||| fscMask
def emulatedAbortMask : Word := nonemulatedAbortMask ||| isvBit ||| sasMask ||| sfBit ||| wnrBit
def serrorMask : Word := bit 24 ||| mask 10 3 ||| bit 9 ||| ecMask ||| mask 0 6

def hpfarFipaMask : Word := mask 4 40
def parPaMask : Word := mask 12 40

def hpfarFipa (hpfar : Word) : Word := (hpfar &&& hpfarFipaMask) <<< 8

theorem hpfarFipa_shiftRight (par : Word) : hpfarFipa ((par &&& parPaMask) >>> 8) = par &&& parPaMask := by
  unfold hpfarFipa hpfarFipaMask parPaMask
  apply BitVec.eq_of_getLsbD_eq
  intro i hi
  simp only [BitVec.getLsbD_shiftLeft,BitVec.getLsbD_and,BitVec.getLsbD_ushiftRight,getLsbD_mask]
  by_cases h8 : i < 8
  · have : ¬ 12 ≤ i := by omega
    simp [h8,this]
  have e : 8+(i-8) = i := by omega
  by_cases h12 : 12 ≤ i
  · have h4 : 4 ≤ i-8 := by omega
    have hs : i - 8 - 4 = i-12 := by omega
    have hw : i-8 < 64 := by omega
    simp [h8,h12,h4,hs,hi,e,hw]
  · have h4 : ¬ 4 ≤ i-8 := by omega
    simp [h12,h4]

theorem hasEc_and_of_sub {m : Word} (c : Ec) (esr : Word) (h : m &&& ecMask = ecMask) :
    hasEc c (esr &&& m) = hasEc c esr := by
  simp [hasEc,esrEc,and_mask_of_sub esr h]

theorem hasEc_unique {c d : Ec} {esr : Word} (hc : hasEc c esr = true) (hd : hasEc d esr = true) : c = d := by
  have h : c.word = d.word := by
    simp only [hasEc,beq_iff_eq] at hc hd
    exact hc.symm.trans hd
  revert h
  cases c <;> cases d <;> decide

theorem hasEc_other {c d : Ec} {esr : Word} (hc : hasEc c esr = true) (h : d ≠ c) : hasEc d esr = false := by
  by_contra hd
  exact h (hasEc_unique (Bool.not_eq_false _ ▸ hd) hc)

@[simp] theorem hasEc_clear_isv (c : Ec) (esr : Word) : hasEc c (esr &&& ~~~isvBit) = hasEc c esr :=
  hasEc_and_of_sub c esr (by decide)

@[simp] theorem sysregIsWrite_clear_isv (esr : Word) : sysregIsWrite (esr &&& ~~~isvBit) = sysregIsWrite esr := by
  simp only [sysregIsWrite]
  rw [and_mask_of_sub esr (by decide)]

@[simp] theorem sysregIsWrite_clear_rt (esr : Word) : sysregIsWrite (esr &&& ~~~sysregRtMask) = sysregIsWrite esr := by
  simp only [sysregIsWrite]
  rw [and_mask_of_sub esr (by decide)]

@[simp] theorem esrIsv_clear_isv (esr : Word) : esrIsv (esr &&& ~~~isvBit) = false := by
  simp only [esrIsv]
  rw [BitVec.and_assoc]
  have : ~~~isvBit &&& isvBit = 0 := by decide
  simp [this]

@[simp] theorem esrIsv_nonemulated (esr : Word) : esrIsv (esr &&& nonemulatedAbortMask) = false := by
  simp only [esrIsv]
  rw [BitVec.and_assoc]
  have : nonemulatedAbortMask &&& isvBit = 0 := by decide
  simp [this]

def fpenShift : Nat := 20
def zenShift : Nat := 16
def smenShift : Nat := 24
def cptrSimdMask : Word := mask fpenShift 2 ||| mask zenShift 2 ||| mask smenShift 2
def cptrVheInit : Word := bit 28 ||| bit 30

def cptrFpEnabled : Bool := bitSet fpenShift cptr
def cptrSveEnabled : Bool := bitSet zenShift cptr
end TfRmm.Arch
