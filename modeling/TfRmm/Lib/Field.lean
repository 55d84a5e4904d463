import Mathlib.Data.Nat.Bitwise
import Mathlib.Tactic.Ring

namespace TfRmm.Lib

def field (lo width c : Nat) : Nat := c >>> lo % 2 ^ width

variable {lo w a b x sh k : Nat}

theorem testBit_field (i : Nat) : (field lo w a).testBit i = (decide (i < w) && a.testBit (lo+i)) := by
  unfold field
  rw [Nat.testBit_mod_two_pow,Nat.testBit_shiftRight]

@[simp] theorem field_or : field lo w (a ||| b) = field lo w a ||| field lo w b := by
  apply Nat.eq_of_testBit_eq
  intro i
  simp only [testBit_field,Nat.testBit_or]
  cases decide (i < w) <;> simp

theorem field_below (hx : x < 2 ^ k) (h : sh+k ≤ lo) : field lo w (x <<< sh) = 0 := by
  apply Nat.eq_of_testBit_eq
  intro i
  rw [testBit_field,Nat.testBit_shiftLeft,Nat.zero_testBit]
  have hlt : x < 2 ^ (lo + i - sh) :=
    lt_of_lt_of_le hx (Nat.pow_le_pow_right (by decide) (by omega))
  rw [Nat.testBit_lt_two_pow hlt]
  simp

theorem field_above (h : lo+w ≤ sh) : field lo w (x <<< sh) = 0 := by
  apply Nat.eq_of_testBit_eq
  intro i
  rw [testBit_field,Nat.testBit_shiftLeft,Nat.zero_testBit]
  by_cases hi : i < w
  · simp [show ¬ sh ≤ lo+i by omega]
  · simp [hi]

theorem field_self (hx : x < 2 ^ w) : field lo w (x <<< lo) = x := by
  unfold field
  rw [Nat.shiftLeft_shiftRight,Nat.mod_eq_of_lt hx]

end TfRmm.Lib
