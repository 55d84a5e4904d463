import Mathlib.Logic.Function.Basic

namespace TfRmm.Lib

variable {α : Type*}

def tally (p : α → Bool) (f : Nat → α) : Nat → Nat
  | 0 => 0
  | n+1 => tally p f n + (p (f n)).toNat

variable {p : α → Bool} {f g : Nat → α} {n i : Nat} {a : α}

theorem tally_congr (h : ∀ i, i < n → p (f i) = p (g i)) : tally p f n = tally p g n := by
  induction n with
  | zero => rfl
  | succ n ih =>
    have h1 := ih fun i hi => h i (by omega)
    simp only [tally,h1,h n (by omega)]

theorem tally_le (p : α → Bool) (f : Nat → α) (n : Nat) : tally p f n ≤ n := by
  induction n with
  | zero => exact Nat.le_refl 0
  | succ n ih =>
    have := Bool.toNat_le (p (f n))
    simp only [tally]
    omega

theorem tally_pos (hi : i < n) (h : p (f i) = true) : 0 < tally p f n := by
  induction n with
  | zero => omega
  | succ n ih =>
    simp only [tally]
    rcases Nat.lt_succ_iff_lt_or_eq.mp hi with hlt | rfl
    · have := ih hlt
      omega
    · simp [h]

theorem eq_false_of_tally_eq_zero (h : tally p f n = 0) (hi : i < n) : p (f i) = false := by
  refine Bool.eq_false_iff.2 fun hp => ?_
  have := tally_pos hi hp
  omega

theorem tally_eq_zero (h : ∀ i, i < n → p (f i) = false) : tally p f n = 0 := by
  induction n with
  | zero => rfl
  | succ n ih => simp [tally,ih fun i hi => h i (by omega),h n (by omega)]

theorem tally_update (hi : i < n) : tally p (Function.update f i a) n + (p (f i)).toNat = tally p f n + (p a).toNat := by
  induction n with
  | zero => omega
  | succ n ih =>
    simp only [tally]
    rcases Nat.lt_succ_iff_lt_or_eq.mp hi with hlt | rfl
    · have h1 := ih hlt
      rw [Function.update_of_ne (by omega)]
      omega
    have h1 : tally p (Function.update f i a) i = tally p f i :=
      tally_congr fun j hj => by rw [Function.update_of_ne (by omega)]
    rw [h1,Function.update_self]
    omega

end TfRmm.Lib
