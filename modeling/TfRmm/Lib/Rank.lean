import Mathlib.Data.Nat.Count

namespace TfRmm.Lib

variable {p q : Nat → Prop} [DecidablePred p] [DecidablePred q] {m n : Nat}

theorem count_congr (h : ∀ k, k < n → (p k ↔ q k)) : Nat.count p n = Nat.count q n := by
  induction n with
  | zero => rfl
  | succ n ih =>
    rw [Nat.count_succ,Nat.count_succ,ih fun k hk => h k (by omega)]
    simp only [h n (by omega)]

theorem count_of_interval (hmn : m ≤ n) (h : ∀ k, m ≤ k → k < n → p k) : Nat.count p n = Nat.count p m + (n-m) := by
  obtain ⟨d,rfl⟩ := Nat.exists_eq_add_of_le hmn
  rw [Nat.count_add,Nat.count_of_forall fun k hk => h (m+k) (by omega) (by omega)]
  omega

theorem count_of_gap (hmn : m ≤ n) (h : ∀ k, m ≤ k → k < n → ¬ p k) : Nat.count p n = Nat.count p m := by
  obtain ⟨d,rfl⟩ := Nat.exists_eq_add_of_le hmn
  rw [Nat.count_add,Nat.count_of_forall_not fun k hk => h (m+k) (by omega) (by omega)]
  omega

theorem exists_of_lt_count {i : Nat} (h : i < Nat.count p n) : ∃ k, k < n ∧ p k ∧ Nat.count p k = i := by
  induction n with
  | zero => simp at h
  | succ n ih =>
    rw [Nat.count_succ] at h
    by_cases hi : i < Nat.count p n
    · obtain ⟨k,hk,hp,hc⟩ := ih hi
      exact ⟨k,by omega,hp,hc⟩
    by_cases hp : p n
    · rw [if_pos hp] at h
      exact ⟨n,by omega,hp,by omega⟩
    · rw [if_neg hp] at h
      omega

end TfRmm.Lib
