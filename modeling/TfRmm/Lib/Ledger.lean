import Mathlib.Tactic.Common

namespace TfRmm.Lib

variable {κ α : Type*}

structure Ledger (κ α : Type*) where
  holds : κ → α → Prop
  kept : α → Bool
  taken : α → Nat
  given : α → Nat

namespace Ledger

structure Balanced (L : Ledger κ α) : Prop where
  held : ∀ a, L.kept a = true ↔ ∃ x, L.holds x a
  alone : ∀ x y a, L.holds x a → L.holds y a → x = y
  counted : ∀ a, L.taken a = L.given a + (L.kept a).toNat

structure SameOutside (M : α → Prop) (L L' : Ledger κ α) : Prop where
  holds : ∀ a, ¬M a → ∀ x, L'.holds x a ↔ L.holds x a
  kept : ∀ a, ¬M a → L'.kept a = L.kept a
  taken : ∀ a, ¬M a → L'.taken a = L.taken a
  given : ∀ a, ¬M a → L'.given a = L.given a

variable {L L' : Ledger κ α} {M : α → Prop}

theorem Balanced.step (h : L.Balanced) (hout : SameOutside M L L') {o : α → Option κ}
    (howner : ∀ a, M a → ∀ x, L'.holds x a ↔ o a = some x) (hkept : ∀ a, M a → L'.kept a = (o a).isSome)
    (hcount : ∀ a, M a → L'.taken a = L'.given a + (L'.kept a).toNat) : L'.Balanced := by
  refine ⟨fun a => ?_,fun x y a hx hy => ?_,fun a => ?_⟩
  · by_cases hM : M a
    · rw [hkept a hM,Option.isSome_iff_exists]
      exact exists_congr fun x => (howner a hM x).symm
    · rw [hout.kept a hM,h.held]
      exact exists_congr fun x => (hout.holds a hM x).symm
  · by_cases hM : M a
    · exact Option.some.inj (((howner a hM x).mp hx).symm.trans ((howner a hM y).mp hy))
    · exact h.alone x y a ((hout.holds a hM x).mp hx) ((hout.holds a hM y).mp hy)
  · by_cases hM : M a
    · exact hcount a hM
    · rw [hout.taken a hM,hout.given a hM,hout.kept a hM]
      exact h.counted a

theorem Balanced.same (h : L.Balanced) (hholds : ∀ a x, L'.holds x a ↔ L.holds x a) (hkept : ∀ a, L'.kept a = L.kept a)
    (htaken : ∀ a, L'.taken a = L.taken a) (hgiven : ∀ a, L'.given a = L.given a) : L'.Balanced :=
  h.step (M := fun _ => False) (o := fun _ => none)
    ⟨fun a _ => hholds a,fun a _ => hkept a,fun a _ => htaken a,fun a _ => hgiven a⟩ (fun _ hM => hM.elim)
    (fun _ hM => hM.elim) fun _ hM => hM.elim

theorem Balanced.exchange (h : L.Balanced) {f : κ → κ} (hf : Function.Involutive f)
    (hholds : ∀ x a, L'.holds x a ↔ L.holds (f x) a) (hkept : ∀ a, L'.kept a = L.kept a)
    (htaken : ∀ a, L'.taken a = L.taken a) (hgiven : ∀ a, L'.given a = L.given a) : L'.Balanced := by
  refine ⟨fun a => ?_,fun x y a hx hy => ?_,fun a => ?_⟩
  · rw [hkept,h.held,hf.surjective.exists]
    simp only [hholds]
  · exact hf.injective (h.alone _ _ a ((hholds x a).mp hx) ((hholds y a).mp hy))
  · rw [htaken,hgiven,hkept]
    exact h.counted a

theorem Balanced.takeIn (h : L.Balanced) (hout : SameOutside M L L') {o : α → κ}
    (howner : ∀ a, M a → ∀ x, L'.holds x a ↔ o a = x) (hwas : ∀ a, M a → L.kept a = false)
    (hkept : ∀ a, M a → L'.kept a = true) (htaken : ∀ a, M a → L'.taken a = L.taken a + 1)
    (hgiven : ∀ a, M a → L'.given a = L.given a) : L'.Balanced := by
  refine h.step hout (o := fun a => some (o a)) (fun a hM x => ?_) (fun a hM => by simp [hkept a hM]) fun a hM => ?_
  · rw [howner a hM x,Option.some.injEq]
  · rw [htaken a hM,hgiven a hM,hkept a hM,h.counted,hwas a hM]
    rfl

theorem Balanced.giveBack (h : L.Balanced) (hout : SameOutside M L L') (howner : ∀ a, M a → ∀ x, ¬L'.holds x a)
    (hwas : ∀ a, M a → L.kept a = true) (hkept : ∀ a, M a → L'.kept a = false) (htaken : ∀ a, M a → L'.taken a = L.taken a)
    (hgiven : ∀ a, M a → L'.given a = L.given a + 1) : L'.Balanced := by
  refine h.step hout (o := fun _ => none) (fun a hM x => ?_) (fun a hM => by simp [hkept a hM]) fun a hM => ?_
  · simp [howner a hM x]
  · rw [htaken a hM,hgiven a hM,hkept a hM,h.counted,hwas a hM]
    rfl

end Ledger

end TfRmm.Lib
