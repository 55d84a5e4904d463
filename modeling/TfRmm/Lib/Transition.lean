import Mathlib.Logic.Relation

namespace TfRmm.Lib

variable {σ ι : Type*}

structure TransitionSystem (σ ι : Type*) where
  init : σ → Prop
  step : σ → ι → σ → Prop

namespace TransitionSystem

variable (T : TransitionSystem σ ι)

def GuardedStep (guard : σ → ι → Prop) (s t : σ) : Prop := ∃ l, guard s l ∧ T.step s l t

def ReachableUnder (guard : σ → ι → Prop) (t : σ) : Prop :=
  ∃ s, T.init s ∧ Relation.ReflTransGen (T.GuardedStep guard) s t

def Reachable (t : σ) : Prop := T.ReachableUnder (fun _ _ => True) t

variable {T} {guard : σ → ι → Prop}

theorem ReachableUnder.initial {s : σ} (h : T.init s) : T.ReachableUnder guard s :=
  ⟨s,h,.refl⟩

theorem ReachableUnder.next {s t : σ} {l : ι} (h : T.ReachableUnder guard s) (hg : guard s l)
    (hs : T.step s l t) : T.ReachableUnder guard t := by
  obtain ⟨s₀,h0,hr⟩ := h
  exact ⟨s₀,h0,hr.tail ⟨l,hg,hs⟩⟩

theorem ReachableUnder.invariant {I : σ → Prop} (hinit : ∀ s, T.init s → I s)
    (hstep : ∀ s l t, I s → guard s l → T.step s l t → I t) {t : σ} (h : T.ReachableUnder guard t) : I t := by
  obtain ⟨s,h0,hr⟩ := h
  induction hr with
  | refl => exact hinit s h0
  | tail _ hst ih =>
    obtain ⟨l,hg,hs⟩ := hst
    exact hstep _ l _ ih hg hs

theorem ReachableUnder.mono {guard' : σ → ι → Prop} (hg : ∀ s l, guard s l → guard' s l) {t : σ}
    (h : T.ReachableUnder guard t) : T.ReachableUnder guard' t := by
  obtain ⟨s,h0,hr⟩ := h
  refine ⟨s,h0,Relation.ReflTransGen.mono ?_ s t hr⟩
  rintro a b ⟨l,hl,hs⟩
  exact ⟨l,hg a l hl,hs⟩

theorem Reachable.invariant {I : σ → Prop} (hinit : ∀ s, T.init s → I s)
    (hstep : ∀ s l t, I s → T.step s l t → I t) {t : σ} (h : T.Reachable t) : I t :=
  ReachableUnder.invariant hinit (fun s l t hi _ hs => hstep s l t hi hs) h

end TransitionSystem

end TfRmm.Lib
