import TfRmm.Rtt.State

namespace TfRmm.Tracking

export TfRmm.Rtt (GranuleState)

inductive TrState where
  | reserved
  | none
  | fine
  | coarse
  deriving DecidableEq

inductive MemType where
  | conv
  | dev
  deriving DecidableEq

inductive Category where
  | conv
  | devNcoh
  | devCoh
  deriving DecidableEq

def Category.memType : Category → MemType
  | .conv => .conv
  | _ => .dev

inductive MemCat where
  | only (c : Category)
  | diverse
  deriving DecidableEq

inductive Status where
  | success
  | busy
  | blocked
  | errorInput
  deriving DecidableEq

structure Descriptor where
  state : GranuleState
  refcount : Nat
  locked : Bool
  deriving DecidableEq

structure BankRange where
  start : Nat
  stop : Nat
  category : Category
  deriving DecidableEq

def BankRange.pages (b : BankRange) : List Nat := List.range' b.start (b.stop-b.start)

structure Layout where
  size : Nat
  banks : List BankRange
  deriving DecidableEq

def Layout.pages (l : Layout) (t : MemType) : List Nat :=
  (l.banks.filter fun b => b.category.memType = t).flatMap BankRange.pages

def compositionFrom (top : Nat) : Nat → Option Category → List BankRange → MemCat
  | cursor, category, [] =>
    match category with
    | some c => if cursor < top then .diverse else .only c
    | none => .diverse
  | cursor, category, b :: bs =>
    if cursor < b.start then .diverse
    else match category with
      | some c => if c ≠ b.category then .diverse else compositionFrom top b.stop (some c) bs
      | none => compositionFrom top b.stop (some b.category) bs

variable (l : Layout)

def Layout.composition : MemCat := compositionFrom l.size 0 none l.banks

abbrev Granule := MemType × Nat

def Layout.granules : List Granule :=
  (l.pages .conv).map (Prod.mk .conv) ++ (l.pages .dev).map (Prod.mk .dev)

structure Region where
  layout : Layout
  base : Nat
  state : TrState
  pending : Bool
  gate : Bool
  coarse : Descriptor
  fine : Granule → Descriptor
  metadataPages : Nat
  backing : Nat → Option Nat

namespace Region

variable (r : Region)

def category : MemCat := r.layout.composition

def isSelfDescribing (addr : Nat) : Bool :=
  (List.range r.metadataPages).any fun i => r.backing i = some (r.base+addr)

def metadata (q : Granule) : Bool := q.1 = .conv && r.isSelfDescribing q.2

def scansConv : Bool := r.category = .only .conv || r.category = .diverse

def scansDev : Bool :=
  r.category = .only .devNcoh || r.category = .only .devCoh || r.category = .diverse

def traversed : MemType → List Granule
  | .conv => if r.scansConv then (r.layout.pages .conv).map (Prod.mk .conv) else []
  | .dev => if r.scansDev then (r.layout.pages .dev).map (Prod.mk .dev) else []

def scanned : List Granule := r.traversed .conv ++ r.traversed .dev

end Region

theorem compositionFrom_only {top : Nat} {c : Category} :
    ∀ {bs : List BankRange} {cursor : Nat} {category : Option Category},
      compositionFrom top cursor category bs = .only c →
      (∀ d, category = some d → d = c) ∧ ∀ b ∈ bs, b.category = c := by
  intro bs
  induction bs with
  | nil =>
    intro cursor category h
    refine ⟨?_,nofun⟩
    rintro d rfl
    simp only [compositionFrom] at h
    split at h
    · cases h
    · exact MemCat.only.inj h
  | cons b bs ih =>
    intro cursor category h
    simp only [compositionFrom] at h
    split at h
    · cases h
    cases category with
    | none =>
      obtain ⟨hb,hbs⟩ := ih h
      exact ⟨nofun,List.forall_mem_cons.2 ⟨hb _ rfl,hbs⟩⟩
    | some d =>
      simp only at h
      split at h
      · cases h
      rename_i hd
      obtain ⟨hdc,hbs⟩ := ih h
      have hdc := hdc d rfl
      have hb : b.category = c := (not_not.1 hd).symm.trans hdc
      exact ⟨fun e he => (Option.some.inj he).symm.trans hdc,List.forall_mem_cons.2 ⟨hb,hbs⟩⟩

theorem Layout.pages_eq_nil {l : Layout} {c : Category} {t : MemType}
    (h : l.composition = .only c) (ht : t ≠ c.memType) : l.pages t = [] := by
  have hall := (compositionFrom_only h).2
  have hnone : (l.banks.filter fun b => b.category.memType = t) = [] := by
    rw [List.filter_eq_nil_iff]
    intro b hb
    rw [hall b hb]
    simpa using ht.symm
  rw [Layout.pages,hnone]
  rfl

theorem Region.traversed_type {r : Region} {t : MemType} {q : Granule} (h : q ∈ r.traversed t) : q.1 = t := by
  cases t <;>
    · simp only [traversed] at h
      split at h
      · obtain ⟨_,_,rfl⟩ := List.mem_map.1 h
        rfl
      · cases h

theorem Region.scanned_eq (r : Region) : r.scanned = r.layout.granules := by
  unfold scanned traversed Layout.granules scansConv scansDev category
  rcases hc : r.layout.composition with c | _
  · cases c with
    | conv =>
      rw [Layout.pages_eq_nil (t := .dev) hc nofun]
      rfl
    | devNcoh | devCoh =>
      rw [Layout.pages_eq_nil (t := .conv) hc nofun]
      rfl
  · rfl

end TfRmm.Tracking
