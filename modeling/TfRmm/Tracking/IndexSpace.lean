import TfRmm.Lib.Rank
import Mathlib.Algebra.Order.BigOperators.Group.List
import Mathlib.Algebra.Order.Ring.Nat
import Mathlib.Data.List.Perm.Basic

namespace TfRmm.Tracking.IndexSpace

open TfRmm.Lib

structure Bank where
  base : Nat
  size : Nat
  deriving DecidableEq

inductive RegionSize where
  | min
  | max
  deriving DecidableEq

def RegionSize.bytes : RegionSize → Nat
  | .min => 2 ^ 21
  | .max => 2 ^ 30

inductive MemType where
  | conv
  | dev
  deriving DecidableEq

def MemType.entrySize : MemType → Nat
  | .conv => 2
  | .dev => 1

def roundUp (n k : Nat) : Nat := (n + k - 1) / k * k

def fineStride (s : RegionSize) (t : MemType) : Nat :=
  roundUp (s.bytes / 4096 * t.entrySize) 4096 / t.entrySize

structure Layout where
  conv : List Bank
  dev : List Bank
  size : RegionSize

namespace Layout

def banks (l : Layout) : MemType → List Bank
  | .conv => l.conv
  | .dev => l.dev

end Layout

def exchange (h : Bank) : List Bank → Bank × List Bank
  | [] => (h,[])
  | b :: bs =>
    if b.base < h.base then ((exchange b bs).1,h :: (exchange b bs).2)
    else ((exchange h bs).1,b :: (exchange h bs).2)

theorem exchange_perm (h : Bank) (bs : List Bank) : ((exchange h bs).1 :: (exchange h bs).2).Perm (h :: bs) := by
  induction bs generalizing h with
  | nil => exact .refl _
  | cons b bs ih =>
    unfold exchange
    split
    · exact (List.Perm.swap ..).trans (((ih b).cons h).trans (.refl _))
    · exact (List.Perm.swap ..).trans (((ih h).cons b).trans (List.Perm.swap ..))

def sortBanks : List Bank → List Bank
  | [] => []
  | h :: bs => (exchange h bs).1 :: sortBanks (exchange h bs).2
termination_by bs => bs.length
decreasing_by
  have := (exchange_perm h bs).length_eq
  simp only [List.length_cons] at this ⊢
  omega

def lo (s : RegionSize) (b : Bank) : Nat := b.base / s.bytes

def hi (s : RegionSize) (b : Bank) : Nat := (b.base + b.size + s.bytes - 1) / s.bytes

def assignIndices (s : RegionSize) (perRegion : Nat) : List Bank → Nat → Nat → List (Bank × Nat) × Nat
  | [],_,num => ([],num)
  | b :: bs,currentTop,num =>
    let base := b.base / s.bytes * s.bytes
    let top := roundUp (b.base+b.size) s.bytes
    if currentTop ≤ base then
      let out := assignIndices s perRegion bs top (num + (top-base) / s.bytes * perRegion)
      ((b,num) :: out.1,out.2)
    else
      let overlap := (currentTop-base) / s.bytes * perRegion
      let out := if currentTop < top then
          assignIndices s perRegion bs top (num + (top-currentTop) / s.bytes * perRegion)
        else assignIndices s perRegion bs currentTop num
      ((b,num-overlap) :: out.1,out.2)

def startOf (assigned : List (Bank × Nat)) (b : Bank) : Nat :=
  ((assigned.find? fun e => e.1 = b).map (·.2)).getD 0

namespace Layout

variable (l : Layout) (t : MemType)

def sharedIndices : List (Bank × Nat) × Nat :=
  assignIndices l.size 1 (sortBanks (l.conv ++ l.dev)) 0 0

def fineIndices : List (Bank × Nat) × Nat :=
  assignIndices l.size (fineStride l.size t) (l.banks t) 0 0

def numRegions : Nat := l.sharedIndices.2

def numGranules : Nat := (l.fineIndices t).2

end Layout

def Bank.Has (b : Bank) (addr : Nat) : Prop := b.base ≤ addr ∧ addr < b.base+b.size

def search (banks : List Bank) (addr left right : Nat) : Option Bank :=
  if left ≤ right then
    match banks[left + (right-left) / 2]? with
    | none => none
    | some b =>
      if addr < b.base then
        if left + (right-left) / 2 = 0 then none
        else search banks addr left (left + (right-left) / 2 - 1)
      else if b.base+b.size ≤ addr then search banks addr (left + (right-left) / 2 + 1) right
      else some b
  else none
termination_by right + 1 - left
decreasing_by all_goals omega

namespace Layout

variable (l : Layout) (t : MemType)

def findBank (addr : Nat) : Option Bank :=
  if (l.banks t).length = 0 then none else search (l.banks t) addr 0 ((l.banks t).length - 1)

def regionOffset (b : Bank) (addr : Nat) : Nat :=
  (addr / l.size.bytes * l.size.bytes - b.base / l.size.bytes * l.size.bytes) / l.size.bytes

def regionIdx (addr : Nat) : Option Nat :=
  (l.findBank t addr).map fun b => startOf l.sharedIndices.1 b + l.regionOffset b addr

def granuleIdx (addr : Nat) : Option Nat :=
  (l.findBank t addr).map fun b =>
    startOf (l.fineIndices t).1 b + l.regionOffset b addr * fineStride l.size t +
      (addr - addr / l.size.bytes * l.size.bytes) / 4096

def fineAddrToIdx (addr : Nat) : Option Nat :=
  if addr % 4096 = 0 then l.granuleIdx t addr else none

def bankAddr (idx : Nat) (b : Bank) : Option Nat :=
  let start := startOf (l.fineIndices t).1 b
  let base := b.base / l.size.bytes * l.size.bytes
  let bankRegions := (roundUp (b.base+b.size) l.size.bytes - base) / l.size.bytes
  if start ≤ idx ∧ idx < start + bankRegions * fineStride l.size t then
    let relative := idx-start
    let offset := relative % fineStride l.size t
    let addr := base + relative / fineStride l.size t * l.size.bytes + offset * 4096
    if l.size.bytes / 4096 ≤ offset ∨ addr < b.base ∨ b.base+b.size ≤ addr then none else some addr
  else none

def fineIdxToAddr (idx : Nat) : Option Nat :=
  if l.numGranules t ≤ idx then none else (l.banks t).findSome? (l.bankAddr t idx)

end Layout

def Before (a b : Bank) : Prop := a.base+a.size ≤ b.base

structure Layout.Valid (l : Layout) : Prop where
  sorted : ∀ t,(l.banks t).Pairwise Before
  apart : ∀ a ∈ l.conv,∀ b ∈ l.dev,Before a b ∨ Before b a
  positive : ∀ t,∀ b ∈ l.banks t,0 < b.size
  aligned : ∀ t,∀ b ∈ l.banks t,b.base % 4096 = 0 ∧ b.size % 4096 = 0

section Sizes

variable (s : RegionSize) (t : MemType)

theorem bytes_pos : 0 < s.bytes := by cases s <;> decide

theorem bytes_granules : s.bytes = s.bytes / 4096 * 4096 := by cases s <;> decide

theorem fineStride_granules : s.bytes / 4096 ≤ fineStride s t := by cases s <;> cases t <;> decide

theorem fineStride_pages : fineStride s t * t.entrySize % 4096 = 0 := by cases s <;> cases t <;> decide

theorem fineStride_pos : 0 < fineStride s t := by cases s <;> cases t <;> decide

end Sizes

theorem sortBanks_perm (bs : List Bank) : (sortBanks bs).Perm bs := by
  induction bs using sortBanks.induct with
  | case1 => rw [sortBanks]
  | case2 h bs ih =>
    rw [sortBanks]
    exact (ih.cons _).trans (exchange_perm h bs)

theorem exchange_least (h : Bank) (bs : List Bank) : ∀ b ∈ (exchange h bs).2,(exchange h bs).1.base ≤ b.base := by
  induction bs generalizing h with
  | nil => simp [exchange]
  | cons b bs ih =>
    have hhead : ∀ c,(exchange c bs).1.base ≤ c.base := fun c => by
      have hmem : c ∈ (exchange c bs).1 :: (exchange c bs).2 :=
        (exchange_perm c bs).mem_iff.mpr (by simp)
      rcases List.mem_cons.mp hmem with he | hm
      · exact le_of_eq (congrArg Bank.base he.symm)
      · exact ih c c hm
    unfold exchange
    split
    · next hlt =>
        intro c hc
        rcases List.mem_cons.mp hc with rfl | hc
        · exact le_trans (hhead b) (le_of_lt hlt)
        · exact ih b c hc
    · next hle =>
        intro c hc
        rcases List.mem_cons.mp hc with rfl | hc
        · exact le_trans (hhead h) (by omega)
        · exact ih h c hc

theorem sortBanks_sorted (bs : List Bank) : (sortBanks bs).Pairwise fun a b => a.base ≤ b.base := by
  induction bs using sortBanks.induct with
  | case1 => rw [sortBanks]; exact .nil
  | case2 h bs ih =>
    rw [sortBanks]
    refine .cons (fun b hb => exchange_least h bs b ?_) ih
    exact (sortBanks_perm _).mem_iff.mp hb

def Touched (s : RegionSize) (bs : List Bank) (q : Nat) : Prop := ∃ b ∈ bs,lo s b ≤ q ∧ q < hi s b

instance (s : RegionSize) (bs : List Bank) : DecidablePred (Touched s bs) :=
  fun q => inferInstanceAs (Decidable (∃ b ∈ bs,lo s b ≤ q ∧ q < hi s b))

section Regions

variable {s : RegionSize} {a b : Bank} {q : Nat}

theorem lt_hi : q < hi s b ↔ q*s.bytes < b.base+b.size := by
  have hp := bytes_pos s
  unfold hi
  rw [← Nat.succ_le_iff,Nat.le_div_iff_mul_le hp,Nat.succ_mul]
  omega

theorem base_lt : b.base < (lo s b + 1)*s.bytes := by
  have hp := bytes_pos s
  exact (Nat.div_lt_iff_lt_mul hp).mp (Nat.lt_succ_self _)

theorem lo_lt_hi (h : 0 < b.size) : lo s b < hi s b :=
  lt_hi.mpr (by have : lo s b * s.bytes ≤ b.base := Nat.div_mul_le_self ..; omega)

theorem Before.hi_le (h : Before a b) : hi s a ≤ lo s b + 1 := by
  by_contra hn
  have hlt := lt_hi.mp (Nat.lt_of_not_le hn)
  have := base_lt (s := s) (b := b)
  unfold Before at h
  omega

theorem Before.lo_le (h : Before a b) : lo s a ≤ lo s b :=
  Nat.div_le_div_right (by unfold Before at h; omega)

theorem Bank.Has.region {addr : Nat} (h : b.Has addr) : lo s b ≤ addr / s.bytes ∧ addr / s.bytes < hi s b :=
  ⟨Nat.div_le_div_right h.1,lt_hi.mpr (lt_of_le_of_lt (Nat.div_mul_le_self _ _) h.2)⟩

end Regions

theorem sub_mul_div {s : RegionSize} (m n : Nat) : (m * s.bytes - n * s.bytes) / s.bytes = m-n := by
  rw [← Nat.sub_mul,Nat.mul_div_cancel _ (bytes_pos s)]

structure Assigned (d c num : Nat) (P : Nat → Prop) [DecidablePred P] : Prop where
  below : ∀ q,P q → q < c
  last : 0 < c → P (c-1)
  num : num = d * Nat.count P c

section Assign

variable {s : RegionSize} {d c num : Nat} {P : Nat → Prop} [DecidablePred P] {b : Bank} {bs : List Bank}

def Extended (s : RegionSize) (P : Nat → Prop) (b : Bank) (q : Nat) : Prop := P q ∨ (lo s b ≤ q ∧ q < hi s b)

instance : DecidablePred (Extended s P b) := fun _ => inferInstanceAs (Decidable (_ ∨ _))

theorem count_extended_lo (h : Assigned d c num P) (hc : c ≤ lo s b + 1) :
    Nat.count P (lo s b) + (c - lo s b) = Nat.count P c := by
  by_cases hle : c ≤ lo s b
  · rw [count_of_gap hle fun k hk _ hp => absurd (h.below k hp) (by omega)]
    omega
  have hpos : 0 < c := by omega
  have he : c = lo s b + 1 := by omega
  have hl : P (lo s b) := by simpa [he] using h.last hpos
  rw [he,Nat.count_succ,if_pos hl]
  omega

theorem Assigned.extend (h : Assigned d c num P) (hb : 0 < b.size) (hc : c ≤ lo s b + 1) :
    Assigned d (hi s b) (d*(Nat.count P (lo s b) + (hi s b - lo s b))) (Extended s P b) where
  below q hq := by
    have := lo_lt_hi (s := s) hb
    rcases hq with hq | hq
    · have := h.below q hq
      omega
    · exact hq.2
  last _ := .inr (by have := lo_lt_hi (s := s) hb; omega)
  num := by
    have hlt := lo_lt_hi (s := s) hb
    rw [count_of_interval (le_of_lt hlt) fun k hk hk' => .inr ⟨hk,hk'⟩]
    congr 2
    refine (count_congr fun k hk => ⟨fun hp => hp.resolve_right (by omega),.inl⟩).symm

theorem mul_count_extended (h : Assigned d c num P) (hc : c ≤ lo s b + 1) :
    num - d * (c - lo s b) = d * Nat.count P (lo s b) := by
  rw [h.num,← count_extended_lo h hc,mul_add,Nat.add_sub_cancel]

theorem assignIndices_cons (h : Assigned d c num P) (hb : 0 < b.size) (hc : c ≤ lo s b + 1) :
    assignIndices s d (b :: bs) (c*s.bytes) num = ((b,d * Nat.count P (lo s b)) ::
        (assignIndices s d bs (hi s b * s.bytes) (d*(Nat.count P (lo s b) + (hi s b - lo s b)))).1,
      (assignIndices s d bs (hi s b * s.bytes) (d*(Nat.count P (lo s b) + (hi s b - lo s b)))).2) := by
  have hp := bytes_pos s
  have hlt := lo_lt_hi (s := s) hb
  have hcount := count_extended_lo h hc
  have hnum := h.num
  have hbase : b.base / s.bytes * s.bytes = lo s b * s.bytes := rfl
  have htop : roundUp (b.base+b.size) s.bytes = hi s b * s.bytes := rfl
  simp only [assignIndices,hbase,htop,Nat.mul_le_mul_right_iff hp,Nat.mul_lt_mul_right hp,sub_mul_div]
  by_cases hle : c ≤ lo s b
  · have hz : c - lo s b = 0 := by omega
    rw [if_pos hle,hnum,← hcount,hz,add_zero,mul_comm (hi s b - lo s b),← mul_add]
  rw [if_neg hle]
  have hstart : num - (c - lo s b) * d = d * Nat.count P (lo s b) := by
    rw [mul_comm,mul_count_extended h hc]
  rw [hstart]
  have he : c = lo s b + 1 := by omega
  have hnext : (if c < hi s b then assignIndices s d bs (hi s b * s.bytes) (num + (hi s b - c) * d)
      else assignIndices s d bs (c*s.bytes) num) =
      assignIndices s d bs (hi s b * s.bytes) (d*(Nat.count P (lo s b) + (hi s b - lo s b))) := by
    have hn : num = d*(Nat.count P (lo s b) + 1) := by rw [hnum,← hcount,he]; congr 2; omega
    split
    · rw [hn,mul_comm (hi s b - c),← mul_add]
      congr 2
      omega
    have hh : hi s b = c := by omega
    rw [hh,hn]
    congr 2
    omega
  rw [hnext]

theorem assignIndices_spec (hs : bs.Pairwise Before) (hpos : ∀ b ∈ bs,0 < b.size)
    (h : Assigned d c num P) (hc : ∀ b ∈ bs,c ≤ lo s b + 1) :
    ((assignIndices s d bs (c*s.bytes) num).1.map Prod.fst = bs) ∧
    (∀ e ∈ (assignIndices s d bs (c*s.bytes) num).1,e.2 = d * Nat.count (fun q => P q ∨ Touched s bs q) (lo s e.1)) ∧
    ∀ top,c ≤ top → (∀ b ∈ bs,hi s b ≤ top) →
      (assignIndices s d bs (c*s.bytes) num).2 = d * Nat.count (fun q => P q ∨ Touched s bs q) top := by
  induction bs generalizing c num P with
  | nil =>
    refine ⟨rfl,by simp [assignIndices],fun top htop _ => ?_⟩
    have hcount : Nat.count (fun q => P q ∨ Touched s [] q) top = Nat.count P top :=
      count_congr fun k _ => by simp [Touched]
    rw [hcount,count_of_gap htop fun k hk _ hp => absurd (h.below k hp) (by omega)]
    exact h.num
  | cons b bs ih =>
    obtain ⟨hb,hs⟩ := List.pairwise_cons.mp hs
    have hbpos := hpos b (by simp)
    have hcb := hc b (by simp)
    have hext := h.extend hbpos hcb
    obtain ⟨hfst,hstarts,htotal⟩ := ih hs (fun x hx => hpos x (by simp [hx])) hext fun x hx => (hb x hx).hi_le
    have hpred : ∀ q,(Extended s P b q ∨ Touched s bs q) ↔ (P q ∨ Touched s (b :: bs) q) := fun q => by
      simp only [Extended,Touched,List.mem_cons,exists_eq_or_imp,or_assoc]
    rw [assignIndices_cons h hbpos hcb]
    refine ⟨by rw [List.map_cons,hfst],fun e he => ?_,fun top htop htops => ?_⟩
    · rcases List.mem_cons.mp he with rfl | he
      · refine congrArg _ (count_congr fun k hk => ⟨.inl,fun hp => hp.resolve_right ?_⟩)
        rintro ⟨x,hx,hlo,_⟩
        rcases List.mem_cons.mp hx with rfl | hx
        · omega
        · have := (hb x hx).lo_le (s := s)
          omega
      · rw [hstarts e he]
        exact congrArg _ (count_congr fun k _ => hpred k)
    · rw [htotal top (htops b (by simp)) fun x hx => htops x (by simp [hx])]
      exact congrArg _ (count_congr fun k _ => hpred k)

end Assign

def rank (s : RegionSize) (bs : List Bank) (q : Nat) : Nat := Nat.count (Touched s bs) q

section Rank

variable {s : RegionSize} {d : Nat} {bs : List Bank} {b : Bank}

theorem assigned_zero (d : Nat) : Assigned d 0 0 (fun _ => False) := ⟨fun _ h => h.elim,by simp,by simp⟩

theorem startOf_eq (hs : bs.Pairwise Before) (hpos : ∀ b ∈ bs,0 < b.size) (hb : b ∈ bs) :
    startOf (assignIndices s d bs 0 0).1 b = d * rank s bs (lo s b) := by
  obtain ⟨hfst,hstarts,_⟩ := assignIndices_spec hs hpos (assigned_zero d) (by simp)
  rw [zero_mul] at hfst hstarts
  obtain ⟨e,he,heb⟩ := List.mem_map.mp (hfst.symm ▸ hb)
  cases hf : (assignIndices s d bs 0 0).1.find? fun e => e.1 = b with
  | none => exact absurd heb (by simpa using List.find?_eq_none.mp hf e he)
  | some e' =>
    have heq : e'.1 = b := by simpa using List.find?_some hf
    rw [startOf,hf,Option.map_some,Option.getD_some,hstarts e' (List.mem_of_find?_eq_some hf),heq]
    exact congrArg _ (count_congr fun k _ => by simp)

theorem total_eq (hs : bs.Pairwise Before) (hpos : ∀ b ∈ bs,0 < b.size) {top : Nat}
    (htop : ∀ b ∈ bs,hi s b ≤ top) : (assignIndices s d bs 0 0).2 = d * rank s bs top := by
  have h := (assignIndices_spec hs hpos (assigned_zero d) (by simp)).2.2 top (by omega) htop
  rw [zero_mul] at h
  rw [h]
  exact congrArg _ (count_congr fun k _ => by simp)

theorem rank_add (hb : b ∈ bs) {q : Nat} (hlo : lo s b ≤ q) (hq : q < hi s b) :
    rank s bs (lo s b) + (q - lo s b) = rank s bs q :=
  (count_of_interval hlo fun _ hk hk' => ⟨b,hb,hk,by omega⟩).symm

theorem exists_top (s : RegionSize) (bs : List Bank) : ∃ top,∀ b ∈ bs,hi s b ≤ top :=
  ⟨(bs.map (hi s)).sum,fun _ hb => List.le_sum_of_mem (List.mem_map_of_mem hb)⟩

end Rank

section Search

variable {banks : List Bank} {addr : Nat} {b : Bank} {left right : Nat}

theorem search_sound (h : search banks addr left right = some b) : b ∈ banks ∧ b.Has addr := by
  fun_induction search banks addr left right with
  | case1 | case2 | case6 => simp at h
  | case3 _ _ _ _ _ _ _ ih | case4 _ _ _ _ _ _ _ ih => exact ih h
  | case5 left right hle x hx hlo hhi =>
    obtain rfl := Option.some.inj h
    exact ⟨List.mem_of_getElem? hx,by omega,by omega⟩

theorem bank_order (hs : banks.Pairwise Before) {i k : Nat} {x : Bank} (hx : banks[i]? = some x)
    (hk : banks[k]? = some b) (hb : b.Has addr) :
    (addr < x.base → k < i) ∧ (x.base+x.size ≤ addr → i < k) ∧
      (x.base ≤ addr → addr < x.base+x.size → x = b) := by
  obtain ⟨hi,rfl⟩ := List.getElem?_eq_some_iff.mp hx
  obtain ⟨hk',rfl⟩ := List.getElem?_eq_some_iff.mp hk
  have hrel := List.pairwise_iff_getElem.mp hs
  have h1 := hb.1
  have h2 := hb.2
  rcases Nat.lt_trichotomy i k with h | rfl | h
  · have hlt := hrel i k hi hk' h
    unfold Before at hlt
    exact ⟨fun _ => by omega,fun _ => h,fun _ _ => by omega⟩
  · exact ⟨fun _ => by omega,fun _ => by omega,fun _ _ => rfl⟩
  · have hlt := hrel k i hk' hi h
    unfold Before at hlt
    exact ⟨fun _ => h,fun _ => by omega,fun _ _ => by omega⟩

theorem search_complete (hs : banks.Pairwise Before) {k : Nat} (hk : banks[k]? = some b) (hb : b.Has addr) (hl : left ≤ k)
    (hr : k ≤ right) (hlen : right < banks.length) : search banks addr left right = some b := by
  fun_induction search banks addr left right with
  | case1 left right hle hx =>
    rw [List.getElem?_eq_none_iff] at hx
    omega
  | case2 left right hle x hx hlo hz =>
    have := (bank_order hs hx hk hb).1 hlo
    omega
  | case3 left right hle x hx hlo hz ih =>
    have := (bank_order hs hx hk hb).1 hlo
    exact ih hl (by omega) (by omega)
  | case4 left right hle x hx hlo hhi ih => exact ih ((bank_order hs hx hk hb).2.1 hhi) hr hlen
  | case5 left right hle x hx hlo hhi => rw [(bank_order hs hx hk hb).2.2 (by omega) (by omega)]
  | case6 => omega

end Search

namespace Layout

variable {l : Layout} {t : MemType} {b : Bank} {addr : Nat}

theorem findBank_iff (hv : l.Valid) : l.findBank t addr = some b ↔ b ∈ l.banks t ∧ b.Has addr := by
  unfold findBank
  constructor
  · intro h
    split at h
    · simp at h
    · exact search_sound h
  · rintro ⟨hb,haddr⟩
    obtain ⟨k,hk⟩ := List.mem_iff_getElem?.mp hb
    have hlt := (List.getElem?_eq_some_iff.mp hk).1
    rw [if_neg (by omega)]
    exact search_complete (hv.sorted t) hk haddr (Nat.zero_le _) (by omega) (by omega)

def all (l : Layout) : List Bank := l.conv ++ l.dev

theorem mem_all : b ∈ l.all ↔ ∃ t,b ∈ l.banks t := by
  unfold all
  rw [List.mem_append]
  constructor
  · rintro (h | h)
    · exact ⟨.conv,h⟩
    · exact ⟨.dev,h⟩
  rintro ⟨t,h⟩
  cases t with
  | conv => exact .inl h
  | dev => exact .inr h

theorem sorted_all (hv : l.Valid) : (sortBanks l.all).Pairwise Before := by
  have hapart : l.all.Pairwise fun a b => Before a b ∨ Before b a :=
    List.pairwise_append.mpr ⟨(hv.sorted .conv).imp .inl,(hv.sorted .dev).imp .inl,hv.apart⟩
  have hsorted := (sortBanks_sorted l.all).and ((sortBanks_perm l.all).symm.pairwise hapart fun h => h.symm)
  refine hsorted.imp_of_mem fun {a b} ha hb h => h.2.resolve_right fun hba => ?_
  obtain ⟨t,hbt⟩ := mem_all.mp ((sortBanks_perm l.all).mem_iff.mp hb)
  have := hv.positive t b hbt
  unfold Before at hba
  omega

theorem positive_all (hv : l.Valid) : ∀ b ∈ sortBanks l.all,0 < b.size := fun b hb => by
  obtain ⟨t,ht⟩ := mem_all.mp ((sortBanks_perm l.all).mem_iff.mp hb)
  exact hv.positive t b ht

theorem regionIdx_eq (hv : l.Valid) {addr i : Nat} (h : l.regionIdx t addr = some i) :
    Touched l.size (sortBanks l.all) (addr / l.size.bytes) ∧
      i = rank l.size (sortBanks l.all) (addr / l.size.bytes) := by
  obtain ⟨b,hb,rfl⟩ := Option.map_eq_some_iff.mp h
  obtain ⟨hmem,haddr⟩ := (findBank_iff hv).mp hb
  have hall : b ∈ sortBanks l.all := (sortBanks_perm l.all).mem_iff.mpr (mem_all.mpr ⟨t,hmem⟩)
  obtain ⟨hlo,hhi⟩ := haddr.region
  refine ⟨⟨b,hall,hlo,hhi⟩,?_⟩
  have hoff : l.regionOffset b addr = addr / l.size.bytes - lo l.size b := sub_mul_div _ _
  rw [sharedIndices,show l.conv ++ l.dev = l.all from rfl,
    startOf_eq (sorted_all hv) (positive_all hv) hall,hoff,one_mul,rank_add hall hlo hhi]

def slot (l : Layout) (t : MemType) (addr : Nat) : Nat :=
  fineStride l.size t * rank l.size (l.banks t) (addr / l.size.bytes) + addr % l.size.bytes / 4096

theorem granuleIdx_eq (hv : l.Valid) (hb : b ∈ l.banks t)
    (haddr : b.Has addr) : l.granuleIdx t addr = some (l.slot t addr) := by
  obtain ⟨hlo,hhi⟩ := haddr.region
  have hoff : l.regionOffset b addr = addr / l.size.bytes - lo l.size b := sub_mul_div _ _
  have hmod : addr - addr / l.size.bytes * l.size.bytes = addr % l.size.bytes := by
    have := Nat.div_add_mod' addr l.size.bytes
    omega
  rw [granuleIdx,(findBank_iff hv).mpr ⟨hb,haddr⟩,Option.map_some,fineIndices,
    startOf_eq (hv.sorted t) (hv.positive t) hb,hoff,hmod,slot,← rank_add hb hlo hhi,mul_add,
    mul_comm (addr / l.size.bytes - lo l.size b)]

theorem offset_lt (l : Layout) (t : MemType) (addr : Nat) : addr % l.size.bytes / 4096 < fineStride l.size t := by
  have hlt := Nat.mod_lt addr (bytes_pos l.size)
  have hle := fineStride_granules l.size t
  have hg := bytes_granules l.size
  omega

theorem slot_div (l : Layout) (t : MemType) (addr : Nat) :
    l.slot t addr / fineStride l.size t = rank l.size (l.banks t) (addr / l.size.bytes) := by
  rw [slot,Nat.mul_add_div (fineStride_pos l.size t),Nat.div_eq_of_lt (l.offset_lt t addr),add_zero]

theorem slot_mod (l : Layout) (t : MemType) (addr : Nat) :
    l.slot t addr % fineStride l.size t = addr % l.size.bytes / 4096 := by
  rw [slot,Nat.mul_add_mod,Nat.mod_eq_of_lt (l.offset_lt t addr)]

theorem addr_eq (s : RegionSize) (h : addr % 4096 = 0) :
    addr / s.bytes * s.bytes + addr % s.bytes / 4096 * 4096 = addr := by
  have hdvd : 4096 ∣ s.bytes := Nat.dvd_of_mod_eq_zero (by cases s <;> decide)
  have hmod : addr % s.bytes % 4096 = 0 := by rw [Nat.mod_mod_of_dvd _ hdvd,h]
  have := Nat.div_add_mod' addr s.bytes
  omega

theorem slot_injective {a a' : Nat} (ha : a % 4096 = 0) (ha' : a' % 4096 = 0)
    (hq : Touched l.size (l.banks t) (a / l.size.bytes)) (hq' : Touched l.size (l.banks t) (a' / l.size.bytes))
    (h : l.slot t a = l.slot t a') : a = a' := by
  have hrank := (slot_div l t a).symm.trans ((congrArg (· / _) h).trans (slot_div l t a'))
  have hoff := (slot_mod l t a).symm.trans ((congrArg (· % _) h).trans (slot_mod l t a'))
  have hregion := Nat.count_injective hq hq' hrank
  rw [← addr_eq l.size ha,← addr_eq l.size ha',hregion,hoff]

theorem fineStart (hv : l.Valid) (hb : b ∈ l.banks t) : startOf (l.fineIndices t).1 b =
    fineStride l.size t * rank l.size (l.banks t) (lo l.size b) := startOf_eq (hv.sorted t) (hv.positive t) hb

theorem bankRegions (s : RegionSize) (b : Bank) : (roundUp (b.base+b.size) s.bytes -
    b.base / s.bytes * s.bytes) / s.bytes = hi s b - lo s b := sub_mul_div _ _

theorem bankAddr_slot (hv : l.Valid) (hb : b ∈ l.banks t)
    (haddr : b.Has addr) (ha : addr % 4096 = 0) : l.bankAddr t (l.slot t addr) b = some addr := by
  obtain ⟨hlo,hhi⟩ := haddr.region
  have hpos := fineStride_pos l.size t
  have hslot : l.slot t addr = fineStride l.size t * rank l.size (l.banks t) (lo l.size b) +
      (fineStride l.size t * (addr / l.size.bytes - lo l.size b) + addr % l.size.bytes / 4096) := by
    rw [slot,← rank_add hb hlo hhi,mul_add,add_assoc]
  have hoff := l.offset_lt t addr
  have hspan : fineStride l.size t * (addr / l.size.bytes - lo l.size b) + addr % l.size.bytes / 4096 <
      (hi l.size b - lo l.size b) * fineStride l.size t := by
    calc _ < fineStride l.size t * (addr / l.size.bytes - lo l.size b) + fineStride l.size t := by omega
      _ = fineStride l.size t * (addr / l.size.bytes - lo l.size b + 1) := (Nat.mul_succ _ _).symm
      _ ≤ fineStride l.size t * (hi l.size b - lo l.size b) := Nat.mul_le_mul_left _ (by omega)
      _ = _ := mul_comm _ _
  have hgran : ¬ l.size.bytes / 4096 ≤ addr % l.size.bytes / 4096 := by
    have := Nat.mod_lt addr (bytes_pos l.size)
    have := bytes_granules l.size
    omega
  have hback : b.base / l.size.bytes * l.size.bytes + (addr / l.size.bytes - lo l.size b) * l.size.bytes +
      addr % l.size.bytes / 4096 * 4096 = addr := by
    rw [← add_mul,show b.base / l.size.bytes + (addr / l.size.bytes - lo l.size b) = addr / l.size.bytes by
      unfold lo at hlo ⊢; omega,addr_eq l.size ha]
  simp only [bankAddr,fineStart hv hb,hslot,bankRegions,Nat.add_sub_cancel_left,Nat.mul_add_div hpos,
    Nat.mul_add_mod,Nat.div_eq_of_lt hoff,Nat.mod_eq_of_lt hoff,add_zero,hback]
  rw [if_pos ⟨Nat.le_add_right _ _,by omega⟩,if_neg]
  have h1 := haddr.1
  have h2 := haddr.2
  omega

theorem bankAddr_sound (hv : l.Valid) {idx addr : Nat} (hb : b ∈ l.banks t)
    (h : l.bankAddr t idx b = some addr) : b.Has addr ∧ addr % 4096 = 0 ∧ l.slot t addr = idx := by
  have hpos := fineStride_pos l.size t
  simp only [bankAddr,fineStart hv hb,bankRegions] at h
  split at h
  swap
  · simp at h
  next hin =>
  split at h
  · simp at h
  next hok =>
  obtain ⟨rel,rfl⟩ := Nat.exists_eq_add_of_le hin.1
  rw [Nat.add_sub_cancel_left] at h hok
  have haddr := Option.some.inj h
  have hg := bytes_granules l.size
  have hk : rel / fineStride l.size t < hi l.size b - lo l.size b :=
    (Nat.div_lt_iff_lt_mul hpos).mpr (by omega)
  have hoff : rel % fineStride l.size t * 4096 < l.size.bytes := by omega
  have hform : addr = l.size.bytes * (lo l.size b + rel / fineStride l.size t) +
      rel % fineStride l.size t * 4096 := by
    rw [← haddr,mul_add,mul_comm _ (lo l.size b),mul_comm _ (rel / _)]
    rfl
  have hdiv : addr / l.size.bytes = lo l.size b + rel / fineStride l.size t := by
    rw [hform,Nat.mul_add_div (bytes_pos _),Nat.div_eq_of_lt hoff,add_zero]
  have hmod : addr % l.size.bytes = rel % fineStride l.size t * 4096 := by
    rw [hform,Nat.mul_add_mod,Nat.mod_eq_of_lt hoff]
  refine ⟨⟨by omega,by omega⟩,?_,?_⟩
  · rw [hform,hg,mul_assoc,mul_comm 4096,← mul_assoc,← add_mul,Nat.mul_mod_left]
  have hrank := rank_add hb (q := addr / l.size.bytes) (by rw [hdiv]; exact Nat.le_add_right _ _)
    (by rw [hdiv]; exact Nat.add_lt_of_lt_sub' hk)
  rw [slot,← hrank,hmod,hdiv,Nat.add_sub_cancel_left,Nat.mul_div_cancel _ (by decide),mul_add,add_assoc,Nat.div_add_mod]

theorem fineAddrToIdx_iff (hv : l.Valid) {addr idx : Nat} : l.fineAddrToIdx t addr = some idx ↔
      (∃ b ∈ l.banks t,b.Has addr) ∧ addr % 4096 = 0 ∧ l.slot t addr = idx := by
  unfold fineAddrToIdx
  constructor
  · intro h
    split at h
    swap
    · simp at h
    next ha =>
    obtain ⟨b,hb,_⟩ := Option.map_eq_some_iff.mp h
    obtain ⟨hmem,haddr⟩ := (findBank_iff hv).mp hb
    rw [granuleIdx_eq hv hmem haddr] at h
    exact ⟨⟨b,hmem,haddr⟩,ha,Option.some.inj h⟩
  · rintro ⟨⟨b,hb,haddr⟩,ha,rfl⟩
    rw [if_pos ha,granuleIdx_eq hv hb haddr]

theorem slot_lt (hv : l.Valid) (hb : b ∈ l.banks t) (haddr : b.Has addr) : l.slot t addr < l.numGranules t := by
  obtain ⟨top,htop⟩ := exists_top l.size (l.banks t)
  obtain ⟨hlo,hhi⟩ := haddr.region
  have hrank : rank l.size (l.banks t) (addr / l.size.bytes) < rank l.size (l.banks t) top :=
    Nat.count_strict_mono ⟨b,hb,hlo,hhi⟩ (lt_of_lt_of_le hhi (htop b hb))
  rw [numGranules,fineIndices,total_eq (hv.sorted t) (hv.positive t) htop,slot]
  have hoff := l.offset_lt t addr
  calc _ < fineStride l.size t * rank l.size (l.banks t) (addr / l.size.bytes) + fineStride l.size t := by omega
    _ = fineStride l.size t * (rank l.size (l.banks t) (addr / l.size.bytes) + 1) := (Nat.mul_succ _ _).symm
    _ ≤ _ := Nat.mul_le_mul_left _ hrank

theorem touched_of_has (h : ∃ b ∈ l.banks t,b.Has addr) : Touched l.size (l.banks t) (addr / l.size.bytes) := by
  obtain ⟨b,hb,haddr⟩ := h
  exact ⟨b,hb,haddr.region⟩

theorem fineIdxToAddr_iff (hv : l.Valid) {addr idx : Nat} :
    l.fineIdxToAddr t idx = some addr ↔ l.fineAddrToIdx t addr = some idx := by
  rw [fineAddrToIdx_iff hv]
  unfold fineIdxToAddr
  constructor
  · intro h
    split at h
    · simp at h
    · obtain ⟨b,hb,haddr⟩ := List.exists_of_findSome?_eq_some h
      obtain ⟨hhas,hrest⟩ := bankAddr_sound hv hb haddr
      exact ⟨⟨b,hb,hhas⟩,hrest⟩
  · rintro ⟨⟨b,hb,haddr⟩,ha,rfl⟩
    have hlt := slot_lt hv hb haddr
    rw [if_neg (by omega)]
    have hself := bankAddr_slot hv hb haddr ha
    cases hf : (l.banks t).findSome? (l.bankAddr t (l.slot t addr)) with
    | none => exact absurd hself (by simp [List.findSome?_eq_none_iff.mp hf b hb])
    | some addr' =>
      obtain ⟨b',hb',haddr'⟩ := List.exists_of_findSome?_eq_some hf
      obtain ⟨hhas,ha',hslot⟩ := bankAddr_sound hv hb' haddr'
      exact congrArg some (slot_injective ha' ha (touched_of_has ⟨b',hb',hhas⟩) (touched_of_has ⟨b,hb,haddr⟩) hslot)

end Layout

structure Compact (l : Layout) : Prop where
  total : ∀ t addr,(∃ b ∈ l.banks t,b.Has addr) ↔ (l.regionIdx t addr).isSome
  monotone : ∀ t t' a a' i i',l.regionIdx t a = some i → l.regionIdx t' a' = some i' → a ≤ a' → i ≤ i'
  sameRegion : ∀ t t' a a' i i',l.regionIdx t a = some i → l.regionIdx t' a' = some i' →
    (i = i' ↔ a / l.size.bytes = a' / l.size.bytes)
  covered : ∀ i,i < l.numRegions ↔ ∃ t a,l.regionIdx t a = some i
  fineTotal : ∀ t addr,addr % 4096 = 0 → (∃ b ∈ l.banks t,b.Has addr) → (l.fineAddrToIdx t addr).isSome
  inverse : ∀ t addr idx,l.fineIdxToAddr t idx = some addr ↔ l.fineAddrToIdx t addr = some idx
  distinct : ∀ t a a' i,l.fineAddrToIdx t a = some i → l.fineAddrToIdx t a' = some i → a = a'
  pages : ∀ t a a' i i',l.fineAddrToIdx t a = some i → l.fineAddrToIdx t a' = some i' →
    a / l.size.bytes ≠ a' / l.size.bytes → ∀ k k',k < t.entrySize → k' < t.entrySize →
      (i * t.entrySize + k) / 4096 ≠ (i' * t.entrySize + k') / 4096
  inside : ∀ t a i,l.fineAddrToIdx t a = some i → i < l.numGranules t

namespace Layout

variable {l : Layout}

theorem regionIdx_isSome (hv : l.Valid) (t : MemType) (addr : Nat) :
    (∃ b ∈ l.banks t,b.Has addr) ↔ (l.regionIdx t addr).isSome := by
  rw [regionIdx,Option.isSome_map,Option.isSome_iff_exists]
  simp only [findBank_iff hv]

theorem exact_regions (hv : l.Valid) (i : Nat) : i < l.numRegions ↔ ∃ t a,l.regionIdx t a = some i := by
  obtain ⟨top,htop⟩ := exists_top l.size (sortBanks l.all)
  have hnum : l.numRegions = rank l.size (sortBanks l.all) top := by
    rw [numRegions,sharedIndices,show l.conv ++ l.dev = l.all from rfl,
      total_eq (sorted_all hv) (positive_all hv) htop,one_mul]
  rw [hnum]
  constructor
  · intro h
    obtain ⟨q,_,⟨b,hb,hlo,hhi⟩,hcount⟩ := exists_of_lt_count h
    obtain ⟨t,ht⟩ := mem_all.mp ((sortBanks_perm l.all).mem_iff.mp hb)
    have hhas : b.Has (max b.base (q*l.size.bytes)) := by
      have := lt_hi.mp hhi
      have := hv.positive t b ht
      exact ⟨le_max_left _ _,by omega⟩
    have hregion : max b.base (q*l.size.bytes) / l.size.bytes = q := by
      have hp := bytes_pos l.size
      have hbase : b.base < (q+1)*l.size.bytes :=
        lt_of_lt_of_le base_lt (Nat.mul_le_mul_right _ (by omega))
      rw [Nat.succ_mul] at hbase
      apply Nat.div_eq_of_lt_le (le_max_right _ _)
      rw [Nat.succ_mul]
      omega
    obtain ⟨j,hj⟩ := Option.isSome_iff_exists.mp ((regionIdx_isSome hv t _).mp ⟨b,ht,hhas⟩)
    have hji := (regionIdx_eq hv hj).2
    rw [hregion] at hji
    exact ⟨t,_,hj.trans (congrArg some (hji.trans hcount))⟩
  · rintro ⟨t,a,h⟩
    obtain ⟨⟨b,hb,hlo,hhi⟩,rfl⟩ := regionIdx_eq hv h
    exact Nat.count_strict_mono ⟨b,hb,hlo,hhi⟩ (lt_of_lt_of_le hhi (htop b hb))

theorem slot_page (l : Layout) (t : MemType) (addr : Nat) {k : Nat} (hk : k < t.entrySize) :
    (l.slot t addr * t.entrySize + k) / 4096 / (fineStride l.size t * t.entrySize / 4096) =
      rank l.size (l.banks t) (addr / l.size.bytes) := by
  have hpages := Nat.div_mul_cancel (Nat.dvd_of_mod_eq_zero (fineStride_pages l.size t))
  have hoff := l.offset_lt t addr
  rw [Nat.div_div_eq_div_mul,mul_comm 4096,hpages]
  have hbyte : addr % l.size.bytes / 4096 * t.entrySize + k < fineStride l.size t * t.entrySize := by
    calc _ < addr % l.size.bytes / 4096 * t.entrySize + t.entrySize := by omega
      _ = (addr % l.size.bytes / 4096 + 1)*t.entrySize := (Nat.succ_mul _ _).symm
      _ ≤ _ := Nat.mul_le_mul_right _ hoff
  rw [slot,add_mul,add_assoc,Nat.mul_right_comm,Nat.mul_add_div (by omega),Nat.div_eq_of_lt hbyte,add_zero]

end Layout

open Layout

theorem index_space (l : Layout) (hv : l.Valid) : Compact l where
  total := Layout.regionIdx_isSome hv
  monotone t t' a a' i i' h h' hle := by
    obtain ⟨_,rfl⟩ := regionIdx_eq hv h
    obtain ⟨_,rfl⟩ := regionIdx_eq hv h'
    exact Nat.count_monotone _ (Nat.div_le_div_right hle)
  sameRegion t t' a a' i i' h h' := by
    obtain ⟨hq,rfl⟩ := regionIdx_eq hv h
    obtain ⟨hq',rfl⟩ := regionIdx_eq hv h'
    exact ⟨Nat.count_injective hq hq',fun h => by rw [h]⟩
  covered := Layout.exact_regions hv
  fineTotal t addr ha hb := by
    rw [(fineAddrToIdx_iff hv).mpr ⟨hb,ha,rfl⟩]
    rfl
  inverse _ _ _ := Layout.fineIdxToAddr_iff hv
  distinct t a a' i h h' := by
    obtain ⟨hb,ha,hi⟩ := (fineAddrToIdx_iff hv).mp h
    obtain ⟨hb',ha',hi'⟩ := (fineAddrToIdx_iff hv).mp h'
    exact Layout.slot_injective ha ha' (touched_of_has hb) (touched_of_has hb') (hi.trans hi'.symm)
  pages t a a' i i' h h' hne k k' hk hk' heq := by
    obtain ⟨hb,_,rfl⟩ := (fineAddrToIdx_iff hv).mp h
    obtain ⟨hb',_,rfl⟩ := (fineAddrToIdx_iff hv).mp h'
    have hrank := (slot_page l t a hk).symm.trans ((congrArg (· / _) heq).trans (slot_page l t a' hk'))
    exact hne (Nat.count_injective (touched_of_has hb) (touched_of_has hb') hrank)
  inside t a i h := by
    obtain ⟨⟨b,hb,haddr⟩,_,rfl⟩ := (fineAddrToIdx_iff hv).mp h
    exact Layout.slot_lt hv hb haddr

def sharedRegion : Layout := ⟨[⟨0x1000,0x1000⟩,⟨0x4000,0x200000⟩],[⟨0x2000,0x1000⟩],.min⟩

theorem sharedRegion_valid : sharedRegion.Valid where
  sorted t := by cases t <;> simp [sharedRegion,banks,Before]
  apart := by simp [sharedRegion,Before]
  positive t := by cases t <;> simp [sharedRegion,banks]
  aligned t := by cases t <;> simp [sharedRegion,banks]

theorem index_space_shared_region : sharedRegion.Valid ∧ Compact sharedRegion :=
  ⟨sharedRegion_valid,index_space sharedRegion sharedRegion_valid⟩

end TfRmm.Tracking.IndexSpace
