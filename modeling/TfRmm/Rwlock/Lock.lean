import Mathlib.Algebra.BigOperators.Group.Finset.Piecewise
import Mathlib.Algebra.Order.BigOperators.Group.Finset
import Mathlib.Algebra.Group.Nat.Defs
import Mathlib.Logic.Function.Basic
import TfRmm.Lib.Transition

namespace TfRmm.Rwlock

def gateBit : Nat := 2 ^ 63

def writerBit : Nat := 2 ^ 62

def readersMask : Nat := 2 ^ 62 - 1

variable (w : Nat)

def gateLocked : Bool := decide (gateBit ≤ w)

def writerLocked : Bool := decide (writerBit ≤ w % gateBit)

def readers : Nat := w % writerBit

def setGate : Nat := if gateLocked w then w else w+gateBit

def clearGate : Nat := if gateLocked w then w-gateBit else w

def setWriter : Nat := if writerLocked w then w else w+writerBit

def clearWriter : Nat := if writerLocked w then w-writerBit else w

def addReader : Nat := (w+1) % 2 ^ 64

def subReader : Nat := (w+(2 ^ 64 - 1)) % 2 ^ 64

inductive Phase where
  | out
  | gate
  | gateWriter
  | gateReaders
  | count
  | openGate
  | release
  | drop
  | tryGate (again : Bool)
  | tryReaders (again : Bool)
  | tryOpen (again : Bool)
  | tryWriter
  | claim
  | writing
  | endWriter
  | unclaim
  | reopen
  deriving DecidableEq

structure Lock where
  cpus : Nat
  depthMax : Nat
  word : Nat
  phase : Nat → Phase
  depth : Nat → Nat

inductive Act where
  | read
  | unread
  | write (again : Bool)
  | unwrite
  | go
  deriving DecidableEq

namespace Lock

variable (l : Lock) (c : Nat)

def setPhase (p : Phase) : Lock := { l with phase := Function.update l.phase c p }

def setWord (w : Nat) : Lock := { l with word := w }

def setDepth (c n : Nat) : Lock := { l with depth := Function.update l.depth c n }

def asserts : Bool :=
  match l.phase c with
  | .gateWriter => writerLocked l.word
  | .gateReaders => decide (readersMask ≤ readers l.word)
  | .release => readers l.word == 0
  | .tryWriter => writerLocked l.word
  | .endWriter => !writerLocked l.word
  | _ => false

def go : Option Lock :=
  match l.phase c with
  | .out => none
  | .writing => none
  | .gate => if gateLocked l.word then some l else some ((l.setWord (setGate l.word)).setPhase c .gateWriter)
  | .gateWriter => some (l.setPhase c .gateReaders)
  | .gateReaders => some (l.setPhase c .count)
  | .count => some (((l.setWord (addReader l.word)).setDepth c (l.depth c + 1)).setPhase c .openGate)
  | .openGate => some ((l.setWord (clearGate l.word)).setPhase c .out)
  | .release => some (l.setPhase c .drop)
  | .drop => some (((l.setWord (subReader l.word)).setDepth c (l.depth c - 1)).setPhase c .out)
  | .tryGate b =>
    if gateLocked l.word then some (l.setPhase c (if b then .tryGate b else .out))
    else some ((l.setWord (setGate l.word)).setPhase c (.tryReaders b))
  | .tryReaders b => some (l.setPhase c (if readers l.word = 0 then .tryWriter else .tryOpen b))
  | .tryOpen b => some ((l.setWord (clearGate l.word)).setPhase c (if b then .tryGate b else .out))
  | .tryWriter => some (l.setPhase c .claim)
  | .claim => some ((l.setWord (setWriter l.word)).setPhase c .writing)
  | .endWriter => some (l.setPhase c .unclaim)
  | .unclaim => some ((l.setWord (clearWriter l.word)).setPhase c .reopen)
  | .reopen => some ((l.setWord (clearGate l.word)).setPhase c .out)

def step : Act → Option Lock
  | .go => if c < l.cpus then l.go c else none
  | .read => if c < l.cpus ∧ l.phase c = .out ∧ l.depth c < l.depthMax then some (l.setPhase c .gate) else none
  | .unread => if c < l.cpus ∧ l.phase c = .out ∧ 0 < l.depth c then some (l.setPhase c .release) else none
  | .write b => if c < l.cpus ∧ l.phase c = .out then some (l.setPhase c (.tryGate b)) else none
  | .unwrite => if c < l.cpus ∧ l.phase c = .writing then some (l.setPhase c .endWriter) else none

structure Initial : Prop where
  word : l.word = 0
  phase : ∀ c, l.phase c = .out
  depth : ∀ c, l.depth c = 0
  fits : l.cpus*l.depthMax < readersMask

end Lock

def system : Lib.TransitionSystem Lock (Nat × Act) where
  init := Lock.Initial
  step := fun l x l' => l.step x.1 x.2 = some l'

open Finset

variable {l l' : Lock} {c : Nat} {g w : Bool} {r : Nat}

def pack (g w : Bool) (r : Nat) : Nat := (if g then gateBit else 0) + (if w then writerBit else 0) + r

section

variable (hr : r < writerBit)

include hr

theorem gateLocked_pack : gateLocked (pack g w r) = g := by
  unfold gateLocked pack gateBit writerBit at *
  cases g <;> cases w <;> simp <;> omega

theorem writerLocked_pack : writerLocked (pack g w r) = w := by
  unfold writerLocked pack gateBit writerBit at *
  cases g <;> cases w <;> simp <;> omega

theorem readers_pack : readers (pack g w r) = r := by
  unfold readers pack gateBit writerBit at *
  cases g <;> cases w <;> simp <;> omega

theorem setGate_pack : setGate (pack false w r) = pack true w r := by
  unfold setGate
  rw [gateLocked_pack hr]
  simp only [pack,Bool.false_eq_true,if_false,if_true]
  omega

theorem clearGate_pack : clearGate (pack true w r) = pack false w r := by
  unfold clearGate
  rw [gateLocked_pack hr]
  simp only [pack,Bool.false_eq_true,if_false,if_true]
  omega

theorem setWriter_pack : setWriter (pack g false r) = pack g true r := by
  unfold setWriter
  rw [writerLocked_pack hr]
  simp only [pack,Bool.false_eq_true,if_false,if_true]
  omega

theorem clearWriter_pack : clearWriter (pack g true r) = pack g false r := by
  unfold clearWriter
  rw [writerLocked_pack hr]
  simp only [pack,Bool.false_eq_true,if_false,if_true]
  omega

end

theorem addReader_pack (hr : r+1 < writerBit) : addReader (pack g w r) = pack g w (r+1) := by
  unfold addReader pack gateBit writerBit at *
  cases g <;> cases w <;> simp <;> omega

theorem subReader_pack (hr : r < writerBit) (hpos : 0 < r) : subReader (pack g w r) = pack g w (r-1) := by
  unfold subReader pack gateBit writerBit at *
  cases g <;> cases w <;> simp <;> omega

variable {p q : Phase} {n i : Nat} {α : Type}

namespace Phase

def gated : Phase → Bool
  | .out | .gate | .release | .drop | .tryGate _ => false
  | _ => true

def claimed : Phase → Bool
  | .writing | .endWriter | .unclaim => true
  | _ => false

def exclusive : Phase → Bool
  | .tryWriter | .claim | .writing | .endWriter | .unclaim | .reopen => true
  | _ => false

def admits : Phase → Bool
  | .gate | .gateWriter | .gateReaders | .count => true
  | _ => false

def holds : Phase → Bool
  | .release | .drop => true
  | _ => false

theorem gated_of_exclusive (h : p.exclusive = true) : p.gated = true := by
  cases p <;> first | rfl | cases h

theorem exclusive_of_claimed (h : p.claimed = true) : p.exclusive = true := by
  cases p <;> first | rfl | cases h

end Phase

def Lock.total (l : Lock) : Nat := ∑ c ∈ range l.cpus, l.depth c

structure Inv (l : Lock) : Prop where
  fits : l.cpus*l.depthMax < readersMask
  inside : ∀ c, l.cpus ≤ c → l.phase c = .out ∧ l.depth c = 0
  depth : ∀ c, l.depth c ≤ l.depthMax
  room : ∀ c, (l.phase c).admits = true → l.depth c < l.depthMax
  holds : ∀ c, (l.phase c).holds = true → 0 < l.depth c
  gate : ∀ c c', (l.phase c).gated = true → (l.phase c').gated = true → c = c'
  alone : ∀ c, (l.phase c).exclusive = true → ∀ c', l.depth c' = 0
  word : ∃ g w, l.word = pack g w l.total ∧ (g = true ↔ ∃ c, (l.phase c).gated = true) ∧
    (w = true ↔ ∃ c, (l.phase c).claimed = true)

theorem Inv.total_le (h : Inv l) : l.total ≤ l.cpus*l.depthMax := by
  have := sum_le_card_nsmul (range l.cpus) l.depth l.depthMax fun c _ => h.depth c
  rw [card_range] at this
  exact this

theorem Inv.total_lt (h : Inv l) : l.total < readersMask := Nat.lt_of_le_of_lt h.total_le h.fits

theorem Inv.depth_le_total (h : Inv l) (c : Nat) : l.depth c ≤ l.total := by
  by_cases hc : c < l.cpus
  · exact single_le_sum (fun _ _ => Nat.zero_le _) (mem_range.mpr hc)
  · rw [(h.inside c (Nat.le_of_not_lt hc)).2]
    exact Nat.zero_le _

theorem sum_depth_update {f : Nat → Nat} {m : Nat} (hc : c < m) :
    ∑ i ∈ range m, Function.update f c n i = ∑ i ∈ range m, f i - f c + n := by
  have h1 := sum_update_of_mem (mem_range.mpr hc) f n
  have h2 := sum_eq_add_sum_sdiff_singleton_of_mem (mem_range.mpr hc) f
  omega

theorem exists_update {f : Nat → α} {x : α} {q : α → Bool} :
    (∃ i, q (Function.update f c x i) = true) ↔ q x = true ∨ ∃ i, i ≠ c ∧ q (f i) = true := by
  constructor
  · rintro ⟨i,hi⟩
    by_cases hic : i = c
    · rw [hic,Function.update_self] at hi
      exact .inl hi
    · rw [Function.update_of_ne hic] at hi
      exact .inr ⟨i,hic,hi⟩
  · rintro (hx | ⟨i,hic,hi⟩)
    · exact ⟨c,by rwa [Function.update_self]⟩
    · exact ⟨i,by rwa [Function.update_of_ne hic]⟩

theorem flag_update {f : Nat → α} {x : α} {q : α → Bool} {b : Bool}
    (hb : b = true ↔ ∃ i, q (f i) = true) (hone : ∀ i, q (f i) = true → q (f c) = true → i = c) :
    (q x || (b && !q (f c))) = true ↔ ∃ i, q (Function.update f c x i) = true := by
  rw [exists_update]
  simp only [Bool.or_eq_true,Bool.and_eq_true,Bool.not_eq_true']
  refine or_congr_right ⟨fun ⟨h1,h2⟩ => ?_,fun ⟨i,hic,hi⟩ => ⟨hb.mpr ⟨i,hi⟩,?_⟩⟩
  · obtain ⟨i,hi⟩ := hb.mp h1
    exact ⟨i,fun hic => by rw [hic,h2] at hi; exact absurd hi (by simp),hi⟩
  · refine Bool.eq_false_iff.2 fun hq => ?_
    exact absurd (hone i hi hq) hic

theorem Inv.gate_claimed (h : Inv l) (hi : (l.phase i).claimed = true) (hc : (l.phase c).claimed = true) : i = c :=
  h.gate i c (Phase.gated_of_exclusive (Phase.exclusive_of_claimed hi))
    (Phase.gated_of_exclusive (Phase.exclusive_of_claimed hc))

theorem Inv.gated_false (h : Inv l) (hc : (l.phase c).gated = true) (hi : i ≠ c) : (l.phase i).gated = false :=
  Bool.eq_false_iff.2 fun hq => hi (h.gate i c hq hc)

theorem Inv.not_exclusive (h : Inv l) (hd : l.depth c ≠ 0) (i : Nat) : (l.phase i).exclusive = false :=
  Bool.eq_false_iff.2 fun hq => hd (h.alone i hq c)

theorem Inv.claimed_eq {w : Bool} (h : Inv l) (hw : w = true ↔ ∃ i, (l.phase i).claimed = true)
    (hp : (l.phase c).gated = true) : w = (l.phase c).claimed := by
  rw [Bool.eq_iff_iff,hw]
  refine ⟨fun ⟨i,hi⟩ => ?_,fun hc => ⟨c,hc⟩⟩
  rwa [h.gate i c (Phase.gated_of_exclusive (Phase.exclusive_of_claimed hi)) hp] at hi

section

variable (h : Inv l) (hg : g = true ↔ ∃ c, (l.phase c).gated = true) (hw : w = true ↔ ∃ c, (l.phase c).claimed = true)
    (hc : c < l.cpus)

include h hg hw hc

theorem Inv.change {x : Nat}
    (hx : x = pack (p.gated || (g && !(l.phase c).gated)) (p.claimed || (w && !(l.phase c).claimed))
    (l.total - l.depth c + n))
    (hgate : p.gated = true → (l.phase c).gated = true ∨ g = false) (hn : n ≤ l.depthMax)
    (hroom : p.admits = true → n < l.depthMax) (hholds : p.holds = true → 0 < n)
    (halone : p.exclusive = true → n = 0 ∧ ∀ i, l.depth i = 0)
    (hother : n ≠ 0 → ∀ i, i ≠ c → (l.phase i).exclusive = false) :
    Inv (((l.setWord x).setDepth c n).setPhase c p) := by
  have hphase : ∀ i, (((l.setWord x).setDepth c n).setPhase c p).phase i = if i = c then p else l.phase i :=
    fun i => Function.update_apply ..
  have hdepth : ∀ i, (((l.setWord x).setDepth c n).setPhase c p).depth i = if i = c then n else l.depth i :=
    fun i => Function.update_apply ..
  refine ⟨h.fits,fun i hi => ?_,fun i => ?_,fun i hi => ?_,fun i hi => ?_,fun i j hi hj => ?_,
    fun i hi j => ?_,_,_,?_,flag_update hg fun i hi hc => h.gate i c hi hc,
    flag_update hw fun i hi hc => h.gate_claimed hi hc⟩
  · have hne : i ≠ c := fun hic => absurd hc (by rw [← hic]; exact Nat.not_lt.mpr hi)
    rw [hphase,hdepth,if_neg hne,if_neg hne]
    exact h.inside i hi
  · rw [hdepth]
    split
    · exact hn
    · exact h.depth i
  · rw [hphase] at hi
    rw [hdepth]
    split at hi
    next hic => rw [if_pos hic]; exact hroom hi
    next hic => rw [if_neg hic]; exact h.room i hi
  · rw [hphase] at hi
    rw [hdepth]
    split at hi
    next hic => rw [if_pos hic]; exact hholds hi
    next hic => rw [if_neg hic]; exact h.holds i hi
  · have hfree : p.gated = true → ∀ i, i ≠ c → (l.phase i).gated = false := fun hp i hic => by
      refine Bool.eq_false_iff.2 fun hq => ?_
      rcases hgate hp with hcg | hgf
      · exact absurd (h.gate i c hq hcg) hic
      · exact absurd (hg.mpr ⟨i,hq⟩) (by rw [hgf]; simp)
    rw [hphase] at hi hj
    split at hi <;> split at hj
    next hic hjc => rw [hic,hjc]
    next hic hjc => rw [hfree hi j hjc] at hj; cases hj
    next hic hjc => rw [hfree hj i hic] at hi; cases hi
    · exact h.gate i j hi hj
  · rw [hphase] at hi
    rw [hdepth]
    split at hi
    · split
      · exact (halone hi).1
      · exact (halone hi).2 j
    next hic =>
    split
    · by_contra hn
      rw [hother hn i hic] at hi
      cases hi
    · exact h.alone i hi j
  · show x = pack _ _ (∑ i ∈ range l.cpus, Function.update l.depth c n i)
    rw [sum_depth_update hc]
    exact hx

theorem Inv.move {x : Nat}
    (hx : x = pack (p.gated || (g && !(l.phase c).gated)) (p.claimed || (w && !(l.phase c).claimed)) l.total)
    (hgate : p.gated = true → (l.phase c).gated = true ∨ g = false)
    (hroom : p.admits = true → l.depth c < l.depthMax) (hholds : p.holds = true → 0 < l.depth c)
    (halone : p.exclusive = true → ∀ i, l.depth i = 0) : Inv ((l.setWord x).setPhase c p) := by
  have hsame : ((l.setWord x).setDepth c (l.depth c)).setPhase c p = (l.setWord x).setPhase c p := by
    unfold Lock.setDepth
    rw [show (l.setWord x).depth = l.depth from rfl,Function.update_eq_self]
    rfl
  rw [← hsame]
  refine h.change hg hw hc ?_ hgate (h.depth c) hroom hholds (fun he => ⟨halone he c,halone he⟩) fun hn i _ =>
    h.not_exclusive hn i
  rw [hx,Nat.sub_add_cancel (h.depth_le_total c)]

end

theorem Inv.advance (h : Inv l) (hc : c < l.cpus) (hq : l.phase c = q) (hgated : p.gated = q.gated)
    (hclaimed : p.claimed = q.claimed)
    (hroom : p.admits = true → l.depth c < l.depthMax) (hholds : p.holds = true → 0 < l.depth c)
    (halone : p.exclusive = true → ∀ i, l.depth i = 0) : Inv (l.setPhase c p) := by
  subst hq
  obtain ⟨g,w,hword,hg,hw⟩ := h.word
  have hflag : ∀ b x : Bool, (x = true → b = true) → (x || (b && !x)) = b := by decide
  refine h.move hg hw hc ?_ (fun hp => .inl (by rw [← hgated,hp])) hroom hholds halone
  rw [hgated,hclaimed,hflag g _ fun hp => hg.mpr ⟨c,hp⟩,hflag w _ fun hp => hw.mpr ⟨c,hp⟩]
  exact hword

theorem Inv.total_fits (h : Inv l) : l.total < writerBit := Nat.lt_trans h.total_lt (by decide)

theorem Inv.no_readers (h : Inv l) (hr : readers l.word = 0) (i : Nat) : l.depth i = 0 := by
  obtain ⟨g,w,hword,_⟩ := h.word
  rw [hword,readers_pack h.total_fits] at hr
  have := h.depth_le_total i
  omega

attribute [local simp] Phase.holds Phase.admits Phase.exclusive Phase.gated Phase.claimed

theorem Inv.go (h : Inv l) (hc : c < l.cpus) (hs : l.go c = some l') : Inv l' := by
  obtain ⟨g,w,hword,hg,hw⟩ := h.word
  have hr := h.total_fits
  have hgated : (l.phase c).gated = true → g = true := fun hp => hg.mpr ⟨c,hp⟩
  unfold Lock.go at hs
  cases hp : l.phase c <;> rw [hp] at hs hgated <;> dsimp only at hs
  case out => cases hs
  case writing => cases hs
  case gate =>
    rw [hword,gateLocked_pack hr] at hs
    cases g with
    | true => cases hs; exact h
    | false =>
      cases hs
      refine h.move hg hw hc ?_ (fun _ => .inr rfl) (fun _ => h.room c (hp ▸ rfl)) (by simp) (by simp)
      rw [hp,setGate_pack hr]
      simp
  case gateWriter | gateReaders =>
    cases hs
    exact h.advance hc hp rfl rfl (fun _ => h.room c (hp ▸ rfl)) (by simp) (by simp)
  case count =>
    cases hs
    have hroom := h.room c (hp ▸ rfl)
    have hdepth := h.depth_le_total c
    have htotal := h.total_lt
    refine h.change hg hw hc ?_ (fun _ => .inl (hp ▸ rfl)) hroom (by simp)
      (by simp) (by simp) fun _ i hic => ?_
    · rw [hword,hp,hgated rfl,addReader_pack (by unfold readersMask at htotal; unfold writerBit; omega),
        show l.total - l.depth c + (l.depth c + 1) = l.total+1 by omega]
      simp
    · refine Bool.eq_false_iff.2 fun hq => hic ?_
      exact h.gate i c (Phase.gated_of_exclusive hq) (by rw [hp]; rfl)
  case openGate =>
    cases hs
    refine h.move hg hw hc ?_ (by simp) (by simp) (by simp) (by simp)
    rw [hword,hp,hgated rfl,clearGate_pack hr]
    simp
  case release =>
    cases hs
    exact h.advance hc hp rfl rfl (by simp) (fun _ => h.holds c (hp ▸ rfl)) (by simp)
  case drop =>
    cases hs
    have hpos := h.holds c (hp ▸ rfl)
    have hdepth := h.depth_le_total c
    have hmax := h.depth c
    refine h.change hg hw hc ?_ (by simp) (by omega) (by simp) (by simp) (by simp) fun _ i _ =>
      h.not_exclusive (Nat.ne_of_gt hpos) i
    · rw [hword,hp,subReader_pack hr (by omega),show l.total - l.depth c + (l.depth c - 1) = l.total-1 by omega]
      simp
  case tryGate b =>
    rw [hword,gateLocked_pack hr] at hs
    cases g with
    | true =>
      cases hs
      cases b <;> exact h.advance hc hp rfl rfl (by simp) (by simp) (by simp)
    | false =>
      cases hs
      refine h.move hg hw hc ?_ (fun _ => .inr rfl) (by simp) (by simp) (by simp)
      rw [hp,setGate_pack hr]
      simp
  case tryReaders b =>
    cases hs
    split
    next hz => exact h.advance hc hp rfl rfl (by simp) (by simp) fun _ => h.no_readers hz
    · exact h.advance hc hp rfl rfl (by simp) (by simp) (by simp)
  case tryOpen b =>
    cases hs
    have hx : clearGate l.word = pack false w l.total := by rw [hword,hgated rfl,clearGate_pack hr]
    cases b <;> refine h.move hg hw hc ?_ (by simp) (by simp) (by simp) (by simp) <;> rw [hx,hp] <;> simp
  case tryWriter =>
    cases hs
    exact h.advance hc hp rfl rfl (by simp) (by simp) fun _ => h.alone c (hp ▸ rfl)
  case claim =>
    cases hs
    have hwf : w = false := by
      rw [h.claimed_eq hw (by rw [hp]; rfl),hp]
      rfl
    refine h.move hg hw hc ?_ (fun _ => .inl (hp ▸ rfl)) (by simp) (by simp)
      fun _ => h.alone c (hp ▸ rfl)
    rw [hword,hp,hgated rfl,hwf,setWriter_pack hr]
    simp
  case endWriter =>
    cases hs
    exact h.advance hc hp rfl rfl (by simp) (by simp) fun _ => h.alone c (hp ▸ rfl)
  case unclaim =>
    cases hs
    have hwt : w = true := hw.mpr ⟨c,by rw [hp]; rfl⟩
    refine h.move hg hw hc ?_ (fun _ => .inl (hp ▸ rfl)) (by simp) (by simp)
      fun _ => h.alone c (hp ▸ rfl)
    rw [hword,hp,hgated rfl,hwt,clearWriter_pack hr]
    simp
  case reopen =>
    cases hs
    refine h.move hg hw hc ?_ (by simp) (by simp) (by simp) (by simp)
    rw [hword,hp,hgated rfl,clearGate_pack hr]
    simp

theorem Inv.step (h : Inv l) {a : Act} (hs : l.step c a = some l') : Inv l' := by
  cases a with
  | go =>
    simp only [Lock.step] at hs
    split at hs
    next hc => exact h.go hc hs
    · cases hs
  | read =>
    simp only [Lock.step] at hs
    split at hs
    next hc =>
      cases hs
      exact h.advance hc.1 hc.2.1 rfl rfl (fun _ => hc.2.2) (by simp) (by simp)
    · cases hs
  | unread =>
    simp only [Lock.step] at hs
    split at hs
    next hc =>
      cases hs
      exact h.advance hc.1 hc.2.1 rfl rfl (by simp) (fun _ => hc.2.2) (by simp)
    · cases hs
  | write b =>
    simp only [Lock.step] at hs
    split at hs
    next hc =>
      cases hs
      exact h.advance hc.1 hc.2 rfl rfl (by simp) (by simp) (by simp)
    · cases hs
  | unwrite =>
    simp only [Lock.step] at hs
    split at hs
    next hc =>
      cases hs
      exact h.advance hc.1 hc.2 rfl rfl (by simp)
        (by simp) fun _ => h.alone c (by rw [hc.2]; rfl)
    · cases hs

theorem Inv.initial (h : l.Initial) : Inv l := by
  have hout : ∀ {q : Phase → Bool}, q .out = false → ∀ c, q (l.phase c) = true → False := fun hq c hc => by
    rw [h.phase c,hq] at hc
    cases hc
  refine ⟨h.fits,fun c _ => ⟨h.phase c,h.depth c⟩,fun c => by rw [h.depth c]; exact Nat.zero_le _,
    fun c hc => (hout rfl c hc).elim,fun c hc => (hout rfl c hc).elim,fun c _ hc => (hout rfl c hc).elim,
    fun c hc => (hout rfl c hc).elim,false,false,?_,?_,?_⟩
  · rw [h.word]
    simp [pack,Lock.total,h.depth]
  · exact ⟨fun hf => absurd hf (by simp),fun ⟨c,hc⟩ => (hout rfl c hc).elim⟩
  · exact ⟨fun hf => absurd hf (by simp),fun ⟨c,hc⟩ => (hout rfl c hc).elim⟩

theorem Inv.no_assertion (h : Inv l) (c : Nat) : l.asserts c = false := by
  obtain ⟨g,w,hword,hg,hw⟩ := h.word
  have hr := h.total_fits
  have hclaimed : (l.phase c).gated = true → w = (l.phase c).claimed := h.claimed_eq hw
  unfold Lock.asserts
  rw [hword]
  cases hp : l.phase c <;> rw [hp] at hclaimed <;> dsimp only
  case gateWriter => rw [writerLocked_pack hr,hclaimed rfl]; rfl
  case gateReaders =>
    rw [readers_pack hr]
    exact decide_eq_false (Nat.not_le.mpr h.total_lt)
  case release =>
    have := h.holds c (hp ▸ rfl)
    have := h.depth_le_total c
    rw [readers_pack hr]
    exact beq_eq_false_iff_ne.mpr (by omega)
  case tryWriter | endWriter => rw [writerLocked_pack hr,hclaimed rfl]; rfl

theorem Inv.exclusion (h : Inv l) (hc : (l.phase c).exclusive = true) (hi : i ≠ c) :
    (l.phase i).gated = false ∧ l.depth i = 0 :=
  ⟨h.gated_false (Phase.gated_of_exclusive hc) hi,h.alone c hc i⟩

def Lock.runs : Lock → List Nat → Option Lock
  | l, [] => some l
  | l, c :: cs => (l.step c .go).bind fun l' => l'.runs cs

def Phase.left : Phase → Nat
  | .gateWriter => 4
  | .gateReaders => 3
  | .count => 2
  | .openGate => 1
  | .tryReaders _ => 2
  | .tryOpen _ => 1
  | _ => 0

def Lock.free (l : Lock) : Prop := ∀ i, (l.phase i).gated = false

theorem go_other (hs : l.go i = some l') (hic : i ≠ c) : l'.phase c = l.phase c ∧ l'.depth c = l.depth c := by
  have hphase : ∀ (k : Lock) (p : Phase), (k.setPhase i p).phase c = k.phase c := fun k p =>
    Function.update_of_ne (Ne.symm hic) ..
  have hdepth : ∀ (k : Lock) (n : Nat), (k.setDepth i n).depth c = k.depth c := fun k n =>
    Function.update_of_ne (Ne.symm hic) ..
  unfold Lock.go at hs
  split at hs
  case h_1 => cases hs
  case h_2 => cases hs
  case h_3 =>
    split at hs
    · cases hs; exact ⟨rfl,rfl⟩
    · cases hs; exact ⟨hphase _ _,rfl⟩
  case h_6 | h_9 => cases hs; exact ⟨hphase _ _,hdepth _ _⟩
  case h_10 => split at hs <;> cases hs <;> exact ⟨hphase _ _,rfl⟩
  all_goals
    cases hs
    exact ⟨hphase _ _,rfl⟩

theorem Inv.approach (h : Inv l) (hi : (l.phase i).gated = true) (hd : 0 < l.depth c) :
    ∃ l', l.go i = some l' ∧ ((l'.phase i).gated = true ∧ (l'.phase i).left < (l.phase i).left ∨
      0 < (l.phase i).left ∧ (l'.phase i).gated = false) := by
  have hno : (l.phase i).exclusive = false := h.not_exclusive (Nat.ne_of_gt hd) i
  have hself : ∀ (k : Lock) (p : Phase), (k.setPhase i p).phase i = p := fun k p => Function.update_self ..
  unfold Lock.go
  cases hp : l.phase i <;> rw [hp] at hi hno <;>
    first | (simp [Phase.gated] at hi; done) | (simp [Phase.exclusive] at hno; done) | skip
  case gateWriter | gateReaders | count => exact ⟨_,rfl,.inl ⟨by rw [hself]; rfl,by rw [hself]; decide⟩⟩
  case openGate => exact ⟨_,rfl,.inr ⟨by decide,by rw [hself]; rfl⟩⟩
  case tryReaders b =>
    have hne : readers l.word ≠ 0 := fun hz => by have := h.no_readers hz c; omega
    refine ⟨_,rfl,.inl ?_⟩
    rw [hself,if_neg hne]
    exact ⟨rfl,Nat.lt_add_one 1⟩
  case tryOpen b => exact ⟨_,rfl,.inr ⟨Nat.one_pos,by rw [hself]; cases b <;> rfl⟩⟩

theorem left_le (p : Phase) : p.left ≤ 4 := by cases p <;> decide +revert

theorem Inv.gated_inside (h : Inv l) (hi : (l.phase i).gated = true) : i < l.cpus := by
  by_contra hn
  rw [(h.inside i (Nat.le_of_not_lt hn)).1] at hi
  exact absurd hi (by simp [Phase.gated])

theorem go_bounds (hs : l.go i = some l') : l'.cpus = l.cpus ∧ l'.depthMax = l.depthMax := by
  have hphase : ∀ (k : Lock) (p : Phase), (k.setPhase i p).cpus = k.cpus ∧ (k.setPhase i p).depthMax = k.depthMax :=
    fun _ _ => ⟨rfl,rfl⟩
  have hword : ∀ (k : Lock) (w : Nat), (k.setWord w).cpus = k.cpus ∧ (k.setWord w).depthMax = k.depthMax :=
    fun _ _ => ⟨rfl,rfl⟩
  have hdepth : ∀ (k : Lock) (n : Nat), (k.setDepth i n).cpus = k.cpus ∧ (k.setDepth i n).depthMax = k.depthMax :=
    fun _ _ => ⟨rfl,rfl⟩
  unfold Lock.go at hs
  split at hs
  case h_1 => cases hs
  case h_2 => cases hs
  case h_3 | h_10 => split at hs <;> cases hs <;> simp only [hphase,hword,and_self]
  all_goals
    cases hs
    simp only [hphase,hword,hdepth,and_self]

theorem step_frame {a : Act} (hs : l.step c a = some l') :
    l'.depthMax = l.depthMax ∧ ∀ i, i ≠ c → l'.phase i = l.phase i ∧ l'.depth i = l.depth i := by
  have hphase : ∀ (p : Phase) (i : Nat), i ≠ c → (l.setPhase c p).phase i = l.phase i := fun _ _ hi =>
    Function.update_of_ne hi ..
  cases a <;> simp only [Lock.step] at hs <;> split at hs <;> try cases hs
  case go.isTrue => exact ⟨(go_bounds hs).2,fun i hi => go_other hs (Ne.symm hi)⟩
  all_goals exact ⟨rfl,fun i hi => ⟨hphase _ i hi,rfl⟩⟩

theorem Inv.opens (h : Inv l) (hi : (l.phase i).gated = true) (hic : i ≠ c) (hd : 0 < l.depth c) :
    ∃ n, n ≤ (l.phase i).left ∧ ∃ l', l.runs (List.replicate n i) = some l' ∧ Inv l' ∧ l'.free ∧
      l'.phase c = l.phase c ∧ l'.depth c = l.depth c ∧ l'.cpus = l.cpus := by
  induction hn : (l.phase i).left using Nat.strong_induction_on generalizing l with
  | _ n ih =>
    obtain ⟨l₁,hgo,hnext⟩ := h.approach hi hd
    have hcpu := h.gated_inside hi
    have h₁ := h.go hcpu hgo
    obtain ⟨hphase,hdepth⟩ := go_other hgo hic
    have hcpus := (go_bounds hgo).1
    have hstep : l.step i .go = some l₁ := by
      simp only [Lock.step]
      rw [if_pos hcpu]
      exact hgo
    rcases hnext with ⟨hgated,hlt⟩ | ⟨hpos,hopen⟩
    · obtain ⟨m,hm,l₂,hruns,hinv,hfree,hp,hd₂,hc₂⟩ := ih _ (hn ▸ hlt) h₁ hgated (by rw [hdepth]; exact hd) rfl
      refine ⟨m+1,by omega,l₂,?_,hinv,hfree,hp.trans hphase,hd₂.trans hdepth,hc₂.trans hcpus⟩
      rw [List.replicate_succ]
      exact Option.bind_eq_some_iff.mpr ⟨l₁,hstep,hruns⟩
    · refine ⟨1,by omega,l₁,Option.bind_eq_some_iff.mpr ⟨l₁,hstep,rfl⟩,h₁,fun j => ?_,hphase,hdepth,hcpus⟩
      by_cases hj : j = i
      · rw [hj]
        exact hopen
      rw [(go_other hgo (Ne.symm hj)).1]
      exact h.gated_false hi hj

theorem runs_append {l₁ l₂ : Lock} {cs ds : List Nat} (h : l.runs cs = some l₁) (h' : l₁.runs ds = some l₂) :
    l.runs (cs ++ ds) = some l₂ := by
  induction cs generalizing l with
  | nil => cases h; exact h'
  | cons c cs ih =>
    obtain ⟨k,hk,hr⟩ := Option.bind_eq_some_iff.mp h
    exact Option.bind_eq_some_iff.mpr ⟨k,hk,ih hr⟩

theorem Inv.enters (h : Inv l) (hc : c < l.cpus) (hp : l.phase c = .gate) (hfree : l.free) :
    ∃ l', l.runs [c,c,c,c] = some l' ∧ l'.depth c = l.depth c + 1 := by
  obtain ⟨g,w,hword,hg,_⟩ := h.word
  have hopen : gateLocked l.word = false := by
    rw [hword,gateLocked_pack h.total_fits]
    refine Bool.eq_false_iff.2 fun hgt => ?_
    obtain ⟨i,hi⟩ := hg.mp hgt
    rw [hfree i] at hi
    cases hi
  have hstep : ∀ k : Lock, k.cpus = l.cpus → k.step c .go = k.go c := fun k hk => by
    simp only [Lock.step]
    rw [if_pos (by rw [hk]; exact hc)]
  have hself : ∀ (k : Lock) (p : Phase), (k.setPhase c p).phase c = p := fun k p => Function.update_self ..
  have h1 : l.step c .go = some ((l.setWord (setGate l.word)).setPhase c .gateWriter) := by
    rw [hstep l rfl]
    unfold Lock.go
    rw [hp]
    simp [hopen]
  generalize hl₁ : (l.setWord (setGate l.word)).setPhase c .gateWriter = l₁ at h1
  have h2 : l₁.step c .go = some (l₁.setPhase c .gateReaders) := by
    rw [hstep l₁ (by rw [← hl₁]; rfl)]
    unfold Lock.go
    rw [← hl₁,hself]
  have h3 : (l₁.setPhase c .gateReaders).step c .go = some ((l₁.setPhase c .gateReaders).setPhase c .count) := by
    rw [hstep _ (by rw [← hl₁]; rfl)]
    unfold Lock.go
    rw [hself]
  generalize hl₂ : (l₁.setPhase c .gateReaders).setPhase c .count = l₂ at h3
  have h4 : l₂.step c .go =
      some (((l₂.setWord (addReader l₂.word)).setDepth c (l₂.depth c + 1)).setPhase c .openGate) := by
    rw [hstep _ (by rw [← hl₂,← hl₁]; rfl)]
    unfold Lock.go
    rw [← hl₂,hself]
  refine ⟨_,Option.bind_eq_some_iff.mpr ⟨_,h1,Option.bind_eq_some_iff.mpr ⟨_,h2,Option.bind_eq_some_iff.mpr
    ⟨_,h3,Option.bind_eq_some_iff.mpr ⟨_,h4,rfl⟩⟩⟩⟩,?_⟩
  show Function.update l₂.depth c (l₂.depth c + 1) c = _
  rw [Function.update_self,← hl₂,← hl₁]
  rfl

def Lock.Reentrant (l : Lock) : Prop :=
  ∀ c, l.phase c = .gate → 0 < l.depth c → ∃ cs : List Nat, cs.length ≤ 8 ∧
    (∀ i ∈ cs, i = c ∨ (l.phase i).gated = true) ∧ ∃ l', l.runs cs = some l' ∧ l'.depth c = l.depth c + 1

theorem Inv.reentrant (h : Inv l) : l.Reentrant := fun c hp hd => by
  have hc : c < l.cpus := by
    by_contra hn
    rw [(h.inside c (Nat.le_of_not_lt hn)).1] at hp
    cases hp
  by_cases hex : ∃ i, (l.phase i).gated = true
  · obtain ⟨i,hi⟩ := hex
    have hic : i ≠ c := fun hic => by
      rw [hic,hp] at hi
      exact absurd hi (by simp [Phase.gated])
    obtain ⟨n,hn,l₁,hruns,hinv,hfree,hp₁,hd₁,hc₁⟩ := h.opens hi hic hd
    obtain ⟨l₂,hruns',hdepth⟩ := hinv.enters (by rw [hc₁]; exact hc) (hp₁.trans hp) hfree
    refine ⟨List.replicate n i ++ [c,c,c,c],?_,fun j hj => ?_,l₂,runs_append hruns hruns',by rw [hdepth,hd₁]⟩
    · have := left_le (l.phase i)
      simp only [List.length_append,List.length_replicate,List.length_cons,List.length_nil]
      omega
    rcases List.mem_append.mp hj with hj | hj
    · rw [(List.mem_replicate.mp hj).2]
      exact .inr hi
    · simp only [List.mem_cons,List.not_mem_nil,or_false,or_self] at hj
      exact .inl hj
  · have hfree : l.free := fun i => by
      refine Bool.eq_false_iff.2 fun hq => ?_
      exact absurd ⟨i,hq⟩ hex
    obtain ⟨l₂,hruns,hdepth⟩ := h.enters hc hp hfree
    exact ⟨[c,c,c,c],by simp,fun j hj => .inl (by simpa using hj),l₂,hruns,hdepth⟩

theorem lock_word_exact (h : system.Reachable l) : readers l.word = l.total ∧
    (gateLocked l.word = true ↔ ∃ c, (l.phase c).gated = true) ∧
    (writerLocked l.word = true ↔ ∃ c, (l.phase c).claimed = true) ∧
    ∀ c i, (l.phase c).exclusive = true → i ≠ c → (l.phase i).gated = false ∧ l.depth i = 0 := by
  have hi : Inv l := h.invariant (fun _ => Inv.initial) fun _ _ _ hi hs => hi.step hs
  obtain ⟨g,w,hw,hg,hc⟩ := hi.word
  have hr := hi.total_fits
  rw [hw,readers_pack hr,gateLocked_pack hr,writerLocked_pack hr]
  exact ⟨rfl,hg,hc,fun c i => hi.exclusion⟩

theorem lock_word_exact_gated : ∃ l, system.Reachable l ∧ l.depth 1 = 1 ∧ l.phase 0 = .tryReaders true ∧
    readers l.word = l.total ∧ l.total = 1 ∧ gateLocked l.word = true := by
  have hnext : ∀ {l l' : Lock} (x : Nat × Act), system.Reachable l → l.step x.1 x.2 = some l' → system.Reachable l' :=
    fun _ h hs => h.next trivial hs
  have h0 : system.Reachable ⟨2,1,0,fun _ => .out,fun _ => 0⟩ := .initial ⟨rfl,fun _ => rfl,fun _ => rfl,by decide⟩
  have hgate := hnext (1,.go) (hnext (1,.go) (hnext (1,.go) (hnext (1,.read) h0 rfl) rfl) rfl) rfl
  have h1 := hnext (1,.go) (hnext (1,.go) hgate rfl) rfl
  have h2 := hnext (0,.go) (hnext (0,.write true) h1 rfl) rfl
  have hword := lock_word_exact h2
  exact ⟨_,h2,rfl,rfl,hword.1,by decide,hword.2.1.2 ⟨0,rfl⟩⟩

end TfRmm.Rwlock
