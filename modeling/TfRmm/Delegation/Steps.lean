import TfRmm.Delegation.State

namespace TfRmm.Delegation

open TfRmm.Lib

def runLength (ok : Nat → Bool) : Nat → Nat → Nat
  | _, 0 => 0
  | a, n+1 => if ok a then runLength ok (a+1) n + 1 else 0

inductive Found where
  | failed (status : Status)
  | inTarget (size : Nat)
  | source (size trackingSize : Nat)
  deriving DecidableEq

inductive Slot where
  | reserved (h : Nat)
  | busy
  | blocked
  deriving DecidableEq

section Calls

variable (l : Layout) (s : State) (source target : GranuleState) (addr top : Nat)

def fineRun (source : GranuleState) (addr top : Nat) : Nat :=
  runLength (fun p => l.fineAt p && l.bank p = l.bank addr && s.granules p = source) addr
    (top-addr)

def rangeLock (addr top : Nat) : Found :=
  if l.fineAt addr then
    if s.granules addr = source then .source (fineRun l s source addr top) 1
    else if s.granules addr = target then .inTarget 1
    else .failed .errorInput
  else if l.coarseAt addr then
    let g := s.granules (l.unit addr)
    if g ≠ source ∧ g ≠ target then .failed .errorInput
    else if addr % l.regionSize ≠ 0 ∨ top < addr+l.regionSize then .failed .errorTracking
    else if g = target then .inTarget l.regionSize
    else .source l.regionSize l.regionSize
  else if (l.bank addr).isSome then .failed .errorTracking
  else .failed .errorInput

def skip (s : State) (source target : GranuleState) (top : Nat) : Nat → Nat → Nat × Found
  | 0, cursor => (cursor,.failed .errorInput)
  | fuel+1, cursor =>
    match rangeLock l s source target cursor top with
    | .inTarget n =>
      if cursor+n < top then skip s source target top fuel (cursor+n)
      else (cursor+n,.inTarget n)
    | found => (cursor,found)

def regionTop : Nat := min top (l.regionBase addr + l.regionSize)

def start (addr top : Nat) : Nat × Found :=
  skip l s source target (regionTop l addr top) (regionTop l addr top - addr) addr

def report (addr cursor : Nat) (r : Result × State) : Result × State :=
  if r.1.status ≠ .success ∧ r.1.status ≠ .incomplete ∧ cursor ≠ addr then
    (⟨.success,cursor⟩,r.2)
  else r

def delegateOne (slot : Slot) (e : Response) (cursor : Nat) : Found → Result × State
  | .failed status => (⟨status,cursor⟩,s)
  | .inTarget _ => (⟨.success,cursor⟩,s)
  | .source size trackingSize => match slot with
    | .busy => (⟨.busy,cursor⟩,s)
    | .blocked => (⟨.blocked,cursor⟩,s)
    | .reserved h => delegateRange s addr cursor size trackingSize h e

def delegateStart (slot : Slot) (e : Response) : Result × State :=
  let (cursor,found) := start l s .ns .delegated addr top
  report addr cursor (delegateOne s addr slot e cursor found)

def isDevice (cursor : Nat) : Bool := (l.bank cursor).any fun b => b.2 ≠ .conv

def undelegateOne (slot : Slot) (irq : Option Nat) (e : Response) (cursor : Nat) : Found → Result × State
  | .failed status => (⟨status,cursor⟩,s)
  | .inTarget _ => (⟨.success,cursor⟩,s)
  | .source size trackingSize => match slot with
    | .busy => (⟨.busy,cursor⟩,s)
    | .blocked => (⟨.blocked,cursor⟩,s)
    | .reserved h => undelegateResume (s.setGranules cursor size .partialUnit) h
        ⟨addr,cursor,size,trackingSize,0,0,false,isDevice l cursor⟩ true irq e

def undelegateStart (slot : Slot) (irq : Option Nat) (e : Response) : Result × State :=
  let (cursor,found) := start l s .delegated .ns addr top
  report addr cursor (undelegateOne l s addr slot irq e cursor found)

def opContinue (h : Nat) (irq : Option Nat) (e : Response) : Result × State :=
  match s.ops h with
  | some (.delegate c) => delegateContinue s h c e
  | some (.undelegate c) => undelegateResume s h c false irq e
  | none => (⟨.errorInput,0⟩,s)

inductive Cmd where
  | delegate (addr top : Nat) (slot : Slot) (e : Response)
  | undelegate (addr top : Nat) (slot : Slot) (irq : Option Nat) (e : Response)
  | opContinue (h : Nat) (irq : Option Nat) (e : Response)
  | reuse (p : Nat) (v : GranuleState)

def exec : Cmd → State
  | .delegate addr top slot e => (delegateStart l s addr top slot e).2
  | .undelegate addr top slot irq e => (undelegateStart l s addr top slot irq e).2
  | .opContinue h irq e => (opContinue s h irq e).2
  | .reuse p v => { s with granules := Function.update s.granules (l.unit p) v }

def Meets : Cmd → Prop
  | .delegate addr top slot e => ∀ h, slot = .reserved h → s.ops h = none ∧
    ∀ size trackingSize, (start l s .ns .delegated addr top).2 = .source size trackingSize → e.Allowed true false size
  | .undelegate addr top slot _ e => ∀ h, slot = .reserved h → s.ops h = none ∧
    ∀ size trackingSize, (start l s .delegated .ns addr top).2 = .source size trackingSize → e.Allowed false false size
  | .opContinue h _ e =>
    (∀ c, s.ops h = some (.delegate c) →
      if c.rollbackStatus.isSome then e.Allowed false c.incomplete (c.processed-c.rollbackSize)
      else e.Allowed true c.incomplete (c.size-c.processed)) ∧
    ∀ c, s.ops h = some (.undelegate c) →
      e.Allowed false c.incomplete (c.size-c.undelegated)
  | .reuse p v =>
    s.granules (l.unit p) ≠ .ns ∧ s.granules (l.unit p) ≠ .partialUnit ∧
      v ≠ .ns ∧ v ≠ .partialUnit

structure Initial (s : State) : Prop where
  granules : ∀ p, s.granules p = .ns
  pas : ∀ p, l.tracked p → s.pas p = .ns
  ops : ∀ h, s.ops h = none

def system : TransitionSystem State Cmd where
  init := Initial l
  step s cmd t := Meets l s cmd ∧ t = exec l s cmd

end Calls

variable {l : Layout}

def State.view (l : Layout) (s : State) (p : Nat) : GranuleState := s.granules (l.unit p)

abbrev Within (a n p : Nat) : Prop := a ≤ p ∧ p < a+n

def Layout.Closed (l : Layout) (a n : Nat) : Prop := ∀ p, Within a n (l.unit p) ↔ Within a n p

def Layout.Fine (l : Layout) (a n : Nat) : Prop := ∀ p, Within a n p → l.fineAt p

def Layout.Unit (l : Layout) (a n : Nat) : Prop :=
  l.coarseAt a ∧ a % l.regionSize = 0 ∧ n = l.regionSize

theorem Layout.Fine.mono {a n b m : Nat} (h : l.Fine a n) (hab : a ≤ b) (hnm : b+m ≤ a+n) :
    l.Fine b m := fun p hp => h p ⟨hab.trans hp.1,hp.2.trans_le hnm⟩

theorem Layout.region_regionBase (l : Layout) (p : Nat) : l.region (l.regionBase p) = l.region p :=
  Nat.mul_div_cancel _ (lt_trans Nat.zero_lt_one l.large)

theorem Layout.Fine.closed {a n : Nat} (h : l.Fine a n) : l.Closed a n := fun p => by
  unfold unit
  split
  next hc =>
    have hne : ∀ q, l.region q = l.region p → ¬ Within a n q := fun q hq hw => by
      have hf := (h q hw).1
      rw [hq,hc] at hf
      cases hf
    exact iff_of_false (hne _ (l.region_regionBase p)) (hne _ rfl)
  · rfl

theorem Layout.Unit.within_iff {a n p : Nat} (h : l.Unit a n) : Within a n p ↔ l.region p = l.region a := by
  obtain ⟨-,hal,rfl⟩ := h
  have hpos : 0 < l.regionSize := lt_trans Nat.zero_lt_one l.large
  have ha : a = l.region a * l.regionSize := by
    have := Nat.div_add_mod' a l.regionSize
    unfold region
    omega
  unfold Within region
  rw [Nat.div_eq_iff hpos]
  unfold region at ha
  omega

theorem Layout.Unit.closed {a n : Nat} (h : l.Unit a n) : l.Closed a n := fun p => by
  unfold unit
  split
  · rw [h.within_iff,h.within_iff,l.region_regionBase]
  · rfl

theorem view_setGranules {s : State} {a n : Nat} {v : GranuleState} (h : l.Closed a n) (p : Nat) :
    (s.setGranules a n v).view l p = if Within a n p then v else s.view l p := by
  unfold State.view State.setGranules paint
  exact if_congr (h p) rfl rfl

def Op.owns : Op → Nat → Prop
  | .delegate c, p => c.addr + (if c.trackingSize = 1 then c.processed else 0) ≤ p ∧ p < c.addr+c.size
  | .undelegate c, p => c.addr + (if c.trackingSize = 1 then c.undelegated else 0) ≤ p ∧ p < c.addr+c.size

def Layout.Shape (l : Layout) (addr size trackingSize : Nat) : Prop :=
  trackingSize = 1 ∧ l.Fine addr size ∨
    1 < trackingSize ∧ trackingSize = size ∧ l.Unit addr size

structure DelegateCtx.Wf (l : Layout) (pas : Nat → Pas) (c : DelegateCtx) : Prop where
  shape : l.Shape c.addr c.size c.trackingSize
  processed : c.processed < c.size
  rollback : c.rollbackStatus.isSome → c.trackingSize ≠ 1 ∧ c.rollbackSize < c.processed
  forward : c.rollbackStatus = none → c.rollbackSize = 0
  realm : ∀ p, (Op.delegate c).owns p → c.addr+c.rollbackSize ≤ p → p < c.addr+c.processed →
    pas p = .realm
  ns : ∀ p, (Op.delegate c).owns p → p < c.addr+c.rollbackSize ∨ c.addr+c.processed ≤ p →
    pas p = .ns

structure UndelegateCtx.Wf (l : Layout) (pas : Nat → Pas) (c : UndelegateCtx) : Prop where
  shape : l.Shape c.addr c.size c.trackingSize
  undelegated : c.undelegated < c.size
  ns : ∀ p, (Op.undelegate c).owns p → p < c.addr+c.undelegated → pas p = .ns
  realm : ∀ p, (Op.undelegate c).owns p → c.addr+c.undelegated ≤ p → pas p = .realm

def Op.Wf (l : Layout) (pas : Nat → Pas) : Op → Prop
  | .delegate c => c.Wf l pas
  | .undelegate c => c.Wf l pas

structure Inv (l : Layout) (s : State) : Prop where
  ns : ∀ p, l.tracked p → s.view l p = .ns → s.pas p = .ns
  held : ∀ p, s.view l p ≠ .ns → s.view l p ≠ .partialUnit → s.pas p = .realm
  owned : ∀ p, s.view l p = .partialUnit ↔ ∃ h op, s.ops h = some op ∧ op.owns p
  unique : ∀ p h h' op op', s.ops h = some op → op.owns p → s.ops h' = some op' → op'.owns p →
    h = h'
  wf : ∀ h op, s.ops h = some op → op.Wf l s.pas

theorem Op.Wf.congr {pas pas' : Nat → Pas} {op : Op} (h : op.Wf l pas)
    (he : ∀ p, op.owns p → pas' p = pas p) : op.Wf l pas' := by
  cases op with
  | delegate c =>
    exact ⟨h.shape,h.processed,h.rollback,h.forward,fun p hp h1 h2 => (he p hp).trans (h.realm p hp h1 h2),
      fun p hp h1 => (he p hp).trans (h.ns p hp h1)⟩
  | undelegate c =>
    exact ⟨h.shape,h.undelegated,fun p hp h1 => (he p hp).trans (h.ns p hp h1),
      fun p hp h1 => (he p hp).trans (h.realm p hp h1)⟩

def Agrees (v : GranuleState) (pas : Pas) : Prop := v = .ns ∧ pas = .ns ∨ v = .delegated ∧ pas = .realm

structure Mine (s : State) (h a n : Nat) : Prop where
  alone : ∀ p, Within a n p → ∀ h' op, s.ops h' = some op → op.owns p → h' = h
  before : ∀ op, s.ops h = some op → ∀ p, op.owns p → Within a n p

structure Local (l : Layout) (s t : State) (h a n : Nat) : Prop where
  mine : Mine s h a n
  outside : ∀ p, ¬ Within a n p → t.view l p = s.view l p ∧ t.pas p = s.pas p
  ops : ∀ h', h' ≠ h → t.ops h' = s.ops h'
  after : ∀ op, t.ops h = some op → op.Wf l t.pas ∧ ∀ p, op.owns p → Within a n p
  held : ∀ p, Within a n p → ∀ op, t.ops h = some op → op.owns p → t.view l p = .partialUnit
  free : ∀ p, Within a n p → (∀ op, t.ops h = some op → ¬ op.owns p) →
    Agrees (t.view l p) (t.pas p)

theorem Local.inv {s t : State} {h a n : Nat} (hl : Local l s t h a n) (hi : Inv l s) : Inv l t := by
  have hother : ∀ h' op, h' ≠ h → s.ops h' = some op → ∀ p, op.owns p → ¬ Within a n p :=
    fun h' op hne ho p hp hw => hne (hl.mine.alone p hw h' op ho hp)
  have hin : ∀ p, Within a n p → (∃ op, t.ops h = some op ∧ op.owns p) ∧ t.view l p = .partialUnit ∨
        (∀ op, t.ops h = some op → ¬ op.owns p) ∧ Agrees (t.view l p) (t.pas p) := fun p hw => by
    by_cases ho : ∃ op, t.ops h = some op ∧ op.owns p
    · obtain ⟨op,ho,hp⟩ := ho
      exact .inl ⟨⟨op,ho,hp⟩,hl.held p hw op ho hp⟩
    · have ho : ∀ op, t.ops h = some op → ¬ op.owns p := fun op h1 h2 => ho ⟨op,h1,h2⟩
      exact .inr ⟨ho,hl.free p hw ho⟩
  refine ⟨?_,?_,?_,?_,?_⟩
  · intro p htr hv
    by_cases hw : Within a n p
    · obtain ⟨-,hv'⟩ | ⟨-,⟨-,hp⟩ | ⟨hv',-⟩⟩ := hin p hw
      · rw [hv] at hv'; cases hv'
      · exact hp
      · rw [hv] at hv'; cases hv'
    · obtain ⟨h1,h2⟩ := hl.outside p hw
      rw [h2]
      exact hi.ns p htr (h1 ▸ hv)
  · intro p hv hv'
    by_cases hw : Within a n p
    · obtain ⟨-,h1⟩ | ⟨-,⟨h1,-⟩ | ⟨-,hp⟩⟩ := hin p hw
      · exact absurd h1 hv'
      · exact absurd h1 hv
      · exact hp
    · obtain ⟨h1,h2⟩ := hl.outside p hw
      rw [h1] at hv hv'
      rw [h2]
      exact hi.held p hv hv'
  · intro p
    by_cases hw : Within a n p
    · obtain ⟨⟨op,ho,hp⟩,hv⟩ | ⟨hno,hag⟩ := hin p hw
      · exact iff_of_true hv ⟨h,op,ho,hp⟩
      · refine iff_of_false (fun hv => ?_) ?_
        · rw [hv] at hag
          obtain ⟨h1,-⟩ | ⟨h1,-⟩ := hag <;> cases h1
        · rintro ⟨h',op,ho,hp⟩
          rcases eq_or_ne h' h with rfl | hne
          · exact hno op ho hp
          · rw [hl.ops h' hne] at ho
            exact hother h' op hne ho p hp hw
    · rw [(hl.outside p hw).1,hi.owned p]
      constructor
      · rintro ⟨h',op,ho,hp⟩
        rcases eq_or_ne h' h with rfl | hne
        · exact absurd (hl.mine.before op ho p hp) hw
        · exact ⟨h',op,(hl.ops h' hne).trans ho,hp⟩
      · rintro ⟨h',op,ho,hp⟩
        rcases eq_or_ne h' h with rfl | hne
        · exact absurd ((hl.after op ho).2 p hp) hw
        · exact ⟨h',op,(hl.ops h' hne).symm.trans ho,hp⟩
  · intro p h₁ h₂ op₁ op₂ ho₁ hp₁ ho₂ hp₂
    by_cases hw : Within a n p
    · have hmine : ∀ h' op, t.ops h' = some op → op.owns p → h' = h := fun h' op ho hp => by
        by_contra hne
        rw [hl.ops h' hne] at ho
        exact hother h' op hne ho p hp hw
      exact (hmine h₁ op₁ ho₁ hp₁).trans (hmine h₂ op₂ ho₂ hp₂).symm
    · have hs : ∀ h' op, t.ops h' = some op → op.owns p → s.ops h' = some op := fun h' op ho hp => by
        rcases eq_or_ne h' h with rfl | hne
        · exact absurd ((hl.after op ho).2 p hp) hw
        · exact (hl.ops h' hne).symm.trans ho
      exact hi.unique p h₁ h₂ op₁ op₂ (hs h₁ op₁ ho₁ hp₁) hp₁ (hs h₂ op₂ ho₂ hp₂) hp₂
  · intro h' op ho
    rcases eq_or_ne h' h with rfl | hne
    · exact (hl.after op ho).1
    · rw [hl.ops h' hne] at ho
      exact (hi.wf h' op ho).congr fun p hp => (hl.outside p (hother h' op hne ho p hp)).2

variable {s : State}

@[simp] theorem view_setPas (s : State) (a n : Nat) (v : Pas) (p : Nat) :
    (s.setPas a n v).view l p = s.view l p := rfl

@[simp] theorem pas_setGranules (s : State) (a n : Nat) (v : GranuleState) (p : Nat) :
    (s.setGranules a n v).pas p = s.pas p := rfl

@[simp] theorem pas_setPas (s : State) (a n : Nat) (v : Pas) (p : Nat) :
    (s.setPas a n v).pas p = if Within a n p then v else s.pas p := rfl

theorem ops_setOp (s : State) (h h' : Nat) (op : Option Op) :
    (s.setOp h op).ops h' = if h' = h then op else s.ops h' := Function.update_apply ..

variable {t s₀ : State} {h a n k host addr size trackingSize : Nat} {op : Op} {e : Response} {entryCall : Bool}
    {irq : Option Nat} {v : GranuleState}

theorem Local.retain {s : State} (hm : Mine s h a n) (hops : t.ops = s.ops) (hwf : op.Wf l t.pas)
    (hown : ∀ p, op.owns p → Within a n p) (hout : ∀ p, ¬ Within a n p → t.view l p = s.view l p ∧ t.pas p = s.pas p)
    (hheld : ∀ p, op.owns p → t.view l p = .partialUnit)
    (hfree : ∀ p, Within a n p → ¬ op.owns p → Agrees (t.view l p) (t.pas p)) : Local l s (t.setOp h (some op)) h a n := by
  have hop : ∀ op', (t.setOp h (some op)).ops h = some op' → op' = op := fun op' ho => by
    rw [ops_setOp,if_pos rfl] at ho
    exact (Option.some.inj ho).symm
  refine ⟨hm,hout,?_,?_,?_,?_⟩
  · intro h' hne
    rw [ops_setOp,if_neg hne,hops]
  · intro op' ho
    rw [hop op' ho]
    exact ⟨hwf,hown⟩
  · intro p _ op' ho hp
    rw [hop op' ho] at hp
    exact hheld p hp
  · intro p hw hno
    refine hfree p hw (hno op ?_)
    rw [ops_setOp,if_pos rfl]

theorem Local.finish {s : State} (hm : Mine s h a n) (hops : ∀ h', h' ≠ h → t.ops h' = s.ops h') (hnone : t.ops h = none)
    (hout : ∀ p, ¬ Within a n p → t.view l p = s.view l p ∧ t.pas p = s.pas p)
    (hfree : ∀ p, Within a n p → Agrees (t.view l p) (t.pas p)) : Local l s t h a n := by
  refine ⟨hm,hout,hops,?_,?_,fun p hw _ => hfree p hw⟩
  · intro op ho
    rw [hnone] at ho
    cases ho
  · intro p _ op ho
    rw [hnone] at ho
    cases ho

theorem Local.close {s : State} (hm : Mine s h a n) (hops : t.ops = s.ops)
    (hout : ∀ p, ¬ Within a n p → t.view l p = s.view l p ∧ t.pas p = s.pas p)
    (hfree : ∀ p, Within a n p → Agrees (t.view l p) (t.pas p)) : Local l s (t.setOp h none) h a n := by
  refine .finish hm (fun h' hne => ?_) ?_ hout hfree
  · rw [ops_setOp,if_neg hne,hops]
  · rw [ops_setOp,if_pos rfl]

structure Claimed (l : Layout) (s₀ s : State) (h a n : Nat) : Prop where
  mine : Mine s₀ h a n
  ops : s.ops = s₀.ops
  outside : ∀ p, ¬ Within a n p → s.view l p = s₀.view l p ∧ s.pas p = s₀.pas p
  view : ∀ p, Within a n p → s.view l p = .partialUnit

theorem mine_of_free (hi : Inv l s) (hfree : s.ops h = none)
    (hview : ∀ p, Within a n p → s.view l p ≠ .partialUnit) : Mine s h a n := by
  refine ⟨fun p hw h' op ho hp => ?_,fun op ho => ?_⟩
  · exact absurd ((hi.owned p).2 ⟨h',op,ho,hp⟩) (hview p hw)
  · rw [hfree] at ho
    cases ho

theorem Claimed.of_op (hi : Inv l s) (ho : s.ops h = some op) (hown : ∀ p, op.owns p ↔ Within a n p) :
    Claimed l s s h a n := by
  refine ⟨⟨fun p hw h' op' ho' hp => ?_,fun op' ho' p hp => ?_⟩,rfl,fun _ _ => ⟨rfl,rfl⟩,fun p hp => ?_⟩
  · exact hi.unique p h' h op' op ho' hp ho ((hown p).2 hw)
  · cases ho.symm.trans ho'
    exact (hown p).1 hp
  · exact (hi.owned p).2 ⟨h,op,ho,(hown p).2 hp⟩

theorem Response.Allowed.progress_lt {d i : Bool} (he : e.Allowed d i n)
    (hn : 0 < n) (hs : e.stays i = true) : e.progress < n := by
  simp only [stays,Bool.or_eq_true,decide_eq_true_eq,Bool.and_eq_true] at hs
  rcases hs with h1 | ⟨-,h1⟩
  · exact he.inProgress h1
  · rw [he.busy h1]
    exact hn

theorem Layout.Shape.closed (hs : l.Shape addr size trackingSize) (hk : addr ≤ a) (hm : a+n ≤ addr+size)
    (hall : trackingSize ≠ 1 → a = addr ∧ n = size) : l.Closed a n := by
  obtain ⟨-,hf⟩ | ⟨hlt,-,hu⟩ := hs
  · exact (hf.mono hk hm).closed
  · obtain ⟨rfl,rfl⟩ := hall (by omega)
    exact hu.closed

def State.advance (s : State) (trackingSize a n : Nat) (x : Pas) (v : GranuleState) : State :=
  if trackingSize = 1 then (s.setPas a n x).setGranules a n v else s.setPas a n x

theorem fold_advance (x : Pas) : (if trackingSize = 1 then (s.setPas a n x).setGranules a n v else s.setPas a n x) =
    s.advance trackingSize a n x v := rfl

theorem view_advance (hs : l.Shape addr size trackingSize) (hk : addr ≤ a) (hm : a+n ≤ addr+size) (x : Pas) (p : Nat) :
    (s.advance trackingSize a n x v).view l p = if trackingSize = 1 ∧ Within a n p then v else s.view l p := by
  unfold State.advance
  split
  next hts =>
    rw [view_setGranules (hs.closed hk hm fun h1 => absurd hts h1)]
    simp only [hts,true_and,view_setPas]
  next hts => rw [if_neg fun h1 => hts h1.1,view_setPas]

theorem pas_advance (s : State) (trackingSize a n : Nat) (x : Pas) (v : GranuleState) (p : Nat) :
    (s.advance trackingSize a n x v).pas p = if Within a n p then x else s.pas p := by
  unfold State.advance
  split <;> rfl

theorem ops_advance (s : State) (trackingSize a n : Nat) (x : Pas) (v : GranuleState) :
    (s.advance trackingSize a n x v).ops = s.ops := by
  unfold State.advance
  split <;> rfl

theorem delegateRange_local (hi : Inv l s) (hshape : l.Shape addr size trackingSize)
    (hview : ∀ p, Within addr size p → s.view l p = .ns) (hpas : ∀ p, Within addr size p → s.pas p = .ns)
    (hfree : s.ops h = none) (he : e.Allowed true false size) :
    Local l s (delegateRange s host addr size trackingSize h e).2 h addr size := by
  have hm : Mine s h addr size := mine_of_free hi hfree fun p hp hv => by
    rw [hview p hp] at hv
    cases hv
  have hw := he.within
  have hts : trackingSize ≠ 1 → trackingSize = size := fun h1 => (hshape.resolve_left fun h2 => h1 h2.1).2.1
  have hpub := view_advance (s := s) (v := .delegated) hshape (n := e.progress) le_rfl (by omega) .realm
  have hc : l.Closed (addr + if trackingSize = 1 then e.progress else 0)
      (size - if trackingSize = 1 then e.progress else 0) :=
    hshape.closed (by omega) (by split <;> omega) (by grind)
  have hretain : ∀ (i : Bool) (f : Option Failure), e.progress < size → (f.isSome → trackingSize ≠ 1 ∧ 0 < e.progress) →
      Local l s (((s.advance trackingSize addr e.progress .realm .delegated).setGranules
        (addr + if trackingSize = 1 then e.progress else 0) (size - if trackingSize = 1 then e.progress else 0)
        .partialUnit).setOp h (some (.delegate ⟨host,addr,size,trackingSize,e.progress,0,f,i⟩))) h addr size := by
    intro i f hlt hf
    refine .retain hm (ops_advance ..) ⟨hshape,hlt,hf,fun _ => rfl,?_,?_⟩ ?_ ?_ ?_ ?_
    all_goals
      simp only [Op.owns,view_setGranules hc,hpub,pas_setGranules,pas_advance]
      grind [Agrees]
  have hdone : trackingSize = 1 ∨ e.progress = 0 →
      Local l s (s.advance trackingSize addr e.progress .realm .delegated) h addr size := fun h1 => by
    refine .finish hm (fun _ _ => congrFun (ops_advance ..) _) ((congrFun (ops_advance ..) _).trans hfree) ?_ ?_
    all_goals
      simp only [hpub,pas_advance]
      grind [Agrees]
  simp only [delegateRange]
  split
  next h1 => exact hretain _ none (he.inProgress h1) nofun
  split
  next hmod =>
    have hne : trackingSize ≠ 1 := fun h1 => hmod (by rw [h1,Nat.mod_one])
    rw [hts hne] at hmod
    have hpos : e.progress ≠ 0 := fun h0 => hmod (by rw [h0,Nat.zero_mod])
    have hlt : e.progress ≠ size := fun h1 => hmod (by rw [h1,Nat.mod_self])
    exact hretain _ _ (by omega) fun _ => ⟨hne,by omega⟩
  rename_i hmod
  split
  next hpos =>
    split
    next h1 =>
      have := hdone (.inl h1)
      rwa [State.advance,if_pos h1] at this
    next h1 =>
      rw [hts h1,ne_eq,not_not] at hmod
      have hfull := le_antisymm hw (Nat.le_of_dvd hpos (Nat.dvd_of_mod_eq_zero hmod))
      refine .finish hm (fun _ _ => rfl) hfree ?_ ?_
      all_goals
        simp only [view_setGranules (hshape.closed le_rfl le_rfl fun _ => ⟨rfl,rfl⟩),view_setPas,pas_setGranules,pas_setPas]
        grind [Agrees]
  · exact hdone (.inr (by omega))

theorem published (trackingSize k : Nat) : ∃ u, (trackingSize = 1 → u = k) ∧ (trackingSize ≠ 1 → u = 0) :=
  ⟨if trackingSize = 1 then k else 0,fun h1 => if_pos h1,fun h1 => if_neg h1⟩

theorem delegateResumeRealm_local {c : DelegateCtx} (hi : Inv l s) (ho : s.ops h = some (.delegate c))
    (hr : c.rollbackStatus = none) (he : e.Allowed true c.incomplete (c.size-c.processed)) :
    ∃ a n, Local l s (delegateResumeRealm s h c e).2 h a n := by
  obtain ⟨u,hu,hu'⟩ := published c.trackingSize c.processed
  have hwf : c.Wf l s.pas := hi.wf h _ ho
  have hlt := hwf.processed
  have hz := hwf.forward hr
  have hown : ∀ p, (Op.delegate c).owns p ↔ Within (c.addr+u) (c.size-u) p := fun p => by
    simp only [Op.owns]
    split <;> omega
  obtain ⟨hm,-,-,hview⟩ := Claimed.of_op hi ho hown
  have hrealm := hwf.realm
  have hns := hwf.ns
  have hw := he.within
  have hpub := view_advance (s := s) (v := .delegated) hwf.shape (a := c.addr+c.processed) (n := e.progress)
    (by omega) (by omega) .realm
  have hretain : ∀ (i : Bool) (f : Option Failure), c.processed+e.progress < c.size →
      (f.isSome → c.trackingSize ≠ 1 ∧ c.processed+e.progress ≠ 0) →
      Local l s ((s.advance c.trackingSize (c.addr+c.processed) e.progress .realm .delegated).setOp h
        (some (.delegate { c with processed := c.processed+e.progress,incomplete := i,rollbackStatus := f }))) h
        (c.addr+u) (c.size-u) := fun i f hlt' hf => by
    refine .retain hm (ops_advance ..) ⟨hwf.shape,hlt',fun h1 => ⟨(hf h1).1,?_⟩,fun _ => hz,?_,?_⟩ ?_ ?_ ?_ ?_
    · have := (hf h1).2
      show c.rollbackSize < c.processed+e.progress
      omega
    all_goals
      simp only [Op.owns,hpub,pas_advance,hz] at hown hrealm hns ⊢
      grind [Agrees]
  have hclose : ∀ v k, k ≤ c.size → (c.trackingSize ≠ 1 → k = 0) → (c.trackingSize = 1 → k = c.processed+e.progress) →
      (∀ p, Within (c.addr+k) (c.size-k) p →
        Agrees v ((s.advance c.trackingSize (c.addr+c.processed) e.progress .realm .delegated).pas p)) →
      Local l s (((s.advance c.trackingSize (c.addr+c.processed) e.progress .realm .delegated).setGranules (c.addr+k)
        (c.size-k) v).setOp h none) h (c.addr+u) (c.size-u) := fun v k hk hk' hk'' hv => by
    have hc := hwf.shape.closed (a := c.addr+k) (n := c.size-k) (by omega) (by omega) (by grind)
    refine .close hm (ops_advance ..) ?_ ?_
    all_goals
      simp only [view_setGranules hc,pas_setGranules,hpub,pas_advance] at hv ⊢
      grind [Agrees]
  refine ⟨c.addr+u,c.size-u,?_⟩
  have hr' : ∀ i, ({ c with processed := c.processed+e.progress,incomplete := i } : DelegateCtx) =
      { c with processed := c.processed+e.progress,incomplete := i,rollbackStatus := none } := by rw [hr]; simp
  simp only [delegateResumeRealm,hr',fold_advance]
  split
  next hinc =>
    have := he.progress_lt (by omega) hinc
    exact hretain _ none (by omega) nofun
  split
  next hcond => exact hretain _ none hcond.2.1 nofun
  split
  next hts =>
    refine hclose _ _ (by omega) (by omega) (fun _ => rfl) fun p hp => .inl ⟨rfl,?_⟩
    rw [pas_advance,if_neg (by omega)]
    have := hu hts
    exact hns p ((hown p).2 (by omega)) (by omega)
  rename_i hts
  split
  · refine hclose .delegated 0 (by omega) (by omega) (by omega) fun p hp => .inr ⟨rfl,?_⟩
    rw [pas_advance]
    grind [Op.owns]
  split
  · refine hclose .ns 0 (by omega) (by omega) (by omega) fun p hp => .inl ⟨rfl,?_⟩
    rw [pas_advance]
    grind [Op.owns]
  next hfull hzero => exact hretain _ _ (by omega) fun _ => ⟨hts,hzero⟩

theorem delegateResumeRollback_local {c : DelegateCtx} {f : Failure} (hi : Inv l s) (ho : s.ops h = some (.delegate c))
    (hr : c.rollbackStatus = some f) (he : e.Allowed false c.incomplete (c.processed-c.rollbackSize)) : Local l s
    (delegateResumeRollback s h c f e).2 h c.addr c.size := by
  have hwf : c.Wf l s.pas := hi.wf h _ ho
  obtain ⟨hts,hroll⟩ := hwf.rollback (by rw [hr]; rfl)
  have hc : l.Closed c.addr c.size := hwf.shape.closed le_rfl le_rfl fun _ => ⟨rfl,rfl⟩
  have hlt := hwf.processed
  have hown : ∀ p, (Op.delegate c).owns p ↔ Within c.addr c.size p := fun p => by
    simp only [Op.owns,if_neg hts]
    omega
  obtain ⟨hm,-,-,hview⟩ := Claimed.of_op hi ho hown
  have hrealm := hwf.realm
  have hns := hwf.ns
  have hw := he.within
  simp only [delegateResumeRollback]
  split
  next hcond =>
    have hmore : c.rollbackSize+e.progress < c.processed := by
      rcases hcond with h1 | ⟨-,h1⟩ | h1
      · have := he.progress_lt (by omega) h1
        omega
      · omega
      · exact h1
    refine .retain hm rfl ⟨hwf.shape,hlt,fun _ => ⟨hts,hmore⟩,fun h1 => ?_,?_,?_⟩ ?_ ?_ ?_ ?_
    · rw [hr] at h1
      cases h1
    all_goals
      simp only [Op.owns,if_neg hts,view_setPas,pas_setPas] at hrealm hns ⊢
      grind [Agrees]
  next hcond =>
    have hdone : c.rollbackSize+e.progress = c.processed := by
      have := mt Or.inr (mt Or.inr hcond)
      omega
    refine .close hm rfl ?_ ?_
    all_goals
      simp only [hown,view_setGranules hc,view_setPas,pas_setGranules,pas_setPas] at hrealm hns ⊢
      grind [Agrees]

theorem undelegateResume_local {c : UndelegateCtx} {u : Nat} (hshape : l.Shape c.addr c.size c.trackingSize)
    (hu : c.trackingSize = 1 → u = c.undelegated) (hu' : c.trackingSize ≠ 1 → u = 0) (hlt : c.undelegated < c.size)
    (hcl : Claimed l s₀ s h (c.addr+u) (c.size-u))
    (hns : ∀ p, Within (c.addr+u) (c.size-u) p → p < c.addr+c.undelegated → s.pas p = .ns)
    (hrealm : ∀ p, Within (c.addr+u) (c.size-u) p → c.addr+c.undelegated ≤ p → s.pas p = .realm)
    (he : e.Allowed false c.incomplete (c.size-c.undelegated)) :
    Local l s₀ (undelegateResume s h c entryCall irq e).2 h (c.addr+u) (c.size-u) := by
  obtain ⟨hm,hops,hout,hview⟩ := hcl
  have hw := he.within
  have hpub := view_advance (s := s) (v := .ns) hshape (a := c.addr+c.undelegated) (n := e.progress)
    (by omega) (by omega) .ns
  have hretain : ∀ (k : Nat) (i : Bool), c.undelegated+e.progress < c.size →
      Local l s₀ ((s.advance c.trackingSize (c.addr+c.undelegated) e.progress .ns .ns).setOp h
        (some (.undelegate { c with sanitized := k,undelegated := c.undelegated+e.progress,incomplete := i }))) h
        (c.addr+u) (c.size-u) := fun k i hlt' => by
    refine .retain hm ((ops_advance ..).trans hops) ⟨hshape,hlt',?_,?_⟩ ?_ ?_ ?_ ?_
    all_goals
      simp only [Op.owns,hpub,pas_advance]
      grind [Agrees]
  simp only [undelegateResume,fold_advance]
  split
  · refine .retain hm hops ⟨hshape,hlt,?_,?_⟩ ?_ hout ?_ ?_
    all_goals
      simp only [Op.owns]
      grind [Agrees]
  split
  next hinc =>
    have := he.progress_lt (by omega) hinc
    exact hretain _ _ (by omega)
  split
  next hts =>
    split
    next hidle =>
      have := he.busy hidle.2.1
      exact hretain _ _ (by omega)
    have hc := hshape.closed (a := c.addr+(c.undelegated+e.progress)) (n := c.size-(c.undelegated+e.progress))
      (by omega) (by omega) fun h1 => absurd hts h1
    refine .close hm ((ops_advance ..).trans hops) ?_ ?_
    all_goals
      simp only [view_setGranules hc,hpub,pas_setGranules,pas_advance]
      grind [Agrees]
  split
  · exact hretain _ _ (by omega)
  · have hc := hshape.closed le_rfl le_rfl fun _ => ⟨rfl,rfl⟩
    refine .close hm ((ops_advance ..).trans hops) ?_ ?_
    all_goals
      simp only [view_setGranules hc,hpub,pas_setGranules,pas_advance]
      grind [Agrees]

theorem UndelegateCtx.Wf.resume {c : UndelegateCtx} (hi : Inv l s) (ho : s.ops h = some (.undelegate c))
    (he : e.Allowed false c.incomplete (c.size-c.undelegated)) :
    ∃ a n, Local l s (undelegateResume s h c false irq e).2 h a n := by
  obtain ⟨u,hu,hu'⟩ := published c.trackingSize c.undelegated
  have hwf : c.Wf l s.pas := hi.wf h _ ho
  have hlt := hwf.undelegated
  have hown : ∀ p, (Op.undelegate c).owns p ↔ Within (c.addr+u) (c.size-u) p := fun p => by
    simp only [Op.owns]
    split <;> omega
  exact ⟨_,_,undelegateResume_local hwf.shape hu hu' hlt (.of_op hi ho hown) (fun p hp => hwf.ns p ((hown p).2 hp))
    (fun p hp => hwf.realm p ((hown p).2 hp)) he⟩

end TfRmm.Delegation
