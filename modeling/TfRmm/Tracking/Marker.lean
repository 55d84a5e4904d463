import TfRmm.Delegation.State
import TfRmm.Sro.Delivery
import TfRmm.Tracking.Refinement

namespace TfRmm.Tracking

export TfRmm.Delegation (Pas)
export TfRmm.Sro (MemState Desc)
open Function

inductive El3 where
  | incomplete
  | complete (conflict : Bool)
  | busy
  | conflict
  | rejected
  deriving DecidableEq

inductive Callback where
  | donate
  | delegateContinue
  | continueSet
  | reclaim
  | finish
  deriving DecidableEq

inductive Run where
  | idle
  | starting
  | donating (rest : List (Nat × MemState))
  | completing
  | reclaiming (count : Nat)
  deriving DecidableEq

structure Ctx where
  region : Nat
  target : TrState
  requested : Nat
  transferred : Nat
  reclaimPage : Nat
  callback : Callback
  run : Run
  retStatus : Status
  gpi : Option Nat
  failedDonor : Option Nat
  list : List Desc
  ended : Option Status
  accepted : List Nat
  reported : List (Nat × MemState)
  delivered : List Desc

inductive Call where
  | sync (region : Nat) (target : TrState)
  | claiming (region : Nat) (target current : TrState)
  | claimed (region : Nat) (target : TrState)
  | unclaiming (region : Nat)
  deriving DecidableEq

structure Sys where
  regions : Nat → Region
  pas : Nat → Pas
  zeroed : Nat → Bool
  ops : Nat → Option Ctx
  calls : Nat → Option Call

inductive Label where
  | begin (cpu region : Nat) (target : TrState)
  | sync (cpu : Nat)
  | claim (cpu : Nat)
  | reserve (cpu : Nat) (slot : Option Nat)
  | unclaim (cpu : Nat)
  | start (handle : Nat)
  | donate (handle : Nat) (pages : List (Nat × MemState))
  | page (handle : Nat) (el3 : El3)
  | delegateContinue (handle : Nat) (el3 : El3)
  | resume (handle : Nat)
  | complete (handle : Nat)
  | reclaim (handle count : Nat)
  | returnPage (handle : Nat) (el3 : El3)
  | deliver (handle count : Nat)
  | finish (handle : Nat)
  | release (handle : Nat)
  | others

namespace Sys

variable (s : Sys)

def setRegion (r : Nat) (v : Region) : Sys :=
  { s with regions := update s.regions r v }

def setOp (h : Nat) (c : Option Ctx) : Sys :=
  { s with ops := update s.ops h c }

def setCall (cpu : Nat) (c : Option Call) : Sys :=
  { s with calls := update s.calls cpu c }

def setPas (p : Nat) (v : Pas) : Sys := { s with pas := update s.pas p v }

def setZeroed (p : Nat) (v : Bool) : Sys :=
  { s with zeroed := update s.zeroed p v }

def setBacking (r i : Nat) (v : Option Nat) : Sys :=
  s.setRegion r { s.regions r with backing := update (s.regions r).backing i v }

def setPending (r : Nat) (v : Bool) : Sys :=
  s.setRegion r { s.regions r with pending := v }

end Sys

section Calls

variable (size : Nat) (c : Ctx) (r : Region) (s : Sys)

namespace Sys

def conventional (s : Sys) (p : Nat) : Bool :=
  p % size ∈ (s.regions (p / size)).layout.pages .conv

def granule (s : Sys) (p : Nat) : GranuleState :=
  ((s.regions (p / size)).fine (.conv,p % size)).state

def stateOf (s : Sys) (p : Nat) : GranuleState :=
  match (s.regions (p / size)).state with
  | .fine => s.granule size p
  | .coarse => (s.regions (p / size)).coarse.state
  | _ => .ns

def setGranule (s : Sys) (p : Nat) (g : GranuleState) : Sys :=
  let r := s.regions (p / size)
  let d : Descriptor := { r.fine (.conv,p % size) with state := g }
  s.setRegion (p / size) { r with fine := update r.fine (.conv,p % size) d }

def lookupDelegated (s : Sys) (p : Nat) : Bool :=
  !(s.regions (p / size)).pending && (s.regions (p / size)).state = .fine &&
    s.conventional size p && s.granule size p = .delegated

end Sys

def Ctx.selfDescribing (p : Nat) : Bool := p / size = c.region

def selfDescribingState : Option MemState :=
  match r.state with
  | .none => some .undelegated
  | .coarse =>
    match r.coarse.state with
    | .ns => some .undelegated
    | .delegated => some .delegated
    | _ => none
  | _ => none

def populate (c : Ctx) (i p : Nat) : Sys := (s.setBacking c.region i (some p)).setZeroed p false

def donationAbort (status : Status) : Ctx :=
  { c with
    retStatus := status
    requested := c.transferred
    reclaimPage := 0
    callback := if c.transferred = 0 then .finish else .reclaim
    run := .idle }

def donationNext : Ctx :=
  { c with
    callback :=
      if c.gpi.isNone ∧ c.transferred < c.requested then .donate
      else if c.gpi.isSome then .delegateContinue
      else .continueSet
    run := .idle }

def Ctx.take (p : Nat) (rest : List (Nat × MemState)) : Ctx :=
  { c with
    transferred := c.transferred+1
    accepted := c.accepted ++ [p]
    run := .donating rest }

def delegatePage (c : Ctx) (p : Nat) (rest : List (Nat × MemState)) (e : El3) : Sys × Ctx :=
  match e with
  | .incomplete => (s,donationNext { c.take p rest with gpi := some p })
  | .complete _ => (populate (s.setPas p .realm) c c.transferred p,c.take p rest)
  | .busy => (s,donationNext c)
  | .conflict => (s,donationAbort c .blocked)
  | .rejected => (s,donationAbort c .errorInput)

def pageAdd (c : Ctx) (p : Nat) (st : MemState) (rest : List (Nat × MemState)) (e : El3) : Sys × Ctx :=
  if c.selfDescribing size p then
    if ¬ s.conventional size p then (s,donationAbort c .errorInput)
    else if selfDescribingState (s.regions c.region) ≠ some st then (s,donationAbort c .errorInput)
    else if st = .undelegated then delegatePage s c p rest e
    else (populate s c c.transferred p,c.take p rest)
  else if st = .delegated ∧ s.lookupDelegated size p then
    (populate (s.setGranule size p .internal) c c.transferred p,c.take p rest)
  else (s,donationAbort c .errorInput)

def donatePage (c : Ctx) (e : El3) : Option (Sys × Ctx) :=
  match c.run with
  | .donating [] => some (s,donationNext c)
  | .donating ((p,st) :: rest) =>
    if c.transferred < c.requested then some (pageAdd size s c p st rest e)
    else some (s,donationNext c)
  | _ => none

def delegateContinue (c : Ctx) (e : El3) : Option (Sys × Ctx) :=
  match c.gpi with
  | none => none
  | some p =>
    match e with
    | .incomplete => some (s,donationNext c)
    | .complete conflict =>
      let s := populate (s.setPas p .realm) c (c.transferred-1) p
      let c := { c with gpi := none }
      some (s,if conflict then donationAbort c .blocked else donationNext c)
    | .busy => some (s,donationNext c)
    | .conflict => some (s,donationAbort { c with failedDonor := some p,gpi := none } .blocked)
    | .rejected => some (s,donationAbort { c with failedDonor := some p,gpi := none } .errorInput)

def pagesClear (c : Ctx) : Sys :=
  { s with zeroed := fun p =>
      s.zeroed p || (List.range c.requested).any fun i => (s.regions c.region).backing i = some p }

def continueSet (c : Ctx) : Sys × Ctx :=
  let s := pagesClear s c
  match (s.regions c.region).transition c.target true with
  | (.success,r) =>
    ({ s.setRegion c.region r with
        zeroed := fun p =>
          s.zeroed p && (List.range c.requested).all fun i => r.backing i ≠ some p },
      { c with run := .completing })
  | (.busy,r) => (s.setRegion c.region r,c)
  | (status,r) =>
    (s.setRegion c.region r,{ c with retStatus := status,reclaimPage := 0,callback := .reclaim })

def publish (c : Ctx) (p : Nat) (st : MemState) (count : Nat) : Option (Sys × Ctx) :=
  match Sro.AddrList.addBlock c.list p st with
  | none => none
  | some l =>
    some (s,{ c with
      list := l
      reclaimPage := c.reclaimPage+1
      reported := c.reported ++ [(p,st)]
      run := .reclaiming count })

def Ctx.stop : Ctx := { c with run := .idle }

def undelegatePage (c : Ctx) (p count : Nat) (e : El3) : Option (Sys × Ctx) :=
  match e with
  | .incomplete => some (s,{ c with gpi := some p }.stop)
  | .complete _ => publish (s.setPas p .ns) { c with gpi := none } p .undelegated count
  | .busy => some (populate s c c.reclaimPage p,{ c with gpi := none }.stop)
  | _ => none

def handBack (c : Ctx) (p count : Nat) (e : El3) : Option (Sys × Ctx) :=
  if c.selfDescribing size p then
    match selfDescribingState (s.regions c.region) with
    | none => none
    | some .undelegated => undelegatePage s c p count e
    | some .delegated => publish s c p .delegated count
  else
    if s.granule size p ≠ .internal then none
    else publish (s.setGranule size p .delegated) c p .delegated count

def reclaimPage (s : Sys) (c : Ctx) (count : Nat) (e : El3) : Option (Sys × Ctx) :=
  match c.failedDonor, c.gpi with
  | some p, gpi =>
    if c.reclaimPage+1 = c.transferred then
      publish s { c with failedDonor := none } p .undelegated count
    else match gpi with
      | some p => handBack size s c p count e
      | none =>
        match (s.regions c.region).backing c.reclaimPage with
        | none => none
        | some p => handBack size ((s.setZeroed p true).setBacking c.region c.reclaimPage none) c p count e
  | none, some p => handBack size s c p count e
  | none, none =>
    match (s.regions c.region).backing c.reclaimPage with
    | none => none
    | some p => handBack size ((s.setZeroed p true).setBacking c.region c.reclaimPage none) c p count e

def Ctx.next : Ctx :=
  { c with
    callback := if c.reclaimPage = c.requested then .finish else .reclaim
    run := .idle }

def returnPage (c : Ctx) (e : El3) : Option (Sys × Ctx) :=
  match c.run with
  | .reclaiming 0 => some (s,c.next)
  | .reclaiming (n+1) => if c.reclaimPage = c.requested then some (s,c.next) else reclaimPage size s c n e
  | _ => none

def donateCtx (r : Nat) (pages : Nat) : Ctx :=
  { region := r,target := .fine,requested := pages,transferred := 0,reclaimPage := 0,
    callback := .donate,run := .idle,retStatus := .success,gpi := none,failedDonor := none,
    list := [],ended := none,accepted := [],reported := [],delivered := [] }

def reclaimCtx (r : Nat) (target : TrState) (pages : Nat) : Ctx :=
  { region := r,target := target,requested := pages,transferred := 0,reclaimPage := 0,
    callback := .reclaim,run := .starting,retStatus := .success,gpi := none,
    failedDonor := none,list := [],ended := none,accepted := [],reported := [],
    delivered := [] }

def Region.backingPages : List Nat :=
  (List.range r.metadataPages).filterMap r.backing

def startReclaim (c : Ctx) : Sys × Ctx :=
  match (s.regions c.region).transition c.target true with
  | (.success,r) => (s.setRegion c.region r,{ c with run := .idle,accepted := r.backingPages })
  | (status,r) => (s.setRegion c.region { r with pending := false },{ c with run := .idle,ended := some status })

def beginSet (cpu r : Nat) (target : TrState) : Option Sys :=
  if s.calls cpu ≠ none ∨ target = .reserved then none
  else if (s.regions r).pending ∨ (s.regions r).state = target then some s
  else if target ≠ .fine ∧ (s.regions r).state ≠ .fine then
    some (s.setCall cpu (some (.sync r target)))
  else some (s.setCall cpu (some (.claiming r target (s.regions r).state)))

def claimStep (cpu r : Nat) (target current : TrState) : Sys :=
  match (s.regions r).transitionClaim current target with
  | (.success,v) => (s.setRegion r v).setCall cpu (some (.claimed r target))
  | (_,v) => (s.setRegion r v).setCall cpu none

def reserveStep (cpu r : Nat) (target : TrState) (slot : Option Nat) : Option Sys :=
  let v := s.regions r
  if v.metadataPages = 0 ∨ (v.backing 0 = none ↔ target ≠ .fine) then none
  else match slot with
    | none => some (s.setCall cpu (some (.unclaiming r)))
    | some h =>
      if (s.ops h).isSome then none
      else
        let c := if target = .fine then donateCtx r v.metadataPages
          else reclaimCtx r target v.metadataPages
        some ((s.setCall cpu none).setOp h (some c))

def Ctx.active : Bool := c.ended.isNone

def withOp (h : Nat) (f : Ctx → Option (Sys × Ctx)) : Option Sys :=
  match s.ops h with
  | none => none
  | some c => if c.active then (f c).map fun x => x.1.setOp h (some x.2) else none

def idleAt (cb : Callback) (f : Option (Sys × Ctx)) : Option (Sys × Ctx) :=
  if c.run = .idle ∧ c.callback = cb ∧ c.list = [] then f else none

def exec : Label → Option Sys
  | .begin cpu r target => beginSet s cpu r target
  | .sync cpu =>
    match s.calls cpu with
    | some (.sync r target) => some ((s.setRegion r ((s.regions r).transition target false).2).setCall cpu none)
    | _ => none
  | .claim cpu =>
    match s.calls cpu with
    | some (.claiming r target current) => some (claimStep s cpu r target current)
    | _ => none
  | .reserve cpu slot =>
    match s.calls cpu with
    | some (.claimed r target) => reserveStep s cpu r target slot
    | _ => none
  | .unclaim cpu =>
    match s.calls cpu with
    | some (.unclaiming r) => some ((s.setPending r false).setCall cpu none)
    | _ => none
  | .start h => withOp s h fun c => if c.run = .starting then some (startReclaim s c) else none
  | .donate h pages =>
    withOp s h fun c => idleAt c .donate
      (if pages.length ≤ c.requested-c.transferred then
        some (s,{ c with run := .donating pages }) else none)
  | .page h e => withOp s h fun c => donatePage size s c e
  | .delegateContinue h e => withOp s h fun c => idleAt c .delegateContinue (delegateContinue s c e)
  | .resume h => withOp s h fun c => idleAt c .continueSet (some (continueSet s c))
  | .complete h =>
    withOp s h fun c =>
      if c.run = .completing then
        some (s.setRegion c.region (s.regions c.region).fineTransitionComplete,
          { c with run := .idle,ended := some .success })
      else none
  | .reclaim h n =>
    withOp s h fun c => idleAt c .reclaim
      (some (s,{ c with run := .reclaiming (min n Sro.maxRanges) }))
  | .returnPage h e => withOp s h fun c => returnPage size s c e
  | .deliver h k =>
    withOp s h fun c =>
      if c.run = .idle ∧ c.list ≠ [] then
        some (s,{ c with list := c.list.drop k,delivered := c.delivered ++ c.list.take k })
      else none
  | .finish h =>
    withOp s h fun c => idleAt c .finish
      (some (s.setPending c.region false,{ c with ended := some c.retStatus }))
  | .release h =>
    match s.ops h with
    | some c => if c.active then none else some (s.setOp h none)
    | none => none
  | .others => none

end Calls

open TfRmm.Lib
open Sys

inductive Owner where
  | call (cpu : Nat)
  | op (handle : Nat)
  deriving DecidableEq

namespace Sys

def Owns (s : Sys) : Owner → Nat → Prop
  | .call cpu, r => (∃ target, s.calls cpu = some (.claimed r target)) ∨ s.calls cpu = some (.unclaiming r)
  | .op h, r => ∃ c, s.ops h = some c ∧ c.active ∧ c.region = r

structure Others (s t : Sys) : Prop where
  ops : t.ops = s.ops
  calls : t.calls = s.calls
  pending : ∀ r, (t.regions r).pending = (s.regions r).pending

end Sys

inductive MarkerMove (handed : Prop) (s t : Sys) : Prop
  | keep : (∀ r, (t.regions r).pending = (s.regions r).pending) →
      (∀ o r, t.Owns o r ↔ s.Owns o r) → MarkerMove handed s t
  | take (o : Owner) (r : Nat) : (s.regions r).pending = false → (t.regions r).pending = true →
      (∀ q, q ≠ r → (t.regions q).pending = (s.regions q).pending) →
      (∀ o' q, t.Owns o' q ↔ s.Owns o' q ∨ o' = o ∧ q = r) → MarkerMove handed s t
  | hand (o o' : Owner) (r : Nat) : (o' ≠ o → handed) → s.Owns o r →
      (∀ q, (t.regions q).pending = (s.regions q).pending) →
      (∀ x q, t.Owns x q ↔ s.Owns x q ∧ x ≠ o ∨ x = o' ∧ q = r) → MarkerMove handed s t
  | drop (o : Owner) (r : Nat) : s.Owns o r → (t.regions r).pending = false →
      (∀ q, q ≠ r → (t.regions q).pending = (s.regions q).pending) →
      (∀ x q, t.Owns x q ↔ s.Owns x q ∧ x ≠ o) → MarkerMove handed s t

structure MarkerInv (s : Sys) : Prop where
  marked : ∀ r, (s.regions r).pending = true ↔ ∃ o, s.Owns o r
  unique : ∀ o o' r, s.Owns o r → s.Owns o' r → o = o'

variable {o : Owner} {target : TrState} {s₀ : Sys} {p count h cpu : Nat}

theorem Sys.Owns.region_unique {s : Sys} {r q : Nat} (hr : s.Owns o r) (hq : s.Owns o q) : r = q := by
  cases o with
  | call cpu => obtain ⟨_,h⟩ | h := hr <;> obtain ⟨_,h'⟩ | h' := hq <;> simp_all
  | op h =>
    obtain ⟨c,hc,-,rfl⟩ := hr
    obtain ⟨c',hc',-,rfl⟩ := hq
    rw [Option.some.inj (hc.symm.trans hc')]

theorem MarkerInv.move {handed : Prop} {s t : Sys} (hi : MarkerInv s) (h : MarkerMove handed s t) : MarkerInv t := by
  obtain ⟨hmarked,hunique⟩ := hi
  cases h with
  | keep hp ho =>
    refine ⟨fun r => ?_,fun o o' r h h' => hunique o o' r ((ho o r).1 h) ((ho o' r).1 h')⟩
    rw [hp r,hmarked r]
    exact exists_congr fun o => (ho o r).symm
  | take o r hfree hset hrest ho =>
    have hnone : ∀ x, ¬ s.Owns x r := fun x hx => by
      rw [(hmarked r).2 ⟨x,hx⟩] at hfree
      cases hfree
    refine ⟨fun q => ?_,fun x y q hx hy => ?_⟩
    · by_cases hq : q = r
      · subst hq
        exact ⟨fun _ => ⟨o,(ho o q).2 (.inr ⟨rfl,rfl⟩)⟩,fun _ => hset⟩
      · rw [hrest q hq,hmarked q]
        refine exists_congr fun x => ?_
        rw [ho x q]
        simp [hq]
    · obtain hx | ⟨hxo,hxq⟩ := (ho x q).1 hx <;> obtain hy | ⟨hyo,hyq⟩ := (ho y q).1 hy
      · exact hunique x y q hx hy
      · exact absurd (hyq ▸ hx) (hnone x)
      · exact absurd (hxq ▸ hy) (hnone y)
      · rw [hxo,hyo]
  | hand o o' r _ hown hp ho =>
    refine ⟨fun q => ?_,fun x y q hx hy => ?_⟩
    · rw [hp q,hmarked q]
      constructor
      · rintro ⟨x,hx⟩
        by_cases hxo : x = o
        · subst hxo
          obtain rfl := hown.region_unique hx
          exact ⟨o',(ho o' r).2 (.inr ⟨rfl,rfl⟩)⟩
        · exact ⟨x,(ho x q).2 (.inl ⟨hx,hxo⟩)⟩
      · rintro ⟨x,hx⟩
        obtain ⟨hx,-⟩ | ⟨-,rfl⟩ := (ho x q).1 hx
        · exact ⟨x,hx⟩
        · exact ⟨o,hown⟩
    · obtain ⟨hx,hxo⟩ | ⟨hxo,hxq⟩ := (ho x q).1 hx <;> obtain ⟨hy,hyo⟩ | ⟨hyo,hyq⟩ := (ho y q).1 hy
      · exact hunique x y q hx hy
      · exact absurd (hunique x o r (hyq ▸ hx) hown) hxo
      · exact absurd (hunique y o r (hxq ▸ hy) hown) hyo
      · rw [hxo,hyo]
  | drop o r hown hclear hrest ho =>
    refine ⟨fun q => ?_,fun x y q hx hy =>
      hunique x y q ((ho x q).1 hx).1 ((ho y q).1 hy).1⟩
    by_cases hq : q = r
    · subst hq
      refine ⟨fun h => ?_,?_⟩
      · rw [hclear] at h
        cases h
      · rintro ⟨x,hx⟩
        obtain ⟨hx,hxo⟩ := (ho x q).1 hx
        exact absurd (hunique x o q hx hown) hxo
    · rw [hrest q hq,hmarked q]
      refine exists_congr fun x => ?_
      rw [ho x q]
      refine ⟨fun hx => ⟨hx,?_⟩,And.left⟩
      rintro rfl
      exact hq (hx.region_unique hown)

structure Sys.SameMarks (s t : Sys) : Prop where
  ops : t.ops = s.ops
  calls : t.calls = s.calls
  pending : ∀ r, (t.regions r).pending = (s.regions r).pending

structure Ctx.SameOwner (c d : Ctx) : Prop where
  region : d.region = c.region
  ended : d.ended = c.ended

structure Quiet (s : Sys) (c : Ctx) (x : Sys × Ctx) : Prop where
  marks : s.SameMarks x.1
  owner : c.SameOwner x.2

namespace Sys.SameMarks

variable {s t u : Sys}

theorem refl (s : Sys) : s.SameMarks s := ⟨rfl,rfl,fun _ => rfl⟩

theorem trans (h : s.SameMarks t) (h' : t.SameMarks u) : s.SameMarks u :=
  ⟨h'.ops.trans h.ops,h'.calls.trans h.calls,fun r => (h'.pending r).trans (h.pending r)⟩

theorem setRegion {r : Nat} {v : Region} (hv : v.pending = (s.regions r).pending) : s.SameMarks (s.setRegion r v) := by
  refine ⟨rfl,rfl,fun q => ?_⟩
  by_cases hq : q = r
  · subst hq
    simpa [Sys.setRegion] using hv
  · simp [Sys.setRegion,hq]

theorem setBacking (s : Sys) (r i : Nat) (v : Option Nat) : s.SameMarks (s.setBacking r i v) :=
  setRegion rfl

theorem setGranule (size : Nat) (s : Sys) (p : Nat) (g : Rtt.GranuleState) :
    s.SameMarks (s.setGranule size p g) := setRegion rfl

theorem populate (s : Sys) (c : Ctx) (i p : Nat) : s.SameMarks (populate s c i p) :=
  (setBacking s c.region i (some p)).trans ⟨rfl,rfl,fun _ => rfl⟩

theorem populatePas (s : Sys) (c : Ctx) (i p : Nat) (v : Delegation.Pas) :
    s.SameMarks (Tracking.populate (s.setPas p v) c i p) :=
  trans (t := s.setPas p v) ⟨rfl,rfl,fun _ => rfl⟩ (populate _ c i p)

theorem unmap (s : Sys) (p r i : Nat) : s.SameMarks ((s.setZeroed p true).setBacking r i none) :=
  trans (t := s.setZeroed p true) ⟨rfl,rfl,fun _ => rfl⟩ (setBacking _ r i none)

end Sys.SameMarks

theorem Quiet.active {s : Sys} {c : Ctx} {x : Sys × Ctx} (h : Quiet s c x) (ha : c.active) : x.2.active := by
  rw [Ctx.active,h.owner.ended]
  exact ha

section Quiet

variable {size : Nat} {s : Sys} {c : Ctx} {e : El3} {x : Sys × Ctx}

theorem delegatePage_quiet (s : Sys) (c : Ctx) (p : Nat) (rest : List (Nat × Sro.MemState))
    (e : El3) : Quiet s c (delegatePage s c p rest e) := by
  cases e with
  | complete b => exact ⟨.populatePas s c _ p _,⟨rfl,rfl⟩⟩
  | incomplete | busy | conflict | rejected => exact ⟨.refl s,⟨rfl,rfl⟩⟩

theorem pageAdd_quiet (s : Sys) (c : Ctx) (p : Nat) (st : Sro.MemState)
    (rest : List (Nat × Sro.MemState)) (e : El3) : Quiet s c (pageAdd size s c p st rest e) := by
  have habort : Quiet s c (s,donationAbort c .errorInput) := ⟨.refl s,⟨rfl,rfl⟩⟩
  unfold pageAdd
  split
  · split
    · exact habort
    split
    · exact habort
    split
    · exact delegatePage_quiet s c p rest e
    · exact ⟨.populate s c _ p,⟨rfl,rfl⟩⟩
  split
  · exact ⟨(Sys.SameMarks.setGranule size s p _).trans (.populate _ c _ p),⟨rfl,rfl⟩⟩
  · exact habort

theorem donatePage_quiet (h : donatePage size s c e = some x) : Quiet s c x := by
  unfold donatePage at h
  split at h
  · cases h
    exact ⟨.refl s,⟨rfl,rfl⟩⟩
  · split at h
    · cases h
      exact pageAdd_quiet s c _ _ _ e
    · cases h
      exact ⟨.refl s,⟨rfl,rfl⟩⟩
  · cases h

theorem delegateContinue_quiet (h : delegateContinue s c e = some x) : Quiet s c x := by
  unfold delegateContinue at h
  split at h
  · cases h
  rename_i p _
  cases e with
  | complete conflict =>
    cases h
    refine ⟨.populatePas s c _ p _,?_⟩
    cases conflict <;> exact ⟨rfl,rfl⟩
  | incomplete | busy | conflict | rejected =>
    cases h
    exact ⟨.refl s,⟨rfl,rfl⟩⟩

theorem Region.Installs.pending {r r' : Region} (h : r.Installs target r') : r'.pending = r.pending := by
  cases h <;> rfl

theorem Region.transition_pending (r : Region) (target : TrState) (b : Bool) :
    (r.transition target b).2.pending = r.pending := by
  rcases h : r.transition target b with ⟨status,r'⟩
  obtain ⟨-,hi⟩ | ⟨-,rfl⟩ := Region.transition_cases h
  · exact hi.pending
  · rfl

theorem continueSet_quiet (s : Sys) (c : Ctx) : Quiet s c (continueSet s c) := by
  have hp := ((pagesClear s c).regions c.region).transition_pending c.target true
  have hclear : s.SameMarks (pagesClear s c) := ⟨rfl,rfl,fun _ => rfl⟩
  unfold continueSet
  simp only
  split
  next v hv =>
    rw [hv] at hp
    exact ⟨(hclear.trans (.setRegion hp)).trans ⟨rfl,rfl,fun _ => rfl⟩,⟨rfl,rfl⟩⟩
  all_goals
    rename_i hv
    rw [hv] at hp
    exact ⟨hclear.trans (.setRegion hp),⟨rfl,rfl⟩⟩

theorem publish_quiet {c₀ : Ctx} {st : Sro.MemState} (h : publish s c p st count = some x) (hs : s₀.SameMarks s)
    (hc : c₀.SameOwner c) : Quiet s₀ c₀ x := by
  unfold publish at h
  split at h
  · cases h
  · cases h
    exact ⟨hs,⟨hc.region,hc.ended⟩⟩

theorem undelegatePage_quiet (hs : s₀.SameMarks s) (h : undelegatePage s c p count e = some x) : Quiet s₀ c x := by
  cases e with
  | incomplete =>
    cases h
    exact ⟨hs,⟨rfl,rfl⟩⟩
  | complete b => exact publish_quiet h (hs.trans ⟨rfl,rfl,fun _ => rfl⟩) ⟨rfl,rfl⟩
  | busy =>
    cases h
    exact ⟨hs.trans (.populate s c _ p),⟨rfl,rfl⟩⟩
  | conflict | rejected => cases h

theorem handBack_quiet (hs : s₀.SameMarks s) (h : handBack size s c p count e = some x) : Quiet s₀ c x := by
  unfold handBack at h
  split at h
  · split at h
    · cases h
    · exact undelegatePage_quiet hs h
    · exact publish_quiet h hs ⟨rfl,rfl⟩
  split at h
  · cases h
  · exact publish_quiet h (hs.trans (.setGranule size s p _)) ⟨rfl,rfl⟩

theorem reclaimPage_quiet (h : reclaimPage size s c count e = some x) : Quiet s c x := by
  have hunmap : ∀ p, handBack size ((s.setZeroed p true).setBacking c.region c.reclaimPage none) c p
      count e = some x → Quiet s c x := fun p => handBack_quiet (.unmap s p _ _)
  unfold reclaimPage at h
  split at h
  · split at h
    · exact publish_quiet h (.refl s) ⟨rfl,rfl⟩
    split at h
    · exact handBack_quiet (.refl s) h
    split at h
    · cases h
    · exact hunmap _ h
  · exact handBack_quiet (.refl s) h
  · split at h
    · cases h
    · exact hunmap _ h

theorem returnPage_quiet (h : returnPage size s c e = some x) : Quiet s c x := by
  unfold returnPage at h
  split at h
  · cases h
    exact ⟨.refl s,⟨rfl,rfl⟩⟩
  · split at h
    · cases h
      exact ⟨.refl s,⟨rfl,rfl⟩⟩
    · exact reclaimPage_quiet h
  · cases h

end Quiet

theorem idleAt_some {c : Ctx} {cb : Callback} {f : Option (Sys × Ctx)} {x : Sys × Ctx}
    (h : idleAt c cb f = some x) : c.run = .idle ∧ c.callback = cb ∧ c.list = [] ∧ f = some x := by
  unfold idleAt at h
  split at h
  next hc => exact ⟨hc.1,hc.2.1,hc.2.2,h⟩
  · cases h

inductive OpRun (size : Nat) (s : Sys) (k : Nat) (c : Ctx) : Label → Sys × Ctx → Prop where
  | start (run : c.run = .starting) : OpRun size s k c (.start k) (startReclaim s c)
  | donate (run : c.run = .idle) (callback : c.callback = .donate) :
      OpRun size s k c (.donate k pages) (s,{ c with run := .donating pages })
  | page (step : donatePage size s c e = some x) : OpRun size s k c (.page k e) x
  | delegateContinue (run : c.run = .idle) (callback : c.callback = .delegateContinue)
      (step : delegateContinue s c e = some x) : OpRun size s k c (.delegateContinue k e) x
  | resume (run : c.run = .idle) (callback : c.callback = .continueSet) : OpRun size s k c (.resume k) (continueSet s c)
  | complete (run : c.run = .completing) :
      OpRun size s k c (.complete k) (s.setRegion c.region (s.regions c.region).fineTransitionComplete,
        { c with run := .idle,ended := some .success })
  | reclaim (run : c.run = .idle) (callback : c.callback = .reclaim) :
      OpRun size s k c (.reclaim k n) (s,{ c with run := .reclaiming (min n Sro.maxRanges) })
  | returnPage (step : returnPage size s c e = some x) : OpRun size s k c (.returnPage k e) x
  | deliver (run : c.run = .idle) (list : c.list ≠ []) :
      OpRun size s k c (.deliver k n) (s,{ c with list := c.list.drop n,delivered := c.delivered ++ c.list.take n })
  | finish (run : c.run = .idle) (callback : c.callback = .finish) (list : c.list = []) :
      OpRun size s k c (.finish k) (s.setPending c.region false,{ c with ended := some c.retStatus })

inductive Executed (size : Nat) (s : Sys) : Label → Sys → Prop where
  | begin (step : beginSet s i r next = some t) : Executed size s (.begin i r next) t
  | sync (call : s.calls i = some (.sync r next)) :
      Executed size s (.sync i) ((s.setRegion r ((s.regions r).transition next false).2).setCall i none)
  | claim (call : s.calls i = some (.claiming r next current)) :
      Executed size s (.claim i) (claimStep s i r next current)
  | reserve (call : s.calls i = some (.claimed r next)) (step : reserveStep s i r next slot = some t) :
      Executed size s (.reserve i slot) t
  | unclaim (call : s.calls i = some (.unclaiming r)) :
      Executed size s (.unclaim i) ((s.setPending r false).setCall i none)
  | op (here : s.ops k = some c) (active : c.active) (run : OpRun size s k c l x) :
      Executed size s l (x.1.setOp k (some x.2))
  | release (here : s.ops k = some c) (ended : c.active = false) : Executed size s (.release k) (s.setOp k none)

theorem Executed.ofOp {s t : Sys} {f : Ctx → Option (Sys × Ctx)} (ht : withOp s k f = some t)
    (hf : ∀ c x, f c = some x → OpRun size s k c l x) : Executed size s l t := by
  unfold withOp at ht
  split at ht
  · cases ht
  rename_i c hc
  split at ht
  next ha =>
    obtain ⟨x,hx,rfl⟩ := Option.map_eq_some_iff.1 ht
    exact .op hc ha (hf c x hx)
  · cases ht

theorem exec_executed {s t : Sys} {l : Label} (h : exec size s l = some t) : Executed size s l t := by
  cases l with
  | begin cpu r target => exact .begin h
  | sync cpu =>
    simp only [exec] at h
    split at h
    · cases h
      exact .sync ‹_›
    · cases h
  | claim cpu =>
    simp only [exec] at h
    split at h
    · cases h
      exact .claim ‹_›
    · cases h
  | reserve cpu slot =>
    simp only [exec] at h
    split at h
    · exact .reserve ‹_› h
    · cases h
  | unclaim cpu =>
    simp only [exec] at h
    split at h
    · cases h
      exact .unclaim ‹_›
    · cases h
  | start k =>
    refine .ofOp h fun c x hx => ?_
    split at hx
    · cases hx
      exact .start ‹_›
    · cases hx
  | donate k pages =>
    refine .ofOp h fun c x hx => ?_
    obtain ⟨hrun,hcb,-,hx⟩ := idleAt_some hx
    split at hx
    · cases hx
      exact .donate hrun hcb
    · cases hx
  | page k e => exact .ofOp h fun c x hx => .page hx
  | delegateContinue k e =>
    refine .ofOp h fun c x hx => ?_
    obtain ⟨hrun,hcb,-,hx⟩ := idleAt_some hx
    exact .delegateContinue hrun hcb hx
  | resume k =>
    refine .ofOp h fun c x hx => ?_
    obtain ⟨hrun,hcb,-,hx⟩ := idleAt_some hx
    cases hx
    exact .resume hrun hcb
  | complete k =>
    refine .ofOp h fun c x hx => ?_
    split at hx
    · cases hx
      exact .complete ‹_›
    · cases hx
  | reclaim k n =>
    refine .ofOp h fun c x hx => ?_
    obtain ⟨hrun,hcb,-,hx⟩ := idleAt_some hx
    cases hx
    exact .reclaim hrun hcb
  | returnPage k e => exact .ofOp h fun c x hx => .returnPage hx
  | deliver k n =>
    refine .ofOp h fun c x hx => ?_
    split at hx
    next hok =>
      cases hx
      exact .deliver hok.1 hok.2
    · cases hx
  | finish k =>
    refine .ofOp h fun c x hx => ?_
    obtain ⟨hrun,hcb,hl,hx⟩ := idleAt_some hx
    cases hx
    exact .finish hrun hcb hl
  | release k =>
    simp only [exec] at h
    split at h
    next hc =>
      split at h
      · cases h
      · cases h
        exact .release hc (Bool.eq_false_iff.2 ‹_›)
    · cases h
  | others => cases h

section Moves

variable {size : Nat} {handed : Prop} {s t : Sys} {u : Sys} {r : Nat}

theorem owns_setOp (hops : u.ops = s.ops) (hcalls : u.calls = s.calls) (h : Nat)
    (d : Option Ctx) (o : Owner) (r : Nat) : (u.setOp h d).Owns o r ↔
      s.Owns o r ∧ o ≠ .op h ∨ o = .op h ∧ ∃ c, d = some c ∧ c.active ∧ c.region = r := by
  cases o with
  | call cpu => simp [Sys.Owns,setOp,hcalls]
  | op k =>
    by_cases hk : k = h
    · subst hk
      simp [Sys.Owns,setOp]
    · simp [Sys.Owns,setOp,hk,hops]

theorem owns_setCall (hops : u.ops = s.ops) (hcalls : u.calls = s.calls) (cpu : Nat)
    (d : Option Call) (o : Owner) (r : Nat) : (u.setCall cpu d).Owns o r ↔ s.Owns o r ∧ o ≠ .call cpu ∨
        o = .call cpu ∧ ((∃ target, d = some (.claimed r target)) ∨ d = some (.unclaiming r)) := by
  cases o with
  | op k => simp [Sys.Owns,setCall,hops]
  | call k =>
    by_cases hk : k = cpu
    · subst hk
      simp [Sys.Owns,setCall]
    · simp [Sys.Owns,setCall,hk,hcalls]

theorem Quiet.move {c : Ctx} {x : Sys × Ctx} (hc : s.ops h = some c) (ha : c.active)
    (hq : Quiet s c x) : MarkerMove handed s (x.1.setOp h (some x.2)) := by
  have ha' := hq.active ha
  obtain ⟨⟨hops,hcalls,hp⟩,hregion,-⟩ := hq
  refine .keep hp fun o r => ?_
  rw [owns_setOp hops hcalls]
  by_cases ho : o = .op h
  · subst ho
    simp [Sys.Owns,hc,ha,ha',hregion]
  · simp [ho]

theorem drop_op {c d : Ctx} (hc : s.ops h = some c) (ha : c.active) (hd : d.active = false) (hops : u.ops = s.ops)
    (hcalls : u.calls = s.calls) (hclear : (u.regions c.region).pending = false)
    (hrest : ∀ q, q ≠ c.region → (u.regions q).pending = (s.regions q).pending) : MarkerMove handed s (u.setOp h (some d))
    := by
  refine .drop (.op h) c.region ⟨c,hc,ha,rfl⟩ hclear hrest fun o r => ?_
  rw [owns_setOp hops hcalls]
  simp [hd]

theorem keep_call {d : Option Call} (hu : s.SameMarks u) (hs : ∀ r, ¬ s.Owns (.call cpu) r)
    (hd : ∀ r, ¬ ((∃ target, d = some (.claimed r target)) ∨ d = some (.unclaiming r))) :
    MarkerMove handed s (u.setCall cpu d) := by
  refine .keep hu.pending fun o r => ?_
  rw [owns_setCall hu.ops hu.calls]
  constructor
  · rintro (⟨ho,-⟩ | ⟨-,ho⟩)
    · exact ho
    · exact absurd ho (hd r)
  intro ho
  refine .inl ⟨ho,?_⟩
  rintro rfl
  exact hs r ho

theorem claim_move {current : TrState} (hc : s.calls cpu = some (.claiming r target current)) :
    MarkerMove handed s (claimStep s cpu r target current) := by
  have hnot : ∀ q, ¬ s.Owns (.call cpu) q := fun q ho => by
    simp [Sys.Owns,hc] at ho
  unfold claimStep
  split
  next v hv =>
    obtain ⟨-,hfree,-,rfl⟩ | ⟨hne,-⟩ := Region.transitionClaim_cases hv
    · refine .take (.call cpu) r hfree ?_ (fun q hq => ?_) fun o q => ?_
      · simp [setCall,Sys.setRegion]
      · simp [setCall,Sys.setRegion,hq]
      · rw [owns_setCall (s := s) (u := s.setRegion r _) rfl rfl]
        by_cases ho : o = .call cpu
        · subst ho
          simp [hnot q,eq_comm]
        · simp [ho]
    · exact absurd rfl hne
  next v hne hv =>
    obtain ⟨hs,-⟩ | ⟨-,rfl⟩ := Region.transitionClaim_cases hv
    · subst hs
      exact (hne rfl).elim
    · exact keep_call (.setRegion rfl) hnot (by simp)

theorem reserve_move {slot : Option Nat} (hc : s.calls cpu = some (.claimed r target)) (hh : slot.isSome → handed)
    (h : reserveStep s cpu r target slot = some t) : MarkerMove handed s t := by
  have hown : s.Owns (.call cpu) r := .inl ⟨target,hc⟩
  simp only [reserveStep] at h
  split at h
  · cases h
  cases slot with
  | none =>
    cases h
    refine .hand (.call cpu) (.call cpu) r (absurd rfl) hown (fun _ => rfl) fun x q => ?_
    rw [owns_setCall rfl rfl]
    simp [eq_comm]
  | some k =>
    simp only at h
    split at h
    · cases h
    rename_i hk
    cases h
    refine .hand (.call cpu) (.op k) r (fun _ => hh rfl) hown (fun _ => rfl) fun x q => ?_
    rw [owns_setOp rfl rfl,owns_setCall rfl rfl]
    have hfree : ∀ q, ¬ s.Owns (.op k) q := by
      rintro q ⟨c,hc,-⟩
      rw [hc] at hk
      exact hk rfl
    by_cases hx : x = .op k
    · subst hx
      have hregion : ∀ c : Ctx, c.active = true → c.region = r →
          ((∃ d, some c = some d ∧ d.active = true ∧ d.region = q) ↔ q = r) := by
        rintro c ha rfl
        constructor
        · rintro ⟨d,hd,-,rfl⟩
          rw [Option.some.inj hd]
        · rintro rfl
          exact ⟨c,rfl,ha,rfl⟩
      simp only [hfree q,false_and,ne_eq,not_true_eq_false,and_false,false_or,true_and]
      split <;> simpa using hregion _ rfl rfl
    · simp [hx]

theorem exec_move {l : Label} (h : exec size s l = some t) : MarkerMove (∃ cpu k, l = .reserve cpu (some k)) s t := by
  cases exec_executed h with
  | @begin cpu r target _ h =>
    simp only [beginSet] at h
    split at h
    · cases h
    rename_i hok
    have hnone : s.calls cpu = none := not_not.1 (not_or.1 hok).1
    have hnot : ∀ q, ¬ s.Owns (.call cpu) q := fun q ho => by
      simp [Sys.Owns,hnone] at ho
    split at h
    · cases h
      exact .keep (fun _ => rfl) fun _ _ => Iff.rfl
    split at h
    all_goals
      cases h
      exact keep_call (.refl s) hnot (by simp)
  | sync hc =>
    refine keep_call (.setRegion (Region.transition_pending ..)) ?_ (by simp)
    intro q ho
    simp [Sys.Owns,hc] at ho
  | claim hc => exact claim_move hc
  | @reserve cpu _ _ slot _ hc h => exact reserve_move hc (fun hk => ⟨cpu,slot.get hk,by simp⟩) h
  | @unclaim cpu r hc =>
    refine .drop (.call cpu) r (.inr hc) ?_ (fun q hq => ?_) fun x q => ?_
    · simp [setCall,setPending,Sys.setRegion]
    · simp [setCall,setPending,Sys.setRegion,hq]
    · rw [owns_setCall (s := s) (u := s.setPending r false) rfl rfl]
      simp
  | @op k c _ _ hc ha hx =>
    cases hx with
    | start =>
      have hp := (s.regions c.region).transition_pending c.target true
      unfold startReclaim
      split
      next v hv =>
        rw [hv] at hp
        exact Quiet.move hc ha ⟨.setRegion hp,⟨rfl,rfl⟩⟩
      · refine drop_op hc ha rfl rfl rfl ?_ fun q hq => ?_
        · simp [Sys.setRegion]
        · simp [Sys.setRegion,hq]
    | donate | reclaim | deliver => exact Quiet.move hc ha ⟨.refl s,⟨rfl,rfl⟩⟩
    | page hx => exact (donatePage_quiet hx).move hc ha
    | delegateContinue _ _ hx => exact (delegateContinue_quiet hx).move hc ha
    | resume => exact (continueSet_quiet s c).move hc ha
    | returnPage hx => exact (returnPage_quiet hx).move hc ha
    | complete =>
      refine drop_op hc ha rfl rfl rfl ?_ fun q hq => ?_
      · simp [Sys.setRegion,Region.fineTransitionComplete]
      · simp [Sys.setRegion,hq]
    | finish =>
      refine drop_op hc ha rfl rfl rfl ?_ fun q hq => ?_
      · simp [setPending,Sys.setRegion]
      · simp [setPending,Sys.setRegion,hq]
  | @release k c hc ha =>
    refine .keep (fun _ => rfl) fun o r => ?_
    rw [owns_setOp rfl rfl]
    by_cases ho : o = .op k
    · subst ho
      simp [Sys.Owns,hc,ha]
    · simp [ho]

theorem Sys.Others.move (h : s.Others t) : MarkerMove handed s t := by
  refine .keep h.pending fun o r => ?_
  cases o with
  | call cpu => simp [Sys.Owns,h.calls]
  | op k => simp [Sys.Owns,h.ops]

end Moves

def system (size : Nat) : TransitionSystem Sys Label where
  init s := (∀ r, (s.regions r).pending = false) ∧ (∀ h, s.ops h = none) ∧ ∀ cpu, s.calls cpu = none
  step s l t := exec size s l = some t ∨ l = .others ∧ s.Others t

section Marker

variable {size : Nat} {s t : Sys} {l : Label}

theorem step_move (h : (system size).step s l t) : MarkerMove (∃ cpu k, l = .reserve cpu (some k)) s t := by
  obtain h | ⟨-,h⟩ := h
  · exact exec_move h
  · exact h.move

theorem markerInv_init (h : (system size).init s) : MarkerInv s := by
  obtain ⟨hp,hops,hcalls⟩ := h
  have hnone : ∀ o r, ¬ s.Owns o r := fun o r ho => by
    cases o with
    | call cpu => simp [Sys.Owns,hcalls cpu] at ho
    | op k => simp [Sys.Owns,hops k] at ho
  exact ⟨fun r => by simp [hp r,hnone],fun o _ r ho => absurd ho (hnone o r)⟩

theorem markerInv_reachable (h : (system size).Reachable s) : MarkerInv s :=
  TransitionSystem.Reachable.invariant (fun _ h0 => markerInv_init h0) (fun _ _ _ hi hst => hi.move (step_move hst)) h

end Marker

def Owner.Over (t : Sys) : Owner → Prop
  | .call cpu => t.calls cpu = none
  | .op h => ∀ c, t.ops h = some c → c.active = false

theorem over_not_owns {t : Sys} (h : o.Over t) (r : Nat) : ¬ t.Owns o r := fun ho => by
  cases o with
  | call cpu =>
    rw [Owner.Over] at h
    simp [Sys.Owns,h] at ho
  | op k =>
    obtain ⟨c,hc,ha,-⟩ := ho
    rw [h c hc] at ha
    cases ha

theorem MarkerMove.over_clear {handed : Prop} {s t : Sys} (h : MarkerMove handed s t) {r : Nat} (ho : s.Owns o r)
    (hover : o.Over t) (hkept : ¬ handed) : (t.regions r).pending = false := by
  have hno := over_not_owns hover
  cases h with
  | keep _ ho' => exact absurd ((ho' o r).2 ho) (hno r)
  | take _ _ _ _ _ ho' => exact absurd ((ho' o r).2 (.inl ho)) (hno r)
  | hand o₁ o₂ q hh hown _ ho' =>
    have hoo : o = o₁ := by
      by_contra hne
      exact hno r ((ho' o r).2 (.inl ⟨ho,hne⟩))
    have hsame : o₂ = o₁ := not_not.1 (mt hh hkept)
    exact absurd ((ho' o q).2 (.inr ⟨hoo.trans hsame.symm,rfl⟩)) (hno q)
  | drop o₁ q hown hclear _ ho' =>
    have hoo : o = o₁ := by
      by_contra hne
      exact hno r ((ho' o r).2 ⟨ho,hne⟩)
    subst hoo
    obtain rfl := ho.region_unique hown
    exact hclear

theorem marker_owned (size : Nat) (s : Sys) (hs : (system size).Reachable s) :
    (∀ r, (s.regions r).pending = true ↔ ∃ o, s.Owns o r) ∧
    (∀ o o' r, s.Owns o r → s.Owns o' r → o = o') ∧
    ∀ l t, (system size).step s l t → ∀ o r, s.Owns o r → o.Over t → (¬ ∃ cpu k, l = .reserve cpu (some k)) →
      (t.regions r).pending = false ∧ ∀ o', ¬ t.Owns o' r := by
  have hi := markerInv_reachable hs
  refine ⟨hi.marked,hi.unique,fun l t hst o r ho hover hkept => ?_⟩
  have hmove := step_move hst
  have hclear := hmove.over_clear ho hover hkept
  refine ⟨hclear,fun o' ho' => ?_⟩
  rw [((hi.move hmove).marked r).2 ⟨o',ho'⟩] at hclear
  cases hclear

def plainRegion (state : TrState) : Region :=
  { layout := ⟨4,[⟨0,4,.conv⟩]⟩,base := 0,state := state,pending := false,gate := false,
    coarse := ⟨.ns,0,false⟩,fine := fun _ => ⟨.ns,0,false⟩,metadataPages := 1
    backing := fun _ => none }

def quietSys : Sys :=
  { regions := fun _ => plainRegion .none,pas := fun _ => .ns,zeroed := fun _ => false,
    ops := fun _ => none,calls := fun _ => none }

theorem marker_owned_unclaimed : ∃ s l t, (system 4).step s l t ∧ (s.regions 0).pending = true ∧
    (t.regions 0).pending = false := by
  have h0 : (system 4).Reachable quietSys :=
    .initial ⟨fun _ => rfl,fun _ => rfl,fun _ => rfl⟩
  have h1 : (system 4).Reachable (quietSys.setCall 0 (some (.claiming 0 .fine .none))) :=
    h0.next (l := .begin 0 0 .fine) trivial (.inl rfl)
  have h2 := h1.next (l := .claim 0) trivial (.inl rfl)
  have h3 := h2.next (l := .reserve 0 none) trivial (.inl rfl)
  obtain ⟨hmarked,-,hover⟩ := marker_owned 4 _ h3
  have hown := hover (.unclaim 0) _ (.inl rfl) (.call 0) 0 (.inr rfl) rfl nofun
  exact ⟨_,.unclaim 0,_,.inl rfl,(hmarked 0).2 ⟨.call 0,.inr rfl⟩,hown.1⟩

end TfRmm.Tracking
