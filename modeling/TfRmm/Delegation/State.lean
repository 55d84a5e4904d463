import TfRmm.Lib.Transition
import TfRmm.Tracking.Region

namespace TfRmm.Delegation

export TfRmm.Rtt (GranuleState)
open TfRmm.Tracking (TrState Category)

inductive Pas where
  | ns
  | realm
  | other
  deriving DecidableEq

structure Layout where
  regionSize : Nat
  large : 1 < regionSize
  tracking : Nat → TrState
  bank : Nat → Option (Nat × Category)

namespace Layout

variable (l : Layout) (p : Nat)

def region : Nat := p / l.regionSize

def regionBase : Nat := l.region p * l.regionSize

def fineAt : Prop := l.tracking (l.region p) = .fine ∧ (l.bank p).isSome

def coarseAt : Prop := l.tracking (l.region p) = .coarse

instance (p : Nat) : Decidable (l.fineAt p) := inferInstanceAs (Decidable (_ ∧ _))

instance (p : Nat) : Decidable (l.coarseAt p) := inferInstanceAs (Decidable (_ = _))

def unit : Nat := if l.coarseAt p then l.regionBase p else p

def tracked : Prop := l.fineAt p ∨ l.coarseAt p

end Layout

inductive El3Ret where
  | ok
  | inProgress
  | busy
  | again
  | denied
  deriving DecidableEq

structure Response where
  ret : El3Ret
  progress : Nat
  deriving DecidableEq

structure Response.Allowed (e : Response) (delegate continuing : Bool) (remaining : Nat) : Prop where
  within : e.progress ≤ remaining
  ok : e.ret = .ok → 0 < e.progress
  inProgress : e.ret = .inProgress → e.progress < remaining
  busy : e.ret = .busy → e.progress = 0
  rest : e.ret = .again ∨ e.ret = .denied → delegate ∧ (continuing = false → e.progress < remaining)

inductive Failure where
  | blocked
  | errorTracking
  deriving DecidableEq

structure DelegateCtx where
  hostAddr : Nat
  addr : Nat
  size : Nat
  trackingSize : Nat
  processed : Nat
  rollbackSize : Nat
  rollbackStatus : Option Failure
  incomplete : Bool
  deriving DecidableEq

structure UndelegateCtx where
  hostAddr : Nat
  addr : Nat
  size : Nat
  trackingSize : Nat
  sanitized : Nat
  undelegated : Nat
  incomplete : Bool
  device : Bool
  deriving DecidableEq

inductive Op where
  | delegate (c : DelegateCtx)
  | undelegate (c : UndelegateCtx)
  deriving DecidableEq

structure State where
  granules : Nat → GranuleState
  pas : Nat → Pas
  ops : Nat → Option Op

inductive Status where
  | success
  | incomplete
  | busy
  | blocked
  | errorInput
  | errorTracking
  deriving DecidableEq

structure Result where
  status : Status
  top : Nat
  deriving DecidableEq

def paint {α : Type} (f : Nat → α) (a n : Nat) (v : α) : Nat → α :=
  fun p => if a ≤ p ∧ p < a+n then v else f p

namespace State

variable (s : State)

def setGranules (a n : Nat) (v : GranuleState) : State :=
  { s with granules := paint s.granules a n v }

def setPas (a n : Nat) (v : Pas) : State := { s with pas := paint s.pas a n v }

def setOp (h : Nat) (op : Option Op) : State :=
  { s with ops := Function.update s.ops h op }

end State

variable (e : Response)

def Response.stays (incomplete : Bool) : Bool :=
  e.ret = .inProgress || (incomplete && e.ret = .busy)

def canRetry : Bool := e.ret = .ok || e.ret = .busy

section Delegate

variable (s : State)

def delegateRange (host addr size trackingSize : Nat) (h : Nat) (e : Response) : Result × State :=
  let s := s.setPas addr e.progress .realm
  let s := if trackingSize = 1 then s.setGranules addr e.progress .delegated else s
  let ctx : DelegateCtx :=
    ⟨host,addr,size,trackingSize,e.progress,0,none,decide (e.ret = .inProgress)⟩
  let retain := fun (status : Option Failure) =>
    (⟨.incomplete,addr⟩,(s.setGranules (addr + if trackingSize = 1 then e.progress else 0)
      (size - if trackingSize = 1 then e.progress else 0) .partialUnit).setOp h
        (some (.delegate { ctx with rollbackStatus := status })))
  if e.ret = .inProgress then retain none
  else if e.progress % trackingSize ≠ 0 then
    retain (if canRetry e then none else if e.ret = .again then some .blocked
      else some .errorTracking)
  else if 0 < e.progress then
    (⟨.success,addr+e.progress⟩,if trackingSize = 1 then s else s.setGranules addr size .delegated)
  else (⟨if e.ret = .again then .blocked else if e.ret = .busy then .busy else .errorInput,addr⟩,s)

def delegateResumeRealm (h : Nat) (c : DelegateCtx) (e : Response) : Result × State :=
  let s := s.setPas (c.addr+c.processed) e.progress .realm
  let s := if c.trackingSize = 1 then
    s.setGranules (c.addr+c.processed) e.progress .delegated else s
  let c := { c with
    processed := c.processed+e.progress
    incomplete := e.stays c.incomplete }
  if c.incomplete then (⟨.incomplete,c.addr⟩,s.setOp h (some (.delegate c)))
  else if canRetry e ∧ c.processed < c.size ∧ (1 < c.trackingSize ∨ c.processed = 0 ∧ c.addr = c.hostAddr) then
    (⟨.incomplete,c.addr⟩,s.setOp h (some (.delegate c)))
  else if c.trackingSize = 1 then
    (if c.hostAddr < c.addr+c.processed then ⟨.success,c.addr+c.processed⟩
      else ⟨if e.ret = .again then .blocked else .errorInput,c.hostAddr⟩,
      (s.setGranules (c.addr+c.processed) (c.size-c.processed) .ns).setOp h none)
  else if c.processed = c.size then
    (⟨.success,c.addr+c.size⟩,(s.setGranules c.addr c.size .delegated).setOp h none)
  else if c.processed = 0 then
    (⟨if e.ret = .again then .blocked else .errorInput,c.hostAddr⟩,(s.setGranules c.addr c.size .ns).setOp h none)
  else
    (⟨.incomplete,c.addr⟩,s.setOp h (some (.delegate { c with
      rollbackStatus := some (if e.ret = .again then .blocked else .errorTracking) })))

def delegateResumeRollback (h : Nat) (c : DelegateCtx) (f : Failure) (e : Response) : Result × State :=
  let s := s.setPas (c.addr+c.rollbackSize) e.progress .ns
  let c := { c with
    rollbackSize := c.rollbackSize+e.progress
    incomplete := e.stays c.incomplete }
  if c.incomplete ∨ (e.ret = .busy ∧ e.progress = 0) ∨ c.rollbackSize < c.processed then
    (⟨.incomplete,c.addr⟩,s.setOp h (some (.delegate c)))
  else
    (⟨match f with | .blocked => .blocked | .errorTracking => .errorTracking,c.hostAddr⟩,
      (s.setGranules c.addr c.size .ns).setOp h none)

def delegateContinue (h : Nat) (c : DelegateCtx) (e : Response) : Result × State :=
  match c.rollbackStatus with
  | some f => delegateResumeRollback s h c f e
  | none => delegateResumeRealm s h c e

def undelegateResume (h : Nat) (c : UndelegateCtx) (entryCall : Bool)
    (irq : Option Nat) (e : Response) : Result × State :=
  let yield := fun (s : State) (c : UndelegateCtx) =>
    (⟨.incomplete,c.addr⟩,s.setOp h (some (.undelegate c)))
  match if c.device then none else irq.filter (c.sanitized + · < c.size) with
  | some n => yield s { c with sanitized := c.sanitized + n + 1 }
  | none =>
    let s := s.setPas (c.addr+c.undelegated) e.progress .ns
    let s := if c.trackingSize = 1 then
      s.setGranules (c.addr+c.undelegated) e.progress .ns else s
    let c := { c with
      sanitized := if c.device then c.sanitized else c.size
      undelegated := c.undelegated+e.progress
      incomplete := e.stays c.incomplete }
    if c.incomplete then yield s c
    else if c.trackingSize = 1 then
      let idle : Prop := c.undelegated = 0 ∧ c.addr = c.hostAddr
      if idle ∧ e.ret = .busy ∧ ¬ entryCall then yield s c
      else
        (⟨if c.undelegated = 0 ∧ c.addr = c.hostAddr then
            if e.ret = .busy then .busy else .errorInput
          else .success,c.addr+c.undelegated⟩,
          (s.setGranules (c.addr+c.undelegated) (c.size-c.undelegated) .delegated).setOp h
            none)
    else if (e.ret = .busy ∧ e.progress = 0) ∨ c.undelegated < c.size then yield s c
    else (⟨.success,c.addr+c.size⟩,(s.setGranules c.addr c.size .ns).setOp h none)

end Delegate

end TfRmm.Delegation
