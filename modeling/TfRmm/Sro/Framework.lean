import Mathlib.Logic.Function.Basic
import TfRmm.Lib.Transition
import TfRmm.Sro.Delivery

namespace TfRmm.Sro.Framework

open TfRmm.Lib

inductive Fid where
  | memDonate
  | memReclaim
  | opContinue
  | opCancel
  deriving DecidableEq

inductive RmiStatus where
  | success
  | busy
  | blocked
  | error (code : Nat)
  deriving DecidableEq

inductive ReqState where
  | delegated
  | undelegated
  | conditional
  deriving DecidableEq

structure DonateReq where
  pages : Nat
  contig : Bool
  state : ReqState
  deriving DecidableEq

inductive MemReq where
  | none
  | donate (req : DonateReq)
  | reclaim
  deriving DecidableEq

inductive Outcome where
  | incomplete (mem : MemReq)
  | busy
  | final (status : RmiStatus)
  deriving DecidableEq

structure Res where
  outcome : Outcome
  count : Nat
  deriving DecidableEq

def MemReq.fid : MemReq → Fid
  | .none => .opContinue
  | .donate _ => .memDonate
  | .reclaim => .memReclaim

structure HostDesc where
  base : Nat
  size : Fin 4
  count : Fin 1024
  state : Option MemState
  deriving DecidableEq

def HostDesc.level (d : HostDesc) : Nat := 3-d.size

def HostDesc.pages (d : HostDesc) : Nat := d.count * blockPages d.level

def ReqState.admits : ReqState → MemState → Bool
  | .conditional, _ => true
  | .delegated, st => st = .delegated
  | .undelegated, st => st = .undelegated

def HostDesc.valid (d : HostDesc) (contig : Bool) (state : ReqState) : Bool :=
  d.base % blockPages d.level = 0 && d.state.any state.admits &&
    (!contig || (d.pages.isPowerOfTwo && d.base % d.pages = 0))

def addrListValidate (l : List HostDesc) (contig : Bool) (state : ReqState) : Option Nat :=
  let filled := l.filter fun d => 0 < d.count.val
  if contig && decide (1 < filled.length) then none
  else if filled.all fun d => d.valid contig state then some (filled.map HostDesc.pages).sum
  else none

def HostDesc.blocks (d : HostDesc) : List (Nat × Nat × Option MemState) :=
  (List.range d.count).map fun i => (d.base + i * blockPages d.level,d.level,d.state)

def blocks (l : List HostDesc) : List (Nat × Nat × Option MemState) := l.flatMap HostDesc.blocks

structure HostList where
  aligned : Bool
  offset : Fin 512
  count : Nat
  deriving DecidableEq

def HostList.clipped (h : HostList) : Nat :=
  let n := min h.count maxRanges
  if maxRanges < n+h.offset then maxRanges-h.offset else n

structure Ctx (β : Type) where
  canCancel : Bool
  expectedFid : Fid
  prevExpFid : Fid
  reclaimRes : Option Outcome
  transferReq : Nat
  isContig : Bool
  memState : ReqState
  rangeDescCount : Nat
  input : List HostDesc
  list : List Desc
  output : Bool
  delivered : List Desc
  body : β
  deriving DecidableEq

variable {ω β : Type}

abbrev Callback (ω β : Type) := Fid → Ctx β → ω → Option (Res × Ctx β × ω)

def Ctx.next (c : Ctx β) (fid : Fid) (res : Res) : Option (Ctx β) :=
  match res.outcome with
  | .incomplete mem =>
    let c := match mem with
      | .donate req => { c with transferReq := req.pages,isContig := req.contig,memState := req.state }
      | _ => c
    let c := { c with expectedFid := mem.fid }
    if mem = .reclaim ∨ fid = .memReclaim ∧ 0 < res.count then
      match mem with
      | .donate _ => none
      | _ => some { c with reclaimRes := some res.outcome,prevExpFid := c.expectedFid }
    else some c
  | _ => some { c with expectedFid := .opContinue }

def rmiOpDispatch (cb : Callback ω β) (fid : Fid) (c : Ctx β) (w : ω) : Option (Res × Ctx β × ω) :=
  if fid ≠ .opCancel ∧ c.expectedFid ≠ fid then none
  else (cb fid c w).bind fun r => (r.2.1.next fid r.1).map fun c => (r.1,c,r.2.2)

abbrev Called (ω β : Type) := Option (Option Res × Ctx β × ω)

def smcOpMemDonate (cb : Callback ω β) (h : HostList) (read : Option (Nat → HostDesc)) (c : Ctx β)
    (w : ω) : Called ω β :=
  if c.expectedFid ≠ .memDonate then some (none,c,w)
  else if h.aligned = false then some (none,c,w)
  else
    let n := h.clipped
    match read with
    | none => some (none,{ c with input := [],list := [],output := false },w)
    | some f =>
      let c := { c with input := (List.range n).map f,list := [],output := false }
      match addrListValidate c.input c.isContig c.memState with
      | none => some (none,c,w)
      | some total =>
        if c.transferReq < total ∨ c.isContig ∧ total ≠ 0 ∧ total ≠ c.transferReq then some (none,c,w)
        else (rmiOpDispatch cb .memDonate { c with rangeDescCount := n } w).bind fun r =>
          if r.1.outcome ≠ .incomplete .reclaim ∧ total < r.1.count then none
          else some (some r.1,r.2.1,r.2.2)

def copyToHost (h : HostList) (writable : Bool) (res : Option Res) (c : Ctx β) (w : ω) : Called ω β :=
  if c.list = [] then some (res,c,w)
  else
    match c.reclaimRes with
    | some (.incomplete mem) =>
      let c := { c with expectedFid := .memReclaim }
      if writable = false then some (none,c,w)
      else
        let copied := min (min c.list.length h.clipped) (maxRanges-h.offset)
        let c := { c with list := c.list.drop copied,delivered := c.delivered ++ c.list.take copied }
        if c.list = [] then some (some ⟨.incomplete mem,copied⟩,{ c with expectedFid := c.prevExpFid },w)
        else some (some ⟨.incomplete .reclaim,copied⟩,c,w)
    | _ => none

def smcOpMemReclaim (cb : Callback ω β) (h : HostList) (writable : Bool) (c : Ctx β) (w : ω) : Called ω β :=
  if h.aligned = false then some (none,c,w)
  else if c.expectedFid ≠ .memReclaim then some (none,c,w)
  else if h.clipped = 0 then some (some ⟨.incomplete .reclaim,0⟩,c,w)
  else if c.list = [] ∨ c.output = false then
    (rmiOpDispatch cb .memReclaim { c with rangeDescCount := h.clipped,list := [],output := true } w).bind
      fun r => copyToHost h writable (some r.1) r.2.1 r.2.2
  else copyToHost h writable none c w

def smcOpContinue (cb : Callback ω β) (c : Ctx β) (w : ω) : Called ω β :=
  if c.expectedFid ≠ .opContinue then some (none,c,w)
  else (rmiOpDispatch cb .opContinue c w).map fun r => (some r.1,r.2.1,r.2.2)

def smcOpCancel (cb : Callback ω β) (c : Ctx β) (w : ω) : Called ω β :=
  if c.canCancel = false then some (none,c,w)
  else (rmiOpDispatch cb .opCancel c w).map fun r => (some r.1,r.2.1,r.2.2)

inductive FollowUp where
  | donate (h : HostList) (read : Option (Nat → HostDesc))
  | reclaim (h : HostList) (writable : Bool)
  | resume
  | cancel

def call (cb : Callback ω β) (c : Ctx β) (w : ω) : FollowUp → Called ω β
  | .donate h read => smcOpMemDonate cb h read c w
  | .reclaim h writable => smcOpMemReclaim cb h writable c w
  | .resume => smcOpContinue cb c w
  | .cancel => smcOpCancel cb c w

def ends (f : FollowUp) : Option Res → Bool
  | some ⟨.final _,_⟩ => match f with
      | .resume => true
      | .cancel => true
      | _ => false
  | _ => false

def reserved (xfer : Nat) (contig : Bool) (fid : Fid) (body : β) : Ctx β where
  canCancel := false
  expectedFid := fid
  prevExpFid := .opContinue
  reclaimRes := none
  transferReq := xfer
  isContig := contig
  memState := .delegated
  rangeDescCount := 0
  input := []
  list := []
  output := false
  delivered := []
  body := body

end TfRmm.Sro.Framework
