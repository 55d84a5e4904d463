import TfRmm.Lib.Transition
import TfRmm.Rtt.State
import TfRmm.Smmu.Driver

namespace TfRmm.Da

open TfRmm.S2tt TfRmm.Smmu

abbrev Range := Nat × Nat

inductive VdevState where
  | new
  | unlocked
  | locked
  | started
  | keyRefresh
  | keyPurge
  | error
  deriving DecidableEq

inductive CommState where
  | idle
  | pending
  | active
  | error
  deriving DecidableEq

inductive VdevOp where
  | none
  | init
  | getMeas
  | lock
  | getReport
  | start
  | unlock
  deriving DecidableEq

structure Freshness where
  lockSeq : Nat
  measSeq : Nat
  reportSeq : Nat
  deriving DecidableEq

def Freshness.zero : Freshness := ⟨0,0,0⟩

structure Vdev where
  rd : Nat
  pdev : Nat
  id : Nat
  tdiId : Nat
  rmiState : VdevState
  commState : CommState
  op : VdevOp
  freshness : Freshness
  dmaEnabled : Bool
  sid : Nat
  smmuIdx : Nat
  pdevSlot : Nat
  ranges : List Range
  deriving DecidableEq

structure PdevStream where
  taken : Bool
  connected : Bool
  ranges : List Range
  deriving DecidableEq

structure Pdev where
  endpoint : Bool
  ready : Bool
  maxNumVdevs : Nat
  numVdevs : Nat
  ridBase : Nat
  ridTop : Nat
  ecamAddr : Nat
  ncoh : PdevStream
  coh : PdevStream
  slot : Nat → Option (List Range)
  yieldOwner : Option Nat

def rdMaxVdevs : Nat := 1 <<< 10

abbrev VdevCount := { n : Nat // n ≤ rdMaxVdevs }

structure Realm where
  incarnation : Nat
  daEnabled : Bool
  maxNumVdevs : VdevCount
  vdevRefcount : Nat
  numAuxPlanes : Nat
  lastVdevLockSeq : Nat
  vdevMap : Nat → Option Nat

structure Renewal where
  realm : Nat
  id : Nat
  op : VdevOp
  freshness : Freshness
  deriving DecidableEq

structure Rmm where
  granule : Nat → Rtt.GranuleState
  rd : Nat → Realm
  pdev : Nat → Pdev
  vdev : Nat → Vdev
  numSmmus : Nat
  smmu : Nat → StreamTable
  realms : Nat
  history : List Renewal

inductive Status where
  | success
  | errorInput
  | errorRealm
  | errorDevice
  | errorGranule (addr : Nat)
  | errorState
  | incomplete
  | blocked
  | busy
  deriving DecidableEq

inductive Assertion where
  | unlockState
  | initState
  | noOp
  | dmaDisabled
  | slotActive
  | vdevMapped
  deriving DecidableEq

structure Config where
  bdfToSmmu : Nat → Nat → Option (Nat × Nat)

namespace Rmm

variable (s : Rmm)

def setGranule (a : Nat) (g : Rtt.GranuleState) : Rmm :=
  { s with granule := Function.update s.granule a g }

def setRd (a : Nat) (r : Realm) : Rmm := { s with rd := Function.update s.rd a r }

def setPdev (a : Nat) (p : Pdev) : Rmm := { s with pdev := Function.update s.pdev a p }

def setVdev (a : Nat) (v : Vdev) : Rmm := { s with vdev := Function.update s.vdev a v }

def setSmmu (i : Nat) (t : StreamTable) : Rmm := { s with smmu := Function.update s.smmu i t }

def record (e : Renewal) : Rmm := { s with history := s.history ++ [e] }

def onStream (i : Nat) (f : StreamTable → StreamTable × Option Errno) : Rmm × Option Errno :=
  if i < s.numSmmus then (s.setSmmu i (f (s.smmu i)).1,(f (s.smmu i)).2) else (s,some .einval)

end Rmm

def seqMax : Nat := 2 ^ 64 - 1

def rangeMax : Nat := 8

def addrRangesValid : Nat → List Range → Bool
  | _, [] => true
  | lastTop, r :: rs => decide (r.1 < r.2 ∧ lastTop ≤ r.1) && addrRangesValid r.2 rs

def addrRangesOverlap : List Range → List Range → Bool
  | [], _ => false
  | _ :: _, [] => false
  | r :: rs, q :: qs =>
    if r.1 < q.2 ∧ q.1 < r.2 then true
    else if r.2 ≤ q.1 then addrRangesOverlap rs (q :: qs)
    else addrRangesOverlap (r :: rs) qs
  termination_by l m => l.length+m.length

def nextTop (covered : Nat) (l : List Range) : Nat :=
  l.foldl (fun top r => if r.1 ≤ covered ∧ covered < r.2 ∧ top < r.2 then r.2 else top) covered

def coverPasses (top : Nat) (l : List Range) : Nat → Nat → Bool
  | _, 0 => false
  | covered, n+1 =>
    let next := nextTop covered l
    if next = covered then false
    else if top ≤ next then true
    else coverPasses top l next n

def rangeWithinStream (r : Range) (x : PdevStream) : Bool :=
  if r.2 ≤ r.1 then true else coverPasses r.2 x.ranges r.1 x.ranges.length

namespace Pdev

variable (p : Pdev)

def rangeInStreams (r : Range) : Bool :=
  p.ncoh.taken && rangeWithinStream r p.ncoh || p.coh.taken && rangeWithinStream r p.coh

def vdevRangesOverlap (l : List Range) : Bool :=
  (List.range p.maxNumVdevs).any fun k =>
    match p.slot k with
    | none => false
    | some m => addrRangesOverlap m l

def findFreeVdevSlot : Option Nat := (List.range p.maxNumVdevs).find? fun k => (p.slot k).isNone

def setSlot (k : Nat) (l : Option (List Range)) : Pdev := { p with slot := Function.update p.slot k l }

end Pdev

def Realm.mapVdev (r : Realm) (id : Nat) (a : Option Nat) : Realm :=
  { r with vdevMap := Function.update r.vdevMap id a }

structure VdevParams where
  flags : Nat
  id : Nat
  tdiId : Nat
  ranges : List Range
  deriving DecidableEq

def VdevParams.valid (x : VdevParams) (p : Pdev) : Bool :=
  decide (x.flags = 0) && decide (x.ranges.length ≤ rangeMax) && addrRangesValid 0 x.ranges &&
    decide (p.ridBase ≤ x.tdiId) && decide (x.tdiId < p.ridTop)

structure CreateEnv where
  configure : Option Errno
  release : Option Errno
  deriving DecidableEq

namespace Rmm

variable (s : Rmm) (rd pdev a : Nat)

def isObject (a : Nat) (g : Rtt.GranuleState) : Bool := s.granule a == g

def newVdev (rd pdev sid i slot : Nat) (x : VdevParams) : Vdev :=
  { rd := rd,pdev := pdev,id := x.id,tdiId := x.tdiId,rmiState := .new,commState := .pending,op := .init,
    freshness := .zero,dmaEnabled := false,sid := sid,smmuIdx := i,pdevSlot := slot,ranges := x.ranges }

def insertVdev (rd pdev a sid i slot : Nat) (x : VdevParams) : Rmm :=
  let r := s.rd rd
  let p := s.pdev pdev
  let r' : Realm := { r.mapVdev x.id (some a) with vdevRefcount := r.vdevRefcount+1 }
  let p' : Pdev := { p.setSlot slot (some x.ranges) with numVdevs := p.numVdevs+1 }
  (((s.setRd rd r').setPdev pdev p').setVdev a (newVdev rd pdev sid i slot x)).setGranule a .vdev

def vdevCreate (cfg : Config) (rd pdev a : Nat) (params : Option VdevParams) (env : CreateEnv) : Rmm × Status :=
  let r := s.rd rd
  let p := s.pdev pdev
  if !(s.isObject rd .rd && s.isObject pdev .pdev && s.isObject a .delegated) then (s,.errorInput)
  else if !r.daEnabled then (s,.errorRealm)
  else if r.maxNumVdevs.val = r.vdevRefcount then (s,.errorDevice)
  else
    match params with
    | none => (s,.errorInput)
    | some x =>
      if !x.valid p then (s,.errorInput)
      else if !p.endpoint then (s,.errorDevice)
      else if !p.ready || p.maxNumVdevs == p.numVdevs then (s,.errorDevice)
      else if p.vdevRangesOverlap x.ranges then (s,.errorInput)
      else
        match p.findFreeVdevSlot with
        | none => (s,.errorDevice)
        | some slot =>
          if !p.ncoh.taken || !p.ncoh.connected then (s,.errorDevice)
          else if !x.ranges.all p.rangeInStreams then (s,.errorInput)
          else
            match cfg.bdfToSmmu p.ecamAddr x.tdiId with
            | none => (s,.errorDevice)
            | some (i,sid) =>
              match s.onStream i fun t => t.configureStream sid env.configure with
              | (s',some _) => (s',.errorDevice)
              | (s',none) =>
                if (r.vdevMap x.id).isSome then
                  ((s'.onStream i fun t => t.releaseSte sid env.release).1,.errorInput)
                else (s'.insertVdev rd pdev a sid i slot x,.success)

def startOp (wrongRealm : Status) (allowed : VdevState → Bool) (op : VdevOp) : Rmm × Status :=
  let v := s.vdev a
  if !(s.isObject rd .rd && s.isObject pdev .pdev && s.isObject a .vdev) then (s,.errorInput)
  else if v.rd ≠ rd then (s,wrongRealm)
  else if v.pdev ≠ pdev ∨ allowed v.rmiState = false ∨ v.commState ≠ .idle then (s,.errorDevice)
  else (s.setVdev a { v with op := op,commState := .pending },.success)

def vdevLock : Rmm × Status := s.startOp rd pdev a .errorInput (· == .unlocked) .lock

def vdevStart : Rmm × Status := s.startOp rd pdev a .errorInput (· == .locked) .start

def vdevGetInterfaceReport : Rmm × Status :=
  s.startOp rd pdev a .errorDevice (fun st => st == .locked || st == .started) .getReport

def vdevGetMeasurements (readable : Bool) : Rmm × Status :=
  let (s',st) := s.startOp rd pdev a .errorInput (fun _ => true) .getMeas
  if st = .success ∧ readable = false then (s,.errorInput) else (s',st)

inductive Probe where
  | mapped
  | unmapped
  | refused (st : Status)
  deriving DecidableEq

def probeAddrs (r : Range) : List Nat :=
  (List.range ((r.2 - r.1 + (granuleSize-1)) / granuleSize)).map fun k => r.1 + k * granuleSize

def probeAll (probe : Nat → Probe) : List Nat → Option Status
  | [] => none
  | a :: as =>
    match probe a with
    | .mapped => some (.errorGranule a)
    | .refused st => some st
    | .unmapped => probeAll probe as

def vdevUnlock (probe : Nat → Probe) (inval : Option Errno) : Rmm × Status :=
  let v := s.vdev a
  if !(s.isObject rd .rd && s.isObject pdev .pdev && s.isObject a .vdev) then (s,.errorInput)
  else if v.rd ≠ rd ∨ v.pdev ≠ pdev then (s,.errorDevice)
  else if v.rmiState ≠ .locked ∧ v.rmiState ≠ .started ∧ v.rmiState ≠ .error then (s,.errorDevice)
  else if v.commState ≠ .idle then (s,.errorDevice)
  else
    match probeAll probe (v.ranges.flatMap probeAddrs) with
    | some st => (s,st)
    | none =>
      if v.dmaEnabled then
        match s.onStream v.smmuIdx fun t => t.changeSte v.sid false inval none with
        | (s',some _) => (s',.errorDevice)
        | (s',none) => (s'.setVdev a { v with dmaEnabled := false,op := .unlock,commState := .pending },.success)
      else (s.setVdev a { v with op := .unlock,commState := .pending },.success)

inductive AppResult where
  | blocked
  | error
  | success
  deriving DecidableEq

structure CommEnv where
  accepted : Bool
  app : AppResult
  unwound : Bool
  copied : Bool
  aborted : Bool
  deriving DecidableEq

def appUnwound (env : CommEnv) : AppResult → Bool
  | .blocked => false
  | .error => env.unwound
  | .success => true

def setCommState : AppResult → Bool → CommState
  | .blocked, _ => .active
  | .error, true => .error
  | .error, false => .active
  | .success, _ => .idle

def vdevDispatchCmd (v : Vdev) (env : CommEnv) : AppResult :=
  if v.commState ≠ .active ∧ v.op = .init then .success else env.app

def devCommunicate (pdev a : Nat) (env : CommEnv) : Option Rmm × Status :=
  let p := s.pdev pdev
  let v := s.vdev a
  if !env.accepted then (none,.errorInput)
  else if p.yieldOwner.isSome ∧ p.yieldOwner ≠ some a then (none,.busy)
  else
    let rc := vdevDispatchCmd v env
    let u := appUnwound env rc
    let (rc',u',st) : AppResult × Bool × Status :=
      if env.copied then (rc,u,.success) else (.error,u || env.aborted,.errorInput)
    (some ((s.setPdev pdev { p with yieldOwner := if u' then none else some a }).setVdev a
      { v with commState := setCommState rc' u' }),st)

def renew (rd a : Nat) (op : VdevOp) (f : Freshness) (st : VdevState) : Rmm :=
  (s.setVdev a { s.vdev a with rmiState := st,freshness := f,op := .none }).record
    ⟨(s.rd rd).incarnation,(s.vdev a).id,op,f⟩

def completeOp (rd a : Nat) (st : Status) : Except Assertion (Rmm × Status) :=
  let v := s.vdev a
  let r := s.rd rd
  let f := v.freshness
  match v.op with
  | .unlock =>
    if v.rmiState = .locked ∨ v.rmiState = .started ∨ v.rmiState = .error then
      .ok (s.setVdev a { v with rmiState := .unlocked,op := .none },st)
    else .error .unlockState
  | .init =>
    if v.rmiState = .new then .ok (s.setVdev a { v with rmiState := .unlocked,op := .none },st)
    else .error .initState
  | .lock =>
    if r.lastVdevLockSeq = seqMax then
      .ok (s.setVdev a { v with rmiState := .error,op := .none },.errorDevice)
    else
      .ok ((s.setRd rd { r with lastVdevLockSeq := r.lastVdevLockSeq+1 }).renew rd a .lock
        ⟨r.lastVdevLockSeq+1,0,0⟩ .locked,st)
  | .start => .ok (s.setVdev a { v with rmiState := .started,op := .none },st)
  | .getMeas =>
    if f.measSeq = seqMax then .ok (s.setVdev a { v with rmiState := .error,op := .none },.errorDevice)
    else .ok (s.renew rd a .getMeas { f with measSeq := f.measSeq+1 } v.rmiState,st)
  | .getReport =>
    if f.reportSeq = seqMax then .ok (s.setVdev a { v with rmiState := .error,op := .none },.errorDevice)
    else .ok (s.renew rd a .getReport { f with reportSeq := f.reportSeq+1 } v.rmiState,st)
  | .none => if st = .errorDevice then .ok (s,st) else .error .noOp

def exhausted (rd a : Nat) : Bool :=
  let v := s.vdev a
  v.op == .lock && (s.rd rd).lastVdevLockSeq == seqMax ||
    v.op == .getMeas && v.freshness.measSeq == seqMax ||
    v.op == .getReport && v.freshness.reportSeq == seqMax

def vdevCommunicate (env : CommEnv) : Except Assertion (Rmm × Status) :=
  let v := s.vdev a
  if !(s.isObject rd .rd && s.isObject pdev .pdev && s.isObject a .vdev) then .ok (s,.errorInput)
  else if v.rd ≠ rd then .ok (s,.errorInput)
  else if v.pdev ≠ pdev then .ok (s,.errorDevice)
  else if v.commState = .idle ∨ v.commState = .error then .ok (s,.errorDevice)
  else if s.exhausted rd a then .ok (s,.errorDevice)
  else
    match s.devCommunicate pdev a env with
    | (none,st) => .ok (s,st)
    | (some s',st) =>
      if (s'.vdev a).commState = .idle then s'.completeOp rd a st
      else if (s'.vdev a).commState = .error then
        .ok (s'.setVdev a { s'.vdev a with rmiState := .error,commState := .idle },st)
      else .ok (s',st)

def abortState : VdevState → VdevState
  | .keyRefresh => .locked
  | .keyPurge => .locked
  | _ => .error

def vdevAbort (aborted : Bool) : Rmm × Status :=
  let v := s.vdev a
  let p := s.pdev pdev
  if !(s.isObject rd .rd && s.isObject pdev .pdev && s.isObject a .vdev) then (s,.errorInput)
  else if v.commState = .idle then (s,.errorDevice)
  else if v.rd ≠ rd ∨ v.pdev ≠ pdev then (s,.errorDevice)
  else if p.yieldOwner = some a ∧ aborted = false then (s,.errorDevice)
  else
    ((s.setPdev pdev { p with yieldOwner := if p.yieldOwner = some a then none else p.yieldOwner }).setVdev a
      { v with rmiState := abortState v.rmiState,commState := .idle },.success)

def removeVdev : Rmm :=
  let v := s.vdev a
  let r := s.rd rd
  let p := s.pdev pdev
  let r' : Realm := { r.mapVdev v.id none with vdevRefcount := r.vdevRefcount-1 }
  let p' : Pdev := { p.setSlot v.pdevSlot none with numVdevs := p.numVdevs-1 }
  ((s.setRd rd r').setPdev pdev p').setGranule a .delegated

def vdevDestroy (inval : Option Errno) : Except Assertion (Rmm × Status) :=
  let v := s.vdev a
  let p := s.pdev pdev
  if !(s.isObject rd .rd && s.isObject pdev .pdev && s.isObject a .vdev) then .ok (s,.errorInput)
  else if v.rd ≠ rd then .ok (s,.errorInput)
  else if v.pdev ≠ pdev then .ok (s,.errorDevice)
  else if v.rmiState ≠ .unlocked ∨ (v.commState ≠ .idle ∧ v.commState ≠ .pending) then
    .ok (s,.errorDevice)
  else if p.yieldOwner = some a then .ok (s,.errorDevice)
  else if v.dmaEnabled then .error .dmaDisabled
  else if p.maxNumVdevs ≤ v.pdevSlot ∨ p.slot v.pdevSlot = none then .error .slotActive
  else
    match s.onStream v.smmuIdx fun t => t.releaseSte v.sid inval with
    | (s',some _) => .ok (s',.errorDevice)
    | (s',none) =>
      if (s'.rd rd).vdevMap v.id = none then .error .vdevMapped
      else .ok (s'.removeVdev rd pdev a,.success)

def claimObjects (rd id : Nat) : Except Status Nat :=
  match (s.rd rd).vdevMap id with
  | none => .error .errorInput
  | some a => if (s.vdev a).rd ≠ rd ∨ (s.vdev a).id ≠ id then .error .incomplete else .ok a

def rsiVdevDmaEnable (rd id nonAtsPlane : Nat) (f : Freshness) (inval prefetch : Option Errno) : Rmm × Status :=
  let r := s.rd rd
  if !r.daEnabled then (s,.errorState)
  else
    match s.claimObjects rd id with
    | .error st => (s,st)
    | .ok a =>
      let v := s.vdev a
      if 0 < r.numAuxPlanes ∧ (nonAtsPlane = 0 ∨ r.numAuxPlanes < nonAtsPlane) then (s,.errorInput)
      else if v.rmiState ≠ .started ∨ v.freshness ≠ f then (s,.errorDevice)
      else if v.dmaEnabled then (s,.success)
      else
        match s.onStream v.smmuIdx fun t => t.changeSte v.sid true inval prefetch with
        | (s',some _) => (s',.errorDevice)
        | (s',none) => (s'.setVdev a { v with dmaEnabled := true },.success)

def rsiVdevDmaDisable (rd id : Nat) (inval : Option Errno) : Rmm × Status :=
  let r := s.rd rd
  if !r.daEnabled then (s,.errorState)
  else
    match s.claimObjects rd id with
    | .error st => (s,st)
    | .ok a =>
      let v := s.vdev a
      if !v.dmaEnabled then (s,.success)
      else
        match s.onStream v.smmuIdx fun t => t.changeSte v.sid false inval none with
        | (s',some _) => (s',.errorDevice)
        | (s',none) => (s'.setVdev a { v with dmaEnabled := false },.success)

def devValidate (rd id : Nat) (f : Freshness) : Status :=
  match s.claimObjects rd id with
  | .error _ => .errorInput
  | .ok a =>
    let v := s.vdev a
    if (v.rmiState ≠ .locked ∧ v.rmiState ≠ .started) ∨ v.commState ≠ .idle then .errorDevice
    else if v.freshness ≠ f then .errorDevice
    else .success

end Rmm

inductive PsmmuOp where
  | activate
  | activateFinish
  | setInactive
  | deactivate
  | createStL2 (sid pa : Nat) (mapping inval : Option Errno)
  | destroyStL2 (sid : Nat) (inval : Option Errno)
  deriving DecidableEq

inductive Command where
  | granule (a : Nat) (g : Rtt.GranuleState)
  | realmCreate (rd : Nat) (maxNumVdevs : VdevCount) (numAuxPlanes : Nat) (daEnabled : Bool)
  | realmDestroy (rd : Nat)
  | pdevCreate (pdev : Nat) (p : Pdev)
  | pdevUpdate (pdev : Nat) (ready : Bool) (ncoh coh : PdevStream) (yieldOwner : Option Nat)
  | pdevDestroy (pdev : Nat)
  | psmmu (i : Nat) (op : PsmmuOp)
  | vdevCreate (rd pdev vdev : Nat) (params : Option VdevParams) (env : CreateEnv)
  | vdevLock (rd pdev vdev : Nat)
  | vdevStart (rd pdev vdev : Nat)
  | vdevGetMeasurements (rd pdev vdev : Nat) (readable : Bool)
  | vdevGetInterfaceReport (rd pdev vdev : Nat)
  | vdevUnlock (rd pdev vdev : Nat) (probe : Nat → Rmm.Probe) (inval : Option Errno)
  | vdevCommunicate (rd pdev vdev : Nat) (env : Rmm.CommEnv)
  | vdevAbort (rd pdev vdev : Nat) (aborted : Bool)
  | vdevDestroy (rd pdev vdev : Nat) (inval : Option Errno)
  | dmaEnable (rd id nonAtsPlane : Nat) (f : Freshness) (inval prefetch : Option Errno)
  | dmaDisable (rd id : Nat) (inval : Option Errno)

namespace StreamTable

variable (t : StreamTable)

def validSid (sid : Nat) : Bool := decide (sid % strtabL1SteMax = 0) && decide (sid < 2 ^ t.sidBits)

def psmmu : PsmmuOp → StreamTable
  | .activate => (t.setBusy .inactive).1
  | .activateFinish => if t.state = .busy then { t with state := .active,l1 := fun _ => none } else t
  | .setInactive => if t.state = .busy then { t with state := .inactive } else t
  | .deactivate => if t.state = .active ∧ t.l1Refcnt = 0 then { t with state := .busy } else t
  | .createStL2 sid pa mapping inval => if validSid t sid then (t.registerStL2 sid pa mapping inval).1 else t
  | .destroyStL2 sid inval => if validSid t sid then (t.releaseStL2 sid inval).1 else t

end StreamTable

def plain : Rtt.GranuleState → Bool
  | .rd => false
  | .pdev => false
  | .vdev => false
  | _ => true

namespace Rmm

variable (s : Rmm)

def setState (a : Nat) (g : Rtt.GranuleState) : Rmm × Status :=
  if plain (s.granule a) && plain g then (s.setGranule a g,.success) else (s,.errorInput)

def realmCreate (rd : Nat) (maxNumVdevs : VdevCount) (numAuxPlanes : Nat) (daEnabled : Bool) : Rmm × Status :=
  if s.isObject rd .delegated then
    ({ (s.setRd rd ⟨s.realms,daEnabled,maxNumVdevs,0,numAuxPlanes,0,fun _ => none⟩).setGranule rd .rd with
      realms := s.realms+1 },.success)
  else (s,.errorInput)

def realmDestroy (rd : Nat) : Rmm × Status :=
  if s.isObject rd .rd && (s.rd rd).vdevRefcount == 0 then (s.setGranule rd .delegated,.success)
  else (s,.errorRealm)

def pdevCreate (a : Nat) (p : Pdev) : Rmm × Status :=
  if s.isObject a .delegated then
    ((s.setPdev a { p with numVdevs := 0,slot := fun _ => none,yieldOwner := none }).setGranule a .pdev,
      .success)
  else (s,.errorInput)

def pdevUpdate (a : Nat) (ready : Bool) (ncoh coh : PdevStream) (yieldOwner : Option Nat) : Rmm × Status :=
  if s.isObject a .pdev then
    (s.setPdev a { s.pdev a with ready := ready,ncoh := ncoh,coh := coh,yieldOwner := yieldOwner },.success)
  else (s,.errorInput)

def pdevDestroy (a : Nat) : Rmm × Status :=
  if s.isObject a .pdev && (s.pdev a).numVdevs == 0 then (s.setGranule a .delegated,.success)
  else (s,.errorDevice)

def psmmu (i : Nat) (op : PsmmuOp) : Rmm × Status := (s.setSmmu i (StreamTable.psmmu (s.smmu i) op),.success)

def fromRec (rd : Nat) (r : Rmm × Status) : Rmm × Status :=
  if s.isObject rd .rd then r else (s,.errorState)

def exec (cfg : Config) : Command → Except Assertion (Rmm × Status)
  | .granule a g => .ok (s.setState a g)
  | .realmCreate r m n d => .ok (s.realmCreate r m n d)
  | .realmDestroy r => .ok (s.realmDestroy r)
  | .pdevCreate a p => .ok (s.pdevCreate a p)
  | .pdevUpdate a b x y o => .ok (s.pdevUpdate a b x y o)
  | .pdevDestroy a => .ok (s.pdevDestroy a)
  | .psmmu i op => .ok (s.psmmu i op)
  | .vdevCreate r p a x env => .ok (s.vdevCreate cfg r p a x env)
  | .vdevLock r p a => .ok (s.vdevLock r p a)
  | .vdevStart r p a => .ok (s.vdevStart r p a)
  | .vdevGetMeasurements r p a b => .ok (s.vdevGetMeasurements r p a b)
  | .vdevGetInterfaceReport r p a => .ok (s.vdevGetInterfaceReport r p a)
  | .vdevUnlock r p a probe e => .ok (s.vdevUnlock r p a probe e)
  | .vdevCommunicate r p a env => s.vdevCommunicate r p a env
  | .vdevAbort r p a b => .ok (s.vdevAbort r p a b)
  | .vdevDestroy r p a e => s.vdevDestroy r p a e
  | .dmaEnable r id n f e e' => .ok (s.fromRec r (s.rsiVdevDmaEnable r id n f e e'))
  | .dmaDisable r id e => .ok (s.fromRec r (s.rsiVdevDmaDisable r id e))

structure Initial : Prop where
  granule : ∀ a, plain (s.granule a) = true
  state : ∀ i, (s.smmu i).state = .inactive
  l1 : ∀ i k, (s.smmu i).l1 k = none
  l1Refcnt : ∀ i, (s.smmu i).l1Refcnt = 0
  refcount : ∀ i k, (s.smmu i).refcount k = 0
  ste : ∀ i sid, (s.smmu i).ste sid = .zero
  history : s.history = []

end Rmm

def system (cfg : Config) : Lib.TransitionSystem Rmm Command where
  init := Rmm.Initial
  step := fun s c s' => ∃ st, s.exec cfg c = .ok (s',st)

end TfRmm.Da
