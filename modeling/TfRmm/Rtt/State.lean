import Mathlib.Logic.Function.Basic
import TfRmm.S2tt.Entry
import TfRmm.Sro.Delivery

namespace TfRmm.Rtt

open TfRmm.S2tt
open Function

inductive GranuleState where
  | ns
  | delegated
  | rd
  | recObject
  | recAux
  | data
  | rtt
  | pdev
  | pdevAux
  | vdev
  | vdevAux
  | partialUnit
  | internal
  | psmmuStL2
  | rdAux
  | mapped
  deriving DecidableEq

structure Granule where
  state : GranuleState
  refcount : Nat
  deriving DecidableEq

inductive Bank where
  | conventional
  | devCoherent
  | devNonCoherent
  deriving DecidableEq

inductive Mem where
  | data
  | dev
  deriving DecidableEq

def Mem.mappedState : Mem → GranuleState
  | data => .data
  | dev => .mapped

def Mem.backs : Mem → Option Bank → Bool
  | data, some .conventional => true
  | dev, some .devCoherent => true
  | dev, some .devNonCoherent => true
  | _, _ => false

inductive Tracking where
  | reserved
  | none
  | coarse
  | fine
  deriving DecidableEq

structure TrackingUnit where
  base : Nat
  size : Nat
  deriving DecidableEq

inductive Status where
  | success
  | errorInput
  | errorRealm
  | errorRec
  | errorDevice
  | errorGlobal
  | errorRtt (level : Int)
  | errorRttAux (level : Int)
  | errorTracking (addr : Nat)
  | blocked
  | busy
  | incomplete
  deriving DecidableEq

structure Result where
  status : Status
  x1 : Nat := 0
  x2 : Nat := 0
  x3 : Nat := 0
  x4 : Nat := 0
  deriving DecidableEq

def Status.result (st : Status) : Result := { status := st }

inductive RealmState where
  | new
  | active
  | zombie
  deriving DecidableEq

inductive HashInput where
  | page (content : Nat)
  | recParams (params : Nat)
  | data (ipa : Nat) (measured : Bool) (rim content : Nat)
  | ripas (rim base top : Nat)
  | recDesc (rim content : Nat)
  deriving DecidableEq

structure Config where
  bank : Nat → Option Bank
  regionLevel : Int
  region_le : regionLevel ≤ 2
  sroCount : Nat
  vmidCount : Nat
  hash : HashInput → Nat

def Config.regionSize (cfg : Config) : Nat := mapSize cfg.regionLevel

structure Rd where
  state : RealmState
  geo : Geometry
  rttTreePp : Bool
  numAuxPlanes : Nat
  indirectS2ap : Bool
  daEnabled : Bool
  oaBits : Nat
  s2oaLimit : Nat
  root : Nat → Nat
  vmid : Nat → Nat
  protectedAp : Nat → Ap
  numVdevs : Nat
  rim : Nat

namespace Rd

variable (rd : Rd)

def numPlanes : Nat := rd.numAuxPlanes+1

def numS2Contexts : Nat := rd.numPlanes

def addrInPar (addr : Nat) : Bool := addr < rd.geo.parSize

def planeToS2Context (plane : Nat) : Nat := (plane+1) % rd.numPlanes

def rootTable (index tt : Nat) : Nat := rd.root index + tt * granuleSize

def planeVmids : List Nat :=
  (List.range rd.numPlanes).map fun p => rd.vmid (rd.planeToS2Context p)

end Rd

inductive Flavor where
  | data
  | unprot
  | dev
  deriving DecidableEq

inductive OaddrType where
  | none
  | single
  | list
  deriving DecidableEq

structure MapCtx where
  mem : Mem
  llt : Nat
  coarse : Bool
  rd : Nat
  pa : Nat
  ipa : Nat
  initBase : Nat
  pendingOff : Nat
  retErr : Status
  index : Nat
  level : Int
  cohType : Option Bank
  rollback : Bool
  deriving DecidableEq

structure UnmapCtx where
  flavor : Flavor
  realm : Nat
  llt : Nat
  leafLevel : Int
  leafBaseIpa : Nat
  curBase : Nat
  oaddrType : OaddrType
  maxCount : Nat
  ranges : List TfRmm.Sro.Desc
  queue : List Nat
  backing : Option Nat
  coarse : Bool
  tlbiDone : Bool
  smmuTlbiPending : Option Nat
  vmids : List Nat
  daEnabled : Bool
  deriving DecidableEq

inductive SroState where
  | free
  | reserved
  | sealed
  deriving DecidableEq

structure DelegationCtx where
  undelegate : Bool
  coarse : Bool
  pages : List Nat
  deriving DecidableEq

inductive SroOp where
  | idle
  | map (ctx : MapCtx)
  | unmap (ctx : UnmapCtx)
  | delegation (ctx : DelegationCtx)
  | object (page : Nat)
  deriving DecidableEq

structure Sro where
  state : SroState
  op : SroOp
  deriving DecidableEq

inductive Agent where
  | cpu
  | smmu
  deriving DecidableEq

structure Cached where
  agent : Agent
  vmid : Nat
  table : Nat
  index : Nat
  ipa : Nat
  level : Int
  pa : Nat
  deriving DecidableEq

structure Origin where
  realm : Nat
  tree : Nat
  level : Int
  base : Nat
  deriving DecidableEq

structure Vdev where
  realm : Nat
  ranges : List (Nat × Nat)
  deriving DecidableEq

structure Rmm where
  granule : Nat → Granule
  tracking : Nat → Tracking
  moving : Nat → Bool
  entry : Nat → Nat → S2tte
  rd : Nat → Rd
  vdev : Nat → Vdev
  vmidUsed : Nat → Bool
  sro : Nat → Sro
  content : Nat → Nat
  origin : Nat → Origin
  cached : Cached → Prop

namespace Rmm

variable (cfg : Config) (s : Rmm) (q n : Nat) (h : Nat) (addr : Nat)

def setEntry (t i : Nat) (e : S2tte) : Rmm :=
  { s with entry := update s.entry t (update (s.entry t) i e) }

def setState (q : Nat) (st : GranuleState) : Rmm :=
  { s with granule := update s.granule q { s.granule q with state := st } }

def setRange (lo size : Nat) (st : GranuleState) : Rmm :=
  { s with granule := fun q =>
      if lo ≤ q ∧ q < lo+size ∧ q % granuleSize = 0 then { s.granule q with state := st }
      else s.granule q }

def getRef : Rmm :=
  { s with granule := update s.granule q { s.granule q with refcount := (s.granule q).refcount + n } }

def putRef : Rmm :=
  { s with granule := update s.granule q { s.granule q with refcount := (s.granule q).refcount - n } }

def setSro (c : Sro) : Rmm := { s with sro := update s.sro h c }

def region : Nat := addr / cfg.regionSize

def findGranule (st : GranuleState) : Status :=
  if addr % granuleSize ≠ 0 then .errorInput
  else if cfg.bank addr ≠ some .conventional then .errorInput
  else if s.moving (region cfg addr) then .blocked
  else if s.tracking (region cfg addr) ≠ .fine then .errorTracking addr
  else if (s.granule addr).state ≠ st then .errorInput
  else .success

def findActive (mem : Mem) (addr : Nat) (st : GranuleState) : Except Status TrackingUnit :=
  if addr % granuleSize ≠ 0 then .error .errorInput
  else if ¬ mem.backs (cfg.bank addr) then .error .errorInput
  else if s.moving (region cfg addr) then .error .blocked
  else match s.tracking (region cfg addr) with
    | .fine => if (s.granule addr).state = st then .ok ⟨addr,granuleSize⟩ else .error .errorInput
    | .coarse =>
      if (s.granule (roundDown addr cfg.regionSize)).state = st then
        .ok ⟨roundDown addr cfg.regionSize,cfg.regionSize⟩
      else .error .errorInput
    | _ => .error (.errorTracking addr)

def sroReserve : Except Status Nat :=
  match (List.range cfg.sroCount).find? fun h => (s.sro h).state == .free with
  | some h => .ok h
  | none =>
    if (List.range cfg.sroCount).all fun h => (s.sro h).state == .sealed then .error .blocked
    else .error .busy

def sroRelease : Rmm := s.setSro h ⟨.free,.idle⟩

def sroSeal : Rmm := s.setSro h { s.sro h with state := .sealed }

end Rmm

end TfRmm.Rtt
