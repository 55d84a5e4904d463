import TfRmm.Rtt.State

namespace TfRmm.Rtt

open TfRmm.S2tt

structure Walk where
  llt : Nat
  index : Nat
  lastLevel : Int
  deriving DecidableEq

namespace Rd

variable (rd : Rd)

def validateMapAddr (addr : Nat) (level : Int) : Bool :=
  addr < rd.geo.ipaSize && isAddrLvlAligned rd.oaBits addr level

def validateRttStructureCmds (addr : Nat) (level : Int) : Bool :=
  rd.geo.startLevel + 1 ≤ level && level ≤ pageLevel && rd.validateMapAddr addr (level-1)

def validateAuxIndex (index : Nat) : Bool :=
  rd.rttTreePp && index != 0 && index < rd.numS2Contexts

def validateAuxRttArgs (index addr : Nat) : Bool := rd.addrInPar addr && rd.validateAuxIndex index

def slTable (index addr : Nat) : Nat :=
  if rd.geo.slAddrToIdx addr ≥ s2ttesPerS2tt then
    rd.rootTable index (rd.geo.slAddrToIdx addr / s2ttesPerS2tt)
  else rd.root index

end Rd

namespace Rmm

variable (s : Rmm)

def walkFrom (addr : Nat) : Nat → Nat → Int → Nat × Int
  | 0, t, l => (t,l)
  | n+1, t, l =>
    match s.entry t (addrToIdx addr l) with
    | .table c => walkFrom addr n c (l+1)
    | _ => (t,l)

def walk (rd : Rd) (index addr : Nat) (level : Int) : Walk :=
  let r := s.walkFrom addr (level-rd.geo.startLevel).toNat (rd.slTable index addr) rd.geo.startLevel
  ⟨r.1,addrToIdx addr r.2,r.2⟩

def walkEntry (wi : Walk) : S2tte := s.entry wi.llt wi.index

def nonLiveRun (t i : Nat) : Nat → Nat
  | 0 => 0
  | n+1 => if (s.entry t i).isLive then 0 else nonLiveRun t (i+1) n + 1

def skipNonLiveEntries (addr : Nat) (wi : Walk) : Nat :=
  if (s.walkEntry wi).isLive then addr
  else
    roundDown addr (mapSize wi.lastLevel) +
      (s.nonLiveRun wi.llt (wi.index+1) (s2ttesPerS2tt-(wi.index+1)) + 1) *
        mapSize wi.lastLevel

def ipaIsAuxRef (rd : Rd) (ipa : Nat) : Bool :=
  (List.range rd.numAuxPlanes).any fun i =>
    !(s.walkEntry (s.walk rd (i+1) ipa rd.geo.startLevel)).isUnassignedNs

def rttError (aux : Bool) (level : Int) : Status :=
  if aux then .errorRttAux level else .errorRtt level

end Rmm

namespace Rmm

variable (cfg : Config) (s : Rmm) (rd : Rd) (p i c : Nat) (rdAddr mapAddr : Nat) (aux : Bool) (e : S2tte)
    (level : Int)

def auxReferenced (mapAddr : Nat) (level : Int) : Bool :=
  !aux && !rd.addrInPar mapAddr && rd.rttTreePp && rd.geo.startLevel < level &&
    s.ipaIsAuxRef rd mapAddr

def destroyTable : Rmm :=
  ((s.putRef p 1).setEntry p i e).setState c .delegated

def destroyedEntry (k mapAddr : Nat) : S2tte :=
  if rd.addrInPar mapAddr then .createUnassigned rd.indirectS2ap .destroyed (rd.protectedAp k)
  else .createUnassignedNs

def rttDestroy (index : Nat) (aux : Bool) : Rmm × Result :=
  let ret := s.findGranule cfg rdAddr .rd
  let rd := s.rd rdAddr
  let k := if aux then index else 0
  let wi := s.walk rd k mapAddr (level-1)
  let c := (s.walkEntry wi).pa (level-1)
  let top := roundDown mapAddr (mapSize wi.lastLevel)
  if ret ≠ .success then (s,ret.result)
  else if !rd.validateRttStructureCmds mapAddr level then (s,Status.errorInput.result)
  else if aux && !rd.validateAuxRttArgs index mapAddr then (s,Status.errorInput.result)
  else if wi.lastLevel < level-1 ∨ (s.walkEntry wi).isTable = false then
    (s,{ status := rttError aux wi.lastLevel,x2 := s.skipNonLiveEntries top wi })
  else if (s.granule c).refcount ≠ 0 then (s,{ status := rttError aux level,x2 := mapAddr })
  else if s.auxReferenced rd aux mapAddr level then
    (s,{ status := .errorRtt wi.lastLevel,x2 := mapAddr })
  else
    let s' := s.destroyTable wi.llt wi.index c (destroyedEntry rd k mapAddr)
    (s',{ status := .success,x1 := c,x2 := s'.skipNonLiveEntries top wi })

end Rmm

end TfRmm.Rtt
