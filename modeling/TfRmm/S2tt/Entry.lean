import Mathlib.Tactic.Ring
import Mathlib.Tactic.Linarith
import Mathlib.Logic.Basic

namespace TfRmm.S2tt

inductive Ripas where
  | empty
  | ram
  | destroyed
  | dev
  deriving DecidableEq

structure Ap where
  perm : Nat
  exec : Nat
  deriving DecidableEq

structure Mark where
  handle : Nat
  tlbi : Bool
  deriving DecidableEq

inductive S2tte where
  | unassigned (ripas : Ripas) (ap : Ap) (mark : Option Mark)
  | unassignedNs (mark : Option Mark)
  | assigned (ripas : Ripas) (pa : Nat) (ap : Ap)
  | assignedDev (ripas : Ripas) (pa : Nat) (attr : Nat) (ap : Ap)
  | assignedNs (pa : Nat) (attr : Nat)
  | table (pa : Nat)
  deriving DecidableEq

def permXnuXnp : Nat := 2

def defBasePermIdx : Nat := 4

def devDefBasePermIdx : Nat := 3

def Ap.get (indirect dev : Bool) (ap : Ap) : Ap :=
  if indirect then ⟨ap.perm,if dev then devDefBasePermIdx else defBasePermIdx⟩
  else ⟨ap.perm,if dev then permXnuXnp else ap.exec⟩

namespace S2tte

def ap : S2tte → Ap
  | unassigned _ ap _ => ap
  | assigned _ _ ap => ap
  | assignedDev _ _ _ ap => ap
  | _ => ⟨0,0⟩

def isTable : S2tte → Bool
  | table _ => true
  | _ => false

def isUnassigned : S2tte → Bool
  | unassigned _ _ _ => true
  | unassignedNs _ => true
  | _ => false

variable (r : Ripas) (e : S2tte) (handle : Nat) (indirect : Bool)

def isUnassignedRipas : S2tte → Bool
  | unassigned r' _ _ => r' == r
  | _ => false

def isUnassignedNs : S2tte → Bool
  | unassignedNs _ => true
  | _ => false

def isAssignedRipas : S2tte → Bool
  | assigned r' _ _ => r' == r
  | _ => false

def isUnassignedEmpty : S2tte → Bool := isUnassignedRipas .empty

def isUnassignedDestroyed : S2tte → Bool := isUnassignedRipas .destroyed

def isAssignedRam : S2tte → Bool := isAssignedRipas .ram

def valid : S2tte → Bool
  | assigned r _ _ => r == .ram
  | assignedDev r _ _ _ => r == .dev
  | assignedNs _ _ => true
  | table _ => true
  | _ => false

def isLive : S2tte → Bool
  | unassigned _ _ _ => false
  | unassignedNs _ => false
  | _ => true

def hasRipas : S2tte → Bool
  | unassigned _ _ _ => true
  | assigned _ _ _ => true
  | assignedDev _ _ _ _ => true
  | _ => false

def getRipas : S2tte → Ripas
  | unassigned r _ _ => r
  | assigned r _ _ => r
  | assignedDev r _ _ _ => r
  | unassignedNs _ => .empty
  | assignedNs _ _ => .ram
  | table _ => .ram

def rawPa : S2tte → Nat
  | assigned _ pa _ => pa
  | assignedDev _ pa _ _ => pa
  | assignedNs pa _ => pa
  | table pa => pa
  | _ => 0

def mark : S2tte → Option Mark
  | unassigned _ _ m => m
  | unassignedNs m => m
  | _ => none

def setMark (m : Option Mark) : S2tte → S2tte
  | unassigned r ap _ => unassigned r ap m
  | unassignedNs _ => unassignedNs m
  | e => e

def drainPending : Bool := e.mark.isSome

def drainHandle : Nat := (e.mark.map Mark.handle).getD 0

def tlbiPending : Bool := (e.mark.map Mark.tlbi).getD false

def setDrainPending (e : S2tte) : S2tte := e.setMark (some ⟨handle,false⟩)

def setTlbiPending : S2tte := e.setMark (e.mark.map fun m => { m with tlbi := true })

def clearTlbiPending : S2tte :=
  e.setMark (e.mark.map fun m => { m with tlbi := false })

def clearDrainPending : S2tte := e.setMark none

def stampedBy (e : S2tte) : Bool := e.drainPending && e.drainHandle == handle

def createUnassigned (r : Ripas) (ap : Ap) : S2tte :=
  unassigned r (ap.get indirect false) none

def createUnassignedNs : S2tte := unassignedNs none

def createAssigned (r : Ripas) (pa : Nat) (ap : Ap) : S2tte :=
  assigned r pa (ap.get indirect false)

def createAssignedDev (r : Ripas) (pa attr : Nat) (ap : Ap) : S2tte :=
  assignedDev r pa attr (ap.get indirect true)

def createAssignedUnchanged (e : S2tte) (pa : Nat) : S2tte :=
  createAssigned indirect e.getRipas pa e.ap

def createAssignedDevUnchanged (e : S2tte) (pa : Nat) : S2tte :=
  createAssignedDev indirect e.getRipas pa 0 e.ap

end S2tte

def pageLevel : Int := 3

def minBlockLevel : Int := 1

def granuleSize : Nat := 4096

def s2ttesPerS2tt : Nat := 512

def mapSize (level : Int) : Nat := 2 ^ (12 + 9 * (pageLevel-level).toNat)

def tableSize (level : Int) : Nat := s2ttesPerS2tt * mapSize level

def addrToIdx (addr : Nat) (level : Int) : Nat :=
  addr / mapSize level % (if level < 0 then 16 else s2ttesPerS2tt)

def roundDown (addr size : Nat) : Nat := addr - addr % size

def isAddrLvlAligned (oaBits addr : Nat) (level : Int) : Bool :=
  addr < 2 ^ oaBits && addr % mapSize level == 0

def S2tte.pa (e : S2tte) (level : Int) : Nat :=
  if e.isTable then e.rawPa else roundDown e.rawPa (mapSize level)

theorem mapSize_pos (level : Int) : 0 < mapSize level := Nat.two_pow_pos _

theorem mapSize_pred {level : Int} (h : level ≤ pageLevel) : mapSize (level-1) = tableSize level := by
  have he : (pageLevel-(level-1)).toNat = (pageLevel-level).toNat + 1 := by
    unfold pageLevel at *; omega
  unfold mapSize tableSize mapSize s2ttesPerS2tt
  rw [he]
  ring

theorem mapSize_eq_tableSize_succ {level : Int} (h : level < pageLevel) : mapSize level = tableSize (level+1) := by
  have := @mapSize_pred (level+1) (by omega)
  rwa [add_sub_cancel_right] at this

theorem mapSize_dvd {l m : Int} (h : l ≤ m) : mapSize m ∣ mapSize l :=
  pow_dvd_pow 2 (by unfold pageLevel; omega)

theorem granuleSize_dvd_mapSize (level : Int) : granuleSize ∣ mapSize level := by
  have : granuleSize = 2 ^ 12 := rfl
  rw [this]
  exact pow_dvd_pow 2 (by omega)

structure Geometry.Valid (ipaBits : Nat) (startLevel : Int) : Prop where
  start_ge : -1 ≤ startLevel
  start_le : startLevel ≤ pageLevel
  bits_ge : 9 * (pageLevel-startLevel).toNat + 13 ≤ ipaBits
  bits_le : ipaBits ≤ 52

structure Geometry where
  ipaBits : Nat
  startLevel : Int
  valid : Geometry.Valid ipaBits startLevel

namespace Geometry

theorem valid_one_table : Valid 21 3 := ⟨by decide,by decide,by decide,by decide⟩

theorem valid_two_levels : Valid 30 2 := ⟨by decide,by decide,by decide,by decide⟩

theorem valid_narrow_root : Valid 32 1 := ⟨by decide,by decide,by decide,by decide⟩

theorem valid_three_levels : Valid 40 1 := ⟨by decide,by decide,by decide,by decide⟩

theorem valid_lpa2 : Valid 52 (-1) := ⟨by decide,by decide,by decide,by decide⟩

variable (g : Geometry)

def ipaSize : Nat := 2 ^ g.ipaBits

def parSize : Nat := g.ipaSize / 2

def slAddrToIdx (addr : Nat) : Nat := addr % g.ipaSize / mapSize g.startLevel

end Geometry

end TfRmm.S2tt
