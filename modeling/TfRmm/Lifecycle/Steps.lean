import Mathlib.Algebra.Group.Nat.Defs
import TfRmm.Lib.Tally
import TfRmm.Lib.Transition

namespace TfRmm.Lifecycle

inductive GranuleState where
  | delegated
  | partialObject
  | rd
  | recObject
  | other
  deriving DecidableEq

structure Granule where
  lock : Option Nat
  state : GranuleState
  refcount : Nat
  deriving DecidableEq

structure Rec where
  rd : Nat
  mpidr : Nat
  runnable : Bool
  pending : Bool
  target : Nat
  arg : Nat
  body : Nat
  attest : Nat
  deriving DecidableEq

inductive RealmState where
  | new
  | active
  | systemOff
  | zombie
  deriving DecidableEq

def RealmState.code : RealmState → Nat
  | .new => 0
  | .active => 1
  | .systemOff => 2
  | .zombie => 3

def rdStateShift : Nat := 62

def packSc (st : RealmState) (count : Nat) : Nat := st.code * 2 ^ rdStateShift + count

def unpackState (word : Nat) : Nat := word / 2 ^ rdStateShift

def unpackCount (word : Nat) : Nat := word % 2 ^ rdStateShift

structure Rd where
  word : Nat
  recMap : Nat → Option Nat
  id : Nat

inductive PsciStatus where
  | success
  | denied
  | other
  deriving DecidableEq

inductive Pc where
  | idle
  | unlock (g : Nat) (st : GranuleState)
  | enterLocked (g : Nat)
  | enterZero (g : Nat)
  | enterRef (g : Nat)
  | entered (g : Nat)
  | counting (g d : Nat)
  | countCas (g d old : Nat)
  | pendingCheck (g d : Nat)
  | prepare (g d : Nat)
  | running (g d : Nat)
  | onLocked (g d mpidr : Nat)
  | onFound (g d : Nat)
  | onPending (g d : Nat)
  | onDone (g d : Nat)
  | affLocked (g d mpidr : Nat)
  | affBoth (g d t mpidr : Nat)
  | affTarget (g d t mpidr : Nat)
  | affZero (g d t : Nat)
  | respTarget (g d t v : Nat)
  | targetDone (g d t : Nat)
  | offLocked (g d : Nat)
  | offCas (g d old : Nat)
  | offDone (g d : Nat)
  | leave (g d : Nat)
  | put (g : Nat)
  | psciLocked (g : Nat) (st : PsciStatus) (denied : Bool)
  | psciZero (g : Nat) (st : PsciStatus) (denied : Bool)
  | psciFound (g t : Nat) (st : PsciStatus)
  | psciRelock (g t : Nat) (st : PsciStatus)
  | psciOne (g t : Nat) (st : PsciStatus)
  | psciDenied (g : Nat)
  | psciBoth (g t : Nat) (st : PsciStatus)
  | psciMatch (g t : Nat) (st : PsciStatus)
  | psciTarget (g t : Nat) (st : PsciStatus)
  | psciTargetZero (g t : Nat) (st : PsciStatus)
  | psciOn (g t : Nat)
  | psciEnd (g t : Nat)
  | objectLocked (g : Nat)
  | createRd (g d mpidr : Nat) (runnable : Bool)
  | createBoth (g d mpidr : Nat) (runnable : Bool)
  | createFail (g d : Nat)
  | createAdded (g d : Nat)
  | createDone (g d : Nat)
  | destroyLocked (g : Nat)
  | destroyZero (g : Nat)
  | destroyGone (d mpidr : Nat)
  | destroyMap (d mpidr : Nat)
  | destroyMapped (d : Nat)
  | destroyPut (d : Nat)
  | reclaimLocked (g : Nat)
  | realmLocked (d : Nat)
  | activateLocked (d : Nat)
  | activateSet (d : Nat)
  | activateCas (d old : Nat)
  | terminateLocked (d : Nat)
  | terminateCas (d st : Nat)
  | terminateDone (d : Nat)
  | realmDestroyLocked (d : Nat)
  | realmDestroyZero (d : Nat)
  deriving DecidableEq

structure Sys where
  cpus : Nat
  granules : Nat
  gran : Nat → Granule
  recs : Nat → Rec
  rds : Nat → Rd
  cpu : Nat → Pc
  realms : Nat
  terminated : List Nat

namespace Sys

variable (s : Sys)

def setGran (g : Nat) (x : Granule) : Sys := { s with gran := Function.update s.gran g x }

def setRec (g : Nat) (r : Rec) : Sys := { s with recs := Function.update s.recs g r }

def setRd (d : Nat) (r : Rd) : Sys := { s with rds := Function.update s.rds d r }

def setCpu (c : Nat) (pc : Pc) : Sys := { s with cpu := Function.update s.cpu c pc }

def setWord (d w : Nat) : Sys := s.setRd d { s.rds d with word := w }

end Sys

inductive Op where
  | load
  | acquire (g : Nat) (st : GranuleState)
  | release (g : Nat)
  | begin (g : Nat)
  | abandon (g : Nat)
  | publish (g : Nat)
  | retire (g : Nat)
  | dissolve (d : Nat)
  | takeRef (g : Nat)
  | dropRef (g : Nat)
  | addRec (g d mpidr : Nat) (runnable : Bool)
  | removeRec (d mpidr : Nat)
  | putRd (d : Nat)
  | count (d : Nat)
  | uncount (d : Nat)
  | setState (d : Nat) (st : RealmState)
  | writeRec (g : Nat) (r : Rec)
  | respond (t v : Nat)
  | newRealm (d : Nat)
  | report (d : Nat)
  deriving DecidableEq

inductive Call where
  | recEnter (g : Nat)
  | psciComplete (g : Nat) (st : PsciStatus)
  | objectCreate (g : Nat)
  | recCreate (g d mpidr : Nat) (runnable : Bool)
  | recDestroy (g : Nat)
  | objectReclaim (g : Nat)
  | realmCreate (d : Nat)
  | realmActivate (d : Nat)
  | realmTerminate (d : Nat)
  | realmDestroy (d : Nat)
  deriving DecidableEq

inductive Act where
  | call (k : Call)
  | go
  | fail
  | work (v : Nat)
  | cpuOff
  | cpuOn (mpidr : Nat)
  | affinityInfo (mpidr : Nat)
  | tokenResponse (t v : Nat)
  | systemOff
  | exit
  deriving DecidableEq

def refcountMax : Nat := 2 ^ 10 - 1

def affinityInfoOn : Nat := 0

def affinityInfoOff : Nat := 1

namespace Sys

variable (s : Sys) (g : Nat) (a : Act)

def state (g : Nat) : GranuleState := (s.gran g).state

def refcount (g : Nat) : Nat := (s.gran g).refcount

def word (d : Nat) : Nat := (s.rds d).word

def lockOnStateMatch (st : GranuleState) (locked mismatch : Pc) : Op × Pc :=
  if s.state g = st then (.acquire g st,locked) else (.load,mismatch)

def lookup : Call → Op × Pc
  | .recEnter g => s.lockOnStateMatch g .recObject (.enterLocked g) .idle
  | .psciComplete g st => s.lockOnStateMatch g .recObject (.psciLocked g st false) .idle
  | .objectCreate g => s.lockOnStateMatch g .delegated (.objectLocked g) .idle
  | .recCreate g d mpidr runnable =>
    if g < s.granules then s.lockOnStateMatch d .rd (.createRd g d mpidr runnable) .idle else (.load,.idle)
  | .recDestroy g => s.lockOnStateMatch g .recObject (.destroyLocked g) .idle
  | .objectReclaim g => s.lockOnStateMatch g .partialObject (.reclaimLocked g) .idle
  | .realmCreate d => s.lockOnStateMatch d .partialObject (.realmLocked d) .idle
  | .realmActivate d => s.lockOnStateMatch d .rd (.activateLocked d) .idle
  | .realmTerminate d => s.lockOnStateMatch d .rd (.terminateLocked d) .idle
  | .realmDestroy d => s.lockOnStateMatch d .rd (.realmDestroyLocked d) .idle

def run (g d : Nat) : Act → Option (Op × Pc)
  | .work v => some (.writeRec g { s.recs g with body := v },.running g d)
  | .cpuOff => some (.writeRec g { s.recs g with runnable := false },.leave g d)
  | .cpuOn mpidr =>
    if mpidr = (s.recs g).mpidr then some (.load,.running g d)
    else some (.acquire d .rd,.onLocked g d mpidr)
  | .affinityInfo mpidr =>
    if mpidr = (s.recs g).mpidr then some (.load,.running g d)
    else some (.acquire d .rd,.affLocked g d mpidr)
  | .tokenResponse t v =>
    if t = g then some (.writeRec g { s.recs g with attest := v },.running g d)
    else some (s.lockOnStateMatch t .recObject (.respTarget g d t v) (.running g d))
  | .systemOff => some (.acquire d .rd,.offLocked g d)
  | .exit => some (.load,.leave g d)
  | _ => none

def recEnter : Pc → Option (Op × Pc)
  | .enterLocked g => some (.load,if s.refcount g ≠ 0 then .unlock g .recObject else .enterZero g)
  | .enterZero g => some (if (s.recs g).runnable then (.takeRef g,.enterRef g) else (.load,.unlock g .recObject))
  | .enterRef g => some (.release g,.entered g)
  | .entered g => some (.load,if a = .fail then .put g else .counting g (s.recs g).rd)
  | .counting g d =>
    some (.load,if unpackState (s.word d) ≠ RealmState.active.code then .put g else .countCas g d (s.word d))
  | .countCas g d old => some (if s.word d = old then (.count d,.pendingCheck g d) else (.load,.counting g d))
  | .pendingCheck g d => some (.load,if (s.recs g).pending then .leave g d else .prepare g d)
  | .prepare g d =>
    match a with
    | .work v => some (.writeRec g { s.recs g with body := v },.prepare g d)
    | .fail => some (.load,.leave g d)
    | _ => some (.load,.running g d)
  | .running g d => s.run g d a
  | .onLocked g d mpidr =>
    match (s.rds d).recMap mpidr with
    | none => some (.load,.onDone g d)
    | some t => some (.writeRec g { s.recs g with target := t,arg := mpidr },.onFound g d)
  | .onFound g d => some (.release d,.onPending g d)
  | .onPending g d => some (.writeRec g { s.recs g with pending := true },.leave g d)
  | .onDone g d => some (.release d,.running g d)
  | .affLocked g d mpidr =>
    match (s.rds d).recMap mpidr with
    | none => some (.load,.onDone g d)
    | some t => some (s.lockOnStateMatch t .recObject (.affBoth g d t mpidr) (.onDone g d))
  | .affBoth g d t mpidr => some (.release d,.affTarget g d t mpidr)
  | .affTarget g d t mpidr =>
    if (s.recs t).rd ≠ (s.recs g).rd ∨ (s.recs t).mpidr ≠ mpidr then
      some (.writeRec g { s.recs g with body := affinityInfoOff },.targetDone g d t)
    else if s.refcount t ≠ 0 then some (.writeRec g { s.recs g with body := affinityInfoOn },.targetDone g d t)
    else some (.load,.affZero g d t)
  | .affZero g d t =>
    some (.writeRec g { s.recs g with body := if (s.recs t).runnable then affinityInfoOn else affinityInfoOff },
      .targetDone g d t)
  | .respTarget g d t v => some (.respond t v,.targetDone g d t)
  | .targetDone g d t => some (.release t,.running g d)
  | .offLocked g d => some (.load,.offCas g d (s.word d))
  | .offCas g d old => some (if s.word d = old then (.setState d .systemOff,.offDone g d) else (.load,.offLocked g d))
  | .offDone g d => some (.release d,.leave g d)
  | .leave g d => some (.uncount d,.put g)
  | .put g => some (.dropRef g,.idle)
  | _ => none

def psciMissing (st : PsciStatus) : Pc := if st = .denied then .psciDenied g else .idle

def psciComplete : Pc → Option (Op × Pc)
  | .psciLocked g st denied => some (.load,if s.refcount g ≠ 0 then .unlock g .recObject else .psciZero g st denied)
  | .psciZero g st denied =>
    if !(s.recs g).pending then some (.load,.unlock g .recObject)
    else if denied then
      some (.writeRec g { s.recs g with pending := false,body := 0 },.unlock g .recObject)
    else some (.load,.psciFound g (s.recs g).target st)
  | .psciFound g t st => some (.release g,.psciRelock g t st)
  | .psciRelock g t st =>
    if g = t then some (.load,psciMissing g st)
    else some (s.lockOnStateMatch (min g t) .recObject (.psciOne g t st) (psciMissing g st))
  | .psciOne g t st =>
    if s.state (max g t) = .recObject then some (.acquire (max g t) .recObject,.psciBoth g t st)
    else some (.release (min g t),psciMissing g st)
  | .psciDenied g => some (s.lockOnStateMatch g .recObject (.psciLocked g .denied true) .idle)
  | .psciBoth g t st => some (.load,if s.refcount g ≠ 0 then .psciEnd g t else .psciMatch g t st)
  | .psciMatch g t st =>
    if (s.recs g).rd ≠ (s.recs t).rd ∨ (s.recs g).arg ≠ (s.recs t).mpidr then
      if st = .denied ∧ (s.recs g).pending = true then
        some (.writeRec g { s.recs g with pending := false,body := 0 },.psciEnd g t)
      else some (.load,.psciEnd g t)
    else if !(s.recs g).pending then some (.load,.psciEnd g t)
    else if st = .other then some (.load,.psciEnd g t)
    else some (.load,.psciTarget g t st)
  | .psciTarget g t st =>
    if s.refcount t ≠ 0 then some (.writeRec g { s.recs g with pending := false,body := 0 },.psciEnd g t)
    else some (.load,.psciTargetZero g t st)
  | .psciTargetZero g t st =>
    if (s.recs t).runnable || st == .denied then
      some (.writeRec g { s.recs g with pending := false,body := 0 },.psciEnd g t)
    else
      match a with
      | .work v => some (.writeRec t { s.recs t with runnable := true,body := v },.psciOn g t)
      | _ => none
  | .psciOn g t => some (.writeRec g { s.recs g with pending := false,body := 0 },.psciEnd g t)
  | .psciEnd g t => some (.release g,.unlock t .recObject)
  | _ => none

def recObjects : Pc → Option (Op × Pc)
  | .objectLocked g => some (.begin g,.idle)
  | .createRd g d mpidr runnable =>
    if s.state g = .partialObject then some (.acquire g .partialObject,.createBoth g d mpidr runnable)
    else some (.release d,.idle)
  | .createBoth g d mpidr runnable =>
    if s.refcount d = refcountMax then some (.load,.createFail g d)
    else if unpackState (s.word d) ≠ RealmState.new.code then some (.load,.createFail g d)
    else if ((s.rds d).recMap mpidr).isSome then some (.load,.createFail g d)
    else some (.addRec g d mpidr runnable,.createAdded g d)
  | .createFail g d => some (.release d,.unlock g .partialObject)
  | .createAdded g d => some (.release d,.createDone g d)
  | .createDone g _ => some (.publish g,.idle)
  | .destroyLocked g => some (.load,if s.refcount g ≠ 0 then .unlock g .recObject else .destroyZero g)
  | .destroyZero g => some (.retire g,.destroyGone (s.recs g).rd (s.recs g).mpidr)
  | .destroyGone d mpidr => some (.acquire d .rd,.destroyMap d mpidr)
  | .destroyMap d mpidr => some (.removeRec d mpidr,.destroyMapped d)
  | .destroyMapped d => some (.release d,.destroyPut d)
  | .destroyPut d => some (.putRd d,.idle)
  | .reclaimLocked g => some (.abandon g,.idle)
  | _ => none

def realmCommands : Pc → Option (Op × Pc)
  | .realmLocked d => some (.newRealm d,.idle)
  | .activateLocked d =>
    some (.load,if unpackState (s.word d) = RealmState.new.code then .activateSet d else .unlock d .rd)
  | .activateSet d => some (.load,.activateCas d (s.word d))
  | .activateCas d old => some (if s.word d = old then (.setState d .active,.unlock d .rd) else (.load,.activateSet d))
  | .terminateLocked d => some (.load,.terminateCas d (unpackState (s.word d)))
  | .terminateCas d st =>
    some (if s.word d = st * 2 ^ rdStateShift then (.setState d .zombie,.terminateDone d)
      else (.load,.unlock d .rd))
  | .terminateDone d => some (.report d,.idle)
  | .realmDestroyLocked d => some (.load,if s.refcount d ≠ 0 then .unlock d .rd else .realmDestroyZero d)
  | .realmDestroyZero d =>
    if a = .fail ∨ unpackState (s.word d) ≠ RealmState.zombie.code then some (.load,.unlock d .rd)
    else some (.dissolve d,.idle)
  | _ => none

def instr (pc : Pc) (a : Act) : Option (Op × Pc) :=
  match pc with
  | .idle =>
    match a with
    | .call k => some (s.lookup k)
    | _ => none
  | .unlock g _ => some (.release g,.idle)
  | pc => ((s.recEnter a pc).or (s.psciComplete a pc)).or ((s.recObjects pc).or (s.realmCommands a pc))

def lockTo (st : GranuleState) : Sys := s.setGran g { s.gran g with lock := none,state := st }

def addRefcount (n : Nat) : Sys := s.setGran g { s.gran g with refcount := s.refcount g + n }

def dropRefcount : Sys := s.setGran g { s.gran g with refcount := s.refcount g - 1 }

def apply (c : Nat) : Op → Option Sys
  | .load => some s
  | .acquire g st =>
    if (s.gran g).lock = none ∧ s.state g = st then some (s.setGran g { s.gran g with lock := some c }) else none
  | .release g => some (s.setGran g { s.gran g with lock := none })
  | .begin g => some (s.lockTo g .partialObject)
  | .abandon g => some (s.lockTo g .delegated)
  | .publish g => some (s.lockTo g .recObject)
  | .retire g => some (s.lockTo g .partialObject)
  | .dissolve d => some (s.lockTo d .partialObject)
  | .takeRef g => some (s.addRefcount g 1)
  | .dropRef g => some (s.dropRefcount g)
  | .addRec g d mpidr runnable =>
    some (((s.setRec g ⟨d,mpidr,runnable,false,0,0,0,0⟩).addRefcount d 1).setRd d
      { s.rds d with recMap := Function.update (s.rds d).recMap mpidr (some g) })
  | .removeRec d mpidr => some (s.setRd d { s.rds d with recMap := Function.update (s.rds d).recMap mpidr none })
  | .putRd d => some (s.dropRefcount d)
  | .count d => some (s.setWord d ((s.word d + 1) % 2 ^ 64))
  | .uncount d => some (s.setWord d ((s.word d + (2 ^ 64 - 1)) % 2 ^ 64))
  | .setState d st => some (s.setWord d (packSc st (unpackCount (s.word d))))
  | .writeRec g r => some (s.setRec g r)
  | .respond t v => some (s.setRec t { s.recs t with attest := v })
  | .newRealm d => some { (s.lockTo d .rd).setRd d ⟨packSc .new 0,fun _ => none,s.realms⟩ with realms := s.realms+1 }
  | .report d => some { s.setGran d { s.gran d with lock := none } with terminated := (s.rds d).id :: s.terminated }

def step (c : Nat) (a : Act) : Option Sys :=
  if c < s.cpus then (s.instr (s.cpu c) a).bind fun p => (s.apply c p.1).map fun s' => s'.setCpu c p.2
  else none

end Sys

structure Initial (s : Sys) : Prop where
  cpus : s.cpus ≤ 2 ^ 32
  lock : ∀ g, (s.gran g).lock = none
  state : ∀ g, s.state g = .delegated ∨ s.state g = .other
  refcount : ∀ g, s.refcount g = 0
  cpu : ∀ c, s.cpu c = .idle
  terminated : s.terminated = []

open TfRmm.Lib in
def system : TransitionSystem Sys (Nat × Act) where
  init := Initial
  step s l t := s.step l.1 l.2 = some t

open Function
open RealmState (active new zombie)

def one (g : Nat) (st : GranuleState) : Nat → Option GranuleState := fun x => if x = g then some st else none

def two (g t : Nat) (st st' : GranuleState) : Nat → Option GranuleState :=
  fun x => if x = g then some st else if x = t then some st' else none

theorem update_one (g : Nat) (st : GranuleState) : update (one g st) g none = fun _ => none := by
  funext x
  by_cases h : x = g <;> simp [one,h]

theorem update_none (g : Nat) (st : GranuleState) : update (fun _ => none) g (some st) = one g st := by
  funext x
  by_cases h : x = g <;> simp [one,h]

theorem update_two_left {g t : Nat} (st st' : GranuleState) (h : g ≠ t) : update (two g t st st') g none = one t st' := by
  funext x
  by_cases hx : x = g
  · simp [one,hx,h]
  · simp [one,two,hx]

theorem update_two_right {g t : Nat} (st st' : GranuleState) (h : g ≠ t) : update (two g t st st') t none = one g st := by
  funext x
  by_cases hx : x = t
  · simp [one,hx,h.symm]
  · simp [one,two,hx]

theorem update_min_max {g t : Nat} (st : GranuleState) : update (one (min g t) st) (max g t) (some st) = two g t st st := by
  funext x
  rcases Nat.le_total g t with h | h
  · rw [Nat.min_eq_left h,Nat.max_eq_right h]
    by_cases hx : x = t <;> simp [one,two,hx]
  · rw [Nat.min_eq_right h,Nat.max_eq_left h]
    by_cases hx : x = g <;> simp [one,two,hx]

theorem update_one_two (g t : Nat) (st st' : GranuleState) : update (one t st') g (some st) = two g t st st' := by
  funext x
  by_cases hx : x = g <;> simp [one,two,hx]

namespace Pc

def held : Pc → Nat → Option GranuleState
  | .unlock g st => one g st
  | .enterLocked g | .enterZero g | .enterRef g => one g .recObject
  | .onLocked _ d _ | .onFound _ d | .onDone _ d | .affLocked _ d _ | .offLocked _ d | .offCas _ d _ | .offDone _ d => one d .rd
  | .affBoth _ d t _ => two t d .recObject .rd
  | .affTarget _ _ t _ | .affZero _ _ t | .respTarget _ _ t _ | .targetDone _ _ t => one t .recObject
  | .psciLocked g _ _ | .psciZero g _ _ | .psciFound g _ _ => one g .recObject
  | .psciOne g t _ => one (min g t) .recObject
  | .psciBoth g t _ | .psciMatch g t _ | .psciTarget g t _ | .psciTargetZero g t _ | .psciOn g t | .psciEnd g t =>
    two g t .recObject .recObject
  | .objectLocked g => one g .delegated
  | .createRd _ d _ _ => one d .rd
  | .createBoth g d _ _ | .createFail g d | .createAdded g d => two g d .partialObject .rd
  | .createDone g _ => one g .partialObject
  | .destroyLocked g | .destroyZero g => one g .recObject
  | .destroyMap d _ | .destroyMapped d => one d .rd
  | .reclaimLocked g => one g .partialObject
  | .realmLocked d => one d .partialObject
  | .activateLocked d | .activateSet d | .activateCas d _ => one d .rd
  | .terminateLocked d | .terminateCas d _ | .terminateDone d => one d .rd
  | .realmDestroyLocked d | .realmDestroyZero d => one d .rd
  | _ => fun _ => none

def refs : Pc → Option Nat
  | .enterRef g | .entered g | .counting g _ | .countCas g _ _ | .pendingCheck g _ | .prepare g _ | .running g _
  | .onLocked g _ _ | .onFound g _ | .onPending g _ | .onDone g _ | .affLocked g _ _ | .affBoth g _ _ _ | .affTarget g _ _ _ | .affZero g _ _ | .respTarget g _ _ _
  | .targetDone g _ _ | .offLocked g _ | .offCas g _ _ | .offDone g _
  | .leave g _ | .put g => some g
  | _ => none

def counted : Pc → Option Nat
  | .pendingCheck _ d | .prepare _ d | .running _ d | .onLocked _ d _ | .onFound _ d | .onPending _ d
  | .onDone _ d | .affLocked _ d _ | .affBoth _ d _ _ | .affTarget _ d _ _ | .affZero _ d _ | .respTarget _ d _ _
  | .targetDone _ d _ | .offLocked _ d | .offCas _ d _ | .offDone _ d | .leave _ d => some d
  | _ => none

def home : Pc → Option (Nat × Nat)
  | .counting g d | .countCas g d _ | .pendingCheck g d | .prepare g d | .running g d | .onLocked g d _
  | .onFound g d | .onPending g d | .onDone g d | .affLocked g d _ | .affBoth g d _ _ | .affTarget g d _ _ | .affZero g d _
  | .respTarget g d _ _ | .targetDone g d _ | .offLocked g d | .offCas g d _ | .offDone g d | .leave g d
  | .createAdded g d | .createDone g d => some (g,d)
  | _ => none

def adds : Pc → Option Nat
  | .createAdded _ d | .createDone _ d => some d
  | _ => none

def drops : Pc → Option Nat
  | .destroyGone d _ | .destroyMap d _ | .destroyMapped d | .destroyPut d => some d
  | _ => none

def zero : Pc → Nat → Bool
  | .enterZero g, x | .psciZero g _ _, x | .psciMatch g _ _, x | .psciTarget g _ _, x | .destroyZero g, x
  | .realmDestroyZero g, x | .affZero _ _ g, x => x == g
  | .psciTargetZero g t _, x | .psciOn g t, x => x == g || x == t
  | _, _ => false

def knows : Pc → Option (Nat × Nat)
  | .activateSet d | .activateCas d _ => some (d,new.code)
  | .terminateCas d st => some (d,st)
  | .terminateDone d => some (d,zombie.code)
  | _ => none

def Sound (n : Nat) : Pc → Prop
  | .countCas _ _ old => unpackState old = active.code
  | .psciOne g t _ | .psciBoth g t _ | .psciMatch g t _ | .psciTarget g t _ | .psciTargetZero g t _
  | .psciOn g t | .psciEnd g t => g ≠ t
  | .affBoth _ d t _ => t ≠ d
  | .createRd g _ _ _ => g < n
  | .createBoth g d _ _ | .createFail g d | .createAdded g d | .createDone g d => g < n ∧ g ≠ d
  | _ => True

end Pc

structure View (s : Sys) (c : Nat) (pc : Pc) : Prop where
  held : ∀ g st, pc.held g = some st → (s.gran g).lock = some c ∧ s.state g = st
  refs : ∀ g, pc.refs = some g → s.state g = .recObject
  zero : ∀ g, pc.zero g = true → s.refcount g = 0
  home : ∀ g d, pc.home = some (g,d) → (s.recs g).rd = d
  adds : ∀ d, pc.adds = some d → s.state d = .rd
  drops : ∀ d, pc.drops = some d → s.state d = .rd
  knows : ∀ d st, pc.knows = some (d,st) → unpackState (s.word d) = st
  sound : pc.Sound s.granules

namespace Op

def held (op : Op) (h : Nat → Option GranuleState) : Nat → Option GranuleState :=
  match op with
  | .acquire g st => update h g (some st)
  | .release g | .begin g | .abandon g | .publish g | .retire g | .dissolve g | .newRealm g | .report g =>
    update h g none
  | _ => h

def refs (op : Op) (r : Option Nat) : Option Nat :=
  match op with
  | .takeRef g => some g
  | .dropRef _ => none
  | _ => r

def counted (op : Op) (r : Option Nat) : Option Nat :=
  match op with
  | .count d => some d
  | .uncount _ => none
  | _ => r

def adds (op : Op) (r : Option Nat) : Option Nat :=
  match op with
  | .addRec _ d _ _ => some d
  | .publish _ => none
  | _ => r

def drops (s : Sys) (op : Op) (r : Option Nat) : Option Nat :=
  match op with
  | .retire g => some (s.recs g).rd
  | .putRd _ => none
  | _ => r

def recs (s : Sys) (op : Op) : Nat → Rec :=
  match op with
  | .addRec g d mpidr runnable => update s.recs g ⟨d,mpidr,runnable,false,0,0,0,0⟩
  | .writeRec g r => update s.recs g r
  | .respond t v => update s.recs t { s.recs t with attest := v }
  | _ => s.recs

def plain : Op → Bool
  | .load | .writeRec _ _ => true
  | _ => false

def Pre (s : Sys) (pc : Pc) : Op → Prop
  | .load | .acquire _ _ => True
  | .release g => pc.held g ≠ none
  | .begin g => pc.held g = some .delegated
  | .abandon g => pc.held g = some .partialObject
  | .publish g => pc.held g = some .partialObject ∧ pc.adds = some (s.recs g).rd ∧ g < s.granules
  | .retire g => pc.held g = some .recObject ∧ s.refcount g = 0 ∧ pc.drops = none
  | .dissolve d => pc.held d = some .rd ∧ s.refcount d = 0 ∧ unpackState (s.word d) = zombie.code
  | .takeRef g => pc.held g = some .recObject ∧ s.refcount g = 0 ∧ pc.refs = none ∧ (s.recs g).runnable = true
  | .dropRef g => pc.refs = some g ∧ pc.counted = none
  | .addRec g d _ _ =>
    pc.held g = some .partialObject ∧ pc.held d = some .rd ∧ g < s.granules ∧ pc.adds = none ∧
      unpackState (s.word d) = new.code
  | .removeRec d _ => pc.held d = some .rd
  | .putRd d => pc.drops = some d
  | .count d =>
    unpackState (s.word d) = active.code ∧ pc.counted = none ∧
      ∃ g, pc.refs = some g ∧ (s.recs g).rd = d
  | .uncount d => pc.counted = some d
  | .setState d st =>
    pc.held d = some .rd ∧
      ((st = .active ∧ unpackState (s.word d) = new.code) ∨ (st = .systemOff ∧ pc.counted = some d) ∨
        (st = .zombie ∧ unpackCount (s.word d) = 0))
  | .writeRec g r =>
    r.rd = (s.recs g).rd ∧ r.mpidr = (s.recs g).mpidr ∧
      (pc.refs = some g ∨ (pc.held g = some .recObject ∧ s.refcount g = 0))
  | .respond t v => ∃ g d, pc = .respTarget g d t v
  | .newRealm d => pc.held d = some .partialObject
  | .report d => pc.held d = some .rd ∧ unpackState (s.word d) = zombie.code

end Op

structure Fits (s : Sys) (pc : Pc) (op : Op) (pc' : Pc) : Prop where
  pre : op.Pre s pc
  held : pc'.held = op.held pc.held
  refs : pc'.refs = op.refs pc.refs
  counted : pc'.counted = op.counted pc.counted
  adds : pc'.adds = op.adds pc.adds
  drops : pc'.drops = op.drops s pc.drops
  zero : ∀ g, pc'.zero g = true → op.plain = true ∧ s.refcount g = 0
  home : ∀ g d, pc'.home = some (g,d) → (op.recs s g).rd = d
  knows : ∀ d st, pc'.knows = some (d,st) →
    (op = .load ∧ unpackState (s.word d) = st) ∨ ∃ x, op = .setState d x ∧ st = x.code
  sound : pc'.Sound s.granules

open Pc Op

variable {s : Sys} {c : Nat} {pc pc' : Pc} {op : Op} {a : Act}

attribute [local simp] Pre Op.held Op.refs Op.counted Op.adds Op.drops Op.recs Pc.held Pc.refs Pc.counted Pc.adds
  Pc.drops Pc.home Pc.knows Pc.zero Pc.Sound plain

theorem lookup_fits (k : Call) : Fits s .idle (s.lookup k).1 (s.lookup k).2 := by
  cases k <;> simp only [Sys.lookup,Sys.lockOnStateMatch] <;> repeat' split
  all_goals
    constructor <;>
    simp_all [update_none]

theorem create_apart {g d : Nat} {st : GranuleState} (hd : s.state d = .rd) (hg : s.state g = st) (hst : st ≠ .rd) :
    g ≠ d := by
  rintro rfl
  exact hst (hg.symm.trans hd)

theorem respond_rd (f : Nat → Rec) (t v x : Nat) : (update f t { f t with attest := v } x).rd = (f x).rd := by
  by_cases h : x = t <;> simp [h]

theorem affLocked_fits {g d m : Nat} (hv : View s c (.affLocked g d m))
    (h : s.recEnter a (.affLocked g d m) = some (op,pc')) : Fits s (.affLocked g d m) op pc' := by
  have hhome := hv.home
  have hd : s.state d = .rd := (hv.held d .rd (by simp [one])).2
  simp only [Sys.recEnter,Sys.lockOnStateMatch] at h
  split at h
  · cases h
    constructor <;> simp_all [one]
  next t _ =>
  split at h
  next ht =>
    have htd : t ≠ d := create_apart hd ht (by decide)
    cases h
    constructor <;> simp_all [update_one_two]
  · cases h
    constructor <;> simp_all [one]

theorem recEnter_fits (hv : View s c pc) (h : s.recEnter a pc = some (op,pc')) : Fits s pc op pc' := by
  have hrefs := hv.refs
  have hzero := hv.zero
  have hhome := hv.home
  have hsound := hv.sound
  cases pc
  case affLocked g d m => exact affLocked_fits hv h
  case affBoth g d t m =>
    have hdt := Ne.symm hsound
    cases h
    constructor <;> simp_all [update_two_right,two]
  case respTarget g d t v =>
    cases h
    constructor <;> simp_all [respond_rd,one]
  all_goals simp only [Sys.recEnter,Sys.run,Sys.lockOnStateMatch] at h
  all_goals repeat' split at h
  all_goals cases h
  all_goals
    constructor <;>
    simp_all [update_none,update_one,one]

theorem psciComplete_fits (hv : View s c pc) (h : s.psciComplete a pc = some (op,pc')) : Fits s pc op pc' := by
  have hzero := hv.zero
  have hsound := hv.sound
  cases pc <;> simp only [Sys.psciComplete,Sys.lockOnStateMatch,Sys.psciMissing] at h <;> repeat' split at h
  all_goals cases h
  all_goals
    constructor <;>
    simp_all [update_none,update_one,update_two_left,update_min_max,one,two]

theorem recObjects_fits (hv : View s c pc) (h : s.recObjects pc = some (op,pc')) : Fits s pc op pc' := by
  have hzero := hv.zero
  have hhome := hv.home
  have hsound := hv.sound
  cases pc <;> simp only [Sys.recObjects] at h <;> repeat' split at h
  case createRd.isTrue g d mpidr runnable hg =>
    have hgd : g ≠ d := create_apart (hv.held d .rd (by simp [one])).2 hg (by decide)
    cases h
    constructor <;>
    simp_all [update_one_two]
  all_goals cases h
  all_goals
    try have hdg := Ne.symm hsound.2
    constructor <;>
    simp_all [update_none,update_one,update_two_right,one,two]

theorem unpackCount_zero (st : Nat) : unpackCount (st * 2 ^ rdStateShift) = 0 := Nat.mul_mod_left st _

theorem realmCommands_fits (hv : View s c pc) (h : s.realmCommands a pc = some (op,pc')) : Fits s pc op pc' := by
  have hzero := hv.zero
  have hknows := hv.knows
  cases pc <;> simp only [Sys.realmCommands] at h <;> repeat' split at h
  all_goals cases h
  all_goals
    constructor <;>
    simp_all [update_one,unpackCount_zero,one]

theorem instr_fits (hv : View s c pc) (h : s.instr pc a = some (op,pc')) : Fits s pc op pc' := by
  unfold Sys.instr at h
  split at h
  case h_1 =>
    split at h
    case h_1 k =>
      have hk := lookup_fits (s := s) k
      rw [Option.some.inj h] at hk
      exact hk
    case h_2 => cases h
  case h_2 g st =>
    cases h
    constructor <;> simp [update_one,one]
  case h_3 =>
    rcases Option.or_eq_some_iff.mp h with h | ⟨-,h⟩ <;> rcases Option.or_eq_some_iff.mp h with h | ⟨-,h⟩
    · exact recEnter_fits hv h
    · exact psciComplete_fits hv h
    · exact recObjects_fits hv h
    · exact realmCommands_fits hv h

open TfRmm.Lib
open RealmState (code)

namespace Sys

def holders (s : Sys) (f : Pc → Option Nat) (x : Nat) : Nat := tally (fun pc => f pc == some x) s.cpu s.cpus

def owns (s : Sys) (d g : Nat) : Bool := s.state g == .recObject && (s.recs g).rd == d

def members (s : Sys) (d : Nat) : Nat := tally id (s.owns d) s.granules

variable {f : Pc → Option Nat} {x : Nat} {q : Pc}

theorem holders_update (hc : c < s.cpus) :
    (s.setCpu c q).holders f x + (f (s.cpu c) == some x).toNat = s.holders f x + (f q == some x).toNat :=
  tally_update hc

theorem holders_same (hc : c < s.cpus) (h : f q = f (s.cpu c)) : (s.setCpu c q).holders f x = s.holders f x := by
  have hu := holders_update (f := f) (x := x) (q := q) hc
  rw [h] at hu
  exact Nat.add_right_cancel hu

theorem toNat_some (x y : Nat) : ((some y : Option Nat) == some x).toNat = if x = y then 1 else 0 := by
  by_cases hx : x = y
  · simp [hx]
  · simp [hx,beq_false_of_ne (Ne.symm hx)]

theorem holders_take {y : Nat} (hc : c < s.cpus) (h : f (s.cpu c) = none) (h' : f q = some y) :
    (s.setCpu c q).holders f x = s.holders f x + if x = y then 1 else 0 := by
  have hu := holders_update (f := f) (x := x) (q := q) hc
  rwa [h,h',toNat_some] at hu

theorem holders_drop {y : Nat} (hc : c < s.cpus) (h : f (s.cpu c) = some y) (h' : f q = none) :
    (s.setCpu c q).holders f x + (if x = y then 1 else 0) = s.holders f x := by
  have hu := holders_update (f := f) (x := x) (q := q) hc
  rwa [h,h',toNat_some] at hu

theorem holders_pos (hc : c < s.cpus) (h : f (s.cpu c) = some x) : 0 < s.holders f x :=
  tally_pos hc (by simp [h])

end Sys

structure Packed (w n : Nat) : Prop where
  wide : w < 2 ^ 64
  count : unpackCount w = n
  stopped : unpackState w = new.code ∨ unpackState w = zombie.code → n = 0

structure Inv (s : Sys) : Prop where
  cpus : s.cpus ≤ 2 ^ 32
  quiet : ∀ c, s.cpus ≤ c → s.cpu c = .idle
  view : ∀ c, View s c (s.cpu c)
  alone : ∀ c c' g, (s.cpu c).refs = some g → (s.cpu c').refs = some g → c = c'
  users : ∀ g, s.state g = .recObject → s.refcount g = s.holders Pc.refs g
  fresh : ∀ g, s.state g ≠ .recObject → s.state g ≠ .rd → s.refcount g = 0
  recs : ∀ g, s.state g = .recObject → g < s.granules ∧ s.state (s.recs g).rd = .rd
  rds : ∀ d, s.state d = .rd → s.refcount d = s.members d + s.holders Pc.adds d + s.holders Pc.drops d
  word : ∀ d, s.state d = .rd → Packed (s.word d) (s.holders Pc.counted d)
  ids : ∀ d, s.state d = .rd → (s.rds d).id < s.realms
  apart : ∀ d d', s.state d = .rd → s.state d' = .rd → (s.rds d).id = (s.rds d').id → d = d'
  past : ∀ i ∈ s.terminated, i < s.realms
  terminated : ∀ d, s.state d = .rd → (s.rds d).id ∈ s.terminated → unpackState (s.word d) = zombie.code

namespace Packed

variable {w n : Nat}

theorem succ (h : Packed w n) (ha : unpackState w = active.code) (hn : n+1 < 2 ^ 62) :
    Packed ((w+1) % 2 ^ 64) (n+1) ∧ unpackState ((w+1) % 2 ^ 64) = unpackState w := by
  have h1 := h.wide
  have h2 := h.count
  simp only [unpackState,unpackCount,rdStateShift,code] at h2 ha ⊢
  have hs : unpackState ((w+1) % 2 ^ 64) = unpackState w := by
    simp only [unpackState,rdStateShift]
    omega
  refine ⟨⟨by omega,?_,?_⟩,hs⟩
  · simp only [unpackCount,rdStateShift]
    omega
  · rw [hs]
    simp only [unpackState,rdStateShift,code]
    omega

theorem pred (h : Packed w n) (hn : 0 < n) :
    Packed ((w+(2 ^ 64 - 1)) % 2 ^ 64) (n-1) ∧ unpackState ((w+(2 ^ 64 - 1)) % 2 ^ 64) = unpackState w := by
  have h1 := h.wide
  have h2 := h.count
  have h3 := h.stopped
  have hs : unpackState ((w+(2 ^ 64 - 1)) % 2 ^ 64) = unpackState w := by
    simp only [unpackState,unpackCount,rdStateShift] at h2 ⊢
    omega
  refine ⟨⟨by omega,?_,?_⟩,hs⟩
  · simp only [unpackCount,rdStateShift] at h2 ⊢
    omega
  rw [hs]
  intro h0
  have := h3 h0
  omega

theorem pack (h : Packed w n) (st : RealmState) (hn : st = .new ∨ st = .zombie → n = 0) :
    Packed (packSc st (unpackCount w)) n ∧ unpackState (packSc st (unpackCount w)) = st.code := by
  have h2 := h.count
  have hlt : unpackCount w < 2 ^ 62 := Nat.mod_lt _ (by decide)
  have hs : unpackState (packSc st (unpackCount w)) = st.code := by
    simp only [unpackState,packSc,rdStateShift] at hlt ⊢
    omega
  refine ⟨⟨?_,?_,?_⟩,hs⟩
  · cases st <;> simp only [packSc,rdStateShift,code] <;> omega
  · simp only [unpackCount,packSc,rdStateShift] at h2 ⊢
    omega
  · rw [hs]
    intro h0
    exact hn (by cases st <;> simp_all [code])

theorem fresh : Packed (packSc .new 0) 0 := ⟨by decide,by decide,fun _ => rfl⟩

end Packed

namespace Inv

variable {g d : Nat}

theorem busy (h : Inv s) (hc : s.cpu c ≠ .idle) : c < s.cpus := by
  by_contra hn
  exact hc (h.quiet c (by omega))

theorem ref_pos (h : Inv s) (hr : (s.cpu c).refs = some g) : s.refcount g ≠ 0 := by
  have hc : c < s.cpus := h.busy fun h0 => by rw [h0] at hr; cases hr
  rw [h.users g ((h.view c).refs g hr)]
  exact Nat.ne_of_gt (Sys.holders_pos hc hr)

theorem adds_pos (h : Inv s) (hr : (s.cpu c).adds = some d) : s.refcount d ≠ 0 := by
  have hc : c < s.cpus := h.busy fun h0 => by rw [h0] at hr; cases hr
  rw [h.rds d ((h.view c).adds d hr)]
  have := Sys.holders_pos hc hr
  omega

theorem drops_pos (h : Inv s) (hr : (s.cpu c).drops = some d) : s.refcount d ≠ 0 := by
  have hc : c < s.cpus := h.busy fun h0 => by rw [h0] at hr; cases hr
  rw [h.rds d ((h.view c).drops d hr)]
  have := Sys.holders_pos hc hr
  omega

theorem member_pos (h : Inv s) (hg : s.state g = .recObject) : s.refcount (s.recs g).rd ≠ 0 := by
  obtain ⟨hlt,hd⟩ := h.recs g hg
  rw [h.rds _ hd]
  have : 0 < s.members (s.recs g).rd := tally_pos hlt (by simp [Sys.owns,hg])
  omega

theorem counted_home {pc : Pc} {d : Nat} (h : pc.counted = some d) : ∃ g, pc.refs = some g ∧ pc.home = some (g,d) := by
  cases pc <;> simp_all [Pc.counted,Pc.refs,Pc.home]

theorem counted_rd (h : Inv s) (hd : (s.cpu c).counted = some d) : s.state d = .rd := by
  obtain ⟨g,hr,hh⟩ := counted_home hd
  have h1 := (h.recs g ((h.view c).refs g hr)).2
  rwa [(h.view c).home g d hh] at h1

end Inv

open Sys (apply refcount setGran state word)

namespace Sys

variable {s' : Sys} {g x d : Nat} {st : GranuleState}

theorem lockTo_gran_of_ne (h : x ≠ g) : (s.lockTo g st).gran x = s.gran x := Function.update_of_ne h ..

theorem lockTo_state (x : Nat) : (s.lockTo g st).state x = if x = g then st else s.state x := by
  by_cases h : x = g <;> simp [lockTo,setGran,state,h]

theorem lockTo_refcount (x : Nat) : (s.lockTo g st).refcount x = s.refcount x := by
  by_cases h : x = g <;> simp [lockTo,setGran,refcount,h]

theorem setRefcount_state (n x : Nat) : (s.setGran g { s.gran g with refcount := n }).state x = s.state x := by
  by_cases h : x = g <;> simp [setGran,state,h]

theorem setRefcount_lock (n x : Nat) :
    ((s.setGran g { s.gran g with refcount := n }).gran x).lock = (s.gran x).lock := by
  by_cases h : x = g <;> simp [setGran,h]

theorem setRefcount_refcount (n x : Nat) :
    (s.setGran g { s.gran g with refcount := n }).refcount x = if x = g then n else s.refcount x := by
  by_cases h : x = g <;> simp [setGran,refcount,h]

theorem setWord_word (w x : Nat) : (s.setWord d w).word x = if x = d then w else s.word x := by
  by_cases h : x = d <;> simp [setWord,setRd,word,h]

theorem setWord_id (w x : Nat) : ((s.setWord d w).rds x).id = (s.rds x).id := by
  by_cases h : x = d <;> simp [setWord,setRd,h]

theorem setMap_word (m : Nat → Option Nat) (x : Nat) : (s.setRd d { s.rds d with recMap := m }).word x = s.word x := by
  by_cases h : x = d <;> simp [setRd,word,h]

theorem setMap_id (m : Nat → Option Nat) (x : Nat) :
    ((s.setRd d { s.rds d with recMap := m }).rds x).id = (s.rds x).id := by
  by_cases h : x = d <;> simp [setRd,h]

theorem apply_fixed (ha : s.apply c op = some s') :
    s'.cpu = s.cpu ∧ s'.cpus = s.cpus ∧ s'.granules = s.granules ∧ s'.recs = op.recs s := by
  cases op <;> simp only [apply] at ha
  case acquire =>
    split at ha
    · cases ha
      exact ⟨rfl,rfl,rfl,rfl⟩
    · cases ha
  all_goals
    cases ha
    exact ⟨rfl,rfl,rfl,rfl⟩


end Sys

theorem Pc.zero_held {pc : Pc} {x : Nat} (h : pc.zero x = true) : ∃ st, pc.held x = some st := by
  cases pc <;> simp_all [Pc.zero,Pc.held,one,two]
  all_goals rcases h with rfl | rfl <;> simp

theorem Pc.knows_held {pc : Pc} {d st : Nat} (h : pc.knows = some (d,st)) : pc.held d = some .rd := by
  cases pc <;> simp_all [Pc.knows,Pc.held,one]

theorem Pc.home_cases {pc : Pc} {g d : Nat} (h : pc.home = some (g,d)) :
    pc.refs = some g ∨ pc.held g = some .partialObject := by
  cases pc <;> simp_all [Pc.home,Pc.refs,Pc.held,one,two]

section Access

variable {s' : Sys} {c' x : Nat}

theorem held_lock (h : Inv s) {st : GranuleState} (hx : (s.cpu c).held x = some st) : (s.gran x).lock = some c :=
  ((h.view c).held x st hx).1

theorem held_state (h : Inv s) {st : GranuleState} (hx : (s.cpu c).held x = some st) : s.state x = st :=
  ((h.view c).held x st hx).2

theorem held_apart (h : Inv s) (hne : c' ≠ c) (hl : (s.gran x).lock = some c') {g : Nat} {st : GranuleState}
    (hg : (s.cpu c).held g = some st) : x ≠ g := by
  rintro rfl
  rw [held_lock h hg] at hl
  exact hne (Option.some.inj hl).symm

section

variable (h : Inv s) (hp : op.Pre s (s.cpu c)) (ha : s.apply c op = some s')

include h hp ha

theorem other_lock (hne : c' ≠ c)
    (hl : (s.gran x).lock = some c') : (s'.gran x).lock = some c' ∧ s'.state x = s.state x := by
  have hun : ∀ g st', (s.cpu c).held g ≠ none → ((s.lockTo g st').gran x).lock = some c' ∧
      (s.lockTo g st').state x = s.state x := fun g st' hg => by
    obtain ⟨st,hst⟩ := Option.ne_none_iff_exists'.mp hg
    have hx := held_apart h hne hl hst
    exact ⟨by rw [Sys.lockTo_gran_of_ne hx,hl],by rw [Sys.lockTo_state,if_neg hx]⟩
  have hcount : ∀ g n, ((s.setGran g { s.gran g with refcount := n }).gran x).lock = some c' ∧
      (s.setGran g { s.gran g with refcount := n }).state x = s.state x :=
    fun g n => ⟨by rw [Sys.setRefcount_lock,hl],Sys.setRefcount_state n x⟩
  cases op <;> simp only [apply] at ha <;> simp only [Op.Pre] at hp
  case acquire g st =>
    split at ha
    case isTrue hfree =>
      cases ha
      have hx : x ≠ g := by
        rintro rfl
        rw [hfree.1] at hl
        cases hl
      have hgran : (s.setGran g { s.gran g with lock := some c }).gran x = s.gran x := Function.update_of_ne hx ..
      exact ⟨by rw [hgran,hl],congrArg Granule.state hgran⟩
    case isFalse => cases ha
  case release g =>
    cases ha
    exact hun g (s.state g) hp
  case begin g | abandon g | newRealm g =>
    cases ha
    exact hun g _ (by rw [hp]; exact Option.some_ne_none _)
  case publish g | retire g | dissolve g | report g =>
    cases ha
    exact hun g _ (by rw [hp.1]; exact Option.some_ne_none _)
  case takeRef g | dropRef g | putRd g =>
    cases ha
    exact hcount g _
  case addRec g d mpidr runnable =>
    cases ha
    exact hcount d _
  all_goals
    cases ha
    exact ⟨hl,rfl⟩

theorem other_zero (hne : c' ≠ c) (hl : (s.gran x).lock = some c') (hz : s.refcount x = 0) : s'.refcount x = 0 := by
  have hheld : ∀ g st n, (s.cpu c).held g = some st →
      (s.setGran g { s.gran g with refcount := n }).refcount x = 0 := fun g st n hg => by
    rw [Sys.setRefcount_refcount,if_neg (held_apart h hne hl hg),hz]
  have hdrop : ∀ g, (s.dropRefcount g).refcount x = 0 := fun g => by
    rw [Sys.dropRefcount,Sys.setRefcount_refcount]
    split
    · next hx => rw [← hx,hz]
    · exact hz
  cases op <;> simp only [apply] at ha <;> simp only [Op.Pre] at hp
  case acquire g st =>
    split at ha
    · cases ha
      by_cases hx : x = g <;> simpa [refcount,setGran,hx] using hz
    · cases ha
  case release g | begin g | abandon g | publish g | retire g | dissolve g | report g | newRealm g =>
    cases ha
    exact (Sys.lockTo_refcount x).trans hz
  case takeRef g =>
    cases ha
    exact hheld g _ _ hp.1
  case addRec g d mpidr runnable =>
    cases ha
    exact hheld d _ _ hp.2.1
  case dropRef g | putRd g =>
    cases ha
    exact hdrop g
  all_goals
    cases ha
    exact hz

theorem kept (hx : s.state x = .recObject ∨ s.state x = .rd) (hz : s.refcount x ≠ 0) : s'.state x = s.state x := by
  have hun : ∀ g st, (x = g → st = s.state x) → (s.lockTo g st).state x = s.state x := fun g st hg => by
    rw [Sys.lockTo_state]
    split
    · next hxg => exact hg hxg
    · rfl
  have hnot : ∀ g st, (s.cpu c).held g = some st → st ≠ .recObject → st ≠ .rd → x ≠ g := by
    rintro g st hg h1 h2 rfl
    rw [held_state h hg] at hx
    exact hx.elim h1 h2
  cases op <;> simp only [apply] at ha <;> simp only [Op.Pre] at hp
  case acquire g st =>
    split at ha
    · cases ha
      by_cases hxg : x = g <;> simp [state,setGran,hxg]
    · cases ha
  case release g | report g =>
    cases ha
    exact hun g _ fun hg => congrArg s.state hg.symm
  case begin g | abandon g | newRealm g =>
    cases ha
    exact hun g _ fun hg => absurd hg (hnot g _ hp (by decide) (by decide))
  case publish g =>
    cases ha
    exact hun g _ fun hg => absurd hg (hnot g _ hp.1 (by decide) (by decide))
  case retire g | dissolve g =>
    cases ha
    exact hun g _ fun hg => absurd (hg ▸ hp.2.1) hz
  case takeRef g | dropRef g | putRd g | addRec g d mpidr runnable =>
    cases ha
    exact Sys.setRefcount_state _ x
  all_goals
    cases ha
    rfl

end

end Access

variable {s' : Sys} {c' x d : Nat}

theorem holders_lt (h : Inv s) (f : Pc → Option Nat) (x : Nat) : s.holders f x + 1 < 2 ^ 62 := by
  have h1 := tally_le (fun pc => f pc == some x) s.cpu s.cpus
  have h2 := h.cpus
  have h3 : s.holders f x ≤ s.cpus := h1
  omega

theorem count_word (h : Inv s) (hp : (Op.count d).Pre s (s.cpu c)) :
    s.state d = .rd ∧ Packed ((s.word d + 1) % 2 ^ 64) (s.holders Pc.counted d + 1) ∧
      unpackState ((s.word d + 1) % 2 ^ 64) = unpackState (s.word d) := by
  obtain ⟨hact,-,g,hr,hd⟩ := hp
  have hrd : s.state d = .rd := hd ▸ (h.recs g ((h.view c).refs g hr)).2
  exact ⟨hrd,(h.word d hrd).succ hact (holders_lt h _ d)⟩

theorem uncount_word (h : Inv s) (hc : c < s.cpus) (hp : (Op.uncount d).Pre s (s.cpu c)) :
    s.state d = .rd ∧ Packed ((s.word d + (2 ^ 64 - 1)) % 2 ^ 64) (s.holders Pc.counted d - 1) ∧
      unpackState ((s.word d + (2 ^ 64 - 1)) % 2 ^ 64) = unpackState (s.word d) := by
  have hrd := h.counted_rd hp
  exact ⟨hrd,(h.word d hrd).pred (Sys.holders_pos hc hp)⟩

theorem setState_word (h : Inv s) {st : RealmState} (hp : (Op.setState d st).Pre s (s.cpu c)) :
    s.state d = .rd ∧ Packed (packSc st (unpackCount (s.word d))) (s.holders Pc.counted d) ∧
      unpackState (packSc st (unpackCount (s.word d))) = st.code := by
  have hrd := held_state h hp.1
  refine ⟨hrd,(h.word d hrd).pack st ?_⟩
  rcases hp.2 with ⟨rfl,-⟩ | ⟨rfl,-⟩ | ⟨rfl,h0⟩
  · intro hst
    cases hst with
    | inl hst | inr hst => cases hst
  · intro hst
    cases hst with
    | inl hst | inr hst => cases hst
  · intro _
    rw [← (h.word d hrd).count,h0]

theorem other_word (h : Inv s) (hc : c < s.cpus) (hp : op.Pre s (s.cpu c)) (ha : s.apply c op = some s')
    (hne : c' ≠ c) (hl : (s.gran x).lock = some c') : unpackState (s'.word x) = unpackState (s.word x) := by
  have hset : ∀ d w, (x = d → unpackState w = unpackState (s.word x)) →
      unpackState ((s.setWord d w).word x) = unpackState (s.word x) := fun d w hw => by
    rw [Sys.setWord_word]
    split
    · next hx => exact hw hx
    · rfl
  cases op <;> simp only [Sys.apply] at ha
  case acquire g st =>
    split at ha
    · cases ha
      rfl
    · cases ha
  case count d =>
    cases ha
    refine hset d _ fun hx => ?_
    rw [hx]
    exact (count_word h hp).2.2
  case uncount d =>
    cases ha
    refine hset d _ fun hx => ?_
    rw [hx]
    exact (uncount_word h hc hp).2.2
  case setState d st =>
    cases ha
    exact hset d _ fun hx => absurd hx (held_apart h hne hl hp.1)
  case newRealm d =>
    cases ha
    have hx := held_apart h hne hl hp
    exact congrArg (fun r : Rd => unpackState r.word) (Function.update_of_ne hx ..)
  case addRec g d mpidr runnable | removeRec d mpidr =>
    cases ha
    exact congrArg unpackState (Sys.setMap_word _ x)
  all_goals
    cases ha
    rfl

theorem rd_kept (hp : op.Pre s (s.cpu c)) (hx : ∀ d m r, op ≠ .addRec x d m r) : (op.recs s x).rd = (s.recs x).rd := by
  cases op <;> try rfl
  case addRec g d mpidr runnable =>
    have hg : x ≠ g := by
      rintro rfl
      exact hx _ _ _ rfl
    simp [Op.recs,hg]
  case writeRec g r =>
    by_cases hg : x = g
    · simp [Op.recs,hg,hp.1]
    · simp [Op.recs,hg]
  case respond t v => exact respond_rd s.recs t v x

theorem not_addRec_of_state (h : Inv s) (hp : op.Pre s (s.cpu c)) (hx : s.state x ≠ .partialObject) (d m : Nat)
    (r : Bool) : op ≠ .addRec x d m r := by
  rintro rfl
  exact hx (held_state h hp.1)

theorem home_kept (h : Inv s) (hp : op.Pre s (s.cpu c)) (hne : c' ≠ c) {g : Nat}
    (hh : (s.cpu c').home = some (g,d)) : (op.recs s g).rd = (s.recs g).rd := by
  apply rd_kept hp
  rcases Pc.home_cases hh with hr | hg
  · apply not_addRec_of_state h hp
    rw [(h.view c').refs g hr]
    decide
  · rintro d m r rfl
    exact held_apart h hne (held_lock h hg) hp.1 rfl

theorem view_other (h : Inv s) (hc : c < s.cpus) (hp : op.Pre s (s.cpu c)) (ha : s.apply c op = some s')
    (hne : c' ≠ c) : View s' c' (s.cpu c') := by
  obtain ⟨-,-,hn,hrecs⟩ := Sys.apply_fixed ha
  have hv := h.view c'
  constructor
  case held =>
    intro g st hg
    obtain ⟨hl,hst⟩ := other_lock h hp ha hne (held_lock h hg)
    exact ⟨hl,hst.trans (held_state h hg)⟩
  case refs =>
    intro g hg
    rw [kept h hp ha (.inl (hv.refs g hg)) (h.ref_pos hg),hv.refs g hg]
  case zero =>
    intro g hg
    obtain ⟨st,hst⟩ := Pc.zero_held hg
    exact other_zero h hp ha hne (held_lock h hst) (hv.zero g hg)
  case home =>
    intro g d hg
    rw [hrecs,home_kept h hp hne hg,hv.home g d hg]
  case adds =>
    intro d hd
    rw [kept h hp ha (.inr (hv.adds d hd)) (h.adds_pos hd),hv.adds d hd]
  case drops =>
    intro d hd
    rw [kept h hp ha (.inr (hv.drops d hd)) (h.drops_pos hd),hv.drops d hd]
  case knows =>
    intro d st hd
    rw [other_word h hc hp ha hne (held_lock h (Pc.knows_held hd)),hv.knows d st hd]
  case sound =>
    rw [hn]
    exact hv.sound

theorem held_after (h : Inv s) (ha : s.apply c op = some s') {st : GranuleState}
    (hx : op.held (s.cpu c).held x = some st) : (s'.gran x).lock = some c ∧ s'.state x = st := by
  have hun : ∀ g st', Function.update (s.cpu c).held g none x = some st →
      ((s.lockTo g st').gran x).lock = some c ∧ (s.lockTo g st').state x = st := fun g st' hg => by
    by_cases hxg : x = g
    · rw [hxg,Function.update_self] at hg
      cases hg
    · rw [Function.update_of_ne hxg] at hg
      rw [Sys.lockTo_gran_of_ne hxg,Sys.lockTo_state,if_neg hxg]
      exact (h.view c).held x st hg
  have hcount : ∀ g n, (s.cpu c).held x = some st →
      ((s.setGran g { s.gran g with refcount := n }).gran x).lock = some c ∧
        (s.setGran g { s.gran g with refcount := n }).state x = st := fun g n hg => by
    rw [Sys.setRefcount_lock,Sys.setRefcount_state]
    exact (h.view c).held x st hg
  cases op <;> simp only [Sys.apply] at ha <;> simp only [Op.held] at hx
  case acquire g st' =>
    split at ha
    case isTrue hfree =>
      cases ha
      by_cases hxg : x = g
      · subst hxg
        rw [Function.update_self] at hx
        simp only [Sys.setGran,Sys.state,Function.update_self]
        exact ⟨trivial,hfree.2.trans (Option.some.inj hx)⟩
      · rw [Function.update_of_ne hxg] at hx
        simp only [Sys.setGran,Sys.state,Function.update_of_ne hxg]
        exact (h.view c).held x st hx
    case isFalse => cases ha
  case release g | report g =>
    cases ha
    exact hun g (s.state g) hx
  case begin g | abandon g | publish g | retire g | dissolve g | newRealm g =>
    cases ha
    exact hun g _ hx
  case takeRef g | dropRef g | putRd g =>
    cases ha
    exact hcount g _ hx
  case addRec g d mpidr runnable =>
    cases ha
    exact hcount d _ hx
  all_goals
    cases ha
    exact (h.view c).held x st hx

theorem view_own (h : Inv s) (fit : Fits s (s.cpu c) op pc') (ha : s.apply c op = some s') : View s' c pc' := by
  obtain ⟨-,-,hn,hrecs⟩ := Sys.apply_fixed ha
  have hp := fit.pre
  have hv := h.view c
  constructor
  case held =>
    intro g st hg
    rw [fit.held] at hg
    exact held_after h ha hg
  case refs =>
    intro g hg
    rw [fit.refs] at hg
    have hold : (s.cpu c).refs = some g → s'.state g = .recObject := fun hg => by
      rw [kept h hp ha (.inl (hv.refs g hg)) (h.ref_pos hg),hv.refs g hg]
    cases op <;> simp only [Op.refs] at hg
    case takeRef g' =>
      cases hg
      cases ha
      exact (Sys.setRefcount_state _ g).trans (held_state h hp.1)
    case dropRef => cases hg
    all_goals exact hold hg
  case zero =>
    intro g hg
    obtain ⟨hplain,hz⟩ := fit.zero g hg
    cases op
    case load | writeRec =>
      cases ha
      exact hz
    all_goals cases hplain
  case home =>
    intro g d hg
    rw [hrecs]
    exact fit.home g d hg
  case adds =>
    intro d hd
    rw [fit.adds] at hd
    have hold : (s.cpu c).adds = some d → s'.state d = .rd := fun hd => by
      rw [kept h hp ha (.inr (hv.adds d hd)) (h.adds_pos hd),hv.adds d hd]
    cases op <;> simp only [Op.adds] at hd
    case addRec g d' mpidr runnable =>
      cases hd
      cases ha
      exact (Sys.setRefcount_state _ d).trans (held_state h hp.2.1)
    case publish => cases hd
    all_goals exact hold hd
  case drops =>
    intro d hd
    rw [fit.drops] at hd
    have hold : (s.cpu c).drops = some d → s'.state d = .rd := fun hd => by
      rw [kept h hp ha (.inr (hv.drops d hd)) (h.drops_pos hd),hv.drops d hd]
    cases op <;> simp only [Op.drops] at hd
    case retire g =>
      have hg := held_state h hp.1
      have hrd := (h.recs g hg).2
      rw [← Option.some.inj hd,kept h hp ha (.inr hrd) (h.member_pos hg),hrd]
    case putRd => cases hd
    all_goals exact hold hd
  case knows =>
    intro d st hd
    rcases fit.knows d st hd with ⟨rfl,hst⟩ | ⟨y,rfl,rfl⟩
    · cases ha
      exact hst
    · cases ha
      rw [Sys.setWord_word,if_pos rfl]
      exact (setState_word h hp).2.2
  case sound =>
    rw [hn]
    exact fit.sound

end TfRmm.Lifecycle
