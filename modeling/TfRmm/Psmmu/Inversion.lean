import TfRmm.Smmu.Driver
import TfRmm.Lib.Ledger
import TfRmm.Lib.Transition

namespace TfRmm.Psmmu

open TfRmm.Smmu
open Function

inductive GranuleState where
  | undelegated
  | delegated
  | internal
  | psmmuStL2
  | other
  deriving DecidableEq

inductive Status where
  | success
  | incomplete
  | errorInput
  | blocked
  deriving DecidableEq

def psmmuMemRangeNum : Nat := 3

def memRangeL1St : Nat := 0

def memRangeCmdq : Nat := 1

def memRangeEvtq : Nat := 2

def rangeBit (e : Enables) (r : Nat) : Bool :=
  if r = memRangeL1St then e.smmuEn else if r = memRangeCmdq then e.cmdqEn else e.evtqEn

def allOff : Enables := ⟨false,false,false⟩

structure Smmu where
  tab : StreamTable
  cr0 : Enables
  ack : Enables
  size : Nat → Nat
  pa : Nat → Nat
  mapped : Nat → Bool
  cached : Nat → Option Nat

inductive Stage where
  | activateStart
  | activateFinish
  | deactivateStart
  | deactivateFinish
  | createL2Start
  | createL2Finish
  | destroyL2Start
  | destroyL2Finish
  | reclaimStart
  | reclaimFinish
  deriving DecidableEq

inductive Fid where
  | donate
  | reclaim
  | proceed
  deriving DecidableEq

structure Ctx where
  smmu : Nat
  sid : Option Nat
  stage : Stage
  rangeIdx : Nat
  base : Nat → Nat
  requested : Nat → Nat
  total : Nat
  retErr : Status
  expected : Fid
  copying : Bool
  serial : Nat

structure Rmm where
  num : Nat
  granule : Nat → GranuleState
  smmu : Nat → Smmu
  sro : Nat → Option Ctx
  attached : Nat → Nat → Bool
  donated : Nat → Nat
  returned : Nat → Nat
  serial : Nat
  effective : List Nat
  succeeded : List Nat
  failed : List Nat

namespace Smmu

variable (m : Smmu)

def writeCr0 (e : Enables) : Smmu := { m with cr0 := e }

def waitForAck (mask bits : Enables) : Smmu × Option Errno :=
  let m' := { m with ack := bits.select m.cr0 m.ack }
  if mask.mask m'.ack = mask.mask m'.cr0 then (m',none) else (m',some .etimedout)

def forget : Smmu := { m with cached := fun _ => none }

def setState (st : PsmmuState) : Smmu := { m with tab := { m.tab with state := st } }

end Smmu

structure Handshake where
  first : Enables
  second : Enables
  third : Enables
  inval : Option Errno

namespace Smmu

variable (m : Smmu) (hs : Handshake)

def smmuOn : Smmu × Option Errno :=
  match (m.writeCr0 cmdqOn).waitForAck cmdqOn hs.first with
  | (m₁,some e) => (m₁,some e)
  | (m₁,none) =>
    match (m₁.writeCr0 queuesOn).waitForAck evtqBit hs.second with
    | (m₂,some e) => (m₂,some e)
    | (m₂,none) =>
      match hs.inval with
      | some e => (m₂,some e)
      | none => (m₂.forget.writeCr0 allOn).waitForAck smmuBit hs.third

def smmuOff : Smmu :=
  let m₁ := if hs.inval.isNone then m.forget else m
  let e₁ : Enables := { m₁.cr0 with smmuEn := false }
  let m₂ := ((m₁.writeCr0 e₁).waitForAck smmuBit hs.first).1
  let e₂ : Enables := { e₁ with cmdqEn := false }
  let m₃ := ((m₂.writeCr0 e₂).waitForAck e₂ hs.second).1
  ((m₃.writeCr0 { e₂ with evtqEn := false }).waitForAck evtqBit hs.third).1

def registerStL1 (pa : Nat) (mapping : Option Errno) : Smmu × Option Errno :=
  match mapping with
  | some e => (m,some e)
  | none =>
    ({ m with
        tab := { m.tab with l1 := fun _ => none }
        pa := update m.pa memRangeL1St pa
        mapped := update m.mapped memRangeL1St true },none)

def registerQueues (cmdq evtq : Nat) (mapping : Option Errno) : Smmu × Option Errno :=
  match mapping with
  | some e => (m,some e)
  | none =>
    ({ m with
        pa := update (update m.pa memRangeCmdq cmdq) memRangeEvtq evtq
        mapped := update (update m.mapped memRangeCmdq true) memRangeEvtq true },none)

def unmap : Smmu := { m with mapped := fun _ => false }

def activate : Smmu × Option Errno :=
  match m.smmuOn hs with
  | (m',some e) => (m',some e)
  | (m',none) => (m'.setState .active,none)

def deactivate : Option Smmu :=
  if m.tab.l1Refcnt ≠ 0 then none else some (m.smmuOff hs).unmap

def registerStL2 (sid pa : Nat) (mapping inval : Option Errno) : Smmu × Option Errno :=
  match m.tab.registerStL2 sid pa mapping inval with
  | (t,r) =>
    let k := l1stdIdx sid
    let published := decide (m.tab.state = .active) && (m.tab.l1 k).isNone && mapping.isNone
    ({ m with tab := t,cached := if published then update m.cached k (some pa) else m.cached },r)

def releaseStL2 (sid : Nat) (inval : Option Errno) : Smmu × Option Nat × Option Errno :=
  let k := l1stdIdx sid
  match m.tab.releaseStL2 sid inval with
  | (t,.error e) => ({ m with tab := t },if t.l1 k = m.tab.l1 k then none else m.tab.l1 k,some e)
  | (t,.ok pa) => ({ m with tab := t,cached := update m.cached k none },some pa,none)

def validateSid (sid : Nat) : Bool := decide (sid % strtabL1SteMax = 0) && decide (sid < 2 ^ m.tab.sidBits)

def Uses (q : Nat) : Prop :=
  (∃ r, r < psmmuMemRangeNum ∧ (rangeBit m.cr0 r || rangeBit m.ack r) = true ∧ m.pa r ≤ q ∧
    q < m.pa r + m.size r) ∨
  ∃ k, m.tab.l1 k = some q ∨ m.cached k = some q

end Smmu

namespace Rmm

variable (s : Rmm) (base n : Nat)

def setSmmu (i : Nat) (m : Smmu) : Rmm := { s with smmu := update s.smmu i m }

def setSro (h : Nat) (c : Option Ctx) : Rmm := { s with sro := update s.sro h c }

def setGranule (q : Nat) (g : GranuleState) : Rmm := { s with granule := update s.granule q g }

def setAttached (i sid : Nat) (b : Bool) : Rmm :=
  { s with attached := update s.attached i (update (s.attached i) sid b) }

def take : Rmm :=
  { s with
    granule := fun q => if base ≤ q ∧ q < base+n then .internal else s.granule q
    donated := fun q => if base ≤ q ∧ q < base+n then s.donated q + 1 else s.donated q }

def giveBack : Rmm :=
  { s with
    granule := fun q => if base ≤ q ∧ q < base+n then .delegated else s.granule q
    returned := fun q => if base ≤ q ∧ q < base+n then s.returned q + 1 else s.returned q }

def delegated (base n : Nat) : Bool := (List.range n).all fun j => s.granule (base+j) == .delegated

def takeEffect (n : Nat) : Rmm := { s with effective := n :: s.effective }

def report (n : Nat) (st : Status) : Rmm :=
  match st with
  | .success => { s with succeeded := n :: s.succeeded }
  | .incomplete => s
  | _ => { s with failed := n :: s.failed }

end Rmm

inductive Reply where
  | donate
  | reclaim
  | proceed
  | finished (st : Status)
  deriving DecidableEq

def Reply.expected : Reply → Fid
  | .donate => .donate
  | .reclaim => .reclaim
  | .proceed => .proceed
  | .finished _ => .proceed

def Reply.status : Reply → Status
  | .finished st => st
  | _ => .incomplete

inductive Donation where
  | invalid
  | empty
  | block (base n : Nat)
  deriving DecidableEq

def Donation.reduceContigBlock : Donation → Option (Nat × Nat)
  | .block base n => if n = 0 then none else some (base,n)
  | _ => none

inductive Donated where
  | failed
  | more
  | all
  deriving DecidableEq

inductive Copied where
  | failed
  | some
  | all
  deriving DecidableEq

structure Finish where
  l1 : Option Errno
  queues : Option Errno
  hs : Handshake
  l2 : Option Errno
  inval : Option Errno

namespace Rmm

variable (s : Rmm) (c : Ctx) (i sid : Nat) (h : Nat) (slot : Option Nat) (d : Donation) (stage : Stage) (f : Finish)
  (inval : Option Errno)

def newCtx (i : Nat) (sid : Option Nat) (stage : Stage) (expected : Fid) (requested : Nat → Nat) : Ctx where
  smmu := i
  sid := sid
  stage := stage
  rangeIdx := 0
  base := fun _ => 0
  requested := requested
  total := 0
  retErr := .success
  expected := expected
  copying := false
  serial := s.serial

def nextSerial : Rmm := { s with serial := s.serial+1 }

def reserve : Option Nat :=
  match slot with
  | some h => if (s.sro h).isNone then some h else none
  | none => none

def psmmuActivate (i : Nat) (paramsOk : Bool) (slot : Option Nat) : Rmm × Status :=
  if s.num ≤ i then (s,.errorInput)
  else if !paramsOk then (s,.errorInput)
  else if (s.smmu i).tab.state ≠ .inactive then (s,.errorInput)
  else
    let s₁ := s.setSmmu i ((s.smmu i).setState .busy)
    match s₁.reserve slot with
    | none => (s₁.setSmmu i ((s₁.smmu i).setState .inactive),.blocked)
    | some h =>
      let c := s₁.newCtx i none .activateStart .donate (s.smmu i).size
      ((s₁.setSro h (some c)).nextSerial,.incomplete)

def memoryDonate : Rmm × Ctx × Donated :=
  match d.reduceContigBlock with
  | none => (s,c,if 0 < c.requested c.rangeIdx then .more else .all)
  | some (base,n) =>
    if s.delegated base n then
      (s.take base n,{ c with base := Function.update c.base c.rangeIdx base,total := c.total+n },.all)
    else (s,{ c with retErr := .errorInput },.failed)

def prepareReclaim (err : Status) : Ctx := { c with stage := stage,retErr := err }

def activateStart : Rmm × Ctx × Reply :=
  match s.memoryDonate c d with
  | (s',c',.more) => (s',c',.donate)
  | (s',c',.failed) => (s',prepareReclaim c' .reclaimStart c'.retErr,.reclaim)
  | (s',c',.all) =>
    if c'.rangeIdx+1 < psmmuMemRangeNum then (s',{ c' with rangeIdx := c'.rangeIdx+1 },.donate)
    else (s',{ c' with stage := .activateFinish },.proceed)

def createL2Start : Rmm × Ctx × Reply :=
  match s.memoryDonate c d with
  | (s',c',.more) => (s',c',.donate)
  | (s',c',.failed) => (s',{ c' with stage := .reclaimFinish },.finished .success)
  | (s',c',.all) => (s',{ c' with stage := .createL2Finish },.proceed)

def activateFinish : Rmm × Ctx × Reply :=
  let undo (m : Smmu) : Rmm × Ctx × Reply :=
    (s.setSmmu c.smmu m.unmap,prepareReclaim c .reclaimStart .errorInput,.reclaim)
  match (s.smmu c.smmu).registerStL1 (c.base memRangeL1St) f.l1 with
  | (m₁,some _) => undo m₁
  | (m₁,none) =>
    match m₁.registerQueues (c.base memRangeCmdq) (c.base memRangeEvtq) f.queues with
    | (m₂,some _) => undo m₂
    | (m₂,none) =>
      match m₂.activate f.hs with
      | (m₃,some _) => undo m₃
      | (m₃,none) => ((s.setSmmu c.smmu m₃).takeEffect c.serial,c,.finished .success)

def createL2Finish (sid : Nat) (f : Finish) : Rmm × Ctx × Reply :=
  match (s.smmu c.smmu).registerStL2 sid (c.base 0) f.l2 f.inval with
  | (m,none) => (((s.setSmmu c.smmu m).setGranule (c.base 0) .psmmuStL2).takeEffect c.serial,c,.finished .success)
  | (m,some _) => (s.setSmmu c.smmu m,prepareReclaim c .reclaimStart .errorInput,.reclaim)

def setInactive (i : Nat) : Rmm := s.setSmmu i ((s.smmu i).setState .inactive)

def reclaimFinish : Rmm × Ctx × Reply :=
  (if c.sid.isNone then s.setInactive c.smmu else s,c,.finished c.retErr)

def psmmuDeactivate (i : Nat) (slot : Option Nat) (hs : Handshake) : Rmm × Status :=
  if s.num ≤ i then (s,.errorInput)
  else if (s.smmu i).tab.state ≠ .active then (s,.errorInput)
  else
    let s₁ := s.setSmmu i ((s.smmu i).setState .busy)
    match s₁.reserve slot with
    | none => (s₁.setSmmu i ((s₁.smmu i).setState .active),.blocked)
    | some h =>
      match (s₁.smmu i).deactivate hs with
      | none => ((s₁.setSmmu i ((s₁.smmu i).setState .active)).nextSerial.report s.serial .errorInput,.errorInput)
      | some m =>
        let c := s₁.newCtx i none .deactivateStart .reclaim m.size
        let c' : Ctx := { c with
          base := m.pa
          rangeIdx := psmmuMemRangeNum-1
          total := m.size memRangeL1St + m.size memRangeCmdq + m.size memRangeEvtq }
        ((((s₁.setSmmu i m).setSro h (some c')).takeEffect s.serial).nextSerial,.incomplete)

def psmmuStL2Create : Rmm × Status :=
  if s.num ≤ i then (s,.errorInput)
  else if !(s.smmu i).validateSid sid then (s,.errorInput)
  else
    match s.reserve slot with
    | none => (s,.blocked)
    | some h => ((s.setSro h (some (s.newCtx i (some sid) .createL2Start .donate fun _ => 1))).nextSerial,.incomplete)

def psmmuStL2Destroy (inval : Option Errno) : Rmm × Status :=
  if s.num ≤ i then (s,.errorInput)
  else if !(s.smmu i).validateSid sid then (s,.errorInput)
  else
    match s.reserve slot with
    | none => (s,.blocked)
    | some h =>
      match (s.smmu i).releaseStL2 sid inval with
      | (m,none,_) => ((s.setSmmu i m).nextSerial.report s.serial .errorInput,.errorInput)
      | (m,some pa,err) =>
        let s₁ := (((s.setSmmu i m).setGranule pa .internal).takeEffect s.serial).nextSerial
        match err with
        | some _ => (s₁.report s.serial .errorInput,.errorInput)
        | none =>
          let c := s.newCtx i (some sid) .destroyL2Start .reclaim fun _ => 1
          (s₁.setSro h (some { c with base := Function.update c.base 0 pa,total := 1 }),.incomplete)

def memoryReclaim (c : Ctx) (s : Rmm) : Nat → Nat → Nat → Rmm
  | 0, _, _ => s
  | n+1, r, remaining =>
    let count := min (c.requested r) remaining
    let s' := s.giveBack (c.base r) count
    if remaining-count = 0 then s' else memoryReclaim c s' n (r+1) (remaining-count)

def reclaim : Rmm × Ctx × Reply :=
  (memoryReclaim c s (c.rangeIdx+1) 0 c.total,{ c with stage := stage },.proceed)

def donateCallback : Rmm × Ctx × Reply :=
  match c.stage with
  | .activateStart => s.activateStart c d
  | .createL2Start => s.createL2Start c d
  | _ => (s,c,.finished .errorInput)

def reclaimCallback : Rmm × Ctx × Reply :=
  match c.stage with
  | .deactivateStart => s.reclaim c .deactivateFinish
  | .destroyL2Start => s.reclaim c .destroyL2Finish
  | .reclaimStart => s.reclaim c .reclaimFinish
  | _ => (s,c,.finished .errorInput)

def continueCallback : Rmm × Ctx × Reply :=
  match c.stage,c.sid with
  | .activateFinish,_ => s.activateFinish c f
  | .createL2Finish,some sid => s.createL2Finish c sid f
  | .deactivateFinish,_ => (s.setInactive c.smmu,c,.finished .success)
  | .destroyL2Finish,_ => (s,c,.finished .success)
  | .reclaimFinish,_ => s.reclaimFinish c
  | _,_ => (s,c,.finished .errorInput)

def sealCtx (c : Ctx) (r : Reply) : Rmm := s.setSro h (some { c with expected := r.expected })

def opMemDonate : Rmm × Status :=
  match s.sro h with
  | none => (s,.errorInput)
  | some c =>
    if c.expected ≠ .donate then (s,.errorInput)
    else if d = .invalid then (s,.errorInput)
    else if d.reduceContigBlock.any fun b => b.2 ≠ c.requested c.rangeIdx then (s,.errorInput)
    else
      match s.donateCallback c d with
      | (s',c',r) => ((s'.sealCtx h c' r).report c.serial r.status,r.status)

def copyOut (c : Ctx) (copied : Copied) : Rmm × Status :=
  match copied with
  | .failed => (s.setSro h (some { c with expected := .reclaim,copying := true }),.errorInput)
  | .some => (s.setSro h (some { c with expected := .reclaim,copying := true }),.incomplete)
  | .all => (s.setSro h (some { c with expected := .proceed,copying := false }),.incomplete)

def opMemReclaim (room : Bool) (copied : Copied) : Rmm × Status :=
  match s.sro h with
  | none => (s,.errorInput)
  | some c =>
    if c.expected ≠ .reclaim then (s,.errorInput)
    else if !room then (s,.incomplete)
    else if c.copying then s.copyOut h c copied
    else
      match s.reclaimCallback c with
      | (s',c',r) => if c.total = 0 then (s'.sealCtx h c' r,r.status) else s'.copyOut h c' copied

def opContinue : Rmm × Status :=
  match s.sro h with
  | none => (s,.errorInput)
  | some c =>
    if c.expected ≠ .proceed then (s,.errorInput)
    else
      match s.continueCallback c f with
      | (s',_,.finished st) => ((s'.setSro h none).report c.serial st,st)
      | (s',c',r) => (s'.sealCtx h c' r,r.status)

def opCancel (_h : Nat) : Rmm × Status := (s,.errorInput)

def setTable (i : Nat) (t : StreamTable) : Rmm := s.setSmmu i { s.smmu i with tab := t }

def vdevAttach : Rmm :=
  match (s.smmu i).tab.configureStream sid inval with
  | (t,none) => (s.setTable i t).setAttached i sid true
  | (t,some _) => s.setTable i t

def vdevDetach : Rmm :=
  if !s.attached i sid then s
  else
    match (s.smmu i).tab.releaseSte sid inval with
    | (t,none) => (s.setTable i t).setAttached i sid false
    | (t,some _) => s.setTable i t

def vdevToggle (enable : Bool) (inval prefetch : Option Errno) : Rmm :=
  if !s.attached i sid then s
  else s.setTable i ((s.smmu i).tab.changeSte sid enable inval prefetch).1

end Rmm

open TfRmm.Lib

inductive Command where
  | activate (i : Nat) (paramsOk : Bool) (slot : Option Nat)
  | deactivate (i : Nat) (slot : Option Nat) (hs : Handshake)
  | stL2Create (i sid : Nat) (slot : Option Nat)
  | stL2Destroy (i sid : Nat) (slot : Option Nat) (inval : Option Errno)
  | memDonate (h : Nat) (d : Donation)
  | memReclaim (h : Nat) (room : Bool) (copied : Copied)
  | proceed (h : Nat) (f : Finish)
  | cancel (h : Nat)
  | attach (i sid : Nat) (inval : Option Errno)
  | detach (i sid : Nat) (inval : Option Errno)
  | toggle (i sid : Nat) (enable : Bool) (inval prefetch : Option Errno)
  | elsewhere (q : Nat) (g : GranuleState)

def GranuleState.kept : GranuleState → Bool
  | .internal => true
  | .psmmuStL2 => true
  | _ => false

namespace Rmm

def elsewhere (s : Rmm) (q : Nat) (g : GranuleState) : Rmm :=
  if (s.granule q).kept || g.kept then s else s.setGranule q g

def exec (s : Rmm) : Command → Rmm × Status
  | .activate i paramsOk slot => s.psmmuActivate i paramsOk slot
  | .deactivate i slot hs => s.psmmuDeactivate i slot hs
  | .stL2Create i sid slot => s.psmmuStL2Create i sid slot
  | .stL2Destroy i sid slot inval => s.psmmuStL2Destroy i sid slot inval
  | .memDonate h d => s.opMemDonate h d
  | .memReclaim h room copied => s.opMemReclaim h room copied
  | .proceed h f => s.opContinue h f
  | .cancel h => s.opCancel h
  | .attach i sid inval => (s.vdevAttach i sid inval,.success)
  | .detach i sid inval => (s.vdevDetach i sid inval,.success)
  | .toggle i sid enable inval prefetch => (s.vdevToggle i sid enable inval prefetch,.success)
  | .elsewhere q g => (s.elsewhere q g,.success)

end Rmm

structure Initial (s : Rmm) : Prop where
  granule : ∀ q, (s.granule q).kept = false
  state : ∀ i, (s.smmu i).tab.state = .inactive
  l1 : ∀ i k, (s.smmu i).tab.l1 k = none
  l1Refcnt : ∀ i, (s.smmu i).tab.l1Refcnt = 0
  refcount : ∀ i k, (s.smmu i).tab.refcount k = 0
  ste : ∀ i sid, (s.smmu i).tab.ste sid = .zero
  cached : ∀ i k, (s.smmu i).cached k = none
  cr0 : ∀ i, (s.smmu i).cr0 = allOff
  ack : ∀ i, (s.smmu i).ack = allOff
  sro : ∀ h, s.sro h = none
  attached : ∀ i sid, s.attached i sid = false
  counters : ∀ q, s.donated q = 0 ∧ s.returned q = 0
  history : s.effective = [] ∧ s.succeeded = [] ∧ s.failed = []

def system : TransitionSystem Rmm Command where
  init := Initial
  step s cmd t := (s.exec cmd).1 = t

def Stage.fid : Stage → Fid
  | .activateStart => .donate
  | .createL2Start => .donate
  | .deactivateStart => .reclaim
  | .destroyL2Start => .reclaim
  | .reclaimStart => .reclaim
  | _ => .proceed

def Stage.holding : Stage → Bool
  | .deactivateFinish => false
  | .destroyL2Finish => false
  | .reclaimFinish => false
  | _ => true

def Stage.removing : Stage → Bool
  | .deactivateStart => true
  | .deactivateFinish => true
  | .destroyL2Start => true
  | .destroyL2Finish => true
  | _ => false

def sumBefore (f : Nat → Nat) : Nat → Nat
  | 0 => 0
  | r+1 => sumBefore f r + f r

namespace Ctx

def before (c : Ctx) (r : Nat) : Nat := sumBefore c.requested r

def count (c : Ctx) (r : Nat) : Nat :=
  if c.stage.holding && decide (r ≤ c.rangeIdx) then min (c.requested r) (c.total - c.before r) else 0

def Part (c : Ctx) (r q : Nat) : Prop := c.base r ≤ q ∧ q < c.base r + c.count r

variable {c : Ctx} {r r' q : Nat}

theorem before_mono (h : r ≤ r') : c.before r ≤ c.before r' := by
  induction h with
  | refl => exact le_rfl
  | step _ ih => exact le_trans ih (Nat.le_add_right _ _)

theorem count_holding (hh : c.stage.holding = true) (hr : r ≤ c.rangeIdx) :
    c.count r = min (c.requested r) (c.total - c.before r) := by
  unfold count
  simp [hh,hr]

theorem count_eq_zero (h : c.total ≤ c.before r) : c.count r = 0 := by
  unfold count
  split
  · rw [Nat.sub_eq_zero_of_le h,Nat.min_zero]
  · rfl

theorem part_le (h : c.Part r q) : r ≤ c.rangeIdx := by
  by_contra hr
  have h0 : c.count r = 0 := by
    unfold count
    simp [hr]
  have := h.2
  have := h.1
  omega

theorem not_part_of_done (hh : c.stage.holding = false) : ¬c.Part r q := by
  rintro ⟨h1,h2⟩
  unfold count at h2
  simp only [hh,Bool.false_and,Bool.false_eq_true,if_false,add_zero] at h2
  omega

end Ctx

inductive Holder where
  | range (i r : Nat)
  | table (i k : Nat)
  | ctx (h r : Nat)
  deriving DecidableEq

def Smmu.Range (m : Smmu) (r q : Nat) : Prop :=
  m.tab.state = .active ∧ r < psmmuMemRangeNum ∧ m.pa r ≤ q ∧ q < m.pa r + m.size r

namespace Rmm

variable {s : Rmm}

def Holds (s : Rmm) : Holder → Nat → Prop
  | .range i r, q => (s.smmu i).Range r q
  | .table i k, q => (s.smmu i).tab.l1 k = some q
  | .ctx h r, q => ∃ c, s.sro h = some c ∧ c.Part r q

def ledger (s : Rmm) : Ledger Holder Nat where
  holds := s.Holds
  kept := fun q => (s.granule q).kept
  taken := s.donated
  given := s.returned

def withBooks (s : Rmm) (granule : Nat → GranuleState) (returned : Nat → Nat) : Rmm :=
  { s with granule := granule,returned := returned }

theorem memoryReclaim_books (c : Ctx) (s : Rmm) (n r remaining : Nat) :
    ∃ g f, memoryReclaim c s n r remaining = s.withBooks g f := by
  induction n generalizing s r remaining with
  | zero => exact ⟨s.granule,s.returned,rfl⟩
  | succ n ih =>
    simp only [memoryReclaim]
    split
    · exact ⟨_,_,rfl⟩
    · obtain ⟨g,f,h⟩ := ih (s.giveBack (c.base r) (min (c.requested r) remaining)) (r+1)
        (remaining - min (c.requested r) remaining)
      exact ⟨g,f,h⟩

theorem giveBack_in {base n q : Nat} (h : base ≤ q ∧ q < base+n) :
    (s.giveBack base n).granule q = .delegated ∧ (s.giveBack base n).returned q = s.returned q + 1 :=
  ⟨if_pos h,if_pos h⟩

theorem giveBack_out {base n q : Nat} (h : ¬(base ≤ q ∧ q < base+n)) :
    (s.giveBack base n).granule q = s.granule q ∧ (s.giveBack base n).returned q = s.returned q :=
  ⟨if_neg h,if_neg h⟩

theorem memoryReclaim_spec {c : Ctx} (hh : c.stage.holding = true) {q n r : Nat} {s : Rmm}
    (hn : n+r = c.rangeIdx+1) :
    ((∀ j, r ≤ j → ¬c.Part j q) → (memoryReclaim c s n r (c.total - c.before r)).granule q = s.granule q ∧
      (memoryReclaim c s n r (c.total - c.before r)).returned q = s.returned q) ∧
    (∀ j, r ≤ j → c.Part j q → (∀ j', c.Part j' q → j' = j) →
      (memoryReclaim c s n r (c.total - c.before r)).granule q = .delegated ∧
      (memoryReclaim c s n r (c.total - c.before r)).returned q = s.returned q + 1) := by
  induction n generalizing s r with
  | zero =>
    refine ⟨fun _ => ⟨rfl,rfl⟩,fun j hj hp _ => ?_⟩
    have := Ctx.part_le hp
    omega
  | succ n ih =>
    have hr : r ≤ c.rangeIdx := by omega
    have hcount := Ctx.count_holding hh hr
    have hbefore : c.before (r+1) = c.before r + c.requested r := rfl
    simp only [memoryReclaim]
    rw [← hcount]
    have hpart : (c.base r ≤ q ∧ q < c.base r + c.count r) ↔ c.Part r q := Iff.rfl
    split
    next hz =>
      have hdone : ∀ j, r < j → ¬c.Part j q := fun j hj hp => by
        have h0 : c.count j = 0 :=
          Ctx.count_eq_zero (le_trans (by omega) (Ctx.before_mono (show r+1 ≤ j from hj)))
        have := hp.2
        have := hp.1
        omega
      refine ⟨fun hno => giveBack_out (fun h => hno r (le_refl r) h),fun j hj hp _ => ?_⟩
      rcases Nat.lt_or_eq_of_le hj with hlt | rfl
      · exact absurd hp (hdone j hlt)
      · exact giveBack_in hp
    next hz =>
    have hrem : c.total - c.before r - c.count r = c.total - c.before (r+1) := by omega
    rw [hrem]
    obtain ⟨ih1,ih2⟩ := ih (r := r+1) (by omega)
    refine ⟨fun hno => ?_,fun j hj hp hone => ?_⟩
    · have hout := giveBack_out (s := s) fun h => hno r (le_refl r) h
      obtain ⟨h1,h2⟩ := ih1 fun j hj => hno j (by omega)
      exact ⟨h1.trans hout.1,h2.trans hout.2⟩
    rcases Nat.lt_or_eq_of_le hj with hlt | rfl
    · have hnot : ¬c.Part r q := fun h => ne_of_lt hlt (hone r h)
      have hout := giveBack_out (s := s) hnot
      obtain ⟨h1,h2⟩ := ih2 j hlt hp hone
      exact ⟨h1,h2.trans (by rw [hout.2])⟩
    · have hin := giveBack_in (s := s) hp
      obtain ⟨h1,h2⟩ := ih1 fun j' hj' hp' => by
        have := hone j' hp'
        omega
      exact ⟨h1.trans hin.1,h2.trans hin.2⟩

end Rmm

structure Handshake.Starts (hs : Handshake) : Prop where
  cmdq : hs.first.cmdqEn = true
  evtq : hs.second.evtqEn = true
  inval : hs.inval = none
  smmu : hs.third.smmuEn = true

structure Handshake.Stops (hs : Handshake) : Prop where
  smmu : hs.first.smmuEn = true ∨ hs.second.smmuEn = true ∨ hs.third.smmuEn = true
  cmdq : hs.second.cmdqEn = true ∨ hs.third.cmdqEn = true
  evtq : hs.third.evtqEn = true

namespace Smmu

variable {m m' : Smmu} {hs : Handshake}

theorem smmuOn_starts (h : hs.Starts) : ∃ a, m.smmuOn hs = ({ m.forget with cr0 := allOn,ack := a },none) := by
  obtain ⟨⟨f1,f2,f3⟩,⟨g1,g2,g3⟩,⟨k1,k2,k3⟩,inval⟩ := hs
  obtain ⟨h1,h2,h3,h4⟩ := h
  simp only at h1 h2 h3 h4
  subst h1 h2 h3 h4
  simp [smmuOn,writeCr0,waitForAck,forget,Enables.mask,Enables.select,cmdqOn,queuesOn,evtqBit,smmuBit,allOn]

theorem activate_starts (h : hs.Starts) :
    ∃ a, m.activate hs = ({ m.forget.setState .active with cr0 := allOn,ack := a },none) := by
  obtain ⟨a,ha⟩ := smmuOn_starts h
  refine ⟨a,?_⟩
  unfold activate
  rw [ha]
  rfl

structure Removed (m m' : Smmu) : Prop where
  tab : m'.tab = m.tab
  size : m'.size = m.size
  pa : m'.pa = m.pa
  cr0 : m'.cr0 = allOff
  ack : m'.ack = allOff
  cached : ∀ k, m'.cached k = m.cached k ∨ m'.cached k = none

theorem smmuOff_stops (h : hs.Stops) : Removed m (m.smmuOff hs).unmap := by
  obtain ⟨⟨f1,f2,f3⟩,⟨g1,g2,g3⟩,⟨k1,k2,k3⟩,inval⟩ := hs
  obtain ⟨h1,h2,h3⟩ := h
  simp only at h1 h2 h3
  cases inval with
  | none =>
    refine ⟨?_,?_,?_,?_,?_,fun k => .inr ?_⟩ <;>
      simp [smmuOff,unmap,writeCr0,waitForAck,forget,allOff,apply_ite Prod.fst,Enables.select]
    rcases h1 with h1 | h1 | h1 <;> rcases h2 with h2 | h2 <;> simp [h1,h2,h3]
  | some e =>
    refine ⟨?_,?_,?_,?_,?_,fun k => .inl ?_⟩ <;>
      simp [smmuOff,unmap,writeCr0,waitForAck,allOff,apply_ite Prod.fst,Enables.select]
    rcases h1 with h1 | h1 | h1 <;> rcases h2 with h2 | h2 <;> simp [h1,h2,h3]

structure Installed (m : Smmu) (base : Nat → Nat) (m' : Smmu) : Prop where
  tab : m'.tab = { m.tab with l1 := fun _ => none,state := .active }
  size : m'.size = m.size
  pa : ∀ r, r < psmmuMemRangeNum → m'.pa r = base r
  cached : ∀ k, m'.cached k = none

structure Undone (m m' : Smmu) : Prop where
  tab : m'.tab = m.tab ∨ m'.tab = { m.tab with l1 := fun _ => none }
  size : m'.size = m.size
  cr0 : m'.cr0 = m.cr0
  ack : m'.ack = m.ack
  cached : m'.cached = m.cached

end Smmu

def createdTable (t : StreamTable) (k pa : Nat) : StreamTable :=
  { ((t.clearTable k).setL1 k (some pa)).setRefcount k 0 with l1Refcnt := t.l1Refcnt+1 }

def removedTable (t : StreamTable) (k : Nat) : StreamTable :=
  { t.setL1 k none with l1Refcnt := t.l1Refcnt-1 }

namespace Smmu

variable {m : Smmu} {sid pa : Nat} {e : Option Errno}

def withTable (m : Smmu) (t : StreamTable) : Smmu := { m with tab := t }

def withDescriptor (m : Smmu) (k : Nat) (pa : Option Nat) (t : StreamTable) : Smmu :=
  { m with tab := t,cached := Function.update m.cached k pa }

theorem registerStL2_cases : (∃ x, m.registerStL2 sid pa e none = (m,some x)) ∨ m.registerStL2 sid pa e none =
      (m.withDescriptor (l1stdIdx sid) (some pa) (createdTable m.tab (l1stdIdx sid) pa),none) ∧
    m.tab.state = .active ∧ m.tab.l1 (l1stdIdx sid) = none := by
  unfold registerStL2 StreamTable.registerStL2
  by_cases hst : m.tab.state = .active
  · cases hl : m.tab.l1 (l1stdIdx sid) with
    | some q => exact .inl ⟨.einval,by simp [hst,hl]⟩
    | none =>
      cases e with
      | some x => exact .inl ⟨x,by simp [hst,hl]⟩
      | none => exact .inr ⟨by simp [hst,hl]; rfl,hst,rfl⟩
  · exact .inl ⟨.einval,by simp [hst]⟩

theorem releaseStL2_cases : (∃ x, m.releaseStL2 sid none = (m,none,some x)) ∨ ∃ q, m.releaseStL2 sid none =
      (m.withDescriptor (l1stdIdx sid) none (removedTable m.tab (l1stdIdx sid)),some q,none) ∧
    m.tab.state = .active ∧ m.tab.l1 (l1stdIdx sid) = some q ∧ m.tab.refcount (l1stdIdx sid) = 0 := by
  unfold releaseStL2 StreamTable.releaseStL2
  by_cases hst : m.tab.state = .active
  · cases hl : m.tab.l1 (l1stdIdx sid) with
    | none => exact .inl ⟨.einval,by simp [hst,hl]⟩
    | some q =>
      by_cases hr : m.tab.refcount (l1stdIdx sid) = 0
      · exact .inr ⟨q,by simp [hst,hl,hr]; rfl,hst,rfl,hr⟩
      · exact .inl ⟨.einval,by simp [hst,hl,hr]⟩
  · exact .inl ⟨.einval,by simp [hst]⟩

end Smmu

namespace Ctx

def give (c : Ctx) (base n : Nat) : Ctx :=
  { c with base := Function.update c.base c.rangeIdx base,total := c.total+n }

def advance (c : Ctx) : Ctx :=
  if c.stage = .activateStart then
    if c.rangeIdx+1 < psmmuMemRangeNum then { c with rangeIdx := c.rangeIdx+1,expected := .donate }
    else { c with stage := .activateFinish,expected := .proceed }
  else { c with stage := .createL2Finish,expected := .proceed }

def abandon (c : Ctx) : Ctx := { c with stage := .reclaimStart,retErr := .errorInput,expected := .reclaim }

structure Due (c : Ctx) : Prop where
  expected : c.copying = false → c.expected = c.stage.fid
  copying : c.copying = true → c.expected = .reclaim ∧ c.stage.holding = false
  sid : c.stage = .createL2Finish → ∃ sid, c.sid = some sid

end Ctx

def Stage.reclaimed : Stage → Stage
  | .deactivateStart => .deactivateFinish
  | .destroyL2Start => .destroyL2Finish
  | _ => .reclaimFinish

inductive Concludes (s : Rmm) (c : Ctx) : Rmm → Status → Prop where
  | deactivate (h : c.stage = .deactivateFinish) : Concludes s c (s.setInactive c.smmu) .success
  | destroyL2 (h : c.stage = .destroyL2Finish) : Concludes s c s .success
  | reclaim (h : c.stage = .reclaimFinish) :
      Concludes s c (if c.sid.isNone then s.setInactive c.smmu else s) c.retErr

inductive Effect (s : Rmm) : Rmm → Prop where
  | same : Effect s s
  | refuse : Effect s (s.nextSerial.report s.serial .errorInput)
  | activate (i h : Nat) (hst : (s.smmu i).tab.state = .inactive) (hh : s.sro h = none) :
      Effect s ((s.setSmmu i ((s.smmu i).setState .busy)).setSro h
        (some (s.newCtx i none .activateStart .donate (s.smmu i).size))).nextSerial
  | create (i sid h : Nat) (hsid : (s.smmu i).validateSid sid = true) (hh : s.sro h = none) :
      Effect s (s.setSro h (some (s.newCtx i (some sid) .createL2Start .donate fun _ => 1))).nextSerial
  | donate (h : Nat) (c : Ctx) (base n : Nat) (hc : s.sro h = some c) (hfid : c.stage.fid = .donate)
      (hd : s.delegated base n = true) (hn : n = c.requested c.rangeIdx) :
      Effect s ((s.take base n).setSro h (some (c.give base n).advance))
  | skip (h : Nat) (c : Ctx) (hc : s.sro h = some c) (hfid : c.stage.fid = .donate)
      (hz : c.requested c.rangeIdx = 0) : Effect s (s.setSro h (some c.advance))
  | abandon (h : Nat) (c : Ctx) (hc : s.sro h = some c) (hst : c.stage = .activateStart) :
      Effect s (s.setSro h (some c.abandon))
  | reclaim (h : Nat) (c c' : Ctx) (e : Fid) (b : Bool) (hc : s.sro h = some c) (hfid : c.stage.fid = .reclaim)
      (hc' : c' = { c with stage := c.stage.reclaimed,expected := e,copying := b }) (hdue : c'.Due) :
      Effect s ((Rmm.memoryReclaim c s (c.rangeIdx+1) 0 c.total).setSro h (some c'))
  | copy (h : Nat) (c c' : Ctx) (e : Fid) (b : Bool) (hc : s.sro h = some c) (hcopy : c.copying = true)
      (hc' : c' = { c with expected := e,copying := b }) (hdue : c'.Due) : Effect s (s.setSro h (some c'))
  | activated (h : Nat) (c : Ctx) (m : Smmu) (hc : s.sro h = some c) (hst : c.stage = .activateFinish)
      (hm : Smmu.Installed (s.smmu c.smmu) c.base m) :
      Effect s ((((s.setSmmu c.smmu m).takeEffect c.serial).setSro h none).report c.serial .success)
  | undone (h : Nat) (c : Ctx) (m : Smmu) (hc : s.sro h = some c) (hst : c.stage = .activateFinish)
      (hm : Smmu.Undone (s.smmu c.smmu) m) : Effect s ((s.setSmmu c.smmu m).setSro h (some c.abandon))
  | createdL2 (h : Nat) (c : Ctx) (sid : Nat) (hc : s.sro h = some c) (hst : c.stage = .createL2Finish)
      (hsid : c.sid = some sid) (hact : (s.smmu c.smmu).tab.state = .active)
      (hnone : (s.smmu c.smmu).tab.l1 (l1stdIdx sid) = none) :
      Effect s ((((((s.setSmmu c.smmu ((s.smmu c.smmu).withDescriptor (l1stdIdx sid) (some (c.base 0))
        (createdTable (s.smmu c.smmu).tab (l1stdIdx sid) (c.base 0)))).setGranule (c.base 0)
        .psmmuStL2).takeEffect c.serial).setSro h none).report c.serial .success))
  | refusedL2 (h : Nat) (c : Ctx) (hc : s.sro h = some c) (hst : c.stage = .createL2Finish) :
      Effect s (s.setSro h (some c.abandon))
  | conclude (h : Nat) (c : Ctx) (s' : Rmm) (st : Status) (hc : s.sro h = some c)
      (hcon : Concludes s c s' st) : Effect s ((s'.setSro h none).report c.serial st)
  | deactivate (i h : Nat) (m : Smmu) (c : Ctx) (hact : (s.smmu i).tab.state = .active) (hh : s.sro h = none)
      (hzero : (s.smmu i).tab.l1Refcnt = 0) (hm : Smmu.Removed ((s.smmu i).setState .busy) m)
      (hc : c = { s.newCtx i none .deactivateStart .reclaim m.size with
        base := m.pa
        rangeIdx := psmmuMemRangeNum-1
        total := m.size memRangeL1St + m.size memRangeCmdq + m.size memRangeEvtq }) :
      Effect s (((s.setSmmu i m).setSro h (some c)).takeEffect s.serial).nextSerial
  | destroy (i sid h pa : Nat) (c : Ctx) (hsid : (s.smmu i).validateSid sid = true)
      (hact : (s.smmu i).tab.state = .active) (hh : s.sro h = none)
      (hl : (s.smmu i).tab.l1 (l1stdIdx sid) = some pa) (hr : (s.smmu i).tab.refcount (l1stdIdx sid) = 0)
      (hc : c = { s.newCtx i (some sid) .destroyL2Start .reclaim (fun _ => 1) with
        base := Function.update (fun _ => 0) 0 pa
        total := 1 }) :
      Effect s (((((s.setSmmu i ((s.smmu i).withDescriptor (l1stdIdx sid) none
        (removedTable (s.smmu i).tab (l1stdIdx sid)))).setGranule pa .internal).takeEffect
        s.serial).nextSerial).setSro h (some c))
  | attach (i sid : Nat) (hready : (s.smmu i).tab.ready sid = true) (hz : (s.smmu i).tab.ste sid = .zero) :
      Effect s ((s.setTable i (configuredTable (s.smmu i).tab sid)).setAttached i sid true)
  | detach (i sid : Nat) (ha : s.attached i sid = true) :
      Effect s ((s.setTable i (releasedTable (s.smmu i).tab sid)).setAttached i sid false)
  | toggle (i sid : Nat) (b : Bool) :
      Effect s (s.setTable i (toggledTable (s.smmu i).tab sid b))
  | elsewhere (q : Nat) (g : GranuleState) (hq : (s.granule q).kept = false) (hg : g.kept = false) :
      Effect s (s.setGranule q g)

def Allowed (s : Rmm) : Command → Prop
  | .deactivate _ _ hs => hs.Stops
  | .stL2Destroy _ _ _ inval => inval = none
  | .memDonate h d => ∀ c base n, s.sro h = some c → c.stage = .createL2Start →
      d.reduceContigBlock = some (base,n) → s.delegated base n = true
  | .proceed h f => ∀ c, s.sro h = some c →
      (c.stage = .activateFinish → f.l1 = none → f.queues = none → f.hs.Starts) ∧
      (c.stage = .createL2Finish → f.inval = none)
  | .detach _ _ inval => inval = none
  | _ => True

namespace Rmm

variable {s : Rmm} {i h sid : Nat} {slot : Option Nat}

theorem setSmmu_self : s.setSmmu i (s.smmu i) = s := by
  unfold setSmmu
  rw [Function.update_eq_self]

theorem setSro_self {c : Ctx} (hc : s.sro h = some c) : s.setSro h (some c) = s := by
  unfold setSro
  rw [← hc,Function.update_eq_self]

theorem setTable_self : s.setTable i (s.smmu i).tab = s := setSmmu_self

theorem setState_back {st : PsmmuState} (hst : (s.smmu i).tab.state = st) (st' : PsmmuState) :
    (s.setSmmu i ((s.smmu i).setState st')).setSmmu i
      (((s.setSmmu i ((s.smmu i).setState st')).smmu i).setState st) = s := by
  subst hst
  simp only [setSmmu,Smmu.setState,Function.update_self,Function.update_idem]
  rw [Function.update_eq_self]

theorem reserve_some (hr : s.reserve slot = some h) : s.sro h = none := by
  unfold reserve at hr
  split at hr
  · split at hr
    next hn =>
      cases hr
      simpa using hn
    · cases hr
  · cases hr

theorem psmmuActivate_effect {b : Bool} : Effect s (s.psmmuActivate i b slot).1 := by
  unfold psmmuActivate
  split
  · exact .same
  split
  · exact .same
  split
  · exact .same
  next hst =>
  have hst := not_not.mp hst
  extract_lets s₁
  split
  · rw [setState_back hst]
    exact .same
  next h hr => exact .activate i h hst (reserve_some hr)

theorem psmmuDeactivate_effect {hs : Handshake} (hstop : hs.Stops) : Effect s (s.psmmuDeactivate i slot hs).1 := by
  unfold psmmuDeactivate
  split
  · exact .same
  split
  · exact .same
  next hst =>
  have hst := not_not.mp hst
  extract_lets s₁
  have hs₁ : s₁.smmu i = (s.smmu i).setState .busy := Function.update_self ..
  split
  · rw [setState_back hst]
    exact .same
  next h hr =>
  have hh : s.sro h = none := reserve_some hr
  split
  · rw [setState_back hst]
    exact .refuse
  next m hm =>
  unfold Smmu.deactivate at hm
  split at hm
  · cases hm
  next hz =>
  cases hm
  have hzero : (s.smmu i).tab.l1Refcnt = 0 := by
    have := not_not.mp hz
    rw [hs₁] at this
    exact this
  have hrem : Smmu.Removed ((s.smmu i).setState .busy) ((s₁.smmu i).smmuOff hs).unmap := by
    rw [hs₁]
    exact Smmu.smmuOff_stops hstop
  have hset : ∀ m, s₁.setSmmu i m = s.setSmmu i m := fun m => by
    simp only [s₁,setSmmu,Function.update_idem]
  simp only [hset]
  exact .deactivate i h _ _ hst hh hzero hrem rfl

theorem psmmuStL2Create_effect : Effect s (s.psmmuStL2Create i sid slot).1 := by
  unfold psmmuStL2Create
  split
  · exact .same
  split
  · exact .same
  next hsid =>
  split
  · exact .same
  next h hr => exact .create i sid h (by simpa using hsid) (reserve_some hr)

theorem psmmuStL2Destroy_effect : Effect s (s.psmmuStL2Destroy i sid slot none).1 := by
  unfold psmmuStL2Destroy
  split
  · exact .same
  split
  · exact .same
  next hsid =>
  split
  · exact .same
  next h hr =>
  have hh := reserve_some hr
  rcases @Smmu.releaseStL2_cases (s.smmu i) sid with ⟨x,hx⟩ | ⟨pa,hx,hact,hl,href⟩
  · rw [hx]
    show Effect s ((s.setSmmu i (s.smmu i)).nextSerial.report s.serial .errorInput)
    rw [setSmmu_self]
    exact .refuse
  · rw [hx]
    exact .destroy i sid h pa _ (by simpa using hsid) hact hh hl href rfl

end Rmm

namespace Ctx

variable {c : Ctx}

theorem fid_donate (h : c.stage.fid = .donate) : c.stage = .activateStart ∨ c.stage = .createL2Start := by
  cases hs : c.stage <;> simp [hs,Stage.fid] at h ⊢

theorem Due.plain (hdue : c.Due) {e : Fid} (he : c.expected = e) (hne : e ≠ .reclaim) :
    c.copying = false ∧ c.stage.fid = e := by
  have hcopy : c.copying = false := by
    by_contra hcopy
    exact hne (he.symm.trans (hdue.copying (Bool.eq_true_of_not_eq_false hcopy)).1)
  exact ⟨hcopy,(hdue.expected hcopy).symm.trans he⟩

end Ctx

namespace Rmm

variable {s : Rmm} {h : Nat} {c : Ctx} {d : Donation} {copied : Copied} {f : Finish} {i sid : Nat}

theorem reduce_all {base n : Nat} (hd : d.reduceContigBlock = some (base,n))
    (hsize : ¬(d.reduceContigBlock.any fun b => b.2 ≠ c.requested c.rangeIdx) = true) : n = c.requested c.rangeIdx := by
  rw [hd] at hsize
  simpa using hsize

theorem opMemDonate_effect (hdue : ∀ c, s.sro h = some c → c.Due)
    (hg : Allowed s (.memDonate h d)) : Effect s (s.opMemDonate h d).1 := by
  unfold opMemDonate
  split
  · exact .same
  next c hc =>
  split
  · exact .same
  next he =>
  split
  · exact .same
  split
  · exact .same
  next hsize =>
  have he := not_not.mp he
  obtain ⟨hcopy,hfid⟩ := (hdue c hc).plain he (by simp)
  have hself : s.sealCtx h c .donate = s := by
    unfold sealCtx
    have : ({ c with expected := Reply.donate.expected } : Ctx) = c := by rw [Reply.expected,← he]
    rw [this,setSro_self hc]
  unfold donateCallback
  rcases Ctx.fid_donate hfid with hst | hst <;> rw [hst] <;>
    simp only [activateStart,createL2Start,memoryDonate]
  · cases hd : d.reduceContigBlock with
    | none =>
      by_cases hz : 0 < c.requested c.rangeIdx
      · simp only [hz,if_true,Reply.status,report]
        rw [hself]
        exact .same
      simp only [hz,if_false]
      have := Effect.skip h c hc hfid (by omega)
      unfold Ctx.advance at this
      rw [if_pos hst] at this
      split
      next hlt => rwa [if_pos hlt] at this
      next hlt => rwa [if_neg hlt] at this
    | some p =>
      obtain ⟨base,n⟩ := p
      have hn := reduce_all hd hsize
      by_cases hdel : s.delegated base n = true
      · simp only [hdel,if_true]
        have := Effect.donate h c base n hc hfid hdel hn
        unfold Ctx.advance at this
        rw [if_pos (show (c.give base n).stage = .activateStart from hst)] at this
        split
        next hlt => rwa [if_pos (show (c.give base n).rangeIdx + 1 < psmmuMemRangeNum from hlt)] at this
        next hlt => rwa [if_neg (show ¬(c.give base n).rangeIdx + 1 < psmmuMemRangeNum from hlt)] at this
      · simp only [hdel]
        exact .abandon h c hc hst
  · cases hd : d.reduceContigBlock with
    | none =>
      by_cases hz : 0 < c.requested c.rangeIdx
      · simp only [hz,if_true,Reply.status,report]
        rw [hself]
        exact .same
      simp only [hz,if_false]
      have := Effect.skip h c hc hfid (by omega)
      unfold Ctx.advance at this
      rwa [if_neg (by rw [hst]; simp)] at this
    | some p =>
      obtain ⟨base,n⟩ := p
      have hn := reduce_all hd hsize
      have hdel := hg c base n hc hst hd
      simp only [hdel,if_true]
      have := Effect.donate h c base n hc hfid hdel hn
      unfold Ctx.advance at this
      rwa [if_neg (show ¬(c.give base n).stage = .activateStart by
        rw [show (c.give base n).stage = c.stage from rfl,hst]; simp)] at this

theorem copyOut_effect {s' : Rmm} {c : Ctx} (hfin : c.stage.fid = .proceed)
    (hhold : c.stage.holding = false)
    (hnext : ∀ c' e b, c' = { c with expected := e,copying := b } → c'.Due → Effect s (s'.setSro h (some c'))) :
    Effect s (s'.copyOut h c copied).1 := by
  have hsid : c.stage = .createL2Finish → ∃ x, c.sid = some x := fun hst => by
    rw [hst] at hhold
    cases hhold
  unfold copyOut
  cases copied with
  | failed | some => exact hnext _ _ _ rfl ⟨nofun,fun _ => ⟨rfl,hhold⟩,hsid⟩
  | all => exact hnext _ _ _ rfl ⟨fun _ => hfin.symm,nofun,hsid⟩

theorem stage_done {st : Stage} (h : st.holding = false) : st.fid = .proceed := by
  cases st <;> simp [Stage.holding] at h <;> rfl

theorem opMemReclaim_effect {room : Bool} (hdue : ∀ c, s.sro h = some c → c.Due) :
    Effect s (s.opMemReclaim h room copied).1 := by
  unfold opMemReclaim
  split
  · exact .same
  next c hc =>
  split
  · exact .same
  next he =>
  split
  · exact .same
  split
  next hcopy =>
    have hhold := ((hdue c hc).copying hcopy).2
    exact copyOut_effect (stage_done hhold) hhold fun c' e b hc' hd => .copy h c c' e b hc hcopy hc' hd
  next hcopy =>
  have he := not_not.mp he
  have hfid : c.stage.fid = .reclaim := ((hdue c hc).expected (Bool.eq_false_of_not_eq_true hcopy)).symm.trans he
  have hback : s.reclaimCallback c =
      (memoryReclaim c s (c.rangeIdx+1) 0 c.total,{ c with stage := c.stage.reclaimed },.proceed) := by
    unfold reclaimCallback
    cases hst : c.stage <;> simp [hst,Stage.fid] at hfid <;> rfl
  have hhold : c.stage.reclaimed.holding = false := by
    cases hst : c.stage <;> rfl
  rw [hback]
  simp only
  split
  · refine .reclaim h c _ _ _ hc hfid rfl ⟨fun _ => (stage_done hhold).symm,fun hc => absurd hc hcopy,fun hst => ?_⟩
    rw [show c.stage.reclaimed = .createL2Finish from hst] at hhold
    cases hhold
  · exact copyOut_effect (stage_done hhold) hhold fun c' e b hc' hd => .reclaim h c c' e b hc hfid hc' hd

theorem activateFinish_effect (hstart : f.l1 = none → f.queues = none → f.hs.Starts) :
    (∃ m, Smmu.Undone (s.smmu c.smmu) m ∧
      s.activateFinish c f = (s.setSmmu c.smmu m,Rmm.prepareReclaim c .reclaimStart .errorInput,.reclaim)) ∨
    ∃ m, Smmu.Installed (s.smmu c.smmu) c.base m ∧
      s.activateFinish c f = ((s.setSmmu c.smmu m).takeEffect c.serial,c,.finished .success) := by
  unfold activateFinish
  cases hl : f.l1 with
  | some e =>
    simp only [Smmu.registerStL1]
    refine .inl ⟨_,?_,rfl⟩
    exact ⟨.inl rfl,rfl,rfl,rfl,rfl⟩
  | none =>
    simp only [Smmu.registerStL1]
    cases hq : f.queues with
    | some e =>
      simp only [Smmu.registerQueues]
      refine .inl ⟨_,?_,rfl⟩
      exact ⟨.inr rfl,rfl,rfl,rfl,rfl⟩
    | none =>
      simp only [Smmu.registerQueues]
      have hrange : ∀ r, r < psmmuMemRangeNum → r = memRangeL1St ∨ r = memRangeCmdq ∨ r = memRangeEvtq :=
        fun r hr => by
          unfold psmmuMemRangeNum at hr
          unfold memRangeL1St memRangeCmdq memRangeEvtq
          omega
      split
      next m₃ e hm₃ =>
        obtain ⟨a,ha⟩ := Smmu.activate_starts (hstart hl hq)
        rw [ha] at hm₃
        cases hm₃
      next m₃ hm₃ =>
      obtain ⟨a,ha⟩ := Smmu.activate_starts (hstart hl hq)
      rw [ha] at hm₃
      cases hm₃
      refine .inr ⟨_,?_,rfl⟩
      refine ⟨rfl,rfl,fun r hr => ?_,fun _ => rfl⟩
      rcases hrange r hr with rfl | rfl | rfl <;> rfl

theorem opContinue_effect (hdue : ∀ c, s.sro h = some c → c.Due)
    (hg : Allowed s (.proceed h f)) : Effect s (s.opContinue h f).1 := by
  unfold opContinue
  split
  · exact .same
  next c hc =>
  split
  · exact .same
  next he =>
  obtain ⟨_,hfid⟩ := (hdue c hc).plain (not_not.mp he) (by simp)
  obtain ⟨hstart,hinval⟩ := hg c hc
  cases hst : c.stage with
  | activateStart | createL2Start | deactivateStart | destroyL2Start | reclaimStart => rw [hst] at hfid; cases hfid
  | activateFinish =>
    have hback : s.continueCallback c f = s.activateFinish c f := by
      unfold continueCallback
      rw [hst]
    rw [hback]
    rcases activateFinish_effect (hstart hst) with ⟨m,hm,hx⟩ | ⟨m,hm,hx⟩ <;> rw [hx]
    · exact .undone h c m hc hst hm
    · exact .activated h c m hc hst hm
  | createL2Finish =>
    obtain ⟨sid,hsid⟩ := (hdue c hc).sid hst
    have hback : s.continueCallback c f = s.createL2Finish c sid f := by
      unfold continueCallback
      rw [hst,hsid]
    rw [hback]
    unfold createL2Finish
    rw [hinval hst]
    rcases @Smmu.registerStL2_cases (s.smmu c.smmu) sid (c.base 0) f.l2 with ⟨x,hx⟩ | ⟨hx,hact,hnone⟩ <;>
      rw [hx]
    · show Effect s ((s.setSmmu c.smmu (s.smmu c.smmu)).setSro h (some c.abandon))
      rw [setSmmu_self]
      exact .refusedL2 h c hc hst
    · exact .createdL2 h c sid hc hst hsid hact hnone
  | deactivateFinish =>
    have hback : s.continueCallback c f = (s.setInactive c.smmu,c,.finished .success) := by
      unfold continueCallback
      rw [hst]
    rw [hback]
    exact .conclude h c _ _ hc (.deactivate hst)
  | destroyL2Finish =>
    have hback : s.continueCallback c f = (s,c,.finished .success) := by
      unfold continueCallback
      rw [hst]
    rw [hback]
    exact .conclude h c _ _ hc (.destroyL2 hst)
  | reclaimFinish =>
    have hback : s.continueCallback c f = s.reclaimFinish c := by
      unfold continueCallback
      rw [hst]
    rw [hback]
    exact .conclude h c _ _ hc (.reclaim hst)

theorem vdevAttach_effect {inval : Option Errno} : Effect s (s.vdevAttach i sid inval) := by
  unfold vdevAttach
  rcases @configureStream_cases (s.smmu i).tab sid inval with ⟨x,hx⟩ | ⟨hx,hready,hz⟩ <;> rw [hx]
  · show Effect s (s.setTable i (s.smmu i).tab)
    rw [setTable_self]
    exact .same
  · exact .attach i sid hready hz

theorem vdevDetach_effect : Effect s (s.vdevDetach i sid none) := by
  unfold vdevDetach
  split
  · exact .same
  next ha =>
  rcases @releaseSte_cases (s.smmu i).tab sid none with hx | hx <;> rw [hx]
  · show Effect s (s.setTable i (s.smmu i).tab)
    rw [setTable_self]
    exact .same
  · exact .detach i sid (by simpa using ha)

theorem vdevToggle_effect {b : Bool} {inval prefetch : Option Errno} : Effect s (s.vdevToggle i sid b inval prefetch) := by
  unfold vdevToggle
  split
  · exact .same
  rcases @changeSte_cases (s.smmu i).tab sid b inval prefetch with hx | ⟨hx,_⟩ <;> rw [hx]
  · rw [setTable_self]
    exact .same
  · exact .toggle i sid b

theorem elsewhere_effect {q : Nat} {g : GranuleState} : Effect s (s.elsewhere q g) := by
  unfold elsewhere
  split
  · exact .same
  next hk =>
    simp only [Bool.or_eq_true,not_or,Bool.not_eq_true] at hk
    exact .elsewhere q g hk.1 hk.2

theorem exec_effect {cmd : Command} (hdue : ∀ h c, s.sro h = some c → c.Due) (hg : Allowed s cmd) :
    Effect s (s.exec cmd).1 := by
  cases cmd with
  | activate i b slot => exact psmmuActivate_effect
  | deactivate i slot hs => exact psmmuDeactivate_effect hg
  | stL2Create i sid slot => exact psmmuStL2Create_effect
  | stL2Destroy i sid slot inval =>
    cases (show inval = none from hg)
    exact psmmuStL2Destroy_effect
  | memDonate h d => exact opMemDonate_effect (hdue h) hg
  | memReclaim h room copied => exact opMemReclaim_effect (hdue h)
  | proceed h f => exact opContinue_effect (hdue h) hg
  | cancel h => exact .same
  | attach i sid inval => exact vdevAttach_effect
  | detach i sid inval =>
    cases (show inval = none from hg)
    exact vdevDetach_effect
  | toggle i sid b inval prefetch => exact vdevToggle_effect
  | elsewhere q g => exact elsewhere_effect

end Rmm

end TfRmm.Psmmu
