import TfRmm.Lib.Bytes
import TfRmm.Comm.Commands

namespace TfRmm.Tdisp

open TfRmm.Lib TfRmm.Comm

abbrev Nonce := { bs : List UInt8 // bs.length = 64 }

def Nonce.zero : Nonce := ⟨List.replicate 64 0,List.length_replicate⟩

inductive CacheType where
  | vca
  | cert
  | meas
  | interfaceReport
  | none
  deriving DecidableEq

def CacheType.code : CacheType → Nat
  | .vca => 1
  | .cert => 2
  | .meas => 3
  | .interfaceReport => 4
  | .none => 255

structure Digest where
  kind : CacheType
  value : List UInt8
  bounded : value.length ≤ 64

inductive InterfaceState where
  | configUnlocked
  | configLocked
  | run
  | error
  | reserved (n : Nat)
  deriving DecidableEq

variable (b : Nat)

def paramAt : Nat := b

def tdiAt : Nat := b+4

def nonceAt : Nat := b+8

def validAt : Nat := b+72

def outputAt : Nat := b+73

def measAt : Nat := b+4

def enterBase : Nat := 256

def exitBase : Nat := 332

def infoBase : Nat := 0

def digestAt : Nat := 256

def digestLenAt : Nat := 320

def digestTypeAt : Nat := 328

def paramTdisp : List UInt8 := le 4 1

def paramMeas : List UInt8 := le 4 2

def copyEnterArgs (page info : Memory) : Memory :=
  let param := page.read (paramAt enterBase) 4
  let info := info.write (paramAt infoBase) param
  if param = paramTdisp then
    let info := info.write (validAt infoBase) (page.read (validAt enterBase) 1)
    let info := info.write (tdiAt infoBase) (page.read (tdiAt enterBase) 4)
    if page (validAt enterBase) ≠ 0 ∧ page (outputAt enterBase) = 0 then
      info.write (nonceAt infoBase) (page.read (nonceAt enterBase) 64)
    else info
  else if param = paramMeas then
    info.write (measAt infoBase) (page.read (measAt enterBase) 33)
  else info

def copyBackDigest (d : Option Digest) (page : Memory) : Memory :=
  match d with
  | some d =>
    ((page.write digestLenAt (le 8 d.value.length)).write digestTypeAt (le 4 d.kind.code)).write
      digestAt d.value
  | none => (page.write digestLenAt (le 8 0)).write digestTypeAt (le 4 CacheType.none.code)

def copyBackExitArgs (info : Memory) (d : Option Digest) (page : Memory) : Memory :=
  let param := info.read (paramAt infoBase) 4
  let page := (copyBackDigest d page).write (paramAt exitBase) param
  if param = paramTdisp then
    let page := page.write (outputAt exitBase) (info.read (outputAt infoBase) 1)
    if info (outputAt infoBase) ≠ 0 then
      page.write (nonceAt exitBase) (info.read (nonceAt infoBase) 64)
    else page
  else page

inductive Await where
  | version
  | capabilities
  | unlockedState
  | lock
  | lockedState
  | report
  | startState
  | start
  | runState
  | stop
  | stopState
  | measurements
  | last
  deriving DecidableEq

inductive Reply where
  | again
  | fail
  | done
  | state (n : InterfaceState)
  | nonce (n : Nonce)
  deriving DecidableEq

structure App where
  info : Memory
  page : Memory
  frame : Option (Await × List UInt8)
  answer : Option (List UInt8 × InterfaceState)
  returned : Option Nonce
  sent : Option (List UInt8)

structure Turn where
  failed : Bool
  reply : Reply
  sends : Bool
  enabled : Bool
  flags : Bool
  digest : Option Digest
  services : Memory → Memory

def Turn.result (t : Turn) (w : Await) : Reply :=
  if t.failed ∧ w ≠ .report ∧ w ≠ .measurements then .fail else t.reply

inductive Next where
  | call (w : Await)
  | done (success : Bool)

namespace App

variable (a : App) (tdi : List UInt8) (t : Turn) (debug : Bool)

def output (b : UInt8) : App := { a with info := a.info.write (outputAt infoBase) [b] }

def answered (n : InterfaceState) : App := { a with answer := some (tdi,n) }

def next : Await → Reply → Option (App × Next)
  | w, .again => some (a,.call w)
  | .version, .done => some (a,.call .capabilities)
  | .capabilities, .done => some (a,.call .unlockedState)
  | .unlockedState, .state n =>
    if n ≠ .configUnlocked then some (a.answered tdi n,.done false)
    else if a.info (validAt infoBase) = 0 then none
    else some (a.answered tdi n,.call .lock)
  | .lock, .nonce n =>
    some ({ a with info := a.info.write (nonceAt infoBase) n.1,returned := some n }.output 1,
      .call .lockedState)
  | .lockedState, .state n => some (a.answered tdi n,.done (n = .configLocked))
  | .report, .done => some (a.output 0,.done true)
  | .startState, .state n => if n = .configLocked then some (a.answered tdi n,.call .start) else none
  | .start, .done => some (a.output 0,.call .runState)
  | .runState, .state n => some (a.answered tdi n,.done (n = .run))
  | .stop, .done => some (a,.call .stopState)
  | .stop, _ => some (a.output 0,.done true)
  | .stopState, .state n => some ((a.answered tdi n).output 0,.done (n = .configUnlocked))
  | .measurements, .done => some (a,.done true)
  | _, _ => some (a,.done false)

def copyBack : App :=
  { a with page := copyBackExitArgs a.info t.digest (t.services a.page) }

def copyEnter : App := { a with info := copyEnterArgs a.page a.info }

def finish (tdi : List UInt8) (success : Bool) : Status × App :=
  if success ∧ t.flags ∧ t.failed = false then
    (.blocked,{ a.copyBack t with frame := some (.last,tdi) })
  else (if success then .success else .error,{ a.copyBack t with frame := none })

def send (tdi : List UInt8) (w : Await) : Status × App :=
  (.blocked,{ a.copyBack t with
      frame := some (w,tdi)
      sent := if w = .start then some (a.info.read (nonceAt infoBase) 64) else a.sent })

def drive (tdi : List UInt8) : Next → Option (Status × App)
  | .done b => some (a.finish t tdi b)
  | .call w =>
    if t.sends then some (a.send t tdi w)
    else
      (a.next tdi w .fail).map fun r =>
        match r.2 with
        | .done b => r.1.finish t tdi b
        | .call _ => r.1.finish t tdi false

inductive Func where
  | getMeasurements
  | lock
  | report
  | start
  | stop
  deriving DecidableEq

def main (t : Turn) : Func → Option Next
  | .getMeasurements => some (.call .measurements)
  | .lock => if a.info.read (paramAt infoBase) 4 = paramTdisp then some (.call .version) else none
  | .report => if a.info.read (paramAt infoBase) 4 = paramTdisp then some (.call .report) else none
  | .start =>
    if a.info.read (paramAt infoBase) 4 ≠ paramTdisp then none
    else if t.enabled = false then some (.done false)
    else if a.info (validAt infoBase) = 0 then none
    else some (.call (if debug then .startState else .start))
  | .stop => if a.info.read (paramAt infoBase) 4 = paramTdisp then some (.call .stop) else none

def begun : App := { a.copyEnter with answer := none,returned := none,sent := none }

def run (f : Func) (t : Turn) : Option (Status × App) :=
  if a.frame.isSome then none
  else
    (a.begun.main debug t f).bind fun n =>
      a.begun.drive t (a.begun.info.read (tdiAt infoBase) 4) n

def resume : Option (Status × App) :=
  match a.frame with
  | none => none
  | some (w,tdi) =>
    if w = .last then
      some (.success,{ a.copyEnter with
          page := copyBackExitArgs a.copyEnter.info none a.page
          frame := none })
    else (a.copyEnter.next tdi w (t.result w)).bind fun r => r.1.drive t tdi r.2

def abortLoop (ts : Nat → Turn) : Nat → App → Option App
  | 0, a => some a
  | n+1, a =>
    if a.frame.isSome then
      (a.resume { ts n with failed := true }).bind fun r => abortLoop ts n r.2
    else some a

def abortMaxResumes : Nat := 16

def abortOperation (ts : Nat → Turn) : Option App := abortLoop ts abortMaxResumes a

end App

abbrev MeasParams := { bs : List UInt8 // bs.length = 33 }

inductive Params where
  | none
  | tdisp (tdi : Nat) (nonce : Option Nonce)
  | meas (params : MeasParams)

variable (page : Memory) (vd : Vdev)

def enterPage : Params → Memory
  | .none => page.write (paramAt enterBase) (le 4 0)
  | .tdisp tdi nonce =>
    let page := (page.write (paramAt enterBase) paramTdisp).write (tdiAt enterBase) (le 4 tdi)
    match nonce with
    | some n => (page.write (nonceAt enterBase) n.1).write (validAt enterBase) [1]
    | none => page.write (validAt enterBase) [0]
  | .meas params => (page.write (paramAt enterBase) paramMeas).write (measAt enterBase) params.1

def readNonce : Nonce := ⟨page.read (nonceAt exitBase) 64,page.read_length _ _⟩

def exitNonce : Params → Option (Option Nonce)
  | .tdisp _ nonce =>
    if page.read (paramAt exitBase) 4 ≠ paramTdisp then Option.none
    else if nonce.isSome ∧ page (outputAt exitBase) ≠ 0 then some (some (readNonce page))
    else some Option.none
  | _ => some Option.none

def App.communicate (a : App) (debug : Bool) (p : Params) (f : Option App.Func) (t : Turn) :
    Option (Status × App × Option Nonce) :=
  let a := { a with page := enterPage a.page p }
  (match f with
    | some f => a.run debug f t
    | none => a.resume t).bind fun r => (exitNonce r.2.page p).map fun n => (r.1,r.2,n)

structure Vdev where
  core : Comm.Vdev
  tdiId : Nat
  nonce : Nonce
  meas : MeasParams

def Vdev.tdi : Nat := vd.tdiId % 65536

def Vdev.params : Params :=
  match vd.core.op with
  | .lock | .start => .tdisp vd.tdi (some vd.nonce)
  | .getReport | .unlock => .tdisp vd.tdi none
  | .getMeas => .meas vd.meas
  | _ => .none

def Vdev.func : Option App.Func :=
  match vd.core.op with
  | .getMeas => some .getMeasurements
  | .lock => some .lock
  | .getReport => some .report
  | .start => some .start
  | .unlock => some .stop
  | _ => none

def Vdev.request (op : VdevOp) (meas : MeasParams) : Vdev where
  core := { vd.core with op := op,commState := .pending }
  tdiId := vd.tdiId
  nonce := if op = .lock then .zero else vd.nonce
  meas := if op = .getMeas then meas else vd.meas

def Vdev.failed : Vdev :=
  { vd with core := { vd.core with rmiState := .error,commState := .idle } }

structure Sys where
  app : App
  owner : Option Nat
  vdevs : Nat → Option Vdev
  runner : Option Nat
  locked : Nat → Option Nonce

structure Call where
  entered : Bool
  countable : Bool
  turn : Turn
  digested : Bool
  copied : Bool
  unwind : Nat → Turn

inductive Cmd where
  | start (v : Nat) (op : VdevOp) (valid : Bool) (meas : MeasParams)
  | communicate (v : Nat) (i : Call)
  | abort (v : Nat) (ts : Nat → Turn)

namespace Sys

variable (s : Sys) (v : Nat)

def setVdev (vd : Vdev) : Sys := { s with vdevs := Function.update s.vdevs v (some vd) }

def start (op : VdevOp) (valid : Bool) (meas : MeasParams) : Option Sys :=
  match s.vdevs v with
  | none => some s
  | some vd =>
    if valid = false ∨ vd.core.commState ≠ .idle ∨ Comm.Sys.vdevAllows op vd.core.rmiState = false then some s
    else
      some (s.setVdev v (vd.request op meas))

def settle (v : Nat) (vd : Vdev) (rc : Status) (a : App) : Option Sys :=
  (vd.core.setCommState rc a.frame.isNone).bind fun core =>
    core.settle.map fun core' =>
      { s with
        app := a
        owner := if a.frame.isNone then none else some v
        vdevs := Function.update s.vdevs v (some { vd with core := core' })
        runner := some v
        locked :=
          if vd.core.op = .lock ∧ core.commState = .idle then
            Function.update s.locked v a.returned
          else s.locked }

def finish (vd : Vdev) (i : Call) (r : Status × App × Option Nonce) : Option Sys :=
  let vd := { vd with nonce := r.2.2.getD vd.nonce }
  let rc := if r.1 = .error ∨ i.digested then r.1 else .error
  if i.copied then s.settle v vd rc r.2.1
  else (r.2.1.abortOperation i.unwind).bind fun a => s.settle v vd .error a

def communicate (debug : Bool) (v : Nat) (i : Call) : Option Sys :=
  match s.vdevs v with
  | none => some s
  | some vd =>
    if vd.core.commState = .idle ∨ vd.core.commState = .error ∨ i.countable = false ∨ i.entered = false then some s
    else if s.app.frame.isSome ∧ s.owner ≠ some v then some s
    else if vd.core.commState = .active then
      (s.app.communicate debug vd.params none i.turn).bind fun r => s.finish v vd i r
    else
      match vd.func with
      | none => none
      | some f => (s.app.communicate debug vd.params (some f) i.turn).bind fun r => s.finish v vd i r

def abort (ts : Nat → Turn) : Option Sys :=
  match s.vdevs v with
  | none => some s
  | some vd =>
    if vd.core.commState = .idle then some s
    else if s.app.frame.isSome ∧ s.owner ≠ some v then
      some (s.setVdev v vd.failed)
    else
      (s.app.abortOperation ts).map fun a =>
        if a.frame.isSome then { s with app := a }
        else
          { s with
            app := a
            owner := none
            vdevs := Function.update s.vdevs v (some vd.failed) }

def exec (debug : Bool) : Cmd → Option Sys
  | .start v op valid meas => s.start v op valid meas
  | .communicate v i => s.communicate debug v i
  | .abort v ts => s.abort v ts

def Initial : Prop :=
  s.app.frame = none ∧ s.app.sent = none ∧ (∃ info d page, s.app.page = copyBackExitArgs info d page) ∧
    ∀ v vd, s.vdevs v = some vd →
      vd.core.rmiState = .unlocked ∧ vd.core.commState = .idle ∧ vd.core.op = .none

end Sys

def system (debug : Bool) : TransitionSystem Sys Cmd where
  init := Sys.Initial
  step s c t := s.exec debug c = some t

open Memory

theorem paramTdisp_length : paramTdisp.length = 4 := le_length 4 1

theorem paramMeas_length : paramMeas.length = 4 := le_length 4 2

attribute [local simp] paramAt tdiAt nonceAt validAt outputAt measAt enterBase exitBase infoBase
  digestAt digestLenAt digestTypeAt paramTdisp_length paramMeas_length le_length Memory.read_length

theorem enterPage_output (page : Memory) (p : Params) :
    enterPage page p (outputAt enterBase) = page (outputAt enterBase) := by
  cases p with
  | none => exact write_of_outside (by simp)
  | meas params =>
    have hl : params.1.length = 33 := params.2
    simp only [enterPage]
    rw [write_of_outside (by simp [hl]),write_of_outside (by simp)]
  | tdisp tdi nonce =>
    cases nonce with
    | none =>
      simp only [enterPage]
      rw [write_of_outside (by simp),write_of_outside (by simp),write_of_outside (by simp)]
    | some n =>
      have hl : n.1.length = 64 := n.2
      simp only [enterPage]
      rw [write_of_outside (by simp),write_of_outside (by simp [hl]),write_of_outside (by simp),write_of_outside (by simp)]

theorem enterPage_head (page : Memory) (tdi : Nat) (nonce : Option Nonce) :
    (enterPage page (.tdisp tdi nonce)).read (paramAt enterBase) 4 = paramTdisp ∧
      (enterPage page (.tdisp tdi nonce)).read (tdiAt enterBase) 4 = le 4 tdi := by
  cases nonce with
  | none =>
    simp only [enterPage]
    constructor
    · rw [read_write_of_disjoint (by simp),read_write_of_disjoint (by simp),read_write (by simp)]
    · rw [read_write_of_disjoint (by simp),read_write (by simp)]
  | some n =>
    have hl : n.1.length = 64 := n.2
    simp only [enterPage]
    constructor <;> rw [read_write_of_disjoint (by simp),read_write_of_disjoint (by simp [hl])]
    · rw [read_write_of_disjoint (by simp),read_write (by simp)]
    · rw [read_write (by simp)]

theorem enterPage_nonce (page : Memory) (tdi : Nat) (n : Nonce) :
    (enterPage page (.tdisp tdi (some n))).read (nonceAt enterBase) 64 = n.1 := by
  have hl : n.1.length = 64 := n.2
  simp only [enterPage]
  rw [read_write_of_disjoint (by simp),read_write hl]

theorem enterPage_valid (page : Memory) (tdi : Nat) (n : Nonce) :
    enterPage page (.tdisp tdi (some n)) (validAt enterBase) = 1 := by
  simp only [enterPage]
  rw [write_of_inside (by simp) (by simp)]
  simp

variable {page info : Memory} {d : Option Digest}

theorem copyEnterArgs_param : (copyEnterArgs page info).read (paramAt infoBase) 4 = page.read (paramAt enterBase) 4 := by
  simp only [copyEnterArgs]
  split_ifs
  · rw [read_write_of_disjoint (by simp),read_write_of_disjoint (by simp),
      read_write_of_disjoint (by simp),read_write (by simp)]
  · rw [read_write_of_disjoint (by simp),read_write_of_disjoint (by simp),read_write (by simp)]
  · rw [read_write_of_disjoint (by simp),read_write (by simp)]
  · rw [read_write (by simp)]

section Tdisp

variable (hparam : page.read (paramAt enterBase) 4 = paramTdisp)

include hparam

theorem copyEnterArgs_tdi : (copyEnterArgs page info).read (tdiAt infoBase) 4 = page.read (tdiAt enterBase) 4 := by
  simp only [copyEnterArgs]
  rw [if_pos hparam]
  split_ifs
  · rw [read_write_of_disjoint (by simp),read_write (by simp)]
  · rw [read_write (by simp)]

theorem copyEnterArgs_nonce (hvalid : page (validAt enterBase) ≠ 0) (hout : page (outputAt enterBase) = 0) :
    (copyEnterArgs page info).read (nonceAt infoBase) 64 = page.read (nonceAt enterBase) 64 := by
  simp only [copyEnterArgs]
  rw [if_pos hparam,if_pos ⟨hvalid,hout⟩,read_write (by simp)]

end Tdisp

theorem copyBackDigest_output : copyBackDigest d page (outputAt enterBase) = 0 := by
  cases d with
  | none =>
    simp only [copyBackDigest]
    rw [write_of_inside (by simp) (by simp)]
    rfl
  | some d =>
    have hl := d.bounded
    simp only [copyBackDigest]
    rw [write_of_outside (by simp; omega),write_of_inside (by simp) (by simp)]
    cases d.kind <;> rfl

theorem copyBackExitArgs_output_enter : copyBackExitArgs info d page (outputAt enterBase) = 0 := by
  simp only [copyBackExitArgs]
  split_ifs
  · rw [write_of_outside (by simp),write_of_outside (by simp),write_of_outside (by simp),copyBackDigest_output]
  · rw [write_of_outside (by simp),write_of_outside (by simp),copyBackDigest_output]
  · rw [write_of_outside (by simp),copyBackDigest_output]

theorem copyBackExitArgs_param : (copyBackExitArgs info d page).read (paramAt exitBase) 4 =
    info.read (paramAt infoBase) 4 := by
  simp only [copyBackExitArgs]
  split_ifs
  · rw [read_write_of_disjoint (by simp),read_write_of_disjoint (by simp),read_write (by simp)]
  · rw [read_write_of_disjoint (by simp),read_write (by simp)]
  · rw [read_write (by simp)]

theorem copyBackExitArgs_output (hparam : info.read (paramAt infoBase) 4 = paramTdisp) :
    copyBackExitArgs info d page (outputAt exitBase) = info (outputAt infoBase) := by
  have hbyte : (info.read (outputAt infoBase) 1).getD 0 0 = info (outputAt infoBase) := rfl
  simp only [copyBackExitArgs]
  rw [if_pos hparam]
  split_ifs
  · rw [write_of_outside (by simp),write_of_inside (by simp) (by simp),Nat.sub_self,hbyte]
  · rw [write_of_inside (by simp) (by simp),Nat.sub_self,hbyte]

theorem copyBackExitArgs_nonce (hparam : info.read (paramAt infoBase) 4 = paramTdisp) (hout : info (outputAt infoBase) ≠ 0)
    : (copyBackExitArgs info d page).read (nonceAt exitBase) 64 = info.read (nonceAt infoBase) 64 := by
  simp only [copyBackExitArgs]
  rw [if_pos hparam,if_pos hout,read_write (by simp)]

end TfRmm.Tdisp
