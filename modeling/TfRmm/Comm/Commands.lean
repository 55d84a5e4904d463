import TfRmm.Da.System

namespace TfRmm.Comm

export TfRmm.Da (CommState VdevState VdevOp)

inductive Category where
  | endpoint
  | rootPort
  deriving DecidableEq

inductive PdevState where
  | new
  | needsKey
  | hasKey
  | ready
  | stopped
  | error
  deriving DecidableEq

inductive PdevOp where
  | none
  | connect
  | disconnect
  | stop
  | keyRefresh
  | keyPurge
  | streamComplete
  | streamAborted
  deriving DecidableEq

inductive StreamState where
  | connected
  | connecting
  | disconnected
  | disconnecting
  | keyPurging
  | keyRefreshing
  deriving DecidableEq

inductive StreamOpState where
  | none
  | start
  | rpReady
  | epReady
  | rpConnected
  deriving DecidableEq

inductive Owner where
  | pdev
  | vdev (v : Nat)
  deriving DecidableEq

def ncoh : Nat := 1

def ncohSys : Nat := 3

def cohSys : Nat := 4

def streamTypeCount : Nat := 5

structure Stream where
  taken : Bool
  state : StreamState
  pd1 : Nat
  pd2 : Nat
  opState : StreamOpState
  refreshCount : Nat
  purgeCount : Nat
  deriving DecidableEq

def Stream.zero : Stream := ⟨false,.connected,0,0,.none,0,0⟩

structure Pdev where
  category : Category
  rmiState : PdevState
  commState : CommState
  op : PdevOp
  opStreamType : Nat
  opState : StreamOpState
  streamAux : Option Nat
  streamCount : Nat
  numVdevs : Nat
  yielded : Bool
  yieldOwner : Option Owner
  operation : Nat
  task : Nat
  foreign : Bool
  deriving DecidableEq

structure Vdev where
  pdev : Nat
  rmiState : VdevState
  commState : CommState
  op : VdevOp
  operation : Nat
  deriving DecidableEq

structure Sys where
  pdevs : Nat → Option Pdev
  vdevs : Nat → Option Vdev
  streams : Nat × Nat → Stream
  clock : Nat

variable (s : Sys)

def Sys.setPdev (p : Nat) (pd : Pdev) : Sys :=
  { s with pdevs := Function.update s.pdevs p (some pd) }

def Sys.setVdev (v : Nat) (vd : Vdev) : Sys :=
  { s with vdevs := Function.update s.vdevs v (some vd) }

def Sys.setStream (k : Nat × Nat) (st : Stream) : Sys :=
  { s with streams := Function.update s.streams k st }

def Sys.tick : Sys := { s with clock := s.clock+1 }

inductive AppExit where
  | success
  | error
  | yield
  deriving DecidableEq

inductive Status where
  | success
  | error
  | blocked
  deriving DecidableEq

inductive CacheType where
  | none
  | vca
  | cert
  | meas
  | interfaceReport
  deriving DecidableEq

def CacheType.ofPdev : CacheType → Bool
  | .none | .vca | .cert => true
  | _ => false

def CacheType.ofVdev : CacheType → Bool
  | .none | .meas | .interfaceReport => true
  | _ => false

structure Exchange where
  entered : Bool
  failed : Bool
  app : AppExit
  digest : Bool
  copied : Bool
  unwinds : Bool
  digestType : CacheType
  deriving DecidableEq

def PdevOp.isStream : PdevOp → Bool
  | .connect | .disconnect | .keyRefresh | .keyPurge => true
  | _ => false

def PdevOp.finish (op : PdevOp) : PdevOp := if op.isStream then .streamComplete else .none

namespace Pdev

variable (pd : Pdev) (id : Nat)

def fresh (c : Category) (p id : Nat) : Pdev where
  category := c
  rmiState := .new
  commState := .pending
  op := .none
  opStreamType := 0
  opState := .none
  streamAux := match c with
    | .endpoint => some p
    | .rootPort => none
  streamCount := 0
  numVdevs := 0
  yielded := false
  yieldOwner := none
  operation := id
  task := 0
  foreign := false

def start (op : PdevOp) (id : Nat) : Option Pdev :=
  if pd.commState = .idle ∧ op ≠ .none then
    some { pd with op := op,commState := .pending,operation := id }
  else none

def beginKey : Option Pdev :=
  if pd.rmiState = .needsKey then
    some { pd with rmiState := .hasKey,commState := .pending,operation := id }
  else none

def completeStop : Pdev := { pd with rmiState := .stopped,op := .none,opState := .none }

def completeOperation (success : Bool) : Pdev :=
  { pd with
    commState := .idle
    rmiState :=
      if success then
        match pd.rmiState with
        | .new => if pd.category = .rootPort then .ready else .needsKey
        | .hasKey => .ready
        | r => r
      else .error
    op := pd.op.finish }

def complete (rc : Status) (unwound : Bool) : Option Pdev :=
  if pd.commState = .pending ∨ pd.commState = .active then
    match rc with
    | .blocked => some { pd with commState := .active }
    | .error =>
      if pd.op = .stop then
        if unwound then some { pd.completeStop with commState := .error }
        else some { pd with commState := .active }
      else some (pd.completeOperation false)
    | .success =>
      if pd.op = .stop then
        if unwound then some { pd.completeStop with commState := .idle } else none
      else some (pd.completeOperation true)
  else none

def commAbort : Option Pdev :=
  if pd.commState = .idle then none
  else if pd.op.isStream ∨ pd.op = .streamComplete then
    some { pd with rmiState := .error,op := .streamComplete,commState := .idle }
  else some { pd with rmiState := .error,op := .none,opState := .none,commState := .idle }

def streamComplete : Option Pdev :=
  if pd.op = .streamComplete ∨ pd.op = .streamAborted then some { pd with op := .none } else none

def leaveApp : AppExit → Status × Pdev
  | .success => (.success,{ pd with yielded := false })
  | .error => (.error,{ pd with yielded := false })
  | .yield => (.blocked,{ pd with yielded := true,task := id })

def appRun (e : AppExit) : Option (Status × Pdev) :=
  if pd.yielded then none else some (pd.leaveApp id e)

def appResume (e : AppExit) : Option (Status × Pdev) :=
  if pd.yielded then some ({ pd with foreign := pd.foreign || pd.task != id }.leaveApp id e)
  else none

def abortAppOperation (unwinds : Bool) : Pdev :=
  if pd.yielded then
    { pd with yielded := !unwinds,foreign := pd.foreign || pd.task != id }
  else pd

def abortAppIfOwner (o : Owner) (id : Nat) (unwinds : Bool) : Bool × Pdev :=
  if pd.category = .rootPort ∨ pd.yielded = false then (true,{ pd with yieldOwner := none })
  else if pd.yieldOwner ≠ some o then (true,pd)
  else if unwinds then (true,{ pd.abortAppOperation id true with yieldOwner := none })
  else (false,pd.abortAppOperation id false)

end Pdev

def copyDigest (known : CacheType → Bool) (i : Exchange) (r : Status × Pdev) : Option (Status × Pdev) :=
  if r.1 = .error then some r
  else if known i.digestType = false then none
  else if i.digestType = .none ∨ i.digest then some r
  else some (.error,r.2)

namespace Pdev

variable (pd : Pdev) (i : Exchange) (r : Status × Pdev) (vd : Vdev)

def dispatchReadyRp : Option (Status × Pdev) :=
  match pd.opState with
  | .none | .rpConnected => none
  | .start => if i.failed then some (.error,pd) else some (.blocked,{ pd with opState := .rpReady })
  | .rpReady => if i.failed then some (.error,pd) else some (.blocked,pd)
  | .epReady => if i.failed then some (.error,pd) else some (.success,{ pd with opState := .rpConnected })

def dispatchReadyEp : Option (Status × Pdev) :=
  match pd.opState with
  | .none => none
  | .start | .epReady => some (.blocked,pd)
  | .rpReady =>
    if pd.op = .connect ∨ pd.op = .disconnect ∨ pd.op = .keyRefresh then
      pd.appRun pd.operation i.app
    else none
  | .rpConnected => some (.success,pd)

def resumeEp : Option (Status × Pdev) :=
  if r.1 = .success ∧ r.2.rmiState = .ready ∧ r.2.op ≠ .none ∧ r.2.opState = .rpReady then
    copyDigest CacheType.ofPdev i (.blocked,{ r.2 with opState := .epReady })
  else copyDigest CacheType.ofPdev i r

def dispatchEp : Option (Status × Pdev) :=
  if pd.yielded then (pd.appResume pd.operation i.app).bind (resumeEp i)
  else if pd.op = .stop then
    (pd.appRun pd.operation i.app).bind (copyDigest CacheType.ofPdev i)
  else
    match pd.rmiState with
    | .new | .hasKey => (pd.appRun pd.operation i.app).bind (copyDigest CacheType.ofPdev i)
    | .ready => pd.dispatchReadyEp i
    | _ => none

def dispatchRp : Option (Status × Pdev) :=
  if pd.op = .stop then some (.success,pd)
  else
    match pd.rmiState with
    | .ready => pd.dispatchReadyRp i
    | .new => some (.success,pd)
    | _ => none

def dispatch : Option (Status × Pdev) :=
  match pd.category with
  | .rootPort => pd.dispatchRp i
  | .endpoint => pd.dispatchEp i

def unwound : Bool := pd.category == .rootPort || !pd.yielded

def copyout : Status × Pdev :=
  if i.copied then r
  else if r.2.op = .stop ∧ r.2.unwound = false then
    (.error,r.2.abortAppOperation r.2.operation i.unwinds)
  else (.error,r.2)

def finish : Option Pdev :=
  { r.2 with yieldOwner := if r.2.unwound then none else some .pdev }.complete r.1 r.2.unwound

def communicate : Option Pdev :=
  if i.entered = false then some pd
  else if pd.yielded ∧ pd.yieldOwner ≠ some .pdev then some pd
  else (pd.dispatch i).bind fun r => finish (copyout i r)

def dispatchVdev : Option (Status × Pdev) :=
  if vd.commState = .active then
    (pd.appResume vd.operation i.app).bind (copyDigest CacheType.ofVdev i)
  else
    match vd.op with
    | .getMeas | .lock | .getReport | .start => (pd.appRun vd.operation i.app).bind (copyDigest CacheType.ofVdev i)
    | .init => some (.success,pd)
    | .unlock =>
      if vd.rmiState = .started ∨ vd.rmiState = .locked ∨ vd.rmiState = .error then
        (pd.appRun vd.operation i.app).bind (copyDigest CacheType.ofVdev i)
      else none
    | .none => none

def copyoutVdev (r : Status × Pdev) : Status × Pdev :=
  if i.copied then r
  else if r.2.unwound = false then
    (.error,r.2.abortAppOperation vd.operation i.unwinds)
  else (.error,r.2)

end Pdev

def Vdev.setCommState (vd : Vdev) (rc : Status) (unwound : Bool) : Option Vdev :=
  match rc with
  | .blocked => if unwound then none else some { vd with commState := .active }
  | .error => some { vd with commState := if unwound then .error else .active }
  | .success => if unwound then some { vd with commState := .idle } else none

def Vdev.settle (vd : Vdev) : Option Vdev :=
  match vd.commState with
  | .idle =>
    match vd.op with
    | .unlock =>
      if vd.rmiState = .locked ∨ vd.rmiState = .started ∨ vd.rmiState = .error then
        some { vd with rmiState := .unlocked,op := .none }
      else none
    | .init => if vd.rmiState = .new then some { vd with rmiState := .unlocked,op := .none } else none
    | .lock => some { vd with rmiState := .locked,op := .none }
    | .start => some { vd with rmiState := .started,op := .none }
    | .getMeas | .getReport => some { vd with op := .none }
    | .none => none
  | .error => some { vd with rmiState := .error,commState := .idle }
  | _ => some vd

def Pdev.vdevCommunicate (pd : Pdev) (v : Nat) (vd : Vdev) (i : Exchange) : Option (Pdev × Vdev) :=
  if i.entered = false then some (pd,vd)
  else if pd.yielded ∧ pd.yieldOwner ≠ some (.vdev v) then some (pd,vd)
  else
    (pd.dispatchVdev i vd).bind fun r₀ =>
      let r := Pdev.copyoutVdev i vd r₀
      (vd.setCommState r.1 r.2.unwound).bind fun vd' =>
        vd'.settle.map fun vd'' =>
          ({ r.2 with yieldOwner := if r.2.unwound then none else some (.vdev v) },vd'')

namespace Sys

variable (p q : Nat)

def pdevCreate (size p : Nat) (c : Category) : Option Sys :=
  if p < size ∧ s.pdevs p = none then
    some
      { s with
        pdevs := Function.update s.pdevs p (some (.fresh c p s.clock))
        streams := fun k => if k.1 = p then .zero else s.streams k
        clock := s.clock+1 }
  else some s

def syncs : PdevOp → Bool
  | .connect | .disconnect | .streamComplete | .keyPurge | .keyRefresh => true
  | _ => false

def pdevCommunicate (p : Nat) (i : Exchange) : Option Sys :=
  match s.pdevs p with
  | none => some s
  | some pd =>
    if pd.commState = .idle ∨ pd.commState = .error then some s
    else if syncs pd.op then
      match pd.streamAux with
      | none => none
      | some e =>
        let k := (e,pd.opStreamType)
        ({ pd with opState := (s.streams k).opState }.communicate i).map fun pd' =>
          (s.setPdev p pd').setStream k { s.streams k with opState := pd'.opState }
    else (pd.communicate i).map fun pd' => s.setPdev p pd'

def pdevSetPubkey (p : Nat) (key accepted : Bool) : Option Sys :=
  match s.pdevs p with
  | none => some s
  | some pd =>
    if key = false ∨ pd.rmiState ≠ .needsKey then some s
    else if pd.yielded then none
    else if accepted then (pd.beginKey s.clock).map fun pd' => (s.setPdev p pd').tick
    else some s

def pdevStop (p : Nat) : Option Sys :=
  match s.pdevs p with
  | none => some s
  | some pd =>
    if pd.rmiState ≠ .needsKey ∧ pd.rmiState ≠ .ready ∧ pd.rmiState ≠ .error then some s
    else if pd.commState ≠ .idle ∨ 0 < pd.streamCount ∨ pd.numVdevs ≠ 0 then some s
    else (pd.start .stop s.clock).map fun pd' => (s.setPdev p pd').tick

def pdevAbort (p : Nat) (unwinds : Bool) : Option Sys :=
  match s.pdevs p with
  | none => some s
  | some pd =>
    if pd.commState = .idle then some s
    else
      match pd.abortAppIfOwner .pdev pd.operation unwinds with
      | (true,pd') => pd'.commAbort.map fun pd'' => s.setPdev p pd''
      | (false,pd') => some (s.setPdev p pd')

def pdevDestroy (p : Nat) (reserved : Bool) : Option Sys :=
  match s.pdevs p with
  | none => some s
  | some pd =>
    if pd.rmiState ≠ .stopped then some s
    else
      match pd.category with
      | .rootPort => some { s with pdevs := Function.update s.pdevs p none }
      | .endpoint =>
        if reserved = false then some s
        else if pd.yielded then none
        else some { s with pdevs := Function.update s.pdevs p none }

def twoPdevs : Option (Pdev × Pdev) :=
  if p = q then none
  else
    match s.pdevs p, s.pdevs q with
    | some pd1, some pd2 => some (pd1,pd2)
    | _, _ => none

def join (pd1 pd2 : Pdev) (k : Nat × Nat) (op : PdevOp) (st : Stream) (n : Nat) : Option Sys :=
  (pd1.start op s.clock).bind fun pd1' =>
    (pd2.start op s.clock).map fun pd2' =>
      (((s.setPdev p { pd1' with opStreamType := k.2,streamCount := pd1'.streamCount+n }).setPdev q
        { pd2' with
          opStreamType := k.2
          streamCount := pd2'.streamCount+n
          streamAux := pd1'.streamAux }).setStream k st).tick

def streamConnect (p q ty : Nat) : Option Sys :=
  if ty ≠ ncoh then some s
  else
    match s.twoPdevs p q with
    | none => some s
    | some (pd1,pd2) =>
      if pd1.category ≠ .endpoint ∨ pd1.rmiState ≠ .ready ∨ pd1.op ≠ .none ∨
          pd1.commState ≠ .idle ∨ pd2.category ≠ .rootPort ∨ pd2.rmiState ≠ .ready ∨
          pd2.op ≠ .none ∨ pd2.commState ≠ .idle then some s
      else
        match pd1.streamAux with
        | none => none
        | some e =>
          if (s.streams (e,ty)).taken then some s
          else if pd1.yielded then none
          else s.join p q pd1 pd2 (e,ty) .connect ⟨true,.connecting,p,q,.start,0,0⟩ 1

def streamDisconnect (h : Nat × Nat) : Option Sys :=
  if streamTypeCount ≤ h.2 ∨ h.1 ≠ p then some s
  else
    match s.twoPdevs p q with
    | none => some s
    | some (pd1,pd2) =>
      match pd1.streamAux with
      | none => none
      | some e =>
        let st := s.streams (e,h.2)
        if st.taken = false ∨ st.state ≠ .connected ∨ st.pd2 ≠ q then some s
        else if (pd1.rmiState ≠ .ready ∧ pd1.rmiState ≠ .error) ∨ pd1.commState ≠ .idle ∨
            (pd2.rmiState ≠ .ready ∧ pd2.rmiState ≠ .error) ∨ pd2.commState ≠ .idle then some s
        else
          s.join p q pd1 pd2 (e,h.2) .disconnect
            { st with state := .disconnecting,opState := .start } 0

def streamKeyRefresh (h : Nat × Nat) : Option Sys :=
  match s.twoPdevs p q with
  | none => some s
  | some (pd1,pd2) =>
    if streamTypeCount ≤ h.2 ∨ h.1 ≠ p then some s
    else
      match pd1.streamAux with
      | none => none
      | some e =>
        let st := s.streams (e,h.2)
        if st.taken = false ∨ st.pd2 ≠ q then some s
        else if pd1.rmiState ≠ .ready ∨ pd1.op ≠ .none ∨ pd1.commState ≠ .idle ∨
            pd2.rmiState ≠ .ready ∨ pd2.op ≠ .none ∨ pd2.commState ≠ .idle then some s
        else if h.2 = ncohSys ∨ h.2 = cohSys ∨ st.state ≠ .connected then some s
        else
          s.join p q pd1 pd2 (e,h.2) .keyRefresh
            { st with state := .keyRefreshing,opState := .start } 0

def streamInfo (h : Nat × Nat) : Option Sys :=
  if streamTypeCount ≤ h.2 ∨ h.1 ≠ p then some s
  else
    match if h.2 = ncohSys ∨ h.2 = cohSys then s.pdevs p else (s.twoPdevs p q).map Prod.fst with
    | none => some s
    | some pd1 =>
      match pd1.streamAux with
      | none => none
      | some _ => some s

end Sys

inductive Commit where
  | refused
  | kept (st : Stream)
  | released (st : Stream)

variable (st : Stream)

def Stream.release : Stream := { st with state := .disconnected,taken := false }

def Stream.commit (pd1 pd2 : Pdev) : Option Commit :=
  match st.state with
  | .connecting =>
    if pd1.rmiState = .ready ∧ pd1.op = .streamComplete ∧ pd2.rmiState = .ready ∧ pd2.op = .streamComplete then
      some (.kept { st with state := .connected })
    else some (.released st.release)
  | .keyPurging =>
    if pd1.rmiState ≠ .error ∧ pd1.op = .streamComplete ∧ pd2.rmiState ≠ .error ∧ pd2.op = .streamComplete then
      some (.kept { st with state := .connected,purgeCount := st.purgeCount+1 })
    else some (.kept { st with state := .connected })
  | .keyRefreshing =>
    if pd1.rmiState ≠ .error ∧ pd1.op = .streamComplete ∧ pd2.rmiState ≠ .error ∧ pd2.op = .streamComplete then
      some (.kept { st with state := .connected,refreshCount := st.refreshCount+1 })
    else some (.kept { st with state := .connected })
  | .disconnecting =>
    if pd1.rmiState = .error ∨ pd2.rmiState = .error then some (.released st.release)
    else if pd1.op = .streamAborted ∧ pd2.op = .streamAborted then
      some (.kept { st with state := .connected })
    else if pd1.op = .streamComplete ∧ pd2.op = .streamComplete then
      some (.released st.release)
    else none
  | .connected | .disconnected => some .refused

namespace Sys

variable (v p : Nat)

def settle (p q : Nat) (pd1 pd2 : Pdev) (k : Nat × Nat) (st : Stream) (n : Nat) : Option Sys :=
  pd1.streamComplete.bind fun pd1' =>
    pd2.streamComplete.map fun pd2' =>
      ((s.setPdev p { pd1' with streamCount := pd1'.streamCount-n }).setPdev q
        { pd2' with streamCount := pd2'.streamCount-n,streamAux := none }).setStream k
          { st with opState := .none }

def streamComplete (p q : Nat) (h : Nat × Nat) : Option Sys :=
  if streamTypeCount ≤ h.2 ∨ h.1 ≠ p then some s
  else
    match s.twoPdevs p q with
    | none => some s
    | some (pd1,pd2) =>
      match pd1.streamAux with
      | none => none
      | some e =>
        let st := s.streams (e,h.2)
        if st.taken = false ∨ st.pd2 ≠ q then some s
        else if (pd1.rmiState ≠ .error ∧ (pd1.rmiState ≠ .ready ∨ pd1.commState ≠ .idle)) ∨
            (pd2.rmiState ≠ .error ∧ (pd2.rmiState ≠ .ready ∨ pd2.commState ≠ .idle)) then some s
        else if (pd1.op ≠ .streamComplete ∧ pd1.op ≠ .streamAborted) ∨
            (pd2.op ≠ .streamComplete ∧ pd2.op ≠ .streamAborted) then some s
        else
          match st.commit pd1 pd2 with
          | none => none
          | some .refused => some s
          | some (.kept st') => s.settle p q pd1 pd2 (e,h.2) st' 0
          | some (.released st') => s.settle p q pd1 pd2 (e,h.2) st' 1

def vdevCreate (valid installed : Bool) : Option Sys :=
  match s.vdevs v, s.pdevs p with
  | none, some pd =>
    if valid = false ∨ pd.category ≠ .endpoint ∨ pd.rmiState ≠ .ready then some s
    else
      match pd.streamAux with
      | none => none
      | some e =>
        if (s.streams (e,ncoh)).taken = false ∨ (s.streams (e,ncoh)).state ≠ .connected then
          some s
        else if installed = false then some s
        else
          some ((s.setPdev p { pd with numVdevs := pd.numVdevs+1 }).setVdev v
            ⟨p,.new,.pending,.init,s.clock⟩).tick
  | _, _ => some s

def vdevAllows : VdevOp → VdevState → Bool
  | .lock, r => r == .unlocked
  | .start, r => r == .locked
  | .getMeas, _ => true
  | .getReport, r => r == .locked || r == .started
  | .unlock, r => r == .locked || r == .started || r == .error
  | _, _ => false

def vdevBegin (op : VdevOp) (valid : Bool) : Option Sys :=
  match s.vdevs v with
  | none => some s
  | some vd =>
    if valid = false ∨ vd.pdev ≠ p ∨ vd.commState ≠ .idle ∨ vdevAllows op vd.rmiState = false then
      some s
    else
      some (s.setVdev v { vd with op := op,commState := .pending,operation := s.clock }).tick

def vdevCommunicate (v p : Nat) (countable : Bool) (i : Exchange) : Option Sys :=
  match s.vdevs v, s.pdevs p with
  | some vd, some pd =>
    if vd.pdev ≠ p ∨ vd.commState = .idle ∨ vd.commState = .error ∨ countable = false then some s
    else (pd.vdevCommunicate v vd i).map fun r => (s.setPdev p r.1).setVdev v r.2
  | _, _ => some s

def vdevAbort (unwinds : Bool) : Option Sys :=
  match s.vdevs v, s.pdevs p with
  | some vd, some pd =>
    if vd.commState = .idle ∨ vd.pdev ≠ p then some s
    else
      match pd.abortAppIfOwner (.vdev v) vd.operation unwinds with
      | (true,pd') => some ((s.setPdev p pd').setVdev v { vd with rmiState := .error,commState := .idle })
      | (false,pd') => some (s.setPdev p pd')
  | _, _ => some s

def vdevDestroy (valid : Bool) : Option Sys :=
  match s.vdevs v, s.pdevs p with
  | some vd, some pd =>
    if vd.pdev ≠ p ∨ vd.rmiState ≠ .unlocked ∨ (vd.commState ≠ .idle ∧ vd.commState ≠ .pending) then some s
    else if pd.yielded ∧ pd.yieldOwner = some (.vdev v) then some s
    else if valid = false then some s
    else
      let t := s.setPdev p { pd with numVdevs := pd.numVdevs-1 }
      some { t with vdevs := Function.update t.vdevs v none }
  | _, _ => some s

end Sys

inductive Cmd where
  | pdevCreate (p : Nat) (c : Category)
  | pdevCommunicate (p : Nat) (i : Exchange)
  | pdevSetPubkey (p : Nat) (key accepted : Bool)
  | pdevStop (p : Nat)
  | pdevAbort (p : Nat) (unwinds : Bool)
  | pdevDestroy (p : Nat) (reserved : Bool)
  | streamConnect (p q ty : Nat)
  | streamDisconnect (p q : Nat) (h : Nat × Nat)
  | streamKeyRefresh (p q : Nat) (h : Nat × Nat)
  | streamInfo (p q : Nat) (h : Nat × Nat)
  | streamComplete (p q : Nat) (h : Nat × Nat)
  | vdevCreate (v p : Nat) (valid installed : Bool)
  | vdevBegin (v p : Nat) (op : VdevOp) (valid : Bool)
  | vdevCommunicate (v p : Nat) (countable : Bool) (i : Exchange)
  | vdevAbort (v p : Nat) (unwinds : Bool)
  | vdevDestroy (v p : Nat) (valid : Bool)
  deriving DecidableEq

def Sys.exec (s : Sys) (size : Nat) : Cmd → Option Sys
  | .pdevCreate p c => s.pdevCreate size p c
  | .pdevCommunicate p i => s.pdevCommunicate p i
  | .pdevSetPubkey p key accepted => s.pdevSetPubkey p key accepted
  | .pdevStop p => s.pdevStop p
  | .pdevAbort p unwinds => s.pdevAbort p unwinds
  | .pdevDestroy p reserved => s.pdevDestroy p reserved
  | .streamConnect p q ty => s.streamConnect p q ty
  | .streamDisconnect p q h => s.streamDisconnect p q h
  | .streamKeyRefresh p q h => s.streamKeyRefresh p q h
  | .streamInfo p q h => s.streamInfo p q h
  | .streamComplete p q h => s.streamComplete p q h
  | .vdevCreate v p valid installed => s.vdevCreate v p valid installed
  | .vdevBegin v p op valid => s.vdevBegin v p op valid
  | .vdevCommunicate v p countable i => s.vdevCommunicate v p countable i
  | .vdevAbort v p unwinds => s.vdevAbort v p unwinds
  | .vdevDestroy v p valid => s.vdevDestroy v p valid

def Sys.empty : Sys := ⟨fun _ => none,fun _ => none,fun _ => .zero,0⟩

def system (size : Nat) : Lib.TransitionSystem Sys Cmd where
  init s := s = Sys.empty
  step s c t := s.exec size c = some t

end TfRmm.Comm
