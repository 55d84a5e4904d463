import TfRmm.Exec.Machine

namespace TfRmm.Exec

open TfRmm.Arch

variable {V : Type}

structure RealmRun (V : Type) where
  regs : Nat → Word
  live : LiveRegs
  vregs : V
  exception : RealmException

structure LoopInput (V : Type) where
  timersPending : Bool
  run : RealmRun V
  env : ExitEnv

namespace Machine

variable (m : Machine V)

def activateEvents : Machine V :=
  if m.r.serrorInject then
    { m with
      live := { m.live with
        vsesrEl2 := m.r.serrorVsesr
        hcrEl2 := m.r.activeSysregs.hcrEl2 ||| bit 8 }
      r := { m.r with serrorInject := false } }
  else m

def simdAccessible : Bool :=
  cptrFpEnabled m.r.activeSysregs.cptrEl2 || cptrSveEnabled m.r.activeSysregs.cptrEl2

def runRealm (run : RealmRun V) (m : Machine V) : Machine V :=
  let m := m.setPlane { m.r.activePlane with regs := run.regs }
  { m with
    live := { run.live with hcrEl2 := m.live.hcrEl2,vsesrEl2 := m.live.vsesrEl2 }
    cpu := { m.cpu with vregs := if m.simdAccessible then run.vregs else m.cpu.vregs } }

def recRunLoopEnter : Machine V :=
  let m := m.restoreRealmState
  let m := m.check (m.r.activeSimdCtx == none)
  { m with r := { m.r with activeSimdCtx := some .nwd } }

def recRunLoopBody (f : Features) (inp : LoopInput V) (m : Machine V) : Machine V × Cont :=
  if inp.timersPending then
    let m := if m.r.gicOwner ≠ m.r.activePlaneId then (m.handlePlaneNExit inp.env.s2 true).1 else m
    ({ m with exit := { m.exit with exitReason := .irq } },.toHost)
  else
    ((m.activateEvents).runRealm inp.run).handleRealmExit f inp.env inp.run.exception

def recRunLoopExit : Machine V :=
  let m := if m.r.activeSimdCtx = some .rel1 then
    let m := m.simdContextSwitch (some .rel1) (some .nwd)
    let s := m.r.activeSysregs
    let s := { s with cptrEl2 := simdDisableAllCptrFlags s.cptrEl2 }
    { m with r := m.r.setSysregs m.r.activePlaneId s }
  else m
  let m := { m with r := { m.r with activeSimdCtx := none } }
  m.saveRealmState

end Machine

structure RecEnter where
  flags : Word
  gprs : Nat → Word

variable (e : RecEnter)

def RecEnter.emulMmio : Bool := bitSet 0 e.flags
def RecEnter.injectSea : Bool := bitSet 1 e.flags
def RecEnter.trapWfi : Bool := bitSet 2 e.flags
def RecEnter.trapWfe : Bool := bitSet 3 e.flags
def RecEnter.ripasResponse : Bool := bitSet 4 e.flags
def RecEnter.s2apResponse : Bool := bitSet 5 e.flags
def RecEnter.devMemResponse : Bool := bitSet 6 e.flags
def RecEnter.forceP0 : Bool := bitSet 7 e.flags

structure EnterEnv where
  runAddrAligned : Bool
  nsReadOk : Bool
  realmActive : Bool
  vgicValid : Bool
  irqPending : Bool
  s2 : Word → S2Walk

variable (env : EnterEnv) (r : Rec V)

def completeSeaInsertion (f : Features) (e : RecEnter) (r : Rec V) : Rec V × Bool :=
  let i := r.activePlane.lastRunInfo
  if !e.injectSea then (r,true)
  else if !hasEc .dataAbort i.esr then (r,false)
  else if r.addrInPar (hpfarFipa i.hpfar) then (r,false)
  else (injectSyncIdabortRec f r,true)

def mmioReadValue (esr gpr : Word) : Word :=
  let val := gpr &&& accessMask esr
  if esrSignExtend esr then
    let m : Word := bit (accessLen esr * 8 - 1)
    let val := (val ^^^ m)-m
    if esrSixtyFour esr then val else val &&& 0xffffffff
  else val

def completeMmioEmulation (r : Rec V) : Rec V × Bool :=
  let plane := r.activePlane
  let esr := plane.lastRunInfo.esr
  if !e.emulMmio then (r,true)
  else if e.injectSea then (r,true)
  else if !hasEc .dataAbort esr || !esrIsv esr then (r,false)
  else
    let rt := esrSrt esr
    let plane := if !esrIsWrite esr && rt != 31 then
      plane.setReg rt (mmioReadValue esr (e.gprs 0)) else plane
    (r.setActivePlane { plane with pc := plane.pc+4 },true)

def completeHostCall (m : Machine V) : Machine V × Bool :=
  if !m.r.hostCall then (m,true)
  else
    let ipa := m.r.activePlane.regs 1
    match realmMemLockMap m.r env.s2 (ipa &&& ~~~0xfff) with
    | .translationFault lvl => (m.emulateStage2DataAbort lvl ipa,false)
    | .errorInput => ({ m with r := { m.r with hostCall := false } },true)
    | .mapped =>
      let m := m.setPlaneReg 0 rsiSuccess
      ({ m with r := { m.r with hostCall := false } },true)

def leavesPlaneN (e : RecEnter) (r : Rec V) : Bool :=
  !r.isPlane0Active &&
    (e.injectSea || ((r.activePlaneId != r.gicOwner) && env.irqPending) || e.forceP0)

def exitPlaneNAtEntry (e : RecEnter) (m : Machine V) : Machine V × Bool :=
  if leavesPlaneN env e m.r then m.handlePlaneNExit env.s2 false else (m,true)

def completeSetRipas (r : Rec V) : Rec V :=
  let q := r.requests.setRipas
  if q.base = q.top then r
  else
    let reject := q.ripasVal = .ram ∧ q.addr ≠ q.top ∧ e.ripasResponse
    let p := ((r.plane0.setReg 0 rsiSuccess).setReg 1 q.addr).setReg 2 (if reject then 1 else 0)
    { r with plane0 := p,requests := { r.requests with setRipas := { q with base := 0,top := 0 } } }

def completeDevMemMapping (r : Rec V) : Rec V :=
  let q := r.requests.devMem
  if q.base = 0 then r
  else
    let reject := q.addr ≠ q.top ∧ e.devMemResponse
    let p := ((r.plane0.setReg 0 rsiSuccess).setReg 1 q.addr).setReg 2 (if reject then 1 else 0)
    { r with plane0 := p,requests := { r.requests with devMem := { q with base := 0,top := 0 } } }

def s2apNext : Word × Word :=
  let q := r.requests.setS2ap
  if !r.realmInfo.rttTreePp then (q.base,0)
  else
    let idx := q.cookie &&& 0xfff
    if q.base = q.top then
      if (idx+1).toNat < r.numPlanes then
        let newBase := q.cookie &&& ~~~0xfff
        (newBase,newBase ||| ((idx+1) &&& 0xfff))
      else (q.base,0)
    else (q.base,(q.base &&& ~~~0xfff) ||| idx)

def completeSetS2ap (r : Rec V) : Rec V :=
  let q := r.requests.setS2ap
  if q.base = 0 ∧ q.top = 0 then r
  else
    let (newBase,cookie) := s2apNext r
    let p := (((r.plane0.setReg 0 rsiSuccess).setReg 1 newBase).setReg 2
      (if e.s2apResponse then 1 else 0)).setReg 3 cookie
    { r with
      plane0 := p
      requests := { r.requests with setS2ap := { base := 0,top := 0,index := 0,cookie := 0 } } }

def completeSysregEmulation (r : Rec V) : Rec V :=
  let plane := r.activePlane
  let esr := plane.lastRunInfo.esr
  let rt := sysregIssRt esr
  if !hasEc .sysreg esr then r
  else if sysregIsWrite esr then r
  else if rt != 31 then r.setActivePlane (plane.setReg rt (e.gprs 0))
  else r

def resetLastRunInfo : Rec V :=
  let p := r.activePlane
  r.setActivePlane { p with lastRunInfo := { p.lastRunInfo with esr := 0 } }

def restoreEntryTraps (r : Rec V) : Rec V :=
  let plane := r.activePlane
  let s := r.activeSysregs
  let own := !r.isPlane0Active
  r.setSysregs r.activePlaneId { s with
    hcrEl2 := r.commonHcrEl2 |||
      flagWord ((own && plane.trapWfi) || e.trapWfi) (bit 13) |||
      flagWord ((own && plane.trapWfe) || e.trapWfe) (bit 14) }

inductive EnterResult where
  | error
  | exited
  | running
  deriving DecidableEq

namespace Machine

def completeRequests (e : RecEnter) (m : Machine V) : Machine V :=
  { m with r := completeSetS2ap e (completeDevMemMapping e (completeSetRipas e m.r)) }

def startRun (e : RecEnter) (m : Machine V) : Machine V :=
  let r := restoreEntryTraps e (resetLastRunInfo (completeSysregEmulation e m.r))
  { m with r := r }.recRunLoopEnter

def entryAllowed (env : EnterEnv) (m : Machine V) : Bool :=
  env.runAddrAligned && m.r.refcount == 0 && m.r.requests.runnable && env.nsReadOk &&
    env.realmActive && !m.r.requests.pendingOp && env.vgicValid

variable (f : Features)

def afterSea (env : EnterEnv) (e : RecEnter) (m : Machine V) : Option (Rec V) :=
  if m.entryAllowed env then
    match completeSeaInsertion f e m.r with
    | (_,false) => none
    | (r,true) => some r
  else none

def prepareEntry (env : EnterEnv) (e : RecEnter) (m : Machine V) : Machine V × Option EnterResult :=
  match m.afterSea f env e with
  | none => (m,some .error)
  | some r =>
    match completeMmioEmulation e r with
    | (_,false) => ({ m with r := r },some .error)
    | (r,true) =>
      match completeHostCall env { m with r := r } with
      | (m,false) => (m,some .exited)
      | (m,true) =>
        match exitPlaneNAtEntry env e m with
        | (m,false) => (m,some .error)
        | (m,true) => (m.completeRequests e,none)

def smcRecEnter (env : EnterEnv) (e : RecEnter) (m : Machine V) : Machine V × EnterResult :=
  match prepareEntry f env e { m with exit := RecExit.zero } with
  | (m,some res) => (m,res)
  | (m,none) =>
    let m := m.startRun e
    ({ m with r := { m.r with refcount := 1 } },.running)

def recRunLoopStep (inp : LoopInput V) (m : Machine V) : Machine V × Cont :=
  match m.recRunLoopBody f inp with
  | (m,.toHost) =>
    let m := m.recRunLoopExit
    ({ m with r := { m.r with refcount := m.r.refcount-1 } },.toHost)
  | res => res

end Machine

namespace Sample

def freshPlane : RecPlane where
  regs := fun _ => 0
  pstate := 0
  pc := 0x1000
  trapHc := false
  trapSimd := false
  trapWfi := false
  trapWfe := false
  lastRunInfo := ⟨0,0,0⟩

def freshEl1 : El1Regs := ⟨0,0,0,0,0,0,0⟩

def freshLive : LiveRegs := ⟨freshEl1,0,0,0,0,0,0,0⟩

def noRequests : Requests := ⟨⟨0,0,0,.empty⟩,⟨0,0,0⟩,⟨0,0,0,0⟩,false,true⟩

def freshRec (numAuxPlanes : Nat) (vregs : V) : Rec V where
  refcount := 0
  plane0 := freshPlane
  plane1 := freshPlane
  sysregs := fun _ => ⟨freshEl1,0,cptrVheInit⟩
  commonHcrEl2 := 0
  requests := noRequests
  realmInfo := ⟨40,numAuxPlanes,false,⟨false,false⟩⟩
  simdCtx := ⟨true,true,vregs⟩
  activeSimdCtx := none
  serrorVsesr := 0
  serrorInject := false
  hostCall := false
  activePlaneId := 0
  gicOwner := 0

def features : Features := ⟨false,false,false,false,false,false,false,false⟩

def enterEnv : EnterEnv := ⟨true,true,true,true,false,fun _ => .success⟩

def recEnter (flags : Word) : RecEnter := ⟨flags,fun _ => 0⟩

def exitEnv (planeFlags : Word) : ExitEnv where
  s2 := fun _ => .success
  fipaFromFar := none
  idRegValue := 0
  planeEnter := ⟨planeFlags,0x2000,0,fun _ => 0,0⟩
  lrsValid := true
  hostCallImm := 0
  hostCallGprs := fun _ => 0
  rsi := .updateRecReturnToRealm fun _ => 0
  requests := noRequests
  rsiRegs := fun _ => 0
  planeEl1 := fun _ => freshEl1

def loopInput (exception : RealmException) (regs : Nat → Word) (esr hpfar planeFlags : Word) (vregs : V) :
    LoopInput V :=
  ⟨false,⟨regs,⟨freshEl1,0x2000,0,esr,0,hpfar,0,0⟩,vregs,exception⟩,exitEnv planeFlags⟩

def planeEnterRegs : Nat → Word
  | 0 => 0xC40001A3
  | 1 => 1
  | _ => 0

end Sample

structure Quiet (m m' : Machine V) : Prop where
  syndrome0 : m'.r.plane0.lastRunInfo = m.r.plane0.lastRunInfo
  syndrome1 : m'.r.plane1.lastRunInfo = m.r.plane1.lastRunInfo
  trapSimd : m'.r.plane1.trapSimd = m.r.plane1.trapSimd
  realmInfo : m'.r.realmInfo = m.r.realmInfo
  activePlaneId : m'.r.activePlaneId = m.r.activePlaneId
  gicOwner : m'.r.gicOwner = m.r.gicOwner
  hostCall : m'.r.hostCall = m.r.hostCall
  refcount : m'.r.refcount = m.r.refcount
  simdCtx : m'.r.simdCtx = m.r.simdCtx
  activeSimdCtx : m'.r.activeSimdCtx = m.r.activeSimdCtx
  cptr : ∀ i, (m'.r.sysregs i).cptrEl2 = (m.r.sysregs i).cptrEl2
  cpu : m'.cpu = m.cpu
  esrEl2 : m'.live.esrEl2 = m.live.esrEl2
  hpfarEl2 : m'.live.hpfarEl2 = m.live.hpfarEl2

namespace Quiet

theorem refl (m : Machine V) : Quiet m m :=
  ⟨rfl,rfl,rfl,rfl,rfl,rfl,rfl,rfl,rfl,rfl,fun _ => rfl,rfl,rfl,rfl⟩

theorem trans {a b c : Machine V} (h : Quiet a b) (k : Quiet b c) : Quiet a c where
  syndrome0 := k.syndrome0.trans h.syndrome0
  syndrome1 := k.syndrome1.trans h.syndrome1
  trapSimd := k.trapSimd.trans h.trapSimd
  realmInfo := k.realmInfo.trans h.realmInfo
  activePlaneId := k.activePlaneId.trans h.activePlaneId
  gicOwner := k.gicOwner.trans h.gicOwner
  hostCall := k.hostCall.trans h.hostCall
  refcount := k.refcount.trans h.refcount
  simdCtx := k.simdCtx.trans h.simdCtx
  activeSimdCtx := k.activeSimdCtx.trans h.activeSimdCtx
  cptr := fun i => (k.cptr i).trans (h.cptr i)
  cpu := k.cpu.trans h.cpu
  esrEl2 := k.esrEl2.trans h.esrEl2
  hpfarEl2 := k.hpfarEl2.trans h.hpfarEl2

section

variable (m : Machine V)

include m

theorem setExit (e : RecExit) : Quiet m { m with exit := e } :=
  ⟨rfl,rfl,rfl,rfl,rfl,rfl,rfl,rfl,rfl,rfl,fun _ => rfl,rfl,rfl,rfl⟩

theorem setLive (l : LiveRegs) (he : l.esrEl2 = m.live.esrEl2)
    (hh : l.hpfarEl2 = m.live.hpfarEl2) : Quiet m { m with live := l } :=
  ⟨rfl,rfl,rfl,rfl,rfl,rfl,rfl,rfl,rfl,rfl,fun _ => rfl,rfl,he,hh⟩

theorem setPlane (p : RecPlane) (hl : p.lastRunInfo = m.r.activePlane.lastRunInfo)
    (ht : p.trapSimd = m.r.activePlane.trapSimd) : Quiet m (m.setPlane p) := by
  unfold Machine.setPlane Rec.setActivePlane
  unfold Rec.activePlane at hl ht
  split at hl <;> simp_all <;>
    exact ⟨by simp_all,by simp_all,by simp_all,rfl,rfl,rfl,rfl,rfl,rfl,rfl,fun _ => rfl,rfl,rfl,rfl⟩

theorem setPlaneReg (i : Nat) (v : Word) : Quiet m (m.setPlaneReg i v) :=
  setPlane m _ rfl rfl

theorem setSysregs (i : Nat) (s : SysregState) (h : s.cptrEl2 = (m.r.sysregs i).cptrEl2) :
    Quiet m { m with r := m.r.setSysregs i s } := by
  refine ⟨rfl,rfl,rfl,rfl,rfl,rfl,rfl,rfl,rfl,rfl,?_,rfl,rfl,rfl⟩
  intro j
  by_cases hj : j = i
  · subst hj; simp [Rec.setSysregs,h]
  · simp [Rec.setSysregs,hj]

theorem saveRealmState : Quiet m m.saveRealmState := by
  have h1 := setPlane m { m.r.activePlane with pc := m.live.elrEl2,pstate := m.live.spsrEl2 } rfl rfl
  have h2 := setSysregs (m.setPlane { m.r.activePlane with pc := m.live.elrEl2,pstate := m.live.spsrEl2 })
    m.r.activePlaneId { m.r.activeSysregs with el1 := m.live.el1 }
    (by simp [Machine.setPlane,Rec.activeSysregs])
  exact h1.trans h2

theorem restoreRealmState : Quiet m m.restoreRealmState :=
  setLive m _ rfl rfl

theorem advancePc : Quiet m { m with live := advancePc m.live } :=
  setLive m _ rfl rfl

theorem reversePc : Quiet m { m with live := reversePc m.live } :=
  setLive m _ rfl rfl

end

theorem injectSync (f : Features) (m : Machine V) : Quiet m { m with live := injectSyncIdabort f m.live } :=
  setLive m _ rfl rfl

theorem injectUndef (f : Features) (m : Machine V) : Quiet m { m with live := realmInjectUndefAbort f m.live } :=
  setLive m _ rfl rfl

end Quiet

inductive SyncOutcome (f : Features) (env : ExitEnv) (m : Machine V) : Machine V → Cont → Prop
  | quiet {m' : Machine V} {c : Cont} (h : Quiet m m') (hx : c = .resume → m'.exit.esr = m.exit.esr) :
      SyncOutcome f env m m' c
  | planeExit {m₀ m₁ m' : Machine V} {b : Bool} (hp : m.r.activePlaneId ≠ 0) (h₀ : Quiet m m₀)
      (he : m₀.exit = m.exit) (hm : m₀.handlePlaneNExit env.s2 true = (m₁,b)) (h₁ : Quiet m₁ m')
      (hx : m'.exit = m₁.exit) : SyncOutcome f env m m' (.ofBool b)
  | planeEnter {m' : Machine V} {idx : Nat} {entry : PlaneEnter} (hp : m.r.activePlaneId = 0)
      (hi : idx ≠ 0) (hq : Quiet ((m.saveRealmState).activatePlaneN idx entry) m')
      (hent : entry = env.planeEnter)
      (hec : hasEc .smc m.live.esrEl2 = true)
      (hf : functionId (m.r.activePlane.regs 0) = smcRsiPlaneEnter)
      (hx : m'.exit.esr = m.exit.esr) : SyncOutcome f env m m' .resume
  | hostCall {m' : Machine V} (hec : hasEc .smc m.live.esrEl2 = true)
      (h : Quiet { m with r := { m.r with hostCall := true } } m') : SyncOutcome f env m m' .toHost
  | simd (hec : hasEc .fpu m.live.esrEl2 = true ∨ hasEc .sve m.live.esrEl2 = true ∨
        hasEc .sme m.live.esrEl2 = true)
      (hn : ¬ (m.r.activePlaneId ≠ 0 ∧ m.r.plane1.trapSimd = true))
      (hs : hasEc .sve m.live.esrEl2 = true → m.r.realmInfo.simdCfg.sveEn = true)
      (hm : hasEc .sme m.live.esrEl2 = true → m.r.activeSimdCtx ≠ some .rel1)
      {m' : Machine V}
      (h : m' = (let m := m.check (m.r.activeSimdCtx != some .rel1)
        let m := m.simdContextSwitch m.r.activeSimdCtx (some .rel1)
        let s := m.r.activeSysregs
        let s := { s with cptrEl2 := simdEnableCptrFlags m.r.realmInfo.simdCfg s.cptrEl2 }
        { m with r := { m.r.setSysregs m.r.activePlaneId s with activeSimdCtx := some .rel1 } })) :
      SyncOutcome f env m m' .resume
  | fpu {m₁ m' : Machine V} {c : Cont}
      (hec : hasEc .smc m.live.esrEl2 = true)
      (h₁ : Quiet (m.simdContextSwitch m.r.activeSimdCtx none) m₁)
      (h₂ : Quiet (m₁.simdContextSwitch none m₁.r.activeSimdCtx) m')
      (hx : c = .resume → m'.exit.esr = m.exit.esr) : SyncOutcome f env m m' c

variable {m₀ : Machine V} {fid : Nat} {plane : RecPlane} {d : Machine V × RsiResult} {x : Nat → Word}

namespace SyncOutcome

variable {f : Features} {env : ExitEnv} {m : Machine V} {esr : Word}

open Quiet

theorem of_planeExit (hp : m.r.activePlaneId ≠ 0) (h₀ : Quiet m m₀) (he : m₀.exit = m.exit) :
    SyncOutcome f env m (m₀.handlePlaneNExit env.s2 true).1 (.ofBool (m₀.handlePlaneNExit env.s2 true).2) :=
  .planeExit hp h₀ he rfl (refl _) rfl

theorem of_planeExit_reverse (hp : m.r.activePlaneId ≠ 0) (h₀ : Quiet m m₀)
    (he : m₀.exit = m.exit) {r : Machine V × Bool} (hr : m₀.handlePlaneNExit env.s2 true = r)
    {q : Machine V × Cont}
    (hq : q = if r.2 then (r.1,.resume) else ({ r.1 with live := reversePc r.1.live },.toHost)) :
    SyncOutcome f env m q.1 q.2 := by
  obtain ⟨m₁,b⟩ := r
  subst hq
  cases b with
  | true => exact .planeExit hp h₀ he hr (refl _) rfl
  | false => exact .planeExit hp h₀ he hr (Quiet.reversePc _) rfl

theorem notPlane0 (h : m.r.isPlane0Active = false) : m.r.activePlaneId ≠ 0 := by
  simpa [Rec.isPlane0Active] using h

theorem wfx : SyncOutcome f env m (m.handleWfxException env esr).1 (m.handleWfxException env esr).2 := by
  unfold Machine.handleWfxException
  split
  · exact .quiet ((Quiet.advancePc m).trans (setExit _ _)) (by simp)
  next h =>
    have hp := notPlane0 (by simpa using h)
    exact of_planeExit_reverse hp (Quiet.advancePc m) rfl rfl rfl

theorem hvc : SyncOutcome f env m (m.handleHvcException f env).1 (m.handleHvcException f env).2 := by
  unfold Machine.handleHvcException
  split
  · exact .quiet (injectUndef f m) (by simp)
  next h =>
    have hp := notPlane0 (by simpa using h)
    exact of_planeExit_reverse hp (refl m) rfl rfl rfl

theorem sysreg : SyncOutcome f env m (m.handleSysregAccessTrap f env esr).1 (m.handleSysregAccessTrap f env esr).2 := by
  unfold Machine.handleSysregAccessTrap
  split
  · refine .quiet (trans ?_ (Quiet.advancePc _)) ?_
    · split
      · exact refl m
      · exact Quiet.setPlaneReg m _ _
    · intro _; dsimp only; split <;> rfl
  · exact .quiet ((Quiet.advancePc m).trans (setExit _ _)) (by simp)
  · exact .quiet (injectUndef f m) (by simp)
  · refine .quiet (trans ?_ (Quiet.advancePc _)) ?_
    · split
      · exact Quiet.setPlaneReg m _ _
      · exact refl m
    · intro _; dsimp only; split <;> rfl

theorem externalAbort {res : Machine V × Cont} (h : m.handleSyncExternalAbort f esr = some res) :
    SyncOutcome f env m res.1 res.2 := by
  unfold Machine.handleSyncExternalAbort at h
  split at h
  · simp at h
  split at h <;> cases h
  · exact .quiet ((injectSync f m).trans (setExit _ _)) (by simp)
  · exact .quiet (setExit _ _) (by simp)
  · exact .quiet (refl m) (by simp)

theorem assertThat_quiet (b : Bool) (m : Machine V) : Quiet m (m.assertThat b) :=
  ⟨rfl,rfl,rfl,rfl,rfl,rfl,rfl,rfl,rfl,rfl,fun _ => rfl,rfl,rfl,rfl⟩

theorem dataAbort : SyncOutcome f env m (m.handleDataAbort f env esr).1 (m.handleDataAbort f env esr).2 := by
  unfold Machine.handleDataAbort
  split
  next h => exact externalAbort h
  split
  · exact .quiet (refl m) (by simp)
  next fipa hpfar _ =>
  have ha := assertThat_quiet (granuleAligned fipa) m
  dsimp only
  split
  · exact .quiet (ha.trans (injectSync f _)) fun _ => rfl
  split
  next h =>
    have hp : m.r.activePlaneId ≠ 0 := notPlane0 (by simp at h; exact h.1)
    exact of_planeExit hp (ha.trans (assertThat_quiet _ _)) rfl
  · split
    · exact .quiet (ha.trans (injectSync f _)) fun _ => rfl
    · exact .quiet (ha.trans (setExit _ _)) (by simp)

theorem instAbort : SyncOutcome f env m (m.handleInstructionAbort f env esr).1 (m.handleInstructionAbort f env esr).2 := by
  unfold Machine.handleInstructionAbort
  split
  next h => exact externalAbort h
  split
  · exact .quiet (refl m) (by simp)
  next fipa hpfar _ =>
  have ha := assertThat_quiet (granuleAligned fipa) m
  dsimp only
  split
  · split
    · exact .quiet (ha.trans (injectSync f _)) fun _ => rfl
    next h =>
      have hp : m.r.activePlaneId ≠ 0 := notPlane0 (by simpa using h)
      exact of_planeExit hp ha rfl
  · exact .quiet (ha.trans (setExit _ _)) (by simp)

theorem simdException (hesr : esr = m.live.esrEl2)
    (hec : hasEc .fpu esr = true ∨ hasEc .sve esr = true ∨ hasEc .sme esr = true) :
    SyncOutcome f env m (m.handleSimdException f env esr).1 (m.handleSimdException f env esr).2 := by
  subst hesr
  unfold Machine.handleSimdException
  split
  next h =>
    simp only [Bool.and_eq_true,Bool.not_eq_true'] at h
    exact of_planeExit (notPlane0 h.1) (refl m) rfl
  rename_i h
  split
  · exact .quiet (injectUndef f m) (by simp)
  rename_i hs
  split
  · exact .quiet (injectUndef f m) (by simp)
  rename_i hm
  refine .simd hec ?_ ?_ ?_ rfl
  · rintro ⟨hp,ht⟩
    have h0 : m.r.isPlane0Active = false := by simpa [Rec.isPlane0Active] using hp
    exact h (by simp [h0,Rec.activePlane,ht])
  · intro hv; simpa [hv] using hs
  · intro hv; simp [hv] at hm; exact hm.2

theorem rsiAdvance_quiet (fid : Nat) (plane : RecPlane) (res : RsiResult) (m : Machine V) :
    Quiet m (m.rsiAdvance fid plane res) := by
  unfold Machine.rsiAdvance
  split
  · exact refl m
  · exact ⟨rfl,rfl,rfl,rfl,rfl,rfl,rfl,rfl,rfl,rfl,fun _ => rfl,rfl,rfl,rfl⟩
  · exact Quiet.advancePc m

theorem rsiFinish_quiet (fid : Nat) (plane : RecPlane) (res : RsiResult) (m : Machine V) :
    Quiet m (m.rsiFinish fid plane res).1 := by
  apply (rsiAdvance_quiet fid plane res m).trans
  simp only [Machine.rsiFinish,Machine.rsiUpdateRec]
  split
  · exact setPlane _ _ rfl rfl
  · exact refl _

theorem rsiFinish_resume {res : RsiResult} {m : Machine V} (h : (m.rsiFinish fid plane res).2 = .resume) :
    (m.rsiFinish fid plane res).1.exit.esr = m.exit.esr := by
  unfold Machine.rsiFinish Machine.rsiUpdateRec Machine.rsiAdvance at *
  cases ha : res.action <;>
    simp [ha,RsiAction.leavesRealm,RsiAction.updateRec,Machine.setPlane] at h ⊢

theorem rsiOther_quiet (env : ExitEnv) (m : Machine V) :
    Quiet m (m.handleRsiOther env).1 ∧ (m.handleRsiOther env).1.exit.esr = m.exit.esr := by
  let p := m.r.activePlane
  let m₁ := m.setPlane { p with regs := fun i => if i < 8 then p.regs i else env.rsiRegs i }
  let m₂ : Machine V := { m₁ with r := { m₁.r with
    sysregs := fun i => if i = 0 then m₁.r.sysregs i else { m₁.r.sysregs i with el1 := env.planeEl1 i } } }
  have h1 : Quiet m m₁ := setPlane m _ rfl rfl
  have h2 : Quiet m₁ m₂ := by
    refine ⟨rfl,rfl,rfl,rfl,rfl,rfl,rfl,rfl,rfl,rfl,?_,rfl,rfl,rfl⟩
    intro i
    by_cases hi : i = 0 <;> simp [m₂,hi]
  have h3 : ∀ e : RecExit, Quiet m₂ { m₂ with r := { m₂.r with requests := env.requests },exit := e } :=
    fun _ => ⟨rfl,rfl,rfl,rfl,rfl,rfl,rfl,rfl,rfl,rfl,fun _ => rfl,rfl,rfl,rfl⟩
  have h := h1.trans h2
  unfold Machine.handleRsiOther
  split
  · exact ⟨h,rfl⟩
  · exact ⟨h.trans (h3 _),rfl⟩
  · exact ⟨h.trans (h3 _),rfl⟩
  · exact ⟨h,rfl⟩

theorem rsi_of_quiet (hq : Quiet m d.1) (he : d.1.exit.esr = m.exit.esr) :
    SyncOutcome f env m (d.1.rsiFinish fid plane d.2).1 (d.1.rsiFinish fid plane d.2).2 :=
  .quiet (hq.trans (rsiFinish_quiet ..)) (fun h => (rsiFinish_resume h).trans he)

theorem handleRsiHostCall_cases (env : ExitEnv) (x : Nat → Word) (m : Machine V) :
    (∃ res, m.handleRsiHostCall env x = (m,res)) ∨ ∃ e, m.handleRsiHostCall env x =
        ({ m with r := { m.r with hostCall := true },exit := e },⟨.exitToHost,.ofFin 0,x⟩) := by
  unfold Machine.handleRsiHostCall
  dsimp only
  split
  · exact .inl ⟨_,rfl⟩
  unfold Machine.doHostCallExit
  dsimp only
  split
  · exact .inl ⟨_,rfl⟩
  · exact .inl ⟨_,rfl⟩
  · exact .inr ⟨_,rfl⟩

theorem rsi_hostCall (hec : hasEc .smc m.live.esrEl2 = true) :
    SyncOutcome f env m ((m.handleRsiHostCall env x).1.rsiFinish fid plane (m.handleRsiHostCall env x).2).1
      ((m.handleRsiHostCall env x).1.rsiFinish fid plane (m.handleRsiHostCall env x).2).2 := by
  rcases handleRsiHostCall_cases env x m with ⟨res,h⟩ | ⟨e,h⟩ <;> rw [h]
  · exact rsi_of_quiet (refl m) rfl
  · exact .hostCall hec ((setExit _ _).trans (rsiFinish_quiet ..))

theorem handleRsiPlaneEnter_cases (s2 : Word → S2Walk) (entry : PlaneEnter) (lrsValid : Bool)
    (x : Nat → Word) (m : Machine V) :
    (∃ res, m.handleRsiPlaneEnter s2 entry lrsValid x = (m,res)) ∨
      ∃ idx, (idx ≠ 0 ∧ granuleAligned (m.r.plane0.regs 2) = true ∧ m.r.addrInPar (m.r.plane0.regs 2) = true) ∧
        m.handleRsiPlaneEnter s2 entry lrsValid x =
          (((m.saveRealmState).activatePlaneN idx entry).restoreRealmState,
            ⟨.planeChangedReturnToRealm,.ofFin 0,x⟩) := by
  unfold Machine.handleRsiPlaneEnter
  dsimp only
  split
  · exact .inl ⟨_,rfl⟩
  rename_i hc
  simp only [not_or,Bool.not_eq_true',Bool.not_eq_false] at hc
  split
  · exact .inl ⟨_,rfl⟩
  · exact .inl ⟨_,rfl⟩
  split
  · exact .inl ⟨_,rfl⟩
  · split
    · exact .inl ⟨_,rfl⟩
    · exact .inr ⟨_,⟨hc.1,hc.2.2⟩,rfl⟩

theorem rsi_planeEnter (hec : hasEc .smc m.live.esrEl2 = true) (hp : m.r.activePlaneId = 0)
    (hf : functionId (m.r.activePlane.regs 0) = smcRsiPlaneEnter)
    (hd : m.handleRsiPlaneEnter env.s2 env.planeEnter env.lrsValid x = d) :
    SyncOutcome f env m (d.1.rsiFinish fid plane d.2).1 (d.1.rsiFinish fid plane d.2).2 := by
  subst hd
  rcases handleRsiPlaneEnter_cases env.s2 env.planeEnter env.lrsValid x m with ⟨res,h⟩ | ⟨idx,hi,h⟩ <;> rw [h]
  · exact rsi_of_quiet (refl m) rfl
  · exact .planeEnter hp hi.1 ((Quiet.restoreRealmState _).trans (rsiFinish_quiet ..)) rfl hec hf rfl

theorem rsi (hec : hasEc .smc m.live.esrEl2 = true) :
    SyncOutcome f env m (m.handleRealmRsi f env).1 (m.handleRealmRsi f env).2 := by
  unfold Machine.handleRealmRsi
  dsimp only
  split
  next h =>
    simp only [Bool.and_eq_true,Bool.not_eq_true'] at h
    exact of_planeExit (notPlane0 h.1) (refl m) rfl
  rename_i h
  by_cases hn : rsiHandlerNeedsFpu f (functionId (m.r.activePlane.regs 0)) = true
  · have hfid : functionId (m.r.activePlane.regs 0) = smcRsiAttestTokenContinue ∨
        functionId (m.r.activePlane.regs 0) = smcRsiMeasurementExtend := by
      simp only [rsiHandlerNeedsFpu,Bool.and_eq_true,Bool.or_eq_true,beq_iff_eq] at hn
      exact hn.2
    have hne : functionId (m.r.activePlane.regs 0) ≠ smcRsiHostCall ∧
        functionId (m.r.activePlane.regs 0) ≠ smcRsiPlaneEnter := by
      rcases hfid with h1 | h1 <;> rw [h1] <;> decide
    simp only [hn,if_true,Machine.rsiDispatch,hne.1,hne.2,if_false]
    obtain ⟨hq,he⟩ := rsiOther_quiet env (m.simdContextSwitch m.r.activeSimdCtx none)
    refine .fpu hec hq (rsiFinish_quiet ..) (fun hr => (rsiFinish_resume hr).trans ?_)
    simpa using he
  · simp only [hn,Machine.rsiDispatch]
    split
    · exact rsi_hostCall hec
    split
    next hpe =>
      refine rsi_planeEnter hec ?_ hpe rfl
      have hne : (smcRsiPlaneEnter == smcRsiHostCall) = false := by decide
      simpa [hpe,hne,Rec.isPlane0Active] using h
    · obtain ⟨hq,he⟩ := rsiOther_quiet env m
      exact rsi_of_quiet hq he

theorem of_handleExceptionSync (f : Features) (env : ExitEnv) (m : Machine V) :
    SyncOutcome f env m (m.handleExceptionSync f env).1 (m.handleExceptionSync f env).2 := by
  unfold Machine.handleExceptionSync
  dsimp only
  split
  · exact wfx
  split
  · exact hvc
  split
  next h => exact rsi h
  split
  · exact sysreg
  split
  · exact instAbort
  split
  · exact dataAbort
  split
  next h =>
    apply simdException rfl
    simpa [or_assoc] using h
  · exact .quiet (refl m) (by simp)

end SyncOutcome

def seaDue (e : RecEnter) (r : Rec V) : Bool :=
  e.injectSea && hasEc .dataAbort r.activePlane.lastRunInfo.esr &&
    !r.addrInPar (hpfarFipa r.activePlane.lastRunInfo.hpfar)

def mmioDue (e : RecEnter) (r : Rec V) : Bool :=
  e.emulMmio && !e.injectSea && hasEc .dataAbort r.activePlane.lastRunInfo.esr &&
    esrIsv r.activePlane.lastRunInfo.esr

def sysregDue (r : Rec V) : Bool :=
  hasEc .sysreg r.activePlane.lastRunInfo.esr && !sysregIsWrite r.activePlane.lastRunInfo.esr

def runPageReachable (s2 : Word → S2Walk) (r : Rec V) : Bool :=
  match realmIpaToPa r s2 (r.plane0.regs 2) with
  | .success => true
  | .fail ripas _ => ripas == .empty || ripas == .dev
  | .invalidParams => false

theorem completeSeaInsertion_eq (f : Features) (e : RecEnter) (r : Rec V) : completeSeaInsertion f e r =
      if seaDue e r then (injectSyncIdabortRec f r,true) else (r,!e.injectSea) := by
  unfold completeSeaInsertion seaDue
  cases hs : e.injectSea <;> cases hd : hasEc .dataAbort r.activePlane.lastRunInfo.esr <;>
    cases hp : r.addrInPar (hpfarFipa r.activePlane.lastRunInfo.hpfar) <;> simp [hd,hp]

variable {e : RecEnter} {r' : Rec V} {m m' : Machine V} {s2 : Word → S2Walk} {b : Bool} {env : EnterEnv}
    {f : Features} {inp : LoopInput V}

theorem completeMmioEmulation_not_due {r : Rec V} (h : mmioDue e r = false) : (completeMmioEmulation e r).1 = r := by
  unfold completeMmioEmulation mmioDue at *
  cases he : e.emulMmio <;> cases hs : e.injectSea <;>
    cases hd : hasEc .dataAbort r.activePlane.lastRunInfo.esr <;>
    cases hi : esrIsv r.activePlane.lastRunInfo.esr <;> simp_all

theorem completeMmioEmulation_false {r : Rec V}
    (h : completeMmioEmulation e r = (r',false)) : e.injectSea = false ∧ mmioDue e r = false := by
  unfold completeMmioEmulation mmioDue at *
  cases he : e.emulMmio <;> cases hs : e.injectSea <;> cases hd : hasEc .dataAbort r.activePlane.lastRunInfo.esr <;>
    cases hi : esrIsv r.activePlane.lastRunInfo.esr <;> simp_all

theorem completeSysregEmulation_not_due {r : Rec V} (h : sysregDue r = false) : completeSysregEmulation e r = r := by
  unfold completeSysregEmulation sysregDue at *
  cases hd : hasEc .sysreg r.activePlane.lastRunInfo.esr <;>
    cases hw : sysregIsWrite r.activePlane.lastRunInfo.esr <;> simp_all

namespace Quiet

theorem injectSyncIdabortRec (f : Features) (m : Machine V) : Quiet m { m with r := injectSyncIdabortRec f m.r } := by
  let s := m.r.activeSysregs
  let s' : SysregState := { s with
    el1 := { s.el1 with
      far := m.r.activePlane.lastRunInfo.far
      elr := m.r.activePlane.pc
      spsr := m.r.activePlane.pstate
      esr := calcEsrIdabort m.r.activePlane.lastRunInfo.esr m.r.activePlane.pstate fscSea } }
  have h1 : Quiet m { m with r := m.r.setSysregs m.r.activePlaneId s' } := setSysregs m _ _ rfl
  exact h1.trans (setPlane _ _ rfl rfl)

theorem completeSeaInsertion (f : Features) (e : RecEnter) (m : Machine V) :
    Quiet m { m with r := (completeSeaInsertion f e m.r).1 } := by
  rw [completeSeaInsertion_eq]
  split
  · exact injectSyncIdabortRec f m
  · exact refl m

theorem completeMmioEmulation (e : RecEnter) (m : Machine V) :
    Quiet m { m with r := (completeMmioEmulation e m.r).1 } := by
  unfold TfRmm.Exec.completeMmioEmulation
  dsimp only
  split
  · exact refl m
  split
  · exact refl m
  · split
    · exact refl m
    · refine setPlane m _ ?_ ?_ <;> split <;> rfl

theorem setRequests (m : Machine V) (p : RecPlane) (q : Requests) (hp : p.lastRunInfo = m.r.plane0.lastRunInfo) :
    Quiet m { m with r := { m.r with plane0 := p,requests := q } } :=
  ⟨hp,rfl,rfl,rfl,rfl,rfl,rfl,rfl,rfl,rfl,fun _ => rfl,rfl,rfl,rfl⟩

theorem completeSetRipas (e : RecEnter) (m : Machine V) : Quiet m { m with r := completeSetRipas e m.r } := by
  unfold TfRmm.Exec.completeSetRipas
  dsimp only
  split
  · exact refl m
  · apply setRequests m _ _
    rfl

theorem completeDevMemMapping (e : RecEnter) (m : Machine V) :
    Quiet m { m with r := completeDevMemMapping e m.r } := by
  unfold TfRmm.Exec.completeDevMemMapping
  dsimp only
  split
  · exact refl m
  · apply setRequests m _ _
    rfl

theorem completeSetS2ap (e : RecEnter) (m : Machine V) : Quiet m { m with r := completeSetS2ap e m.r } := by
  unfold TfRmm.Exec.completeSetS2ap
  dsimp only
  split
  · exact refl m
  · apply setRequests m _ _
    rfl

theorem completeRequests (e : RecEnter) (m : Machine V) : Quiet m (m.completeRequests e) :=
  (completeSetRipas e m).trans ((completeDevMemMapping e _).trans (completeSetS2ap e _))

theorem completeSysregEmulation (e : RecEnter) (m : Machine V) :
    Quiet m { m with r := completeSysregEmulation e m.r } := by
  unfold TfRmm.Exec.completeSysregEmulation
  dsimp only
  split
  · exact refl m
  split
  · exact refl m
  · split
    · exact setPlane m _ rfl rfl
    · exact refl m

theorem restoreEntryTraps (e : RecEnter) (m : Machine V) : Quiet m { m with r := restoreEntryTraps e m.r } :=
  setSysregs m _ _ rfl

end Quiet

theorem Quiet.of_eq (hr : m'.r = m.r) (hc : m'.cpu = m.cpu) (hl : m'.live = m.live) : Quiet m m' := by
  obtain ⟨r,cpu,live,exit,w⟩ := m'
  simp only at hr hc hl
  subst hr hc hl
  exact ⟨rfl,rfl,rfl,rfl,rfl,rfl,rfl,rfl,rfl,rfl,fun _ => rfl,rfl,rfl,rfl⟩

theorem handlePlaneNExit_true (h : m.handlePlaneNExit s2 b = (m',true)) :
    ∃ m₁ ret, Quiet m m₁ ∧ m₁.exit = m.exit ∧ m' = m₁.returnToPlane0 ret b := by
  unfold Machine.handlePlaneNExit at h
  dsimp only at h
  split at h
  · cases b with
    | true => cases h; exact ⟨_,_,Quiet.saveRealmState m,rfl,rfl⟩
    | false => cases h; exact ⟨_,_,Quiet.refl m,rfl,rfl⟩
  · split at h
    · cases h; exact ⟨_,_,Quiet.refl m,rfl,rfl⟩
    · cases h
  · cases h

theorem handlePlaneNExit_false (h : m.handlePlaneNExit s2 b = (m',false)) :
    m'.r = m.r ∧ m'.live = m.live ∧ runPageReachable s2 m.r = false ∧ m'.cpu = m.cpu ∧
      ((m'.exit = m.exit) ∨ ∃ lvl ipa, m'.exit = stage2DataAbortExit m.exit lvl ipa) := by
  unfold Machine.handlePlaneNExit at h
  unfold runPageReachable
  dsimp only at h
  generalize hw : realmIpaToPa m.r s2 (m.r.plane0.regs 2) = walk at h ⊢
  cases walk with
  | success => cases h
  | fail ripas lvl =>
    dsimp only at h
    split at h
    · cases h
    next hne =>
    cases h
    refine ⟨rfl,rfl,?_,rfl,.inr ⟨_,_,rfl⟩⟩
    cases ripas <;> simp_all
  | invalidParams =>
    cases h
    exact ⟨rfl,rfl,rfl,rfl,.inl rfl⟩

theorem returnToPlane0_exit (m : Machine V) (ret : Word) (b : Bool) : (m.returnToPlane0 ret b).exit = m.exit := by
  cases b <;> rfl

theorem completeHostCall_true (h : completeHostCall env m = (m',true)) :
    Quiet { m with r := { m.r with hostCall := false } } m' ∧ m'.exit = m.exit ∧ (m.r.hostCall = false → m' = m) := by
  unfold completeHostCall at h
  split at h
  next hc =>
    cases h
    have hf : m.r.hostCall = false := by simpa using hc
    refine ⟨?_,rfl,fun _ => rfl⟩
    have hm : ({ m with r := { m.r with hostCall := false } } : Machine V) = m := by
      obtain ⟨r,_,_,_⟩ := m
      simp [← hf]
    rw [hm]
    exact Quiet.refl m
  next hc =>
    have ht : m.r.hostCall = true := by simpa using hc
    dsimp only at h
    split at h
    · cases h
    · cases h
      exact ⟨Quiet.refl _,rfl,by simp [ht]⟩
    cases h
    refine ⟨?_,rfl,by simp [ht]⟩
    have := Quiet.setPlaneReg ({ m with r := { m.r with hostCall := false } } : Machine V) 0 rsiSuccess
    unfold Machine.setPlaneReg Machine.setPlane Rec.setActivePlane Rec.activePlane Rec.isPlane0Active at *
    split at this <;> simp_all

theorem completeHostCall_false (h : completeHostCall env m = (m',false)) :
    m.r.hostCall = true ∧ m'.r = m.r ∧ m'.cpu = m.cpu ∧ m'.live = m.live := by
  unfold completeHostCall at h
  split at h
  · cases h
  rename_i hc
  dsimp only at h
  split at h
  · cases h; exact ⟨by simpa using hc,rfl,rfl,rfl⟩
  · cases h
  · cases h

section PlaneN

variable {r : Rec V} (hp : r.activePlaneId ≠ 0)

include hp

theorem setActivePlane_plane0 (p : RecPlane) : (r.setActivePlane p).plane0 = r.plane0 := by
  simp [Rec.setActivePlane,Rec.isPlane0Active,hp]

theorem completeSeaInsertion_plane0 (f : Features) (e : RecEnter) : (completeSeaInsertion f e r).1.plane0 = r.plane0 := by
  rw [completeSeaInsertion_eq]
  split
  · exact setActivePlane_plane0 (r := r.setSysregs _ _) hp _
  · rfl

theorem completeMmioEmulation_plane0 (e : RecEnter) : (completeMmioEmulation e r).1.plane0 = r.plane0 := by
  unfold completeMmioEmulation
  dsimp only
  split
  · rfl
  split
  · rfl
  · split
    · rfl
    · exact setActivePlane_plane0 hp _

end PlaneN

theorem completeHostCall_plane0 (hp : m.r.activePlaneId ≠ 0)
    (h : completeHostCall env m = (m',true)) : m'.r.plane0 = m.r.plane0 := by
  unfold completeHostCall at h
  split at h
  · cases h; rfl
  dsimp only at h
  split at h
  · cases h
  · cases h; rfl
  · cases h; exact setActivePlane_plane0 hp _

theorem runPageReachable_congr {r : Rec V} (h0 : r'.plane0 = r.plane0)
    (hi : r'.realmInfo = r.realmInfo) : runPageReachable s2 r' = runPageReachable s2 r := by
  simp only [runPageReachable,realmIpaToPa,Rec.addrInPar,Rec.parSize,Rec.ipaSize,h0,hi]
  rfl

theorem leavesPlaneN_congr {r : Rec V} (ha : r'.activePlaneId = r.activePlaneId) (hg : r'.gicOwner = r.gicOwner) :
    leavesPlaneN env e r' = leavesPlaneN env e r := by
  simp only [leavesPlaneN,Rec.isPlane0Active,ha,hg]

theorem leavesPlaneN_active {r : Rec V} (h : leavesPlaneN env e r = true) : r.activePlaneId ≠ 0 := by
  simp only [leavesPlaneN,Bool.and_eq_true,Bool.not_eq_true',Rec.isPlane0Active,beq_eq_false_iff_ne] at h
  exact h.1

inductive Prepared (env : EnterEnv) (e : RecEnter) (m : Machine V) :
    Machine V → Option EnterResult → Prop
  | refused {m' : Machine V} (hr : m'.r = m.r) (hc : m'.cpu = m.cpu)
      (hd : m.entryAllowed env = true → seaDue e m.r = false ∧ mmioDue e m.r = false) :
      Prepared env e m m' (some .error)
  | planeLost {m' : Machine V} (ha : m.entryAllowed env = true) (hl : leavesPlaneN env e m.r = true)
      (hw : runPageReachable env.s2 m.r = false)
      (hq : Quiet { m with r := { m.r with hostCall := false } } m')
      (hr : seaDue e m.r = false → mmioDue e m.r = false → m.r.hostCall = false → m'.r = m.r) :
      Prepared env e m m' (some .error)
  | exited {m' : Machine V} (hc : m.r.hostCall = true) (hq : Quiet m m')
      (hr : seaDue e m.r = false → mmioDue e m.r = false → m'.r = m.r) :
      Prepared env e m m' (some .exited)
  | stays {m' : Machine V} (hl : leavesPlaneN env e m.r = false) (hx : m'.exit = m.exit)
      (hq : Quiet { m with r := { m.r with hostCall := false } } m') : Prepared env e m m' none
  | leaves {m₁ m' : Machine V} {ret : Word} (hl : leavesPlaneN env e m.r = true)
      (hx : m'.exit = m.exit) (h₁ : Quiet { m with r := { m.r with hostCall := false } } m₁)
      (hq : Quiet (m₁.returnToPlane0 ret false) m') : Prepared env e m m' none

theorem mmioDue_injectSea {r : Rec V} (h : mmioDue e r = true) : e.injectSea = false := by
  simp only [mmioDue,Bool.and_eq_true,Bool.not_eq_true'] at h
  exact h.1.1.2

theorem completeSeaInsertion_not_due {r : Rec V} (h : seaDue e r = false) :
    completeSeaInsertion f e r = (r,!e.injectSea) := by
  rw [completeSeaInsertion_eq,h]
  rfl

theorem Quiet.hostCallCleared (h : Quiet m m') :
    Quiet { m with r := { m.r with hostCall := false } } { m' with r := { m'.r with hostCall := false } } :=
  ⟨h.syndrome0,h.syndrome1,h.trapSimd,h.realmInfo,h.activePlaneId,h.gicOwner,rfl,h.refcount,
    h.simdCtx,h.activeSimdCtx,h.cptr,h.cpu,h.esrEl2,h.hpfarEl2⟩

theorem completions_keep (f : Features) (e : RecEnter) (m : Machine V) :
    Quiet m { m with r := (completeMmioEmulation e (completeSeaInsertion f e m.r).1).1 } :=
  (Quiet.completeSeaInsertion f e m).trans (Quiet.completeMmioEmulation e _)

theorem completions_not_due {r : Rec V} (hs : seaDue e r = false)
    (hm : mmioDue e r = false) : (completeMmioEmulation e (completeSeaInsertion f e r).1).1 = r := by
  rw [completeSeaInsertion_not_due hs]
  exact completeMmioEmulation_not_due hm

theorem completions_plane0 (hp : m.r.activePlaneId ≠ 0) :
    (completeMmioEmulation e (completeSeaInsertion f e m.r).1).1.plane0 = m.r.plane0 := by
  have hq : (completeSeaInsertion f e m.r).1.activePlaneId = m.r.activePlaneId :=
    (Quiet.completeSeaInsertion f e m).activePlaneId
  rw [completeMmioEmulation_plane0 (by rw [hq]; exact hp),completeSeaInsertion_plane0 hp]

theorem afterSea_none (h : m.afterSea f env e = none) (ha : m.entryAllowed env = true) :
    seaDue e m.r = false ∧ mmioDue e m.r = false := by
  unfold Machine.afterSea at h
  rw [if_pos ha,completeSeaInsertion_eq] at h
  cases hs : seaDue e m.r with
  | true => simp [hs] at h
  | false =>
    refine ⟨rfl,?_⟩
    cases hi : e.injectSea with
    | true => simp [mmioDue,hi]
    | false => simp [hs,hi] at h

theorem afterSea_some {r : Rec V} (h : m.afterSea f env e = some r) :
    m.entryAllowed env = true ∧ r = (completeSeaInsertion f e m.r).1 := by
  unfold Machine.afterSea at h
  split at h
  next ha =>
    split at h
    · cases h
    next hs =>
      rw [hs]
      exact ⟨ha,(Option.some.inj h).symm⟩
  · cases h

theorem Prepared.of_planeExit {m₁ m₂ : Machine V} {res : Option EnterResult} (ha : m.entryAllowed env = true)
    (hm : m₁ = { m with r := (completeMmioEmulation e (completeSeaInsertion f e m.r).1).1 })
    (hh : completeHostCall env m₁ = (m₂,true))
    (h : (match exitPlaneNAtEntry env e m₂ with
    | (m,false) => (m,some EnterResult.error)
    | (m,true) => (m.completeRequests e,none)) = (m',res)) : Prepared env e m m' res := by
  have hq1 : Quiet m m₁ := hm ▸ completions_keep f e m
  obtain ⟨hq2,hx2,hk2⟩ := completeHostCall_true hh
  have hq := hq1.hostCallCleared.trans hq2
  have hx : m₂.exit = m.exit := by rw [hx2,hm]
  have hle : leavesPlaneN env e m₂.r = leavesPlaneN env e m.r :=
    leavesPlaneN_congr hq.activePlaneId hq.gicOwner
  unfold exitPlaneNAtEntry at h
  rw [hle] at h
  cases hl : leavesPlaneN env e m.r with
  | false =>
    simp only [hl] at h
    obtain ⟨rfl,rfl⟩ := h
    exact .stays hl (by simpa [Machine.completeRequests] using hx) (hq.trans (.completeRequests e m₂))
  | true =>
    simp only [hl,if_true] at h
    split at h
    next hf =>
      obtain ⟨rfl,rfl⟩ := h
      obtain ⟨hr,hlv,hw,hc,-⟩ := handlePlaneNExit_false hf
      have hp := leavesPlaneN_active hl
      have hp1 : m₁.r.activePlaneId ≠ 0 := by rw [hq1.activePlaneId]; exact hp
      have h0 : m₂.r.plane0 = m.r.plane0 := by
        rw [completeHostCall_plane0 hp1 hh,hm]
        exact completions_plane0 hp
      have hi : m₂.r.realmInfo = m.r.realmInfo := hq.realmInfo
      refine .planeLost ha hl ((runPageReachable_congr h0 hi).symm.trans hw) ?_ ?_
      · exact hq.trans (.of_eq hr hc hlv)
      · intro hs hmm hc
        have h1 : m₁.r = m.r := by rw [hm]; exact completions_not_due hs hmm
        rw [hr,hk2 (by rw [h1]; exact hc),h1]
    next ht =>
      obtain ⟨rfl,rfl⟩ := h
      obtain ⟨m₃,ret,hq3,hx3,rfl⟩ := handlePlaneNExit_true ht
      refine .leaves hl ?_ (hq.trans hq3) (.completeRequests e _)
      change (m₃.returnToPlane0 ret false).exit = m.exit
      rw [returnToPlane0_exit,hx3,hx]

theorem Prepared.of_prepareEntry
    {res : Option EnterResult} (h : m.prepareEntry f env e = (m',res)) : Prepared env e m m' res := by
  unfold Machine.prepareEntry at h
  split at h
  next hn =>
    obtain ⟨rfl,rfl⟩ := h
    exact .refused rfl rfl (afterSea_none hn)
  rename_i r hr
  obtain ⟨ha,hrs⟩ := afterSea_some hr
  split at h
  next hf =>
    obtain ⟨rfl,rfl⟩ := h
    obtain ⟨hi,hmf⟩ := completeMmioEmulation_false hf
    have hs : seaDue e m.r = false := by simp [seaDue,hi]
    rw [completeSeaInsertion_not_due hs] at hrs
    subst hrs
    exact .refused rfl rfl fun _ => ⟨hs,hmf⟩
  next r₂ ht =>
    have hr₂ : r₂ = (completeMmioEmulation e (completeSeaInsertion f e m.r).1).1 := by
      rw [← hrs,ht]
    split at h
    next m₂ hf =>
      obtain ⟨rfl,rfl⟩ := h
      obtain ⟨hc,hk,hcpu,hlv⟩ := completeHostCall_false hf
      have hq : Quiet m { m with r := r₂ } := hr₂ ▸ completions_keep f e m
      refine .exited (hq.hostCall ▸ hc) (hq.trans (.of_eq hk hcpu hlv)) fun hs hmm => ?_
      rw [hk,hr₂]
      exact completions_not_due hs hmm
    next m₂ hh => exact .of_planeExit ha (by rw [hr₂]) hh h

def Machine.beginEntry (m : Machine V) : Machine V := { m with exit := RecExit.zero }

theorem smcRecEnter_some {res : EnterResult} (hn : res ≠ .running) (h : m.smcRecEnter f env e = (m',res)) :
    m.beginEntry.prepareEntry f env e = (m',some res) := by
  unfold Machine.smcRecEnter at h
  split at h
  next hp =>
    obtain ⟨rfl,rfl⟩ := h
    exact hp
  · exact absurd (Prod.mk.inj h).2.symm hn

theorem smcRecEnter_running (h : m.smcRecEnter f env e = (m',.running)) :
    (∃ m₁, m.beginEntry.prepareEntry f env e = (m₁,none) ∧
      m' = { m₁.startRun e with r := { (m₁.startRun e).r with refcount := 1 } }) ∨
    m.beginEntry.prepareEntry f env e = (m',some .running) := by
  unfold Machine.smcRecEnter at h
  split at h
  next hp =>
    obtain ⟨rfl,rfl⟩ := h
    exact .inr hp
  next m₁ hp => exact .inl ⟨m₁,hp,(Prod.mk.inj h).1.symm⟩

theorem recRunLoopStep_resume (h : m.recRunLoopStep f inp = (m',.resume)) : m.recRunLoopBody f inp = (m',.resume) := by
  unfold Machine.recRunLoopStep at h
  split at h
  · cases h
  · exact h

theorem recRunLoopStep_left (h : m.recRunLoopStep f inp = (m',.toHost)) :
    ∃ m₁, m.recRunLoopBody f inp = (m₁,.toHost) ∧ m' = { m₁.recRunLoopExit with
        r := { m₁.recRunLoopExit.r with refcount := m₁.recRunLoopExit.r.refcount-1 } } := by
  unfold Machine.recRunLoopStep at h
  split at h
  next m₁ hb => exact ⟨m₁,hb,(Prod.mk.inj h).1.symm⟩
  next hn => exact absurd h (hn m')

end TfRmm.Exec
