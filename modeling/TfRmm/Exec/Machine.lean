import TfRmm.Arch.Syndrome

namespace TfRmm.Exec

open TfRmm.Arch

inductive Ripas where
  | empty
  | ram
  | destroyed
  | dev
  deriving DecidableEq

inductive SimdOwner where
  | nwd
  | rel1
  deriving DecidableEq

structure SimdConfig where
  sveEn : Bool
  smeEn : Bool
  deriving DecidableEq

structure SimdContext (V : Type) where
  initDone : Bool
  saved : Bool
  vregs : V

structure LastRunInfo where
  esr : Word
  hpfar : Word
  far : Word
  deriving DecidableEq

structure RecPlane where
  regs : Nat → Word
  pstate : Word
  pc : Word
  trapHc : Bool
  trapSimd : Bool
  trapWfi : Bool
  trapWfe : Bool
  lastRunInfo : LastRunInfo

structure El1Regs where
  sctlr : Word
  sctlr2 : Word
  vbar : Word
  elr : Word
  spsr : Word
  esr : Word
  far : Word
  deriving DecidableEq

structure SysregState where
  el1 : El1Regs
  hcrEl2 : Word
  cptrEl2 : Word
  deriving DecidableEq

structure SetRipas where
  base : Word
  top : Word
  addr : Word
  ripasVal : Ripas
  deriving DecidableEq

structure DevMem where
  base : Word
  top : Word
  addr : Word
  deriving DecidableEq

structure SetS2ap where
  base : Word
  top : Word
  index : Word
  cookie : Word
  deriving DecidableEq

structure Requests where
  setRipas : SetRipas
  devMem : DevMem
  setS2ap : SetS2ap
  pendingOp : Bool
  runnable : Bool
  deriving DecidableEq

structure RealmInfo where
  ipaBits : Nat
  numAuxPlanes : Nat
  rttTreePp : Bool
  simdCfg : SimdConfig
  deriving DecidableEq

structure Rec (V : Type) where
  refcount : Nat
  plane0 : RecPlane
  plane1 : RecPlane
  sysregs : Nat → SysregState
  commonHcrEl2 : Word
  requests : Requests
  realmInfo : RealmInfo
  simdCtx : SimdContext V
  activeSimdCtx : Option SimdOwner
  serrorVsesr : Word
  serrorInject : Bool
  hostCall : Bool
  activePlaneId : Nat
  gicOwner : Nat

inductive ExitReason where
  | sync
  | irq
  | fiq
  | psci
  | ripasChange
  | hostCall
  | serror
  | s2apChange
  | vdevValidateMapping
  deriving DecidableEq

structure RecExit where
  exitReason : ExitReason
  esr : Word
  far : Word
  hpfar : Word
  rttTree : Nat
  gprs : Nat → Word
  imm : Word
  plane : Nat

def RecExit.zero : RecExit where
  exitReason := .sync
  esr := 0
  far := 0
  hpfar := 0
  rttTree := 0
  gprs := fun _ => 0
  imm := 0
  plane := 0

structure LiveRegs where
  el1 : El1Regs
  elrEl2 : Word
  spsrEl2 : Word
  esrEl2 : Word
  farEl2 : Word
  hpfarEl2 : Word
  hcrEl2 : Word
  vsesrEl2 : Word
  deriving DecidableEq

structure Cpu (V : Type) where
  vregs : V
  simdSaved : Bool
  liveCtx : Option SimdOwner
  nsSimdCtx : SimdContext V
  asserted : Bool

structure Machine (V : Type) where
  r : Rec V
  cpu : Cpu V
  live : LiveRegs
  exit : RecExit
  assertFailed : Bool

structure Features where
  ssbs : Bool
  nmi : Bool
  mte2 : Bool
  ebep : Bool
  sebep : Bool
  gcs : Bool
  exlockEn : Bool
  rmmFpuUseAtRel2 : Bool
  deriving DecidableEq

abbrev S2Level := { level : Int // -1 ≤ level ∧ level ≤ 3 }

def S2Level.ofFin (n : Fin 4) : S2Level := ⟨n.val,by omega⟩

def S2Level.page : S2Level := ⟨3,by omega⟩

def S2Level.lpa2Start : S2Level := ⟨-1,by omega⟩

inductive S2Walk where
  | success
  | invalidParams
  | fail (ripas : Ripas) (rttLevel : S2Level)
  deriving DecidableEq

variable {V : Type}

namespace RecPlane

def setReg (p : RecPlane) (i : Nat) (v : Word) : RecPlane :=
  { p with regs := Function.update p.regs i v }

end RecPlane

namespace Rec

def isPlane0Active (r : Rec V) : Bool := r.activePlaneId == 0

def numPlanes (r : Rec V) : Nat := r.realmInfo.numAuxPlanes+1

def activePlane (r : Rec V) : RecPlane := if r.isPlane0Active then r.plane0 else r.plane1

def setActivePlane (r : Rec V) (p : RecPlane) : Rec V :=
  if r.isPlane0Active then { r with plane0 := p } else { r with plane1 := p }

def activeSysregs (r : Rec V) : SysregState := r.sysregs r.activePlaneId

def setSysregs (r : Rec V) (i : Nat) (s : SysregState) : Rec V :=
  { r with sysregs := Function.update r.sysregs i s }

def activeS2ContextIdx (r : Rec V) : Nat := (r.activePlaneId+1) % r.numPlanes

def ipaSize (r : Rec V) : Nat := 2 ^ r.realmInfo.ipaBits

def parSize (r : Rec V) : Nat := r.ipaSize / 2

def addrInPar (r : Rec V) (addr : Word) : Bool := addr.toNat < r.parSize

@[simp] theorem activePlane_setActivePlane (r : Rec V) (p : RecPlane) : (r.setActivePlane p).activePlane = p := by
  unfold setActivePlane activePlane isPlane0Active
  split <;> simp_all

section Frame

variable (r : Rec V) (p : RecPlane)

@[simp] theorem setActivePlane_activePlaneId : (r.setActivePlane p).activePlaneId = r.activePlaneId := by
  unfold setActivePlane; split <;> rfl

@[simp] theorem setActivePlane_sysregs : (r.setActivePlane p).sysregs = r.sysregs := by
  unfold setActivePlane; split <;> rfl

end Frame

end Rec

def granuleAligned (a : Word) : Bool := a.toNat % 4096 == 0

def realmIpaToPa (r : Rec V) (s2 : Word → S2Walk) (ipa : Word) : S2Walk :=
  if !granuleAligned ipa || !r.addrInPar ipa then .invalidParams else s2 ipa

namespace Machine

def check (b : Bool) (m : Machine V) : Machine V :=
  { m with cpu := { m.cpu with asserted := m.cpu.asserted || !b } }

def assertThat (b : Bool) (m : Machine V) : Machine V :=
  { m with assertFailed := m.assertFailed || !b }

section Assert

variable (b : Bool) (m : Machine V)

@[simp] theorem assertThat_r : (m.assertThat b).r = m.r := rfl

@[simp] theorem assertThat_exit : (m.assertThat b).exit = m.exit := rfl

@[simp] theorem assertThat_true : m.assertThat true = m := by
  simp [assertThat]

end Assert

def setPlane (m : Machine V) (p : RecPlane) : Machine V :=
  { m with r := m.r.setActivePlane p }

def setPlaneReg (m : Machine V) (i : Nat) (v : Word) : Machine V :=
  m.setPlane (m.r.activePlane.setReg i v)

end Machine

variable (cptr : Word)

def simdEnableCptrFlags (cfg : SimdConfig) (cptr : Word) : Word :=
  (cptr &&& ~~~cptrSimdMask) ||| inplace fpenShift 3 |||
    (if cfg.sveEn then inplace zenShift 3 else 0) ||| (if cfg.smeEn then inplace smenShift 3 else 0)

def simdDisableAllCptrFlags (cptr : Word) : Word :=
  (cptr &&& ~~~cptrSimdMask) ||| inplace fpenShift 0 ||| inplace zenShift 0 ||| inplace smenShift 0

namespace Machine

def simdContext (m : Machine V) : SimdOwner → SimdContext V
  | .nwd => m.cpu.nsSimdCtx
  | .rel1 => m.r.simdCtx

def setSimdContext (m : Machine V) : SimdOwner → SimdContext V → Machine V
  | .nwd, c => { m with cpu := { m.cpu with nsSimdCtx := c } }
  | .rel1, c => { m with r := { m.r with simdCtx := c } }

def saveSimdContext (o : SimdOwner) (m : Machine V) : Machine V :=
  let c := m.simdContext o
  let m := m.check (c.initDone && !c.saved && !m.cpu.simdSaved)
  let m := m.setSimdContext o { c with saved := true,vregs := m.cpu.vregs }
  { m with cpu := { m.cpu with simdSaved := true,liveCtx := none } }

def restoreSimdContext (o : SimdOwner) (m : Machine V) : Machine V :=
  let c := m.simdContext o
  let m := m.check (c.initDone && c.saved && m.cpu.simdSaved)
  let m := m.setSimdContext o { c with saved := false }
  { m with cpu := { m.cpu with vregs := c.vregs,simdSaved := false,liveCtx := some o } }

def simdContextSwitch (ctxSave ctxRestore : Option SimdOwner) (m : Machine V) : Machine V :=
  let m := m.check (ctxSave.isSome || ctxRestore.isSome)
  let m := match ctxSave with
    | some o => m.saveSimdContext o
    | none => m
  match ctxRestore with
  | some o => m.restoreSimdContext o
  | none => m

variable (a b : Option SimdOwner)

@[simp] theorem simdContextSwitch_exit (m : Machine V) : (m.simdContextSwitch a b).exit = m.exit := by
  rcases a with _ | ⟨_ | _⟩ <;> rcases b with _ | ⟨_ | _⟩ <;> rfl

@[simp] theorem simdContextSwitch_live (m : Machine V) : (m.simdContextSwitch a b).live = m.live := by
  rcases a with _ | ⟨_ | _⟩ <;> rcases b with _ | ⟨_ | _⟩ <;> rfl

@[simp] theorem simdContextSwitch_assertFailed (m : Machine V) :
    (m.simdContextSwitch a b).assertFailed = m.assertFailed := by
  rcases a with _ | ⟨_ | _⟩ <;> rcases b with _ | ⟨_ | _⟩ <;> rfl

theorem simdContextSwitch_rec (m : Machine V) : ∃ c, (m.simdContextSwitch a b).r = { m.r with simdCtx := c } := by
  rcases a with _ | ⟨_ | _⟩ <;> rcases b with _ | ⟨_ | _⟩ <;> exact ⟨_,rfl⟩

end Machine

theorem cptr_disable_eq : simdDisableAllCptrFlags cptr = cptr &&& ~~~cptrSimdMask := by
  have hz : ∀ s, inplace s 0 = 0 := by intro s; simp [inplace]
  simp [simdDisableAllCptrFlags,hz]

@[simp] theorem cptrFpEnabled_disable : cptrFpEnabled (simdDisableAllCptrFlags cptr) = false := by
  rw [cptr_disable_eq]
  simp only [cptrFpEnabled,bitSet]
  rw [BitVec.and_assoc,show ~~~cptrSimdMask &&& bit fpenShift = 0 by decide]
  simp

@[simp] theorem cptrSveEnabled_disable : cptrSveEnabled (simdDisableAllCptrFlags cptr) = false := by
  rw [cptr_disable_eq]
  simp only [cptrSveEnabled,bitSet]
  rw [BitVec.and_assoc,show ~~~cptrSimdMask &&& bit zenShift = 0 by decide]
  simp

@[simp] theorem cptrFpEnabled_enable (cfg : SimdConfig) (cptr : Word) :
    cptrFpEnabled (simdEnableCptrFlags cfg cptr) = true := by
  apply bitSet_of_getLsbD
  simp [simdEnableCptrFlags,inplace,fpenShift]

@[simp] theorem cptrSveEnabled_enable {cfg : SimdConfig} (h : cfg.sveEn = true) (cptr : Word) :
    cptrSveEnabled (simdEnableCptrFlags cfg cptr) = true := by
  apply bitSet_of_getLsbD
  simp [simdEnableCptrFlags,inplace,zenShift,h]

variable (f : Features) (l : LiveRegs)

def spsrModeMask : Word := mask 0 4
def spsrModeEl0t : Word := inplace 0 0
def spsrModeEl1t : Word := inplace 0 4
def spsrModeEl1h : Word := inplace 0 5
def spsrModeEl2Bit : Word := bit 3
def spsrAarch32 : Word := inplace 4 1

def calcVectorEntry (vbar spsr : Word) (applySeaEaseOffset : Bool) : Word :=
  let ease : Word := if applySeaEaseOffset then 0x180 else 0
  if spsr &&& spsrModeMask = spsrModeEl1h then vbar+(0x200+ease)
  else if spsr &&& spsrModeMask = spsrModeEl1t then vbar+ease
  else if spsr &&& spsrModeMask = spsrModeEl0t then
    if spsr &&& mask 4 1 = 0 then vbar+(0x400+ease) else vbar+0x600
  else vbar+ease

def flagWord (b : Bool) (w : Word) : Word := if b then w else 0

def calcSpsr (oldSpsr oldSctlr : Word) : Word :=
  spsrModeEl1h ||| mask 6 4 |||
  flagWord (f.ssbs && bitSet 44 oldSctlr) (bit 12) |||
  flagWord (f.nmi && !bitSet 62 oldSctlr) (bit 13) |||
  flagWord (!bitSet 23 oldSctlr) (bit 22) |||
  (oldSpsr &&& bit 24) |||
  flagWord f.mte2 (bit 25) |||
  (oldSpsr &&& mask 28 4) |||
  flagWord f.ebep (bit 32) |||
  flagWord (f.gcs && f.exlockEn) (bit 34)

def fscSea : Word := 0x10

def calcEsrIdabort (esrEl2 spsrEl2 fsc : Word) : Word :=
  let ec := esrEc esrEl2
  let ec := if spsrEl2 &&& spsrModeMask != spsrModeEl0t then ec + inplace 26 1 else ec
  (esrEl2 &&& ~~~(ecMask ||| fscMask ||| fnvBit ||| s1ptwBit)) ||| ec ||| fsc ||| eaBit

def easeBit (sctlr2 : Word) : Bool := bitSet 5 sctlr2

def injectSyncIdabort (l : LiveRegs) : LiveRegs :=
  { l with
    el1 := { l.el1 with
      far := l.farEl2
      elr := l.elrEl2
      spsr := l.spsrEl2
      esr := calcEsrIdabort l.esrEl2 l.spsrEl2 fscSea }
    elrEl2 := calcVectorEntry l.el1.vbar l.spsrEl2 (easeBit l.el1.sctlr2)
    spsrEl2 := calcSpsr f l.spsrEl2 l.el1.sctlr }

def realmInjectUndefAbort (l : LiveRegs) : LiveRegs :=
  { l with
    el1 := { l.el1 with
      elr := l.elrEl2
      spsr := l.spsrEl2
      esr := ilMask ||| Ec.unknown.word }
    elrEl2 := calcVectorEntry l.el1.vbar l.spsrEl2 false
    spsrEl2 := calcSpsr f l.spsrEl2 l.el1.sctlr }

def injectSyncIdabortRec (r : Rec V) : Rec V :=
  let plane := r.activePlane
  let s := r.activeSysregs
  let r := r.setSysregs r.activePlaneId { s with
    el1 := { s.el1 with
      far := plane.lastRunInfo.far
      elr := plane.pc
      spsr := plane.pstate
      esr := calcEsrIdabort plane.lastRunInfo.esr plane.pstate fscSea } }
  r.setActivePlane { plane with
    pc := calcVectorEntry s.el1.vbar plane.pstate (easeBit s.el1.sctlr2)
    pstate := calcSpsr f plane.pstate s.el1.sctlr }

def advancePc : LiveRegs := { l with elrEl2 := l.elrEl2+4 }

def reversePc : LiveRegs := { l with elrEl2 := l.elrEl2-4 }

def rsiSuccess : Word := 0
def rsiErrorInput : Word := 1

structure PlaneEnter where
  flags : Word
  pc : Word
  pstate : Word
  gprs : Nat → Word
  elrEl1 : Word

inductive RsiAction where
  | updateRecReturnToRealm
  | exitToHost
  | updateRecExitToHost
  | stage2TranslationFault
  | planeChangedReturnToRealm
  deriving DecidableEq

def RsiAction.updateRec : RsiAction → Bool
  | .updateRecReturnToRealm => true
  | .updateRecExitToHost => true
  | _ => false

def RsiAction.leavesRealm : RsiAction → Bool
  | .exitToHost => true
  | .updateRecExitToHost => true
  | .stage2TranslationFault => true
  | _ => false

structure RsiResult where
  action : RsiAction
  rttLevel : S2Level
  x : Nat → Word

def RsiResult.returnToRealm (x : Nat → Word) : RsiResult := ⟨.updateRecReturnToRealm,.ofFin 0,x⟩

abbrev RsiResult.unleveled (action : RsiAction) (x : Nat → Word) : RsiResult := ⟨action,.ofFin 0,x⟩

inductive MemLockMap where
  | mapped
  | errorInput
  | translationFault (rttLevel : S2Level)
  deriving DecidableEq

def realmMemLockMap (r : Rec V) (s2 : Word → S2Walk) (ipa : Word) : MemLockMap :=
  match realmIpaToPa r s2 ipa with
  | .success => .mapped
  | .invalidParams => .mapped
  | .fail ripas lvl => if ripas = .empty ∨ ripas = .dev then .errorInput else .translationFault lvl

def stage2DataAbortExit (e : RecExit) (rttLevel : S2Level) (ipa : Word) : RecExit :=
  { e with
    esr := Ec.dataAbort.word ||| BitVec.ofInt 64 (4+rttLevel.val)
    far := 0
    hpfar := ipa >>> 8
    exitReason := .sync }

namespace Machine

variable (m : Machine V) (s2 : Word → S2Walk)

def emulateStage2DataAbort (rttLevel : S2Level) (ipa : Word) : Machine V :=
  let m := m.assertThat (0 ≤ rttLevel.val)
  { m with exit := stage2DataAbortExit m.exit rttLevel ipa }

def saveRealmState : Machine V :=
  let p := { m.r.activePlane with pc := m.live.elrEl2,pstate := m.live.spsrEl2 }
  let s := { m.r.activeSysregs with el1 := m.live.el1 }
  { m with r := (m.r.setActivePlane p).setSysregs m.r.activePlaneId s }

def restoreRealmState : Machine V :=
  { m with live := { m.live with
    el1 := m.r.activeSysregs.el1
    elrEl2 := m.r.activePlane.pc
    spsrEl2 := m.r.activePlane.pstate
    hcrEl2 := m.r.activeSysregs.hcrEl2 } }

def returnToPlane0 (ret : Word) (saveRestorePlaneState : Bool) : Machine V :=
  let sysreg0 := m.r.sysregs 0
  let sysregN := m.r.activeSysregs
  let sysreg0 := if !m.r.plane1.trapSimd then { sysreg0 with cptrEl2 := sysregN.cptrEl2 } else sysreg0
  let p0 := m.r.plane0
  let p0 := { p0 with
    regs := fun i => if i = 0 then ret else if i ≤ 3 then 0 else p0.regs i
    pc := p0.pc+4 }
  let m := { m with r := { m.r.setSysregs 0 sysreg0 with
    plane0 := p0
    gicOwner := 0
    activePlaneId := 0 } }
  if saveRestorePlaneState then m.restoreRealmState else m

def handlePlaneNExit (saveRestorePlaneState : Bool) (m : Machine V) : Machine V × Bool :=
  let runIpa := m.r.plane0.regs 2
  match realmIpaToPa m.r s2 runIpa with
  | .success =>
    let m := if saveRestorePlaneState then m.saveRealmState else m
    (m.returnToPlane0 rsiSuccess saveRestorePlaneState,true)
  | .fail ripas lvl =>
    if ripas = .empty ∨ ripas = .dev then
      (m.returnToPlane0 rsiErrorInput saveRestorePlaneState,true)
    else
      (m.emulateStage2DataAbort lvl runIpa,false)
  | .invalidParams => (m.assertThat false,false)

def copyStateFromPlaneEntry (entry : PlaneEnter) : Machine V :=
  let p := { m.r.activePlane with
    regs := fun i => if i < 31 then entry.gprs i else m.r.activePlane.regs i
    pc := entry.pc
    pstate := entry.pstate }
  let s := m.r.activeSysregs
  let s := { s with el1 := { s.el1 with elr := entry.elrEl1 } }
  { m with r := (m.r.setActivePlane p).setSysregs m.r.activePlaneId s }

def planeFlag (n : Nat) (entry : PlaneEnter) : Bool := bitSet n entry.flags

def activatePlaneN (planeIdx : Nat) (entry : PlaneEnter) : Machine V :=
  let sysreg0 := m.r.sysregs 0
  let m := { m with r := { m.r with
    activePlaneId := planeIdx
    gicOwner := if planeFlag 3 entry then planeIdx else m.r.gicOwner } }
  let m := m.copyStateFromPlaneEntry entry
  let s := m.r.activeSysregs
  let s := { s with
    hcrEl2 := m.r.commonHcrEl2 ||| flagWord (planeFlag 0 entry) (bit 13) |||
      flagWord (planeFlag 1 entry) (bit 14)
    cptrEl2 := if planeFlag 4 entry then simdDisableAllCptrFlags s.cptrEl2 else sysreg0.cptrEl2 }
  let p := { m.r.activePlane with
    trapSimd := planeFlag 4 entry
    trapHc := planeFlag 2 entry
    trapWfi := planeFlag 0 entry
    trapWfe := planeFlag 1 entry }
  { m with r := (m.r.setActivePlane p).setSysregs m.r.activePlaneId s }

def handleRsiPlaneEnter (entry : PlaneEnter) (lrsValid : Bool)
    (x : Nat → Word) (m : Machine V) : Machine V × RsiResult :=
  let planeIdx := (m.r.plane0.regs 1).toNat
  let runIpa := m.r.plane0.regs 2
  let error := RsiResult.returnToRealm (Function.update x 0 rsiErrorInput)
  if planeIdx = 0 ∨ m.r.numPlanes ≤ planeIdx ∨ !granuleAligned runIpa ∨ !m.r.addrInPar runIpa then
    (m,error)
  else
    match realmMemLockMap m.r s2 runIpa with
    | .errorInput => (m,error)
    | .translationFault lvl => (m,⟨.stage2TranslationFault,lvl,x⟩)
    | .mapped =>
      if entry.pstate &&& (spsrAarch32 ||| spsrModeEl2Bit) != 0 then (m,error)
      else if !planeFlag 3 entry && !lrsValid then (m,error)
      else
        let m := m.saveRealmState
        let m := m.activatePlaneN planeIdx entry
        (m.restoreRealmState,⟨.planeChangedReturnToRealm,.ofFin 0,x⟩)

end Machine

variable (esr : Word)

inductive RealmException where
  | sync
  | irq
  | fiq
  | serror
  | other
  deriving DecidableEq

inductive RsiOutcome where
  | updateRecReturnToRealm (x : Nat → Word)
  | exitToHost (exitReason : ExitReason) (gprs : Nat → Word)
  | updateRecExitToHost (x : Nat → Word) (exitReason : ExitReason) (gprs : Nat → Word)
  | stage2TranslationFault (rttLevel : S2Level)

structure ExitEnv where
  s2 : Word → S2Walk
  fipaFromFar : Option Word
  idRegValue : Word
  planeEnter : PlaneEnter
  lrsValid : Bool
  hostCallImm : Word
  hostCallGprs : Nat → Word
  rsi : RsiOutcome
  requests : Requests
  rsiRegs : Nat → Word
  planeEl1 : Nat → El1Regs

inductive Cont where
  | resume
  | toHost
  | halt
  deriving DecidableEq

def Cont.ofBool (b : Bool) : Cont := if b then .resume else .toHost

def fscIsExternalAbort (fsc : Nat) : Bool := fsc == 0x10 || (0x13 ≤ fsc && fsc ≤ 0x17)

def abortIsPermissionFault : Bool := 0x0c ≤ esrFsc esr && esrFsc esr ≤ 0x0f

def hpfarIsValidForAbort : Bool :=
  if abortIsPermissionFault esr then esr &&& s1ptwBit != 0 else true

namespace Machine

variable (env : ExitEnv) (m : Machine V)

def ipaIsEmpty (m : Machine V) (ipa : Word) : Bool :=
  match realmIpaToPa m.r env.s2 ipa with
  | .fail ripas _ => ripas == .empty
  | _ => false

def getAbortFaultIpa (m : Machine V) (esr : Word) : Option (Word × Word) :=
  if hpfarIsValidForAbort esr then some (hpfarFipa m.live.hpfarEl2,m.live.hpfarEl2)
  else env.fipaFromFar.map fun par => (par &&& parPaMask,(par &&& parPaMask) >>> 8)

def reportExternalAbort (esr : Word) : RecExit :=
  { m.exit with
    esr := esr &&& (if hasEc .instAbort esr then instructionAbortMask else nonemulatedAbortMask) }

def handleSyncExternalAbort (m : Machine V) (esr : Word) : Option (Machine V × Cont) :=
  if !fscIsExternalAbort (esrFsc esr) then none
  else
    match esrSet esr with
    | 0 => some ({ m with live := injectSyncIdabort f m.live,exit := m.reportExternalAbort esr },.toHost)
    | 3 => some ({ m with exit := m.reportExternalAbort esr },.toHost)
    | _ => some (m,.halt)

def getDabtWriteValue (esr : Word) : Word :=
  if esrSrt esr = 31 then 0 else m.r.activePlane.regs (esrSrt esr) &&& accessMask esr

def reportDataAbort (esr fipa hpfar : Word) : RecExit :=
  let aarch32 := m.live.spsrEl2 &&& spsrAarch32 != 0
  let e := { m.exit with hpfar := hpfar,rttTree := m.r.activeS2ContextIdx }
  if aarch32 || m.r.addrInPar fipa then
    let esr := if aarch32 then esr &&& ~~~isvBit else esr
    { e with esr := esr &&& nonemulatedAbortMask,far := 0,gprs := Function.update e.gprs 0 0 }
  else if !esrIsv esr then
    { e with
      esr := esr &&& (nonemulatedAbortMask ||| ilMask ||| wnrBit)
      far := 0
      gprs := Function.update e.gprs 0 0 }
  else
    { e with
      esr := esr &&& emulatedAbortMask
      far := m.live.farEl2 &&& 0xfff
      gprs := Function.update e.gprs 0 (if esrIsWrite esr then m.getDabtWriteValue esr else 0) }

def handleDataAbort (env : ExitEnv) (m : Machine V) (esr : Word) : Machine V × Cont :=
  match m.handleSyncExternalAbort f esr with
  | some res => res
  | none =>
    match m.getAbortFaultIpa env esr with
    | none => (m,.resume)
    | some (fipa,hpfar) =>
      let m := m.assertThat (granuleAligned fipa)
      let emptyIpa := m.ipaIsEmpty env fipa
      if m.r.isPlane0Active && emptyIpa then
        ({ m with live := injectSyncIdabort f m.live },.resume)
      else if !m.r.isPlane0Active && (abortIsPermissionFault esr || emptyIpa) then
        let (m,b) := (m.assertThat (m.r.addrInPar fipa)).handlePlaneNExit env.s2 true
        (m,.ofBool b)
      else if m.r.ipaSize ≤ fipa.toNat then
        ({ m with live := injectSyncIdabort f m.live },.resume)
      else
        ({ m with exit := m.reportDataAbort esr fipa hpfar },.toHost)

def handleInstructionAbort (env : ExitEnv) (m : Machine V) (esr : Word) : Machine V × Cont :=
  match m.handleSyncExternalAbort f esr with
  | some res => res
  | none =>
    match m.getAbortFaultIpa env esr with
    | none => (m,.resume)
    | some (fipa,hpfar) =>
      let m := m.assertThat (granuleAligned fipa)
      if abortIsPermissionFault esr || m.ipaIsEmpty env fipa || !m.r.addrInPar fipa then
        if m.r.isPlane0Active then
          ({ m with live := injectSyncIdabort f m.live },.resume)
        else
          let (m,b) := m.handlePlaneNExit env.s2 true
          (m,.ofBool b)
      else
        ({ m with exit := { m.exit with
          hpfar := hpfar
          esr := esr &&& instructionAbortMask
          rttTree := m.r.activeS2ContextIdx } },.toHost)

def handleSimdException (env : ExitEnv) (m : Machine V) (esr : Word) : Machine V × Cont :=
  if !m.r.isPlane0Active && m.r.activePlane.trapSimd then
    let (m,b) := m.handlePlaneNExit env.s2 true
    (m,.ofBool b)
  else if hasEc .sve esr && !m.r.realmInfo.simdCfg.sveEn then
    ({ m with live := realmInjectUndefAbort f m.live },.resume)
  else if hasEc .sme esr && (!m.r.realmInfo.simdCfg.sveEn || m.r.activeSimdCtx == some .rel1) then
    ({ m with live := realmInjectUndefAbort f m.live },.resume)
  else
    let m := m.check (m.r.activeSimdCtx != some .rel1)
    let m := m.simdContextSwitch m.r.activeSimdCtx (some .rel1)
    let s := m.r.activeSysregs
    let s := { s with cptrEl2 := simdEnableCptrFlags m.r.realmInfo.simdCfg s.cptrEl2 }
    ({ m with r := { m.r.setSysregs m.r.activePlaneId s with activeSimdCtx := some .rel1 } },.resume)

def handleWfxException (m : Machine V) (esr : Word) : Machine V × Cont :=
  if m.r.isPlane0Active then
    let timed := esr &&& bit 1 != 0
    let e := { m.exit with esr := (esr &&& (ecMask ||| mask 0 2)) ||| flagWord timed (bit 2) }
    let rn := extract 5 5 esr
    let e := if timed then
      { e with gprs := Function.update e.gprs 0 (if rn < 31 then m.r.activePlane.regs rn else 0) } else e
    ({ m with live := advancePc m.live,exit := e },.toHost)
  else
    let m := { m with live := advancePc m.live }
    let (m,b) := m.handlePlaneNExit env.s2 true
    if b then (m,.resume) else ({ m with live := reversePc m.live },.toHost)

def handleHvcException (env : ExitEnv) (m : Machine V) : Machine V × Cont :=
  if m.r.isPlane0Active then
    ({ m with live := realmInjectUndefAbort f m.live },.resume)
  else
    let (m,b) := m.handlePlaneNExit env.s2 true
    if b then (m,.resume) else ({ m with live := reversePc m.live },.toHost)

inductive SysregHandler where
  | id
  | icc
  | undef
  deriving DecidableEq

end Machine

def sysregTrapOpcode (op0 op1 crn crm op2 : Nat) : Word :=
  inplace 20 op0 ||| inplace 14 op1 ||| inplace 10 crn ||| inplace 1 crm ||| inplace 17 op2

def sysregHandlers : List (Word × Word × Machine.SysregHandler) :=
  [(sysregTrapOpcode 3 7 15 0 0,sysregTrapOpcode 3 0 0 0 0,.id),
   (sysregTrapOpcode 3 3 15 8 0,sysregTrapOpcode 3 0 12 8 0,.icc),
   (sysregTrapOpcode 3 7 15 15 7,sysregTrapOpcode 3 0 4 6 0,.icc),
   (sysregTrapOpcode 2 7 14 0 0,sysregTrapOpcode 2 1 8 0 0,.undef),
   (sysregTrapOpcode 3 7 15 14 0,sysregTrapOpcode 3 0 10 4 0,.undef),
   (sysregTrapOpcode 3 7 15 15 7,sysregTrapOpcode 3 0 10 2 5,.undef)]

def sysregHandlerFor : Option Machine.SysregHandler :=
  (sysregHandlers.find? fun h => esr &&& h.1 == h.2.1).map (·.2.2)

namespace Machine

def emulateSysregAccessNs (m : Machine V) (esr : Word) : RecExit :=
  let rt := sysregIssRt esr
  let v := if rt = 31 then 0 else m.r.activePlane.regs rt
  { m.exit with
    gprs := if sysregIsWrite esr then Function.update m.exit.gprs 0 v else m.exit.gprs
    esr := esr &&& ~~~sysregRtMask }

def handleSysregAccessTrap (f : Features) (env : ExitEnv) (m : Machine V) (esr : Word) : Machine V × Cont :=
  let rt := sysregIssRt esr
  match sysregHandlerFor esr with
  | some .id =>
    let m := if rt = 31 then m else m.setPlaneReg rt env.idRegValue
    ({ m with live := advancePc m.live },.resume)
  | some .icc => ({ m with exit := m.emulateSysregAccessNs esr,live := advancePc m.live },.toHost)
  | some .undef => ({ m with live := realmInjectUndefAbort f m.live },.resume)
  | none =>
    let m := if !sysregIsWrite esr && rt != 31 then m.setPlaneReg rt 0 else m
    ({ m with live := advancePc m.live },.resume)

end Machine

def smcRsiFid (offset : Nat) : Nat := 0xC4000190+offset

def smcRsiMeasurementExtend : Nat := smcRsiFid 0x3
def smcRsiAttestTokenContinue : Nat := smcRsiFid 0x5
def smcRsiHostCall : Nat := smcRsiFid 0x9
def smcRsiPlaneEnter : Nat := smcRsiFid 0x13

def functionId (x0 : Word) : Nat := ((x0 &&& 0xffffffff) &&& ~~~(bit 16)).toNat

def rsiHandlerNeedsFpu (f : Features) (fid : Nat) : Bool :=
  f.rmmFpuUseAtRel2 && (fid == smcRsiAttestTokenContinue || fid == smcRsiMeasurementExtend)

namespace Machine

variable (env : ExitEnv) (fid : Nat) (m : Machine V) (plane : RecPlane)

def doHostCallExit (x : Nat → Word) : Machine V × RsiResult :=
  let ipa := m.r.activePlane.regs 1
  match realmMemLockMap m.r env.s2 (ipa &&& ~~~0xfff) with
  | .errorInput => (m,.returnToRealm (Function.update x 0 rsiErrorInput))
  | .translationFault lvl => (m,⟨.stage2TranslationFault,lvl,x⟩)
  | .mapped =>
    ({ m with
      r := { m.r with hostCall := true }
      exit := { m.exit with
        imm := env.hostCallImm
        plane := m.r.activePlaneId
        gprs := fun i => if i < 31 then env.hostCallGprs i else m.exit.gprs i
        exitReason := .hostCall } },.unleveled .exitToHost x)

def handleRsiHostCall (x : Nat → Word) : Machine V × RsiResult :=
  let ipa := m.r.activePlane.regs 1
  if ipa.toNat % 256 ≠ 0 ∨ ipa.toNat / 4096 ≠ (ipa.toNat+255) / 4096 ∨ !m.r.addrInPar ipa then
    (m,.returnToRealm (Function.update x 0 rsiErrorInput))
  else
    m.doHostCallExit env x

def handleRsiOther : Machine V × RsiResult :=
  let p := m.r.activePlane
  let m := m.setPlane { p with regs := fun i => if i < 8 then p.regs i else env.rsiRegs i }
  let m := { m with r := { m.r with
    sysregs := fun i => if i = 0 then m.r.sysregs i else { m.r.sysregs i with el1 := env.planeEl1 i } } }
  match env.rsi with
  | .updateRecReturnToRealm x => (m,.returnToRealm x)
  | .exitToHost reason gprs =>
    ({ m with
      r := { m.r with requests := env.requests }
      exit := { m.exit with exitReason := reason,gprs := gprs } },.unleveled .exitToHost fun _ => 0)
  | .updateRecExitToHost x reason gprs =>
    ({ m with
      r := { m.r with requests := env.requests }
      exit := { m.exit with exitReason := reason,gprs := gprs } },.unleveled .updateRecExitToHost x)
  | .stage2TranslationFault lvl => (m,⟨.stage2TranslationFault,lvl,fun _ => 0⟩)

def rsiDispatch (fid : Nat) (m : Machine V) : Machine V × RsiResult :=
  let regs := m.r.activePlane.regs
  let x : Nat → Word := fun i => if 4 ≤ i ∧ i < 8 then regs i else 0
  if fid = smcRsiHostCall then m.handleRsiHostCall env x
  else if fid = smcRsiPlaneEnter then m.handleRsiPlaneEnter env.s2 env.planeEnter env.lrsValid x
  else m.handleRsiOther env

def rsiAdvance (res : RsiResult) (m : Machine V) : Machine V :=
  match res.action with
  | .planeChangedReturnToRealm => m
  | .stage2TranslationFault =>
    let ipa := plane.regs (if fid = smcRsiPlaneEnter then 2 else 1)
    m.emulateStage2DataAbort res.rttLevel ipa
  | _ => { m with live := advancePc m.live }

def rsiUpdateRec (res : RsiResult) (m : Machine V) : Machine V :=
  if res.action.updateRec then
    m.setPlane { m.r.activePlane with
      regs := fun i => if i < 8 then res.x i else m.r.activePlane.regs i }
  else m

def rsiFinish (res : RsiResult) (m : Machine V) : Machine V × Cont :=
  ((m.rsiAdvance fid plane res).rsiUpdateRec res,if res.action.leavesRealm then .toHost else .resume)

def handleRealmRsi (env : ExitEnv) (m : Machine V) : Machine V × Cont :=
  let plane := m.r.activePlane
  let fid := functionId (plane.regs 0)
  if !m.r.isPlane0Active && !(fid == smcRsiHostCall && !plane.trapHc) then
    let (m,b) := m.handlePlaneNExit env.s2 true
    (m,.ofBool b)
  else
    let needsFpu := rsiHandlerNeedsFpu f fid
    let m := if needsFpu then m.simdContextSwitch m.r.activeSimdCtx none else m
    let (m,res) := m.rsiDispatch env fid
    let m := if needsFpu then m.simdContextSwitch none m.r.activeSimdCtx else m
    m.rsiFinish fid plane res

def handleExceptionSync (env : ExitEnv) (m : Machine V) : Machine V × Cont :=
  let esr := m.live.esrEl2
  if hasEc .wfx esr then m.handleWfxException env esr
  else if hasEc .hvc esr then m.handleHvcException f env
  else if hasEc .smc esr then m.handleRealmRsi f env
  else if hasEc .sysreg esr then m.handleSysregAccessTrap f env esr
  else if hasEc .instAbort esr then m.handleInstructionAbort f env esr
  else if hasEc .dataAbort esr then m.handleDataAbort f env esr
  else if hasEc .fpu esr || hasEc .sve esr || hasEc .sme esr then m.handleSimdException f env esr
  else (m,.toHost)

def handleExceptionSerrorLel : Machine V × Cont :=
  let esr := m.live.esrEl2
  if bitSet 24 esr then (m,.halt)
  else if esr &&& mask 0 6 ≠ 0x11 then (m,.halt)
  else
    let aet := extract 10 3 esr
    let reported := { m with exit := { m.exit with esr := esr &&& serrorMask } }
    if aet = 1 ∨ aet = 3 then
      ({ reported with r := { m.r with serrorVsesr := esr,serrorInject := true } },.toHost)
    else if aet = 6 ∨ aet = 2 then (reported,.toHost)
    else (m,.halt)

def setLastRunInfo (onPlane0 : Bool) (i : LastRunInfo) (m : Machine V) : Machine V :=
  { m with r := if onPlane0 then { m.r with plane0 := { m.r.plane0 with lastRunInfo := i } }
    else { m.r with plane1 := { m.r.plane1 with lastRunInfo := i } } }

def handleRealmExit (env : ExitEnv) (exception : RealmException) (m : Machine V) : Machine V × Cont :=
  let onPlane0 := m.r.isPlane0Active
  match exception with
  | .sync =>
    let m := { m with exit := { m.exit with exitReason := .sync } }
    let (m,c) := m.handleExceptionSync f env
    if c = .toHost then
      let esr := if esrIsv m.exit.esr then m.live.esrEl2 else m.live.esrEl2 &&& ~~~isvBit
      (m.setLastRunInfo onPlane0 ⟨esr,m.live.hpfarEl2,m.live.farEl2⟩,c)
    else (m,c)
  | .irq => ({ m with exit := { m.exit with exitReason := .irq } },.toHost)
  | .fiq => ({ m with exit := { m.exit with exitReason := .fiq } },.toHost)
  | .serror =>
    let esr := m.live.esrEl2
    let m := { m with exit := { m.exit with exitReason := .serror } }
    let (m,c) := m.handleExceptionSerrorLel
    if c = .toHost then
      (m.setLastRunInfo onPlane0 ⟨esr,m.live.hpfarEl2,m.live.farEl2⟩,c)
    else (m,c)
  | .other => (m,.toHost)

end Machine

theorem instructionAbort_isv (w : Word) : esrIsv (w &&& instructionAbortMask) = false := by
  have hz : instructionAbortMask &&& isvBit = 0 := by decide
  simp [esrIsv,BitVec.and_assoc,hz]

theorem stage2DataAbortExit_isv (e : RecExit) (lvl : S2Level) (ipa : Word) :
    esrIsv (stage2DataAbortExit e lvl ipa).esr = false := by
  obtain ⟨lvl,hlo,hhi⟩ := lvl
  have hcases : lvl = -1 ∨ lvl = 0 ∨ lvl = 1 ∨ lvl = 2 ∨ lvl = 3 := by omega
  rcases hcases with rfl | rfl | rfl | rfl | rfl <;> (simp only [stage2DataAbortExit]; decide)

section Sync

variable {f : Features} {env : ExitEnv} {m : Machine V}

theorem ipaIsEmpty_inPar {ipa : Word} (h : m.ipaIsEmpty env ipa = true) : m.r.addrInPar ipa = true := by
  unfold Machine.ipaIsEmpty realmIpaToPa at h
  by_contra hn
  rw [if_pos (by simp [hn])] at h
  cases h

theorem handleExceptionSync_sysreg (h : hasEc .sysreg m.live.esrEl2 = true) :
    m.handleExceptionSync f env = m.handleSysregAccessTrap f env m.live.esrEl2 := by
  have hn := fun c => hasEc_other (d := c) h
  unfold Machine.handleExceptionSync
  simp [h,hn .wfx (by decide),hn .hvc (by decide),hn .smc (by decide)]

theorem handleExceptionSync_instAbort (h : hasEc .instAbort m.live.esrEl2 = true) :
    m.handleExceptionSync f env = m.handleInstructionAbort f env m.live.esrEl2 := by
  have hn := fun c => hasEc_other (d := c) h
  unfold Machine.handleExceptionSync
  simp [h,hn .wfx (by decide),hn .hvc (by decide),hn .smc (by decide),hn .sysreg (by decide)]

theorem handleExceptionSync_dataAbort (h : hasEc .dataAbort m.live.esrEl2 = true) :
    m.handleExceptionSync f env = m.handleDataAbort f env m.live.esrEl2 := by
  have hn := fun c => hasEc_other (d := c) h
  unfold Machine.handleExceptionSync
  simp [h,hn .wfx (by decide),hn .hvc (by decide),hn .smc (by decide),hn .sysreg (by decide),hn .instAbort (by decide)]

end Sync

end TfRmm.Exec
