import TfRmm.Lib.Transition
import TfRmm.Exec.Entry

namespace TfRmm.Exec

open TfRmm.Arch

variable {V : Type}

def authorises (esr : Word) : Bool :=
  hasEc .dataAbort esr || (hasEc .sysreg esr && !sysregIsWrite esr)

def reportsUnprotectedAbort (r : Rec V) (x : RecExit) : Bool :=
  x.exitReason == .sync && hasEc .dataAbort x.esr && !r.addrInPar (hpfarFipa x.hpfar)

def reportsEmulatableAbort (r : Rec V) (x : RecExit) : Bool :=
  reportsUnprotectedAbort r x && esrIsv x.esr

def reportsSysregRead (x : RecExit) : Bool :=
  x.exitReason == .sync && hasEc .sysreg x.esr && !sysregIsWrite x.esr

structure SameSyndrome (r r' : Rec V) : Prop where
  syndrome0 : r'.plane0.lastRunInfo = r.plane0.lastRunInfo
  syndrome1 : r'.plane1.lastRunInfo = r.plane1.lastRunInfo
  activePlaneId : r'.activePlaneId = r.activePlaneId
  gicOwner : r'.gicOwner = r.gicOwner
  hostCall : r'.hostCall = r.hostCall
  realmInfo : r'.realmInfo = r.realmInfo

variable {r r' : Rec V} {esr fipa hpfar : Word}

namespace SameSyndrome

theorem refl (r : Rec V) : SameSyndrome r r := ⟨rfl,rfl,rfl,rfl,rfl,rfl⟩

theorem trans {a b c : Rec V} (h : SameSyndrome a b) (k : SameSyndrome b c) : SameSyndrome a c where
  syndrome0 := k.syndrome0.trans h.syndrome0
  syndrome1 := k.syndrome1.trans h.syndrome1
  activePlaneId := k.activePlaneId.trans h.activePlaneId
  gicOwner := k.gicOwner.trans h.gicOwner
  hostCall := k.hostCall.trans h.hostCall
  realmInfo := k.realmInfo.trans h.realmInfo

theorem active (h : SameSyndrome r r') : r'.activePlane.lastRunInfo = r.activePlane.lastRunInfo := by
  unfold Rec.activePlane Rec.isPlane0Active
  rw [h.activePlaneId]
  split
  · exact h.syndrome0
  · exact h.syndrome1

theorem inPar (h : SameSyndrome r r') (a : Word) : r'.addrInPar a = r.addrInPar a := by
  simp only [Rec.addrInPar,Rec.parSize,Rec.ipaSize,h.realmInfo]
  rfl

theorem simdContextSwitch (a b : Option SimdOwner) (m : Machine V) : SameSyndrome m.r (m.simdContextSwitch a b).r := by
  obtain ⟨c,hc⟩ := Machine.simdContextSwitch_rec a b m
  rw [hc]
  exact ⟨rfl,rfl,rfl,rfl,rfl,rfl⟩

end SameSyndrome

theorem Quiet.sameSyndrome {m m' : Machine V} (h : Quiet m m') : SameSyndrome m.r m'.r :=
  ⟨h.syndrome0,h.syndrome1,h.activePlaneId,h.gicOwner,h.hostCall,h.realmInfo⟩

namespace SameSyndrome

theorem recRunLoopExit (m : Machine V) : SameSyndrome m.r m.recRunLoopExit.r := by
  unfold Machine.recRunLoopExit
  refine trans ?_ (Quiet.saveRealmState _).sameSyndrome
  split
  · apply (simdContextSwitch (some .rel1) (some .nwd) m).trans
    exact ⟨rfl,rfl,rfl,rfl,rfl,rfl⟩
  · exact ⟨rfl,rfl,rfl,rfl,rfl,rfl⟩

theorem runRealm (run : RealmRun V) (m : Machine V) : SameSyndrome m.r (m.activateEvents.runRealm run).r := by
  have h1 : SameSyndrome m.r m.activateEvents.r := by
    unfold Machine.activateEvents
    split <;> exact ⟨rfl,rfl,rfl,rfl,rfl,rfl⟩
  exact h1.trans (Quiet.setPlane m.activateEvents { m.activateEvents.r.activePlane with regs := run.regs }
    rfl rfl).sameSyndrome

theorem recRunLoopEnter (m : Machine V) : SameSyndrome m.r m.recRunLoopEnter.r :=
  ⟨rfl,rfl,rfl,rfl,rfl,rfl⟩

theorem handleExceptionSerrorLel (m : Machine V) : SameSyndrome m.r m.handleExceptionSerrorLel.1.r := by
  unfold Machine.handleExceptionSerrorLel
  dsimp only
  repeat' split
  all_goals exact ⟨rfl,rfl,rfl,rfl,rfl,rfl⟩

end SameSyndrome

section Syndrome

variable {f : Features} {env : ExitEnv} {m m' : Machine V}

theorem handleSysregAccessTrap_toHost (h : m.handleSysregAccessTrap f env esr = (m',.toHost)) :
    m'.exit = m.emulateSysregAccessNs esr := by
  unfold Machine.handleSysregAccessTrap at h
  split at h <;> cases h
  rfl

theorem getAbortFaultIpa_fipa (h : m.getAbortFaultIpa env esr = some (fipa,hpfar)) : hpfarFipa hpfar = fipa := by
  unfold Machine.getAbortFaultIpa at h
  split at h
  · cases h; rfl
  cases hf : env.fipaFromFar with
  | none => simp [hf] at h
  | some par =>
    simp only [hf,Option.map_some,Option.some.injEq,Prod.mk.injEq] at h
    obtain ⟨rfl,rfl⟩ := h
    exact hpfarFipa_shiftRight par

inductive DataAbortExit (f : Features) (env : ExitEnv) (m : Machine V) (esr : Word) : Machine V → Prop
  | external {m' : Machine V} (he : fscIsExternalAbort (esrFsc esr) = true)
      (hx : m'.exit = m.reportExternalAbort esr) : DataAbortExit f env m esr m'
  | planeLost {m' : Machine V} {fipa hpfar : Word} (hg : m.getAbortFaultIpa env esr = some (fipa,hpfar))
      (hp : m.r.isPlane0Active = false)
      (hc : abortIsPermissionFault esr = true ∨ m.ipaIsEmpty env fipa = true)
      (hx : m'.exit = m.exit ∨ ∃ lvl ipa, m'.exit = stage2DataAbortExit m.exit lvl ipa) :
      DataAbortExit f env m esr m'
  | reported {m' : Machine V} {fipa hpfar : Word} (hg : m.getAbortFaultIpa env esr = some (fipa,hpfar))
      (hx : m'.exit = m.reportDataAbort esr fipa hpfar) : DataAbortExit f env m esr m'

theorem Cont.ofBool_toHost {b : Bool} (h : Cont.ofBool b = .toHost) : b = false := by
  cases b with
  | true => cases h
  | false => rfl

theorem DataAbortExit.of_handleDataAbort (h : m.handleDataAbort f env esr = (m',.toHost)) :
    DataAbortExit f env m esr m' := by
  unfold Machine.handleDataAbort at h
  split at h
  next res hr =>
    subst h
    unfold Machine.handleSyncExternalAbort at hr
    split at hr
    · cases hr
    next he =>
      have he : fscIsExternalAbort (esrFsc esr) = true := by simpa using he
      split at hr <;> cases hr <;> exact .external he rfl
  · split at h
    · cases h
    next fipa hpfar hg =>
      dsimp only at h
      split at h
      · cases h
      split at h
      next hc =>
        obtain ⟨rfl,hb⟩ := Prod.mk.inj h
        have hf := Cont.ofBool_toHost hb
        obtain ⟨-,-,-,-,hx⟩ := handlePlaneNExit_false (Prod.ext rfl hf)
        simp only [Bool.and_eq_true,Bool.not_eq_true',Bool.or_eq_true] at hc
        exact .planeLost hg hc.1 hc.2 hx
      split at h
      · cases h
      · cases h
        exact .reported hg rfl

theorem reportDataAbort_hpfar (esr fipa hpfar : Word) : (m.reportDataAbort esr fipa hpfar).hpfar = hpfar := by
  unfold Machine.reportDataAbort
  dsimp only
  repeat' split
  all_goals rfl

theorem reportDataAbort_exitReason (esr fipa hpfar : Word) :
    (m.reportDataAbort esr fipa hpfar).exitReason = m.exit.exitReason := by
  unfold Machine.reportDataAbort
  dsimp only
  repeat' split
  all_goals rfl

theorem reportDataAbort_hasEc (c : Ec) (esr fipa hpfar : Word) :
    hasEc c (m.reportDataAbort esr fipa hpfar).esr = hasEc c esr := by
  unfold Machine.reportDataAbort
  dsimp only
  repeat' split
  · rw [hasEc_and_of_sub c _ (by decide),hasEc_clear_isv]
  all_goals exact hasEc_and_of_sub c _ (by decide)

theorem reportDataAbort_isv (h : esrIsv (m.reportDataAbort esr fipa hpfar).esr = true) : m.r.addrInPar fipa = false := by
  unfold Machine.reportDataAbort at h
  dsimp only at h
  split at h
  · simp at h
  next hn =>
    simp only [Bool.or_eq_true,not_or] at hn
    simpa using hn.2

theorem reportExternalAbort_isv (esr : Word) : esrIsv (m.reportExternalAbort esr).esr = false := by
  unfold Machine.reportExternalAbort
  split
  · exact instructionAbort_isv esr
  · exact esrIsv_nonemulated esr

theorem DataAbortExit.emulatable (h : DataAbortExit f env m esr m') (hr : m.exit.exitReason = .sync) (he : m.exit.esr = 0)
    (hec : hasEc .dataAbort esr = true) (hi : esrIsv m'.exit.esr = true) : reportsEmulatableAbort m.r m'.exit = true := by
  cases h with
  | external _ hx => rw [hx,reportExternalAbort_isv] at hi; cases hi
  | planeLost _ _ _ hx =>
    rcases hx with hx | ⟨lvl,ipa,hx⟩
    · rw [hx,he] at hi; cases hi
    · rw [hx,stage2DataAbortExit_isv] at hi; cases hi
  | reported hg hx =>
    rw [hx] at hi ⊢
    simp only [reportsEmulatableAbort,reportsUnprotectedAbort,reportDataAbort_exitReason,
      reportDataAbort_hasEc,reportDataAbort_hpfar,getAbortFaultIpa_fipa hg,reportDataAbort_isv hi,hi,hr,hec]
    rfl

theorem DataAbortExit.unprotected (h : DataAbortExit f env m esr m') (hr : m.exit.exitReason = .sync)
    (hec : hasEc .dataAbort esr = true) (hp : m.r.addrInPar (hpfarFipa m.live.hpfarEl2) = false)
    (hv : hpfarIsValidForAbort esr = true) (hx : fscIsExternalAbort (esrFsc esr) = false)
    (hn : m.r.isPlane0Active = false → abortIsPermissionFault esr = false) : reportsUnprotectedAbort m.r m'.exit = true :=
    by
  have hfipa : ∀ {fipa hpfar}, m.getAbortFaultIpa env esr = some (fipa,hpfar) → fipa = hpfarFipa m.live.hpfarEl2 := by
    intro fipa hpfar hg
    simp only [Machine.getAbortFaultIpa,hv,if_true,Option.some.injEq,Prod.mk.injEq] at hg
    exact hg.1.symm
  cases h with
  | external he _ => rw [hx] at he; cases he
  | planeLost hg h0 hc _ =>
    rcases hc with hc | hc
    · rw [hn h0] at hc; cases hc
    · rw [hfipa hg] at hc
      rw [ipaIsEmpty_inPar hc] at hp
      cases hp
  | reported hg hx' =>
    rw [hx']
    simp only [reportsUnprotectedAbort,reportDataAbort_exitReason,reportDataAbort_hasEc,
      reportDataAbort_hpfar,getAbortFaultIpa_fipa hg,hfipa hg,hp,hr,hec]
    rfl

theorem emulateSysregAccessNs_reported (hr : m.exit.exitReason = .sync) (hec : hasEc .sysreg esr = true)
    (hw : sysregIsWrite esr = false) : reportsSysregRead (m.emulateSysregAccessNs esr) = true := by
  simp only [reportsSysregRead,Machine.emulateSysregAccessNs,hr,sysregIsWrite_clear_rt,hw,
    hasEc_and_of_sub .sysreg esr (show ~~~sysregRtMask &&& ecMask = ecMask by decide),hec]
  rfl

end Syndrome

open TfRmm.Lib

structure Report where
  exit : RecExit
  plane : Nat

structure Vcpu (V : Type) where
  m : Machine V
  running : Bool
  report : Option Report
  completed : Prop

inductive VcpuLabel (V : Type) where
  | enter (env : EnterEnv) (e : RecEnter) (written : Bool)
  | iterate (inp : LoopInput V) (written : Bool)

variable (f : Features) (inp : LoopInput V) (v : Vcpu V)

def MmioChanges (env : EnterEnv) (e : RecEnter) (m : Machine V) : Prop :=
  ∃ r, m.afterSea f env e = some r ∧ (completeMmioEmulation e r).1 ≠ r

def SeaChanges (env : EnterEnv) (e : RecEnter) (m : Machine V) : Prop :=
  m.entryAllowed env = true ∧ (completeSeaInsertion f e m.r).1 ≠ m.r

def SysregChanges (env : EnterEnv) (e : RecEnter) (m : Machine V) (plane : Nat) : Prop :=
  ∃ m', m.beginEntry.prepareEntry f env e = (m',none) ∧ m'.r.activePlaneId = plane ∧
    completeSysregEmulation e m'.r ≠ m'.r

def EntryCompletes (env : EnterEnv) (e : RecEnter) (m : Machine V) : Prop :=
  MmioChanges f env e m ∨ SeaChanges f env e m ∨ ∃ plane, SysregChanges f env e m plane

def LoopInput.serrorSyndrome : Bool :=
  inp.run.exception != .serror || hasEc .serror inp.run.live.esrEl2

def Vcpu.leave (m : Machine V) (plane : Nat) (written : Bool) : Vcpu V :=
  ⟨m,false,if written then some ⟨m.exit,plane⟩ else none,False⟩

inductive Vcpu.Step (f : Features) : Vcpu V → VcpuLabel V → Vcpu V → Prop
  | error {v : Vcpu V} {env : EnterEnv} {e : RecEnter} {w : Bool} {m' : Machine V} (hr : v.running = false)
      (h : v.m.smcRecEnter f env e = (m',.error)) :
      Step f v (.enter env e w) { v with m := m',completed := v.completed ∨ EntryCompletes f env e v.m }
  | exited {v : Vcpu V} {env : EnterEnv} {e : RecEnter} {w : Bool} {m' : Machine V} (hr : v.running = false)
      (h : v.m.smcRecEnter f env e = (m',.exited)) :
      Step f v (.enter env e w) (.leave m' v.m.r.activePlaneId w)
  | entered {v : Vcpu V} {env : EnterEnv} {e : RecEnter} {w : Bool} {m' : Machine V} (hr : v.running = false)
      (h : v.m.smcRecEnter f env e = (m',.running)) :
      Step f v (.enter env e w)
        { v with m := m',running := true,completed := v.completed ∨ EntryCompletes f env e v.m }
  | resumed {v : Vcpu V} {inp : LoopInput V} {m' : Machine V} (hr : v.running = true)
      (hs : inp.serrorSyndrome = true) (h : v.m.recRunLoopStep f inp = (m',.resume)) :
      Step f v (.iterate inp true) { v with m := m' }
  | left {v : Vcpu V} {inp : LoopInput V} {w : Bool} {m' : Machine V} (hr : v.running = true)
      (hs : inp.serrorSyndrome = true) (h : v.m.recRunLoopStep f inp = (m',.toHost)) :
      Step f v (.iterate inp w) (.leave m' v.m.r.activePlaneId w)

structure Vcpu.Created (v : Vcpu V) : Prop where
  activePlaneId : v.m.r.activePlaneId = 0
  gicOwner : v.m.r.gicOwner = 0
  hostCall : v.m.r.hostCall = false
  syndrome0 : v.m.r.plane0.lastRunInfo.esr = 0
  syndrome1 : v.m.r.plane1.lastRunInfo.esr = 0
  running : v.running = false
  report : v.report = none
  completed : ¬ v.completed

def vcpuSystem (V : Type) (f : Features) : TransitionSystem (Vcpu V) (VcpuLabel V) :=
  ⟨Vcpu.Created,Vcpu.Step f⟩

def Vcpu.Reported (plane : Nat) (kind : RecExit → Bool) : Prop :=
  ∃ rep, v.report = some rep ∧ rep.plane = plane ∧ kind rep.exit = true

def SameRegisters (r r' : Rec V) : Prop :=
  r'.plane0.regs = r.plane0.regs ∧ r'.plane0.pc = r.plane0.pc ∧
    r'.plane1.regs = r.plane1.regs ∧ r'.plane1.pc = r.plane1.pc

structure EntryProper (f : Features) (v : Vcpu V) (env : EnterEnv) (e : RecEnter) : Prop where
  mmio : MmioChanges f env e v.m →
    ¬ v.completed ∧ v.Reported v.m.r.activePlaneId (reportsEmulatableAbort v.m.r)
  sea : SeaChanges f env e v.m →
    ¬ v.completed ∧ v.Reported v.m.r.activePlaneId (reportsUnprotectedAbort v.m.r)
  sysreg : ∀ plane, SysregChanges f env e v.m plane →
    ¬ v.completed ∧ v.Reported plane reportsSysregRead
  error : ∀ m', v.m.smcRecEnter f env e = (m',.error) → SameRegisters v.m.r m'.r
  exited : ∀ m', v.m.smcRecEnter f env e = (m',.exited) → SameRegisters v.m.r m'.r

def LoopInput.asynchronous : Bool :=
  inp.timersPending || (inp.run.exception != .sync && inp.run.exception != .serror)

def hpfarTrusted (r : Rec V) (esr : Word) : Bool :=
  hpfarIsValidForAbort esr && !fscIsExternalAbort (esrFsc esr) &&
    (r.isPlane0Active || !abortIsPermissionFault esr)

def SyndromeFresh : VcpuLabel V → Prop
  | .enter env e _ => v.m.entryAllowed env = true → leavesPlaneN env e v.m.r = true →
      runPageReachable env.s2 v.m.r = false →
      seaDue e v.m.r = false ∧ mmioDue e v.m.r = false ∧ v.m.r.hostCall = false
  | .iterate inp written =>
    (inp.asynchronous = true → v.m.r.activePlaneId ≠ 0 →
      authorises v.m.r.plane1.lastRunInfo.esr = false) ∧
    (inp.asynchronous = false → hasEc .dataAbort inp.run.live.esrEl2 = true →
      v.m.r.addrInPar (hpfarFipa inp.run.live.hpfarEl2) = false →
      hpfarTrusted v.m.r inp.run.live.esrEl2 = true) ∧
    (written = false → inp.asynchronous = false → authorises inp.run.live.esrEl2 = false)

open SameSyndrome (simdContextSwitch)

structure Running (m : Machine V) : Prop where
  gic : m.r.activePlaneId = 0 → m.r.gicOwner = 0
  plane0 : authorises m.r.plane0.lastRunInfo.esr = false
  hostCall : m.r.hostCall = false
  exitEsr : m.exit.esr = 0

structure Parked (r : Rec V) : Prop where
  gic : r.activePlaneId = 0 → r.gicOwner = 0
  plane0 : r.activePlaneId ≠ 0 → authorises r.plane0.lastRunInfo.esr = false
  hostCall : r.hostCall = true → authorises r.activePlane.lastRunInfo.esr = false

structure Backed (rep : Report) (r : Rec V) : Prop where
  mmio : hasEc .dataAbort r.activePlane.lastRunInfo.esr = true →
    esrIsv r.activePlane.lastRunInfo.esr = true →
    rep.plane = r.activePlaneId ∧ reportsEmulatableAbort r rep.exit = true
  sea : hasEc .dataAbort r.activePlane.lastRunInfo.esr = true →
    r.addrInPar (hpfarFipa r.activePlane.lastRunInfo.hpfar) = false →
    rep.plane = r.activePlaneId ∧ reportsUnprotectedAbort r rep.exit = true
  sysreg : hasEc .sysreg r.activePlane.lastRunInfo.esr = true →
    sysregIsWrite r.activePlane.lastRunInfo.esr = false →
    rep.plane = r.activePlaneId ∧ reportsSysregRead rep.exit = true

variable {env : ExitEnv} {exc : RealmException} {inp : LoopInput V}

theorem authorises_dataAbort (h : hasEc .dataAbort esr = true) : authorises esr = true := by
  simp [authorises,h]

theorem authorises_sysreg (h : hasEc .sysreg esr = true) (hw : sysregIsWrite esr = false) : authorises esr = true := by
  simp [authorises,h,hw]

theorem not_authorises_of_hasEc {c : Ec} (h : hasEc c esr = true) (hd : c ≠ .dataAbort)
    (hs : c ≠ .sysreg) : authorises esr = false := by
  simp [authorises,hasEc_other h hd.symm,hasEc_other h hs.symm]

theorem Backed.of_not_authorises {r : Rec V} (h : authorises r.activePlane.lastRunInfo.esr = false)
    (rep : Report) : Backed rep r where
  mmio := fun hd _ => by rw [authorises_dataAbort hd] at h; cases h
  sea := fun hd _ => by rw [authorises_dataAbort hd] at h; cases h
  sysreg := fun hs hw => by rw [authorises_sysreg hs hw] at h; cases h

theorem Parked.of_not_authorises {r : Rec V} (hg : r.activePlaneId = 0 → r.gicOwner = 0)
    (h0 : authorises r.plane0.lastRunInfo.esr = false) (h : authorises r.activePlane.lastRunInfo.esr = false) : Parked r :=
  ⟨hg,fun _ => h0,fun _ => h⟩

namespace SameSyndrome

variable (h : SameSyndrome r r')

include h

theorem parked (hp : Parked r) : Parked r' where
  gic := by rw [h.activePlaneId,h.gicOwner]; exact hp.gic
  plane0 := by rw [h.activePlaneId,h.syndrome0]; exact hp.plane0
  hostCall := by rw [h.hostCall,h.active]; exact hp.hostCall

theorem backed {rep : Report} (hb : Backed rep r) : Backed rep r' where
  mmio := by
    simp only [h.active,h.activePlaneId,reportsEmulatableAbort,reportsUnprotectedAbort,h.inPar]
    exact hb.mmio
  sea := by
    simp only [h.active,h.activePlaneId,reportsUnprotectedAbort,h.inPar]
    exact hb.sea
  sysreg := by
    simp only [h.active,h.activePlaneId]
    exact hb.sysreg

end SameSyndrome

theorem Running.congr {m m' : Machine V} (hm : Running m) (h : SameSyndrome m.r m'.r)
    (hx : m'.exit.esr = m.exit.esr) : Running m' where
  gic := by rw [h.activePlaneId,h.gicOwner]; exact hm.gic
  plane0 := by rw [h.syndrome0]; exact hm.plane0
  hostCall := h.hostCall.trans hm.hostCall
  exitEsr := hx.trans hm.exitEsr

theorem Running.returnToPlane0 {m : Machine V} (hm : Running m) (ret : Word) (b : Bool) :
    Running (m.returnToPlane0 ret b) := by
  cases b <;> exact ⟨fun _ => rfl,hm.plane0,hm.hostCall,hm.exitEsr⟩

theorem activatePlaneN_frame {m : Machine V} {idx : Nat} (entry : PlaneEnter) (hi : idx ≠ 0) :
    (m.activatePlaneN idx entry).r.activePlaneId = idx ∧ (m.activatePlaneN idx entry).r.plane0 = m.r.plane0 ∧
      (m.activatePlaneN idx entry).r.hostCall = m.r.hostCall ∧
      (m.activatePlaneN idx entry).exit = m.exit := by
  simp [Machine.activatePlaneN,Machine.copyStateFromPlaneEntry,Rec.setSysregs,Rec.setActivePlane,Rec.isPlane0Active,hi]

theorem Running.resumed {f : Features} {m m' : Machine V} {c : Cont} (hm : Running m)
    (h : SyncOutcome f env m m' c) (hc : c = .resume) : Running m' := by
  cases h with
  | quiet hq hx => exact hm.congr hq.sameSyndrome (hx hc)
  | @planeExit m₀ m₁ _ b hp h₀ he hn h₁ hx =>
    cases b with
    | false => cases hc
    | true =>
      obtain ⟨m₂,ret,hq,hx2,rfl⟩ := handlePlaneNExit_true hn
      have h2 : Running m₂ := hm.congr (h₀.trans hq).sameSyndrome (by rw [hx2,he])
      exact (h2.returnToPlane0 ret true).congr h₁.sameSyndrome (by rw [hx])
  | @planeEnter _ idx entry hp hi hq _ _ _ hx =>
    obtain ⟨ha,h0,hh,-⟩ := activatePlaneN_frame entry hi
    have hs := (Quiet.saveRealmState m).sameSyndrome
    refine ⟨?_,?_,?_,hx.trans hm.exitEsr⟩
    · intro hz
      rw [hq.activePlaneId,ha] at hz
      exact absurd hz hi
    · rw [hq.syndrome0,h0,hs.syndrome0]
      exact hm.plane0
    · rw [hq.hostCall,hh,hs.hostCall]
      exact hm.hostCall
  | hostCall _ _ => cases hc
  | simd _ _ _ _ hm' =>
    subst hm'
    refine hm.congr ?_ (by simp [Machine.check])
    refine (simdContextSwitch m.r.activeSimdCtx (some .rel1)
      (m.check (m.r.activeSimdCtx != some .rel1))).trans ?_
    exact ⟨rfl,rfl,rfl,rfl,rfl,rfl⟩
  | fpu _ h₁ h₂ hx =>
    refine hm.congr ?_ (hx hc)
    exact (simdContextSwitch _ _ m).trans (h₁.sameSyndrome.trans
      ((simdContextSwitch ..).trans h₂.sameSyndrome))

theorem SyncOutcome.toHost {f : Features} {m m' : Machine V} {c : Cont}
    (h : SyncOutcome f env m m' c) (hc : c = .toHost) :
    SameSyndrome m.r { m'.r with hostCall := m.r.hostCall } ∧
      (m'.r.hostCall = m.r.hostCall ∨ hasEc .smc m.live.esrEl2 = true) ∧
      m'.live.esrEl2 = m.live.esrEl2 ∧ m'.live.hpfarEl2 = m.live.hpfarEl2 := by
  have key : ∀ {a b : Machine V}, SameSyndrome a.r b.r → SameSyndrome a.r { b.r with hostCall := a.r.hostCall } :=
    fun hs => ⟨hs.syndrome0,hs.syndrome1,hs.activePlaneId,hs.gicOwner,rfl,hs.realmInfo⟩
  cases h with
  | quiet hq _ => exact ⟨key hq.sameSyndrome,.inl hq.hostCall,hq.esrEl2,hq.hpfarEl2⟩
  | @planeExit m₀ m₁ _ b _ h₀ _ hn h₁ _ =>
    cases b with
    | true => cases hc
    | false =>
      obtain ⟨hr,hl,-,hcpu,-⟩ := handlePlaneNExit_false hn
      have hq := h₀.trans ((Quiet.of_eq hr hcpu hl).trans h₁)
      exact ⟨key hq.sameSyndrome,.inl hq.hostCall,hq.esrEl2,hq.hpfarEl2⟩
  | planeEnter _ _ _ _ _ _ _ | simd _ _ _ _ _ => cases hc
  | hostCall hec hq =>
    exact ⟨⟨hq.syndrome0,hq.syndrome1,hq.activePlaneId,hq.gicOwner,rfl,hq.realmInfo⟩,.inr hec,hq.esrEl2,hq.hpfarEl2⟩
  | @fpu m₁ _ _ hec h₁ h₂ _ =>
    have hs := (simdContextSwitch m.r.activeSimdCtx none m).trans (h₁.sameSyndrome.trans
      ((simdContextSwitch none m₁.r.activeSimdCtx m₁).trans h₂.sameSyndrome))
    refine ⟨key hs,.inr hec,?_,?_⟩
    · rw [h₂.esrEl2,Machine.simdContextSwitch_live,h₁.esrEl2,Machine.simdContextSwitch_live]
    · rw [h₂.hpfarEl2,Machine.simdContextSwitch_live,h₁.hpfarEl2,Machine.simdContextSwitch_live]

structure Leaves (plane : Nat) (source : Prop) (m' : Machine V) : Prop where
  parked : Parked m'.r
  backed : Backed ⟨m'.exit,plane⟩ m'.r
  source : authorises m'.r.activePlane.lastRunInfo.esr = true → source

theorem Leaves.of_not_authorises {plane : Nat} {source : Prop} {m' : Machine V} (hg : m'.r.activePlaneId = 0 → m'.r.gicOwner = 0)
    (h0 : authorises m'.r.plane0.lastRunInfo.esr = false)
    (h : authorises m'.r.activePlane.lastRunInfo.esr = false) : Leaves plane source m' :=
  ⟨.of_not_authorises hg h0 h,.of_not_authorises h _,fun ha => by rw [h] at ha; cases ha⟩

theorem Leaves.mono {plane : Nat} {source source' : Prop} {m' : Machine V} (h : Leaves plane source m')
    (hs : source → source') : Leaves plane source' m' :=
  ⟨h.parked,h.backed,fun ha => hs (h.source ha)⟩

section

variable {m m' : Machine V} {source : Prop} (hm : Running m)
  (h : m.r.activePlaneId ≠ 0 → authorises m.r.plane1.lastRunInfo.esr = false)

include hm h

theorem Running.active_of_plane1 : authorises m.r.activePlane.lastRunInfo.esr = false := by
  unfold Rec.activePlane Rec.isPlane0Active
  by_cases h0 : m.r.activePlaneId = 0
  · simpa [h0] using hm.plane0
  · simpa [h0] using h h0

theorem Running.interrupted (hr : m'.r = m.r) (plane : Nat) : Leaves plane source m' := by
  refine .of_not_authorises ?_ ?_ ?_ <;> rw [hr]
  · exact hm.gic
  · exact hm.plane0
  · exact hm.active_of_plane1 h

theorem Running.timers {s2 : Word → S2Walk} (plane : Nat)
    (hm' : m'.r = (m.handlePlaneNExit s2 true).1.r) : Leaves plane source m' := by
  rcases hn : m.handlePlaneNExit s2 true with ⟨m₂,_ | _⟩
  · obtain ⟨hr,-⟩ := handlePlaneNExit_false hn
    rw [hn] at hm'
    exact hm.interrupted h (hm'.trans hr) plane
  obtain ⟨m₁,ret,hq,hx,rfl⟩ := handlePlaneNExit_true hn
  have h1 : Running m₁ := hm.congr hq.sameSyndrome (by rw [hx])
  rw [hn] at hm'
  refine .of_not_authorises ?_ ?_ ?_ <;> rw [hm']
  · exact fun _ => rfl
  · exact h1.plane0
  · exact h1.plane0

end

section SetLastRunInfo

variable {m m₁ : Machine V} (i : LastRunInfo)

theorem setLastRunInfo_active (ha : m₁.r.activePlaneId = m.r.activePlaneId) :
    (m₁.setLastRunInfo m.r.isPlane0Active i).r.activePlane.lastRunInfo = i := by
  unfold Machine.setLastRunInfo Rec.activePlane Rec.isPlane0Active
  by_cases h0 : m.r.activePlaneId = 0 <;> simp [h0,ha]

theorem setLastRunInfo_plane0 (h : m.r.activePlaneId ≠ 0) :
    (m₁.setLastRunInfo m.r.isPlane0Active i).r.plane0 = m₁.r.plane0 := by
  simp [Machine.setLastRunInfo,Rec.isPlane0Active,h]

theorem setLastRunInfo_frame (m₁ : Machine V) (i : LastRunInfo) (b : Bool) :
    (m₁.setLastRunInfo b i).r.activePlaneId = m₁.r.activePlaneId ∧
      (m₁.setLastRunInfo b i).r.gicOwner = m₁.r.gicOwner ∧
      (m₁.setLastRunInfo b i).r.hostCall = m₁.r.hostCall ∧
      (m₁.setLastRunInfo b i).r.realmInfo = m₁.r.realmInfo ∧ (m₁.setLastRunInfo b i).exit = m₁.exit := by
  cases b <;> exact ⟨rfl,rfl,rfl,rfl,rfl⟩

end SetLastRunInfo

theorem Running.syncExit {f : Features} {m m₁ : Machine V} (hm : Running m)
    (hr : m.exit.exitReason = .sync) (h : m.handleExceptionSync f env = (m₁,.toHost)) {i : LastRunInfo}
    (hi : i.esr = if esrIsv m₁.exit.esr then m₁.live.esrEl2 else m₁.live.esrEl2 &&& ~~~isvBit)
    (hip : i.hpfar = m₁.live.hpfarEl2)
    (ht : hasEc .dataAbort m.live.esrEl2 = true → m.r.addrInPar (hpfarFipa m.live.hpfarEl2) = false →
    hpfarTrusted m.r m.live.esrEl2 = true) :
    Leaves m.r.activePlaneId (authorises m.live.esrEl2 = true) (m₁.setLastRunInfo m.r.isPlane0Active i) := by
  have ho := SyncOutcome.of_handleExceptionSync f env m
  rw [h] at ho
  obtain ⟨hs,hh,hesr,hhp⟩ := ho.toHost rfl
  have ha : m₁.r.activePlaneId = m.r.activePlaneId := hs.activePlaneId
  have hri : m₁.r.realmInfo = m.r.realmInfo := hs.realmInfo
  obtain ⟨fa,fg,fh,fr,fx⟩ := setLastRunInfo_frame m₁ i m.r.isPlane0Active
  have fact := setLastRunInfo_active i ha
  have hec : ∀ c, hasEc c i.esr = hasEc c m.live.esrEl2 := fun c => by
    rw [hi,← hesr]
    split
    · rfl
    · exact hasEc_clear_isv c _
  have hw : sysregIsWrite i.esr = sysregIsWrite m.live.esrEl2 := by
    rw [hi,← hesr]
    split
    · rfl
    · exact sysregIsWrite_clear_isv _
  have hisv : esrIsv i.esr = true → esrIsv m₁.exit.esr = true := by
    rw [hi]
    split
    next hv => exact fun _ => hv
    · simp
  have hpar : ∀ a, (m₁.setLastRunInfo m.r.isPlane0Active i).r.addrInPar a = m.r.addrInPar a := fun a => by
    simp only [Rec.addrInPar,Rec.parSize,Rec.ipaSize,fr,hri]
    rfl
  refine ⟨⟨?_,?_,?_⟩,⟨?_,?_,?_⟩,by rw [fact]; simp only [authorises,hec,hw]; exact id⟩
  · rw [fa,fg,ha,show m₁.r.gicOwner = m.r.gicOwner from hs.gicOwner]
    exact hm.gic
  · intro hne
    rw [fa,ha] at hne
    rw [setLastRunInfo_plane0 i hne,show m₁.r.plane0.lastRunInfo = m.r.plane0.lastRunInfo from hs.syndrome0]
    exact hm.plane0
  · intro hc
    rw [fh] at hc
    rw [fact]
    rcases hh with hh | hsmc
    · rw [hh,hm.hostCall] at hc; cases hc
    · exact not_authorises_of_hasEc ((hec .smc).trans hsmc) (by decide) (by decide)
  · rw [fact,fx,fa,ha,hec]
    intro hd hv
    rw [handleExceptionSync_dataAbort hd] at h
    have := (DataAbortExit.of_handleDataAbort h).emulatable hr hm.exitEsr hd (hisv hv)
    simpa only [reportsEmulatableAbort,reportsUnprotectedAbort,hpar,true_and] using this
  · rw [fact,fx,fa,ha,hec,hpar,show i.hpfar = m.live.hpfarEl2 from hip.trans hhp]
    intro hd hp
    have htr := ht hd hp
    simp only [hpfarTrusted,Bool.and_eq_true,Bool.not_eq_true',Bool.or_eq_true] at htr
    rw [handleExceptionSync_dataAbort hd] at h
    have := (DataAbortExit.of_handleDataAbort h).unprotected hr hd hp htr.1.1 htr.1.2 fun h0 =>
      htr.2.resolve_left (by simp [h0])
    simpa only [reportsUnprotectedAbort,hpar,true_and] using this
  · rw [fact,fx,fa,ha,hec,hw]
    intro hd hwr
    rw [handleExceptionSync_sysreg hd] at h
    rw [handleSysregAccessTrap_toHost h]
    exact ⟨rfl,emulateSysregAccessNs_reported hr hd hwr⟩

theorem Running.serrorExit {m m₁ : Machine V} (hm : Running m) (hs : SameSyndrome m.r m₁.r) {i : LastRunInfo}
    (hec : hasEc .serror i.esr = true) (plane : Nat) {source : Prop} :
    Leaves plane source (m₁.setLastRunInfo m.r.isPlane0Active i) := by
  obtain ⟨fa,fg,-,-,-⟩ := setLastRunInfo_frame m₁ i m.r.isPlane0Active
  have hn : authorises i.esr = false := not_authorises_of_hasEc hec (by decide) (by decide)
  have fact := setLastRunInfo_active i hs.activePlaneId
  refine .of_not_authorises ?_ ?_ ?_
  · rw [fa,fg,hs.activePlaneId,hs.gicOwner]
    exact hm.gic
  · by_cases h0 : m.r.activePlaneId = 0
    · have : (m₁.setLastRunInfo m.r.isPlane0Active i).r.plane0.lastRunInfo = i := by
        simp [Machine.setLastRunInfo,Rec.isPlane0Active,h0]
      rw [this]
      exact hn
    · rw [setLastRunInfo_plane0 i h0,hs.syndrome0]
      exact hm.plane0
  · rw [fact]
    exact hn

theorem handleExceptionSerrorLel_not_resume (m : Machine V) : m.handleExceptionSerrorLel.2 ≠ .resume := by
  unfold Machine.handleExceptionSerrorLel
  dsimp only
  repeat' split
  all_goals simp

section Body

variable {f : Features} {m m' : Machine V} (hm : Running m)

include hm

theorem Running.setExitReason (reason : ExitReason) :
    Running { m with exit := { m.exit with exitReason := reason } } :=
  hm.congr (.refl _) rfl

theorem Running.runRealm (run : RealmRun V) : Running (m.activateEvents.runRealm run) := by
  apply hm.congr (SameSyndrome.runRealm run m)
  unfold Machine.activateEvents
  split <;> rfl

theorem Running.handleRealmExit_resume (h : m.handleRealmExit f env exc = (m',.resume)) : Running m' := by
  unfold Machine.handleRealmExit at h
  cases exc with
  | sync =>
    dsimp only at h
    split at h
    next hc =>
      rw [Prod.mk.injEq,hc] at h
      cases h.2
    · obtain ⟨rfl,hc⟩ := Prod.mk.inj h
      exact (hm.setExitReason .sync).resumed (SyncOutcome.of_handleExceptionSync f env _) hc
  | irq | fiq | other => cases h
  | serror =>
    dsimp only at h
    split at h
    next hc =>
      rw [Prod.mk.injEq,hc] at h
      cases h.2
    · exact absurd (Prod.mk.inj h).2 (handleExceptionSerrorLel_not_resume _)

theorem Running.handleRealmExit_toHost (h : m.handleRealmExit f env exc = (m',.toHost))
    (hse : exc = .serror → hasEc .serror m.live.esrEl2 = true)
    (hasync : exc ≠ .sync → exc ≠ .serror → m.r.activePlaneId ≠ 0 →
    authorises m.r.plane1.lastRunInfo.esr = false)
    (ht : exc = .sync → hasEc .dataAbort m.live.esrEl2 = true →
    m.r.addrInPar (hpfarFipa m.live.hpfarEl2) = false → hpfarTrusted m.r m.live.esrEl2 = true) :
    Leaves m.r.activePlaneId (exc = .sync ∧ authorises m.live.esrEl2 = true) m' := by
  unfold Machine.handleRealmExit at h
  cases exc with
  | sync =>
    dsimp only at h
    split at h
    next hc =>
      obtain ⟨rfl,-⟩ := Prod.mk.inj h
      exact ((hm.setExitReason .sync).syncExit rfl (Prod.ext rfl hc) rfl rfl (ht rfl)).mono fun ha => ⟨rfl,ha⟩
    next hc => exact absurd (Prod.mk.inj h).2 hc
  | irq | fiq =>
    cases h
    refine hm.interrupted (hasync (by decide) (by decide)) ?_ _
    rfl
  | serror =>
    dsimp only at h
    split at h
    · obtain ⟨rfl,-⟩ := Prod.mk.inj h
      exact hm.serrorExit (SameSyndrome.handleExceptionSerrorLel
        { m with exit := { m.exit with exitReason := .serror } }) (hse rfl) _
    next hc => exact absurd (Prod.mk.inj h).2 hc
  | other => cases h; exact hm.interrupted (hasync (by decide) (by decide)) rfl _

end Body

theorem Running.body_resume {f : Features} {m m' : Machine V} (hm : Running m)
    (h : m.recRunLoopBody f inp = (m',.resume)) : Running m' := by
  unfold Machine.recRunLoopBody at h
  split at h
  · cases h
  · exact (hm.runRealm inp.run).handleRealmExit_resume h

theorem Running.body_toHost {f : Features} {v : Vcpu V} {m' : Machine V}
    (hm : Running v.m) (h : v.m.recRunLoopBody f inp = (m',.toHost)) (hse : inp.serrorSyndrome = true)
    {w : Bool} (hg : SyndromeFresh v (.iterate inp w)) :
    Leaves v.m.r.activePlaneId (inp.asynchronous = false ∧ authorises inp.run.live.esrEl2 = true) m' := by
  obtain ⟨hasync,ht,-⟩ := hg
  unfold Machine.recRunLoopBody at h
  split at h
  next htp =>
    obtain ⟨rfl,-⟩ := Prod.mk.inj h
    have hasy := hasync (by simp [LoopInput.asynchronous,htp])
    by_cases hne : v.m.r.gicOwner = v.m.r.activePlaneId
    · simp only [hne,ne_eq,not_true_eq_false,if_false]
      refine hm.interrupted hasy ?_ _
      rfl
    · simp only [hne,ne_eq,not_false_eq_true,if_true]
      exact hm.timers hasy _ rfl
  next htp =>
    have hs := SameSyndrome.runRealm inp.run v.m
    rw [← hs.activePlaneId]
    refine ((hm.runRealm inp.run).handleRealmExit_toHost h ?_ ?_ ?_).mono fun ⟨he,ha⟩ =>
      ⟨by simp [LoopInput.asynchronous,htp,he],ha⟩
    · intro he
      change hasEc .serror inp.run.live.esrEl2 = true
      simpa [LoopInput.serrorSyndrome,he] using hse
    · rw [hs.activePlaneId,hs.syndrome1]
      intro h1 h2
      exact hasync (by simp [LoopInput.asynchronous,htp,h1,h2])
    · rw [hs.inPar]
      intro he hd hp
      have := ht (by simp [LoopInput.asynchronous,htp,he]) hd hp
      unfold hpfarTrusted Rec.isPlane0Active at this ⊢
      rw [hs.activePlaneId]
      exact this

variable {f : Features}

structure Vcpu.Invariant (v : Vcpu V) : Prop where
  running : v.running = true → Running v.m
  parked : v.running = false → Parked v.m.r
  backed : v.running = false → authorises v.m.r.activePlane.lastRunInfo.esr = true →
    ¬ v.completed ∧ ∃ rep, v.report = some rep ∧ Backed rep v.m.r

theorem Vcpu.Created.invariant {v : Vcpu V} (h : v.Created) : v.Invariant := by
  have ha : authorises v.m.r.activePlane.lastRunInfo.esr = false := by
    simp only [Rec.activePlane,Rec.isPlane0Active,h.activePlaneId,beq_self_eq_true,if_true,h.syndrome0]
    decide
  refine ⟨?_,?_,?_⟩
  · intro hr; rw [h.running] at hr; cases hr
  · exact fun _ => ⟨fun _ => h.gicOwner,fun hn => absurd h.activePlaneId hn,fun _ => ha⟩
  · intro _ hn; rw [ha] at hn; cases hn

section Due

variable {env : EnterEnv} {e : RecEnter} {m : Machine V}

theorem seaDue_of_changes (h : SeaChanges f env e m) : m.entryAllowed env = true ∧ seaDue e m.r = true := by
  refine ⟨h.1,?_⟩
  by_contra hn
  apply h.2
  rw [completeSeaInsertion_not_due (by simpa using hn)]

theorem mmioDue_of_changes (h : MmioChanges f env e m) : m.entryAllowed env = true ∧ mmioDue e m.r = true := by
  obtain ⟨r,hr,hne⟩ := h
  obtain ⟨ha,hrs⟩ := afterSea_some hr
  have hd : mmioDue e r = true := by
    by_contra hn
    exact hne (completeMmioEmulation_not_due (by simpa using hn))
  have hs : seaDue e m.r = false := by simp [seaDue,mmioDue_injectSea hd]
  rw [completeSeaInsertion_not_due hs] at hrs
  subst hrs
  exact ⟨ha,hd⟩

theorem authorises_of_seaDue (h : seaDue e r = true) : authorises r.activePlane.lastRunInfo.esr = true := by
  simp only [seaDue,Bool.and_eq_true] at h
  exact authorises_dataAbort h.1.2

theorem authorises_of_mmioDue (h : mmioDue e r = true) : authorises r.activePlane.lastRunInfo.esr = true := by
  simp only [mmioDue,Bool.and_eq_true] at h
  exact authorises_dataAbort h.1.2

theorem not_due_of_not_authorises (h : authorises r.activePlane.lastRunInfo.esr = false) :
    seaDue e r = false ∧ mmioDue e r = false := by
  constructor
  · by_contra hn
    rw [authorises_of_seaDue (by simpa using hn)] at h
    cases h
  · by_contra hn
    rw [authorises_of_mmioDue (by simpa using hn)] at h
    cases h

theorem sysregDue_of_changes {plane : Nat} (h : SysregChanges f env e m plane) (hp : Parked m.r) :
    plane = m.r.activePlaneId ∧ sysregDue m.r = true := by
  obtain ⟨m',hpe,hpl,hne⟩ := h
  have hd : sysregDue m'.r = true := by
    by_contra hn
    exact hne (completeSysregEmulation_not_due (by simpa using hn))
  cases Prepared.of_prepareEntry hpe with
  | stays _ _ hq =>
    have hs := hq.sameSyndrome
    refine ⟨hpl.symm.trans hs.activePlaneId,?_⟩
    unfold sysregDue at hd ⊢
    rw [hs.active] at hd
    exact hd
  | leaves hl _ h₁ hq =>
    have h0 : m'.r.activePlane.lastRunInfo = m.r.plane0.lastRunInfo := by
      rw [hq.sameSyndrome.active]
      exact h₁.syndrome0
    have hn := hp.plane0 (leavesPlaneN_active hl)
    unfold sysregDue at hd
    rw [h0,Bool.and_eq_true,Bool.not_eq_true'] at hd
    rw [authorises_sysreg hd.1 hd.2] at hn
    cases hn

end Due

section Enter

variable {env : EnterEnv} {e : RecEnter} {m m' : Machine V}

theorem enter_error_keeps {v : Vcpu V} {w : Bool} (hg : SyndromeFresh v (.enter env e w))
    (h : v.m.smcRecEnter f env e = (m',.error)) : m'.r = v.m.r ∧ ¬ EntryCompletes f env e v.m := by
  have hp := smcRecEnter_some (by decide) h
  have key : (v.m.entryAllowed env = true → seaDue e v.m.r = false ∧ mmioDue e v.m.r = false) →
      ¬ EntryCompletes f env e v.m := by
    rintro hd (hc | hc | ⟨plane,m₁,hc,-⟩)
    · obtain ⟨ha,hdue⟩ := mmioDue_of_changes hc
      rw [(hd ha).2] at hdue
      cases hdue
    · obtain ⟨ha,hdue⟩ := seaDue_of_changes hc
      rw [(hd ha).1] at hdue
      cases hdue
    · rw [hp] at hc
      cases hc
  cases Prepared.of_prepareEntry hp with
  | refused hr _ hd => exact ⟨hr,key hd⟩
  | planeLost ha hl hw _ hr =>
    obtain ⟨hs,hm,hc⟩ := hg ha hl hw
    exact ⟨hr hs hm hc,key fun _ => ⟨hs,hm⟩⟩

theorem enter_exited_keeps (hpk : Parked m.r) (h : m.smcRecEnter f env e = (m',.exited)) :
    m'.r = m.r ∧ authorises m.r.activePlane.lastRunInfo.esr = false := by
  cases Prepared.of_prepareEntry (smcRecEnter_some (by decide) h) with
  | exited hc _ hr =>
    have hn := hpk.hostCall hc
    obtain ⟨hs,hm⟩ := not_due_of_not_authorises hn
    exact ⟨hr hs hm,hn⟩

theorem startRun_running (hg : m.r.activePlaneId = 0 → m.r.gicOwner = 0)
    (h0 : m.r.activePlaneId ≠ 0 → authorises m.r.plane0.lastRunInfo.esr = false)
    (hh : m.r.hostCall = false) (hx : m.exit.esr = 0) : Running (m.startRun e) := by
  let m₁ : Machine V := { m with r := completeSysregEmulation e m.r }
  let m₂ : Machine V := { m with r := resetLastRunInfo m₁.r }
  have hs : SameSyndrome m.r m₁.r := (Quiet.completeSysregEmulation e m).sameSyndrome
  have ha : m₂.r.activePlaneId = m.r.activePlaneId := by
    simpa [m₂,resetLastRunInfo] using hs.activePlaneId
  have hr : Running m₂ := by
    refine ⟨?_,?_,?_,hx⟩
    · rw [ha]
      intro hz
      have : m₂.r.gicOwner = m₁.r.gicOwner := by simp only [m₂,resetLastRunInfo,Rec.setActivePlane]; split <;> rfl
      rw [this,hs.gicOwner]
      exact hg hz
    · by_cases hz : m.r.activePlaneId = 0
      · have : m₂.r.plane0.lastRunInfo.esr = 0 := by
          simp [m₂,resetLastRunInfo,Rec.setActivePlane,Rec.isPlane0Active,hs.activePlaneId,hz]
        rw [this]
        decide
      · have : m₂.r.plane0 = m₁.r.plane0 := by
          simp [m₂,resetLastRunInfo,Rec.setActivePlane,Rec.isPlane0Active,hs.activePlaneId,hz]
        rw [this,hs.syndrome0]
        exact h0 hz
    · have : m₂.r.hostCall = m₁.r.hostCall := by simp only [m₂,resetLastRunInfo,Rec.setActivePlane]; split <;> rfl
      rw [this,hs.hostCall]
      exact hh
  exact hr.congr ((Quiet.restoreEntryTraps e m₂).sameSyndrome.trans (SameSyndrome.recRunLoopEnter _)) rfl

theorem enter_running (hpk : Parked m.r) (h : m.smcRecEnter f env e = (m',.running)) : Running m' := by
  rcases smcRecEnter_running h with ⟨m₁,hp,rfl⟩ | hp
  · have hr : Running (m₁.startRun e) := by
      cases Prepared.of_prepareEntry hp with
      | stays _ hx hq =>
        have hs := hq.sameSyndrome
        refine startRun_running ?_ ?_ hs.hostCall (by rw [hx]; rfl)
        · rw [hs.activePlaneId,hs.gicOwner]
          exact hpk.gic
        · rw [hs.activePlaneId,hs.syndrome0]
          exact hpk.plane0
      | leaves _ hx h₁ hq =>
        have hs := hq.sameSyndrome
        refine startRun_running ?_ ?_ ?_ (by rw [hx]; rfl)
        · exact fun _ => hs.gicOwner
        · exact fun hn => absurd hs.activePlaneId hn
        · exact hs.hostCall.trans h₁.hostCall
    exact ⟨hr.gic,hr.plane0,hr.hostCall,hr.exitEsr⟩
  · cases Prepared.of_prepareEntry hp

end Enter

theorem recRunLoopStep_toHost {inp : LoopInput V} {m m' : Machine V} (h : m.recRunLoopStep f inp = (m',.toHost)) :
    ∃ m₁, m.recRunLoopBody f inp = (m₁,.toHost) ∧ SameSyndrome m₁.r m'.r ∧ m'.exit = m₁.exit := by
  obtain ⟨m₁,hb,rfl⟩ := recRunLoopStep_left h
  refine ⟨m₁,hb,(SameSyndrome.recRunLoopExit m₁).trans ⟨rfl,rfl,rfl,rfl,rfl,rfl⟩,?_⟩
  unfold Machine.recRunLoopExit
  split
  · exact Machine.simdContextSwitch_exit _ _ m₁
  · rfl

theorem Vcpu.Invariant.step {v v' : Vcpu V} {l : VcpuLabel V} (hi : v.Invariant) (hg : SyndromeFresh v l)
    (h : Vcpu.Step f v l v') : v'.Invariant := by
  cases h with
  | error hr h =>
    obtain ⟨hk,hc⟩ := enter_error_keeps hg h
    refine ⟨fun ht => ?_,fun _ => hk ▸ hi.parked hr,fun _ ha => ?_⟩
    · rw [show v.running = true from ht] at hr; cases hr
    · obtain ⟨hn,rep,hrep,hb⟩ := hi.backed hr (by rw [← hk]; exact ha)
      exact ⟨not_or.2 ⟨hn,hc⟩,rep,hrep,hk ▸ hb⟩
  | exited hr h =>
    obtain ⟨hk,hn⟩ := enter_exited_keeps (hi.parked hr) h
    refine ⟨nofun,fun _ => hk ▸ hi.parked hr,fun _ ha => ?_⟩
    rw [show authorises v.m.r.activePlane.lastRunInfo.esr = true from hk ▸ ha] at hn
    cases hn
  | entered hr h => exact ⟨fun _ => enter_running (hi.parked hr) h,nofun,nofun⟩
  | resumed hr hs h =>
    have hm := (hi.running hr).body_resume (recRunLoopStep_resume h)
    refine ⟨fun _ => hm,fun hf => ?_,fun hf => ?_⟩ <;>
      rw [show v.running = false from hf] at hr <;> cases hr
  | @left _ w m' hr hs h =>
    obtain ⟨m₁,hb,hsy,hx⟩ := recRunLoopStep_toHost h
    have hl := (hi.running hr).body_toHost hb hs hg
    refine ⟨nofun,fun _ => hsy.parked hl.parked,fun _ ha => ?_⟩
    cases hw : w with
    | true => exact ⟨not_false,_,rfl,hx ▸ hsy.backed hl.backed⟩
    | false =>
      obtain ⟨hsync,hau⟩ := hl.source (by rw [← hsy.active]; exact ha)
      rw [hg.2.2 hw hsync] at hau
      cases hau

theorem Vcpu.invariant_reachable {v : Vcpu V} (h : (vcpuSystem V f).ReachableUnder SyndromeFresh v) : v.Invariant :=
  h.invariant (fun _ hc => Vcpu.Created.invariant hc) (fun _ _ _ hi hg hs => hi.step hg hs)

theorem completion_matches_exit {v : Vcpu V} {env : EnterEnv} {e : RecEnter}
    (h : (vcpuSystem V f).ReachableUnder SyndromeFresh v) (hr : v.running = false)
    {w : Bool} (hg : SyndromeFresh v (.enter env e w)) : EntryProper f v env e := by
  have hi := Vcpu.invariant_reachable h
  have hp := hi.parked hr
  refine ⟨fun hc => ?_,fun hc => ?_,fun plane hc => ?_,fun m' he => ?_,fun m' he => ?_⟩
  · obtain ⟨-,hd⟩ := mmioDue_of_changes hc
    obtain ⟨hn,rep,hrep,hb⟩ := hi.backed hr (authorises_of_mmioDue hd)
    simp only [mmioDue,Bool.and_eq_true] at hd
    obtain ⟨hpl,hrp⟩ := hb.mmio hd.1.2 hd.2
    exact ⟨hn,rep,hrep,hpl,hrp⟩
  · obtain ⟨-,hd⟩ := seaDue_of_changes hc
    obtain ⟨hn,rep,hrep,hb⟩ := hi.backed hr (authorises_of_seaDue hd)
    simp only [seaDue,Bool.and_eq_true,Bool.not_eq_true'] at hd
    obtain ⟨hpl,hrp⟩ := hb.sea hd.1.2 hd.2
    exact ⟨hn,rep,hrep,hpl,hrp⟩
  · obtain ⟨rfl,hd⟩ := sysregDue_of_changes hc hp
    simp only [sysregDue,Bool.and_eq_true,Bool.not_eq_true'] at hd
    obtain ⟨hn,rep,hrep,hb⟩ := hi.backed hr (authorises_sysreg hd.1 hd.2)
    obtain ⟨hpl,hrp⟩ := hb.sysreg hd.1 hd.2
    exact ⟨hn,rep,hrep,hpl,hrp⟩
  · rw [SameRegisters,(enter_error_keeps hg he).1]
    exact ⟨rfl,rfl,rfl,rfl⟩
  · rw [SameRegisters,(enter_exited_keeps hp he).1]
    exact ⟨rfl,rfl,rfl,rfl⟩

namespace StaleSyndrome

open Sample

def vcpu : Vcpu Unit where
  m := ⟨freshRec 1 (),⟨(),false,some .nwd,⟨true,false,()⟩,false⟩,freshLive,RecExit.zero,false⟩
  running := false
  report := none
  completed := False

def planeEnterCall : LoopInput Unit := loopInput .sync planeEnterRegs Ec.smc.word 0 0 ()

def mmioAbort : LoopInput Unit :=
  loopInput .sync (fun _ => 0) (Ec.dataAbort.word ||| isvBit ||| 7) (bit 31) 0 ()

def externalAbort : LoopInput Unit :=
  loopInput .sync (fun _ => 0) (Ec.dataAbort.word ||| 0x10) (bit 31) 0 ()

def interrupt : LoopInput Unit := loopInput .irq (fun _ => 0) 0 0 0 ()

def entered (flags : Word) (v : Vcpu Unit) : Vcpu Unit :=
  { v with
    m := (v.m.smcRecEnter features enterEnv (recEnter flags)).1
    running := true
    completed := v.completed ∨ EntryCompletes features enterEnv (recEnter flags) v.m }

def resumed (inp : LoopInput Unit) (v : Vcpu Unit) : Vcpu Unit :=
  { v with m := (v.m.recRunLoopStep features inp).1 }

def left (inp : LoopInput Unit) (written : Bool) (v : Vcpu Unit) : Vcpu Unit :=
  .leave (v.m.recRunLoopStep features inp).1 v.m.r.activePlaneId written

def abortReported : Vcpu Unit := left mmioAbort true (resumed planeEnterCall (entered 0 vcpu))

def abortUnwritten : Vcpu Unit := left mmioAbort false (entered 0 vcpu)

def interrupted : Vcpu Unit := left interrupt true (resumed planeEnterCall (entered (bit 7) abortReported))

theorem created : vcpu.Created := ⟨rfl,rfl,rfl,rfl,rfl,rfl,rfl,not_false⟩

variable {v : Vcpu Unit} {inp : LoopInput Unit}

theorem step_entered {flags : Word} (hr : v.running = false)
    (h : (v.m.smcRecEnter features enterEnv (recEnter flags)).2 = .running) :
    Vcpu.Step features v (.enter enterEnv (recEnter flags) true) (entered flags v) :=
  .entered hr (Prod.ext rfl h)

theorem step_resumed (hr : v.running = true) (hs : inp.serrorSyndrome = true)
    (h : (v.m.recRunLoopStep features inp).2 = .resume) : Vcpu.Step features v (.iterate inp true) (resumed inp v) :=
  .resumed hr hs (Prod.ext rfl h)

theorem step_left {w : Bool} (hr : v.running = true) (hs : inp.serrorSyndrome = true)
    (h : (v.m.recRunLoopStep features inp).2 = .toHost) : Vcpu.Step features v (.iterate inp w) (left inp w v) :=
  .left hr hs (Prod.ext rfl h)

section Run

variable {guard : Vcpu Unit → VcpuLabel Unit → Prop}

theorem abortReported_reachable (h₁ : guard vcpu (.enter enterEnv (recEnter 0) true))
    (h₂ : guard (entered 0 vcpu) (.iterate planeEnterCall true))
    (h₃ : guard (resumed planeEnterCall (entered 0 vcpu)) (.iterate mmioAbort true)) :
    (vcpuSystem Unit features).ReachableUnder guard abortReported :=
  (((TransitionSystem.ReachableUnder.initial created).next h₁ (step_entered rfl (by decide))).next h₂
    (step_resumed rfl (by decide) (by decide))).next h₃ (step_left rfl (by decide) (by decide))

theorem mmioChanges_of_due {v : Vcpu Unit} (ha : v.m.entryAllowed enterEnv = true)
    (hpc : (completeMmioEmulation (recEnter (bit 0)) v.m.r).1.activePlane.pc ≠ v.m.r.activePlane.pc) :
    MmioChanges features enterEnv (recEnter (bit 0)) v.m := by
  refine ⟨v.m.r,?_,fun he => hpc (by rw [he])⟩
  unfold Machine.afterSea
  rw [if_pos ha,completeSeaInsertion_not_due (by simp [seaDue,show (recEnter (bit 0)).injectSea = false by decide])]
  rfl

theorem interrupted_reachable : (vcpuSystem Unit features).Reachable interrupted :=
  (((abortReported_reachable trivial trivial trivial).next trivial (step_entered rfl (by decide))).next
    trivial (step_resumed rfl (by decide) (by decide))).next trivial (step_left rfl (by decide) (by decide))

end Run

def runPageUnmapped : EnterEnv := { enterEnv with s2 := fun _ => .fail .ram .page }

def externalReported : Vcpu Unit := left externalAbort true (entered 0 vcpu)

theorem externalReported_reachable : (vcpuSystem Unit features).Reachable externalReported :=
  ((TransitionSystem.ReachableUnder.initial created).next trivial (step_entered rfl (by decide))).next
    trivial (step_left rfl (by decide) (by decide))

theorem abortUnwritten_reachable : (vcpuSystem Unit features).Reachable abortUnwritten :=
  ((TransitionSystem.ReachableUnder.initial created).next trivial (step_entered rfl (by decide))).next
    trivial (step_left rfl (by decide) (by decide))

theorem seaChanges_of_elr (ha : v.m.entryAllowed enterEnv = true)
    (hpc : (completeSeaInsertion features (recEnter (bit 1)) v.m.r).1.activeSysregs.el1.elr ≠
      v.m.r.activeSysregs.el1.elr) : SeaChanges features enterEnv (recEnter (bit 1)) v.m :=
  ⟨ha,fun he => hpc (by rw [he])⟩

end StaleSyndrome

open Sample StaleSyndrome in
theorem completion_without_matching_exit :
    (∃ (v : Vcpu Unit) (e : RecEnter), (vcpuSystem Unit features).Reachable v ∧ v.running = false ∧
      MmioChanges features enterEnv e v.m ∧
      ¬ v.Reported v.m.r.activePlaneId (reportsEmulatableAbort v.m.r)) ∧
    (∃ (v : Vcpu Unit) (e : RecEnter), (vcpuSystem Unit features).Reachable v ∧ v.running = false ∧
      SeaChanges features enterEnv e v.m ∧
      ¬ v.Reported v.m.r.activePlaneId (reportsUnprotectedAbort v.m.r)) ∧
    (∃ (v : Vcpu Unit) (e : RecEnter), (vcpuSystem Unit features).Reachable v ∧ v.running = false ∧
      v.report = none ∧ MmioChanges features enterEnv e v.m) ∧
    ∃ (v : Vcpu Unit) (e : RecEnter) (m' : Machine Unit), (vcpuSystem Unit features).Reachable v ∧
      v.running = false ∧ v.m.smcRecEnter features runPageUnmapped e = (m',.error) ∧
      ¬ SameRegisters v.m.r m'.r := by
  refine ⟨⟨interrupted,recEnter (bit 0),interrupted_reachable,rfl,mmioChanges_of_due (by decide) (by decide),?_⟩,
    ⟨externalReported,recEnter (bit 1),externalReported_reachable,rfl,seaChanges_of_elr (by decide) (by decide),?_⟩,
    ⟨abortUnwritten,recEnter (bit 0),abortUnwritten_reachable,rfl,rfl,mmioChanges_of_due (by decide) (by decide)⟩,
    ⟨abortReported,recEnter (bit 0 ||| bit 7),_,abortReported_reachable trivial trivial trivial,rfl,
      Prod.ext rfl (by decide),?_⟩⟩
  · rintro ⟨rep,hrep,-,hk⟩
    obtain rfl := Option.some.inj hrep
    revert hk
    decide
  · rintro ⟨rep,hrep,-,hk⟩
    obtain rfl := Option.some.inj hrep
    revert hk
    decide
  · rintro ⟨-,-,-,hpc⟩
    revert hpc
    decide

open Sample StaleSyndrome in
theorem completion_matches_exit_mmio : MmioChanges features enterEnv (recEnter (bit 0)) abortReported.m ∧
      EntryProper features abortReported enterEnv (recEnter (bit 0)) := by
  constructor
  · exact mmioChanges_of_due (by decide) (by decide)
  · refine completion_matches_exit (w := true) (abortReported_reachable ?_ ?_ ?_) rfl ?_ <;>
      (unfold SyndromeFresh; decide)

end TfRmm.Exec
