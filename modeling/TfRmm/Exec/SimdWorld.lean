import TfRmm.Lib.Transition
import TfRmm.Exec.Entry

namespace TfRmm.Exec

open TfRmm.Arch
open Machine

variable {V : Type} (run : RealmRun V)

def SimdOff (cptr : Word) : Prop := cptrFpEnabled cptr = false ∧ cptrSveEnabled cptr = false

def SimdOn (cfg : SimdConfig) (cptr : Word) : Prop :=
  cptrFpEnabled cptr = true ∧ (cfg.sveEn = true → cptrSveEnabled cptr = true)

theorem SimdOff.disable (cptr : Word) : SimdOff (simdDisableAllCptrFlags cptr) :=
  ⟨cptrFpEnabled_disable cptr,cptrSveEnabled_disable cptr⟩

theorem SimdOn.enable (cfg : SimdConfig) (cptr : Word) : SimdOn cfg (simdEnableCptrFlags cfg cptr) :=
  ⟨cptrFpEnabled_enable cfg cptr,fun h => cptrSveEnabled_enable h cptr⟩

def Rec.trapsSimd (r : Rec V) : Bool := !r.isPlane0Active && r.plane1.trapSimd

structure Detached (r : Rec V) : Prop where
  gic : r.activePlaneId = 0 → r.gicOwner = 0
  active : SimdOff r.activeSysregs.cptrEl2
  plane0 : r.trapsSimd = true → SimdOff (r.sysregs 0).cptrEl2

structure Attached (r : Rec V) : Prop where
  gic : r.activePlaneId = 0 → r.gicOwner = 0
  active : SimdOn r.realmInfo.simdCfg r.activeSysregs.cptrEl2
  noTrap : r.trapsSimd = false

structure IdleRec (r : Rec V) : Prop where
  active : r.activeSimdCtx = none
  initDone : r.simdCtx.initDone = true
  saved : r.simdCtx.saved = true
  detached : Detached r

structure IdleCpu (ns : V) (c : Cpu V) : Prop where
  initDone : c.nsSimdCtx.initDone = true
  saved : c.nsSimdCtx.saved = false
  simdSaved : c.simdSaved = false
  liveCtx : c.liveCtx = some .nwd
  vregs : c.vregs = ns
  asserted : c.asserted = false

structure NwdLive (ns : V) (m : Machine V) : Prop where
  held : m.r.refcount ≠ 0
  active : m.r.activeSimdCtx = some .nwd
  initDone : m.r.simdCtx.initDone = true
  saved : m.r.simdCtx.saved = true
  detached : Detached m.r
  cpu : IdleCpu ns m.cpu

structure Rel1Live (ns : V) (m : Machine V) : Prop where
  held : m.r.refcount ≠ 0
  active : m.r.activeSimdCtx = some .rel1
  initDone : m.r.simdCtx.initDone = true
  saved : m.r.simdCtx.saved = false
  attached : Attached m.r
  nsInitDone : m.cpu.nsSimdCtx.initDone = true
  nsSaved : m.cpu.nsSimdCtx.saved = true
  nsVregs : m.cpu.nsSimdCtx.vregs = ns
  simdSaved : m.cpu.simdSaved = false
  liveCtx : m.cpu.liveCtx = some .rel1
  asserted : m.cpu.asserted = false

def Live (ns : V) (m : Machine V) : Prop := NwdLive ns m ∨ Rel1Live ns m

structure SameSimd (r r' : Rec V) : Prop where
  trapSimd : r'.plane1.trapSimd = r.plane1.trapSimd
  realmInfo : r'.realmInfo = r.realmInfo
  activePlaneId : r'.activePlaneId = r.activePlaneId
  gicOwner : r'.gicOwner = r.gicOwner
  refcount : r'.refcount = r.refcount
  simdCtx : r'.simdCtx = r.simdCtx
  activeSimdCtx : r'.activeSimdCtx = r.activeSimdCtx
  cptr : ∀ i, (r'.sysregs i).cptrEl2 = (r.sysregs i).cptrEl2

theorem Quiet.sameSimd {m m' : Machine V} (h : Quiet m m') : SameSimd m.r m'.r :=
  ⟨h.trapSimd,h.realmInfo,h.activePlaneId,h.gicOwner,h.refcount,h.simdCtx,h.activeSimdCtx,h.cptr⟩

namespace SameSimd

variable {r r' : Rec V}

theorem refl (r : Rec V) : SameSimd r r := ⟨rfl,rfl,rfl,rfl,rfl,rfl,rfl,fun _ => rfl⟩

theorem trans {a b c : Rec V} (h : SameSimd a b) (k : SameSimd b c) : SameSimd a c where
  trapSimd := k.trapSimd.trans h.trapSimd
  realmInfo := k.realmInfo.trans h.realmInfo
  activePlaneId := k.activePlaneId.trans h.activePlaneId
  gicOwner := k.gicOwner.trans h.gicOwner
  refcount := k.refcount.trans h.refcount
  simdCtx := k.simdCtx.trans h.simdCtx
  activeSimdCtx := k.activeSimdCtx.trans h.activeSimdCtx
  cptr := fun i => (k.cptr i).trans (h.cptr i)

theorem activeCptr (h : SameSimd r r') : r'.activeSysregs.cptrEl2 = r.activeSysregs.cptrEl2 := by
  unfold Rec.activeSysregs
  rw [h.activePlaneId]
  exact h.cptr _

theorem traps (h : SameSimd r r') : r'.trapsSimd = r.trapsSimd := by
  simp only [Rec.trapsSimd,Rec.isPlane0Active,h.activePlaneId,h.trapSimd]

theorem detached (h : SameSimd r r') (hd : Detached r) : Detached r' where
  gic := by rw [h.activePlaneId,h.gicOwner]; exact hd.gic
  active := by rw [h.activeCptr]; exact hd.active
  plane0 := by rw [h.traps,h.cptr]; exact hd.plane0

theorem attached (h : SameSimd r r') (ha : Attached r) : Attached r' where
  gic := by rw [h.activePlaneId,h.gicOwner]; exact ha.gic
  active := by rw [h.activeCptr,h.realmInfo]; exact ha.active
  noTrap := h.traps.trans ha.noTrap

theorem idleRec (h : SameSimd r r') (hi : IdleRec r) : IdleRec r' where
  active := h.activeSimdCtx.trans hi.active
  initDone := by rw [h.simdCtx]; exact hi.initDone
  saved := by rw [h.simdCtx]; exact hi.saved
  detached := h.detached hi.detached

end SameSimd

theorem NwdLive.congr {ns : V} {m m' : Machine V} (hl : NwdLive ns m) (h : SameSimd m.r m'.r)
    (hc : m'.cpu = m.cpu) : NwdLive ns m' where
  held := by rw [h.refcount]; exact hl.held
  active := h.activeSimdCtx.trans hl.active
  initDone := by rw [h.simdCtx]; exact hl.initDone
  saved := by rw [h.simdCtx]; exact hl.saved
  detached := h.detached hl.detached
  cpu := by rw [hc]; exact hl.cpu

theorem Rel1Live.congr {ns : V} {m m' : Machine V} (hl : Rel1Live ns m) (h : SameSimd m.r m'.r)
    (hc : ∃ v, m'.cpu = { m.cpu with vregs := v }) : Rel1Live ns m' := by
  obtain ⟨v,hc⟩ := hc
  cases m'
  subst hc
  exact ⟨h.refcount ▸ hl.held,h.activeSimdCtx.trans hl.active,h.simdCtx ▸ hl.initDone,h.simdCtx ▸ hl.saved,
    h.attached hl.attached,hl.nsInitDone,hl.nsSaved,hl.nsVregs,hl.simdSaved,hl.liveCtx,hl.asserted⟩

theorem Live.congr {ns : V} {m m' : Machine V} (hl : Live ns m) (h : SameSimd m.r m'.r)
    (hc : m'.cpu = m.cpu) : Live ns m' :=
  hl.imp (fun hn => hn.congr h hc) (fun hr => hr.congr h ⟨m.cpu.vregs,hc⟩)

theorem Live.quiet {ns : V} {m m' : Machine V} (hl : Live ns m) (h : Quiet m m') : Live ns m' :=
  hl.congr h.sameSimd h.cpu

theorem SameSimd.runRealm (m : Machine V) : SameSimd m.r (m.activateEvents.runRealm run).r := by
  have h1 : SameSimd m.r m.activateEvents.r := by
    unfold activateEvents
    split <;> exact ⟨rfl,rfl,rfl,rfl,rfl,rfl,rfl,fun _ => rfl⟩
  exact h1.trans (Quiet.setPlane m.activateEvents { m.activateEvents.r.activePlane with regs := run.regs }
    rfl rfl).sameSimd

theorem activateEvents_cpu (m : Machine V) : m.activateEvents.cpu = m.cpu := by
  unfold activateEvents
  split <;> rfl

theorem runRealm_cpu (m : Machine V) : ∃ v, (m.activateEvents.runRealm run).cpu = { m.cpu with vregs := v } := by
  rw [← activateEvents_cpu m]
  exact ⟨_,rfl⟩

theorem runRealm_cpu_off {run : RealmRun V} {m : Machine V} (h : SimdOff m.r.activeSysregs.cptrEl2) :
    (m.activateEvents.runRealm run).cpu = m.cpu := by
  have hs : SameSimd m.r (m.activateEvents.runRealm run).r := SameSimd.runRealm run m
  have hoff : (m.activateEvents.setPlane { m.activateEvents.r.activePlane with regs := run.regs }).simdAccessible
      = false := by
    have hc : (m.activateEvents.setPlane
        { m.activateEvents.r.activePlane with regs := run.regs }).r.activeSysregs.cptrEl2 =
        m.r.activeSysregs.cptrEl2 := hs.activeCptr
    unfold Machine.simdAccessible
    rw [hc,h.1,h.2]
    rfl
  rw [← activateEvents_cpu m]
  simp only [Machine.runRealm,hoff]
  rfl

theorem Live.runRealm {ns : V} {m : Machine V} (hl : Live ns m) (run : RealmRun V) :
    Live ns (m.activateEvents.runRealm run) := by
  rcases hl with hn | hr
  · exact .inl (hn.congr (SameSimd.runRealm run m) (runRealm_cpu_off hn.detached.active))
  · exact .inr (hr.congr (SameSimd.runRealm run m) (runRealm_cpu run m))

section ReturnToPlane0

variable {m : Machine V} (ret : Word) (b : Bool)

theorem returnToPlane0_activeCptr : (m.returnToPlane0 ret b).r.activeSysregs.cptrEl2 =
    if m.r.plane1.trapSimd then (m.r.sysregs 0).cptrEl2 else m.r.activeSysregs.cptrEl2 := by
  cases b <;> cases ht : m.r.plane1.trapSimd <;>
    simp [Machine.returnToPlane0,Machine.restoreRealmState,Rec.activeSysregs,Rec.setSysregs,ht]

theorem returnToPlane0_frame : (m.returnToPlane0 ret b).r.realmInfo = m.r.realmInfo ∧
    (m.returnToPlane0 ret b).r.trapsSimd = false ∧ (m.returnToPlane0 ret b).cpu = m.cpu := by
  cases b <;> exact ⟨rfl,rfl,rfl⟩

theorem returnToPlane0_gicOwner : (m.returnToPlane0 ret b).r.gicOwner = 0 := by
  cases b <;> rfl

theorem trapsSimd_of_planeN {r : Rec V} (hp : r.activePlaneId ≠ 0) : r.trapsSimd = r.plane1.trapSimd := by
  simp [Rec.trapsSimd,Rec.isPlane0Active,hp]

theorem Detached.returnToPlane0 (hp : m.r.activePlaneId ≠ 0) (hd : Detached m.r) :
    Detached (m.returnToPlane0 ret b).r where
  gic := fun _ => returnToPlane0_gicOwner ret b
  active := by
    rw [returnToPlane0_activeCptr]
    split
    next ht => exact hd.plane0 ((trapsSimd_of_planeN hp).trans ht)
    · exact hd.active
  plane0 := by
    rw [(returnToPlane0_frame ret b).2.1]
    intro h
    cases h

theorem Attached.returnToPlane0 (hp : m.r.activePlaneId ≠ 0) (ha : Attached m.r) :
    Attached (m.returnToPlane0 ret b).r where
  gic := fun _ => returnToPlane0_gicOwner ret b
  active := by
    have ht : m.r.plane1.trapSimd = false := (trapsSimd_of_planeN hp).symm.trans ha.noTrap
    rw [returnToPlane0_activeCptr,(returnToPlane0_frame ret b).1,ht]
    exact ha.active
  noTrap := (returnToPlane0_frame ret b).2.1

theorem IdleRec.returnToPlane0 (hp : m.r.activePlaneId ≠ 0) (hi : IdleRec m.r) : IdleRec (m.returnToPlane0 ret b).r := by
  have hd := hi.detached.returnToPlane0 ret b hp
  cases b <;> exact ⟨hi.active,hi.initDone,hi.saved,hd⟩

theorem Live.returnToPlane0 {ns : V} (hp : m.r.activePlaneId ≠ 0) (hl : Live ns m) : Live ns (m.returnToPlane0 ret b) := by
  rcases hl with hn | hr
  · have hd := hn.detached.returnToPlane0 ret b hp
    cases b <;> exact .inl ⟨hn.held,hn.active,hn.initDone,hn.saved,hd,hn.cpu⟩
  · have ha := hr.attached.returnToPlane0 ret b hp
    cases b <;> exact .inr ⟨hr.held,hr.active,hr.initDone,hr.saved,ha,hr.nsInitDone,hr.nsSaved,hr.nsVregs,hr.simdSaved,
      hr.liveCtx,hr.asserted⟩

end ReturnToPlane0

theorem Live.handlePlaneNExit {ns : V} {m m' : Machine V} {s2 : Word → S2Walk} {b bs : Bool}
    (hl : Live ns m) (hp : m.r.activePlaneId ≠ 0) (h : m.handlePlaneNExit s2 bs = (m',b)) : Live ns m' := by
  cases b with
  | true =>
    obtain ⟨m₁,ret,hq,-,rfl⟩ := handlePlaneNExit_true h
    exact (hl.quiet hq).returnToPlane0 ret bs (by rw [hq.activePlaneId]; exact hp)
  | false =>
    obtain ⟨hr,hlv,-,hc,-⟩ := handlePlaneNExit_false h
    exact hl.quiet (.of_eq hr hc hlv)

section ActivatePlaneN

attribute [local simp] Machine.activatePlaneN Machine.copyStateFromPlaneEntry Rec.setSysregs Rec.setActivePlane
  Rec.isPlane0Active

variable {m : Machine V} {idx : Nat} (entry : PlaneEnter) (hi : idx ≠ 0)

include hi

theorem activatePlaneN_simd : (m.activatePlaneN idx entry).r.simdCtx = m.r.simdCtx ∧
    (m.activatePlaneN idx entry).r.activeSimdCtx = m.r.activeSimdCtx ∧ (m.activatePlaneN idx entry).r.realmInfo =
    m.r.realmInfo ∧ (m.activatePlaneN idx entry).r.trapsSimd = planeFlag 4 entry ∧ (m.activatePlaneN idx entry).cpu = m.cpu
    := by
  simp [Rec.trapsSimd,hi]

theorem activatePlaneN_refcount : (m.activatePlaneN idx entry).r.refcount = m.r.refcount := by
  simp [hi]

theorem activatePlaneN_gic :
    (m.activatePlaneN idx entry).r.activePlaneId = 0 → (m.activatePlaneN idx entry).r.gicOwner = 0 := fun h => by
  simp [hi] at h

theorem activatePlaneN_cptr0 : ((m.activatePlaneN idx entry).r.sysregs 0).cptrEl2 = (m.r.sysregs 0).cptrEl2 := by
  simp [hi,hi.symm]

theorem activatePlaneN_activeCptr :
    (planeFlag 4 entry = true → SimdOff (m.activatePlaneN idx entry).r.activeSysregs.cptrEl2) ∧
    (planeFlag 4 entry = false →
      (m.activatePlaneN idx entry).r.activeSysregs.cptrEl2 = (m.r.sysregs 0).cptrEl2) := by
  constructor <;> intro hf
  · have h : (m.activatePlaneN idx entry).r.activeSysregs.cptrEl2 =
        simdDisableAllCptrFlags (m.r.sysregs idx).cptrEl2 := by
      simp [Rec.activeSysregs,hi,hf]
    rw [h]
    exact SimdOff.disable _
  · simp [Rec.activeSysregs,hi,hf]

theorem Live.activatePlaneN {ns : V} (hp : m.r.activePlaneId = 0) (hl : Live ns m)
    (hg : planeFlag 4 entry = true → m.r.activeSimdCtx ≠ some .rel1) : Live ns (m.activatePlaneN idx entry) := by
  obtain ⟨hs,ha,hri,ht,hc⟩ := activatePlaneN_simd entry hi
  obtain ⟨hoff,hon⟩ := activatePlaneN_activeCptr entry hi
  have hrc := activatePlaneN_refcount (m := m) entry hi
  have h0 : m.r.activeSysregs.cptrEl2 = (m.r.sysregs 0).cptrEl2 := by rw [Rec.activeSysregs,hp]
  rcases hl with hn | hr
  · refine .inl ⟨hrc ▸ hn.held,ha.trans hn.active,hs ▸ hn.initDone,hs ▸ hn.saved,⟨activatePlaneN_gic entry hi,?_,?_⟩,hc ▸ hn.cpu⟩
    · cases hf : planeFlag 4 entry with
      | true => exact hoff hf
      | false => rw [hon hf,← h0]; exact hn.detached.active
    · rw [activatePlaneN_cptr0 entry hi,← h0]
      exact fun _ => hn.detached.active
  · have hf : planeFlag 4 entry = false := by
      by_contra hf
      exact hg (by simpa using hf) hr.active
    refine .inr ⟨hrc ▸ hr.held,ha.trans hr.active,hs ▸ hr.initDone,hs ▸ hr.saved,⟨activatePlaneN_gic entry hi,?_,ht.trans hf⟩,hc ▸ hr.nsInitDone,
      hc ▸ hr.nsSaved,hc ▸ hr.nsVregs,hc ▸ hr.simdSaved,hc ▸ hr.liveCtx,hc ▸ hr.asserted⟩
    rw [hri,hon hf,← h0]
    exact hr.attached.active

end ActivatePlaneN

structure Suspended (ns : V) (m : Machine V) : Prop where
  initDone : m.r.simdCtx.initDone = true
  saved : m.r.simdCtx.saved = true
  nsInitDone : m.cpu.nsSimdCtx.initDone = true
  nsSaved : m.cpu.nsSimdCtx.saved = true
  nsVregs : m.cpu.nsSimdCtx.vregs = ns
  simdSaved : m.cpu.simdSaved = true
  asserted : m.cpu.asserted = false

structure Resumed (ns : V) (m : Machine V) : Prop where
  initDone : m.r.simdCtx.initDone = true
  saved : m.r.simdCtx.saved = false
  nsInitDone : m.cpu.nsSimdCtx.initDone = true
  nsSaved : m.cpu.nsSimdCtx.saved = true
  nsVregs : m.cpu.nsSimdCtx.vregs = ns
  simdSaved : m.cpu.simdSaved = false
  liveCtx : m.cpu.liveCtx = some .rel1
  asserted : m.cpu.asserted = false

theorem simdContextSwitch_split {m : Machine V} (a b : SimdOwner) : m.simdContextSwitch (some a) (some b) =
      (m.simdContextSwitch (some a) none).simdContextSwitch none (some b) := by
  cases a <;> cases b <;> simp [Machine.simdContextSwitch,check]

section Switch

attribute [local simp] Machine.simdContextSwitch Machine.saveSimdContext Machine.restoreSimdContext
  Machine.setSimdContext Machine.simdContext check

variable {ns : V} {m m' : Machine V} (a b : Option SimdOwner)

theorem Suspended.congr (h : Suspended ns m) (hr : m'.r.simdCtx = m.r.simdCtx) (hc : m'.cpu = m.cpu) : Suspended ns m' :=
  ⟨hr ▸ h.initDone,hr ▸ h.saved,hc ▸ h.nsInitDone,hc ▸ h.nsSaved,hc ▸ h.nsVregs,hc ▸ h.simdSaved,hc ▸ h.asserted⟩

theorem NwdLive.suspend (hl : NwdLive ns m) : Suspended ns (m.simdContextSwitch (some .nwd) none) ∧
    (m.simdContextSwitch (some .nwd) none).r = m.r := by
  obtain ⟨-,-,h1,h2,-,⟨c1,c2,c3,-,c5,c6⟩⟩ := hl
  refine ⟨⟨h1,h2,c1,rfl,c5,rfl,?_⟩,rfl⟩
  simp [c1,c2,c3,c6]

theorem Rel1Live.suspend (hl : Rel1Live ns m) : Suspended ns (m.simdContextSwitch (some .rel1) none) := by
  obtain ⟨-,-,h1,h2,-,c1,c2,c3,c4,-,c6⟩ := hl
  refine ⟨h1,rfl,c1,c2,c3,rfl,?_⟩
  simp [h1,h2,c4,c6]

theorem Suspended.resumeNwd (h : Suspended ns m) : IdleCpu ns (m.simdContextSwitch none (some .nwd)).cpu ∧
      (m.simdContextSwitch none (some .nwd)).r = m.r := by
  refine ⟨⟨h.nsInitDone,rfl,rfl,rfl,h.nsVregs,?_⟩,rfl⟩
  simp [h.nsInitDone,h.nsSaved,h.simdSaved,h.asserted]

theorem Suspended.resumeRel1 (h : Suspended ns m) : Resumed ns (m.simdContextSwitch none (some .rel1)) := by
  refine ⟨h.initDone,rfl,h.nsInitDone,h.nsSaved,h.nsVregs,rfl,rfl,?_⟩
  simp [h.initDone,h.saved,h.simdSaved,h.asserted]

theorem Resumed.live (h : Resumed ns m) (hh : m.r.refcount ≠ 0) (ha : m.r.activeSimdCtx = some .rel1) (hat : Attached m.r) :
    Rel1Live ns m :=
  ⟨hh,ha,h.initDone,h.saved,hat,h.nsInitDone,h.nsSaved,h.nsVregs,h.simdSaved,h.liveCtx,h.asserted⟩

theorem switch_attached {a b : Option SimdOwner} (h : Attached m.r) : Attached (m.simdContextSwitch a b).r := by
  obtain ⟨c,hc⟩ := simdContextSwitch_rec a b m
  rw [hc]
  exact ⟨h.gic,h.active,h.noTrap⟩

theorem switch_active : (m.simdContextSwitch a b).r.activeSimdCtx = m.r.activeSimdCtx := by
  obtain ⟨c,hc⟩ := simdContextSwitch_rec a b m
  rw [hc]

theorem switch_refcount : (m.simdContextSwitch a b).r.refcount = m.r.refcount := by
  obtain ⟨c,hc⟩ := simdContextSwitch_rec a b m
  rw [hc]

theorem Live.fpu {m₁ : Machine V} (hl : Live ns m) (h₁ : Quiet (m.simdContextSwitch m.r.activeSimdCtx none) m₁)
    (h₂ : Quiet (m₁.simdContextSwitch none m₁.r.activeSimdCtx) m') : Live ns m' := by
  have ha : m₁.r.activeSimdCtx = m.r.activeSimdCtx := h₁.activeSimdCtx.trans (switch_active _ _)
  rcases hl with hn | hr
  · rw [ha,hn.active] at h₂
    rw [hn.active] at h₁
    obtain ⟨hs,hrs⟩ := hn.suspend
    have hs₁ := hs.congr h₁.simdCtx h₁.cpu
    obtain ⟨hc,hr2⟩ := hs₁.resumeNwd
    have hsim : SameSimd m.r m'.r := by
      have := h₁.sameSimd.trans (hr2 ▸ h₂.sameSimd)
      rwa [hrs] at this
    refine .inl ⟨hsim.refcount ▸ hn.held,hsim.activeSimdCtx.trans hn.active,?_,?_,hsim.detached hn.detached,h₂.cpu ▸ hc⟩
    · rw [hsim.simdCtx]; exact hn.initDone
    · rw [hsim.simdCtx]; exact hn.saved
  · rw [ha,hr.active] at h₂
    rw [hr.active] at h₁
    have hs₁ := hr.suspend.congr h₁.simdCtx h₁.cpu
    have hat₁ := h₁.sameSimd.attached (switch_attached hr.attached)
    have hrc : (m₁.simdContextSwitch none (some .rel1)).r.refcount = m.r.refcount := by
      rw [switch_refcount,h₁.refcount,switch_refcount]
    have hl := hs₁.resumeRel1.live (hrc ▸ hr.held) ((switch_active _ _).trans (ha.trans hr.active))
      (switch_attached hat₁)
    exact .inr (hl.congr h₂.sameSimd ⟨_,h₂.cpu⟩)

theorem NwdLive.take (hl : NwdLive ns m) (hn : m.r.trapsSimd = false) {m₂ : Machine V}
    (hm₂ : m₂ = (m.check (m.r.activeSimdCtx != some .rel1)).simdContextSwitch (some .nwd) (some .rel1)) :
    Rel1Live ns { m₂ with r := { m₂.r.setSysregs m₂.r.activePlaneId { m₂.r.activeSysregs with
        cptrEl2 := simdEnableCptrFlags m₂.r.realmInfo.simdCfg m₂.r.activeSysregs.cptrEl2 } with
      activeSimdCtx := some .rel1 } } := by
  have hl' : NwdLive ns (m.check (m.r.activeSimdCtx != some .rel1)) := by
    refine hl.congr (.refl _) ?_
    simp [hl.active,show (some SimdOwner.nwd != some SimdOwner.rel1) = true from rfl]
  have hres : Resumed ns m₂ := by
    rw [hm₂,simdContextSwitch_split]
    exact hl'.suspend.1.resumeRel1
  obtain ⟨c,hc⟩ := simdContextSwitch_rec (some .nwd) (some .rel1) (m.check (m.r.activeSimdCtx != some .rel1))
  rw [← hm₂] at hc
  have htr : m₂.r.trapsSimd = false := by rw [hc]; exact hn
  have hgic : m₂.r.activePlaneId = 0 → m₂.r.gicOwner = 0 := by rw [hc]; exact hl.detached.gic
  have hheld : m₂.r.refcount ≠ 0 := by rw [hc]; exact hl.held
  refine ⟨hheld,rfl,hres.initDone,hres.saved,⟨hgic,?_,htr⟩,hres.nsInitDone,hres.nsSaved,hres.nsVregs,hres.simdSaved,
    hres.liveCtx,hres.asserted⟩
  simp only [Rec.activeSysregs,Rec.setSysregs,Function.update_self]
  exact SimdOn.enable _ _

end Switch

open TfRmm.Lib

def simdTrapTaken (cptr esr : Word) : Bool :=
  (!hasEc .fpu esr || !cptrFpEnabled cptr) && (!hasEc .sve esr || !cptrSveEnabled cptr)

def LoopInput.simdTrapsTaken (inp : LoopInput V) (r : Rec V) : Bool :=
  inp.run.exception != .sync || simdTrapTaken r.activeSysregs.cptrEl2 inp.run.live.esrEl2

def LoopInput.entersTrappingPlane (inp : LoopInput V) (r : Rec V) : Bool :=
  !inp.timersPending && inp.run.exception == .sync && hasEc .smc inp.run.live.esrEl2 &&
    r.isPlane0Active && functionId (inp.run.regs 0) == smcRsiPlaneEnter &&
    Machine.planeFlag 4 inp.env.planeEnter

section Body

variable {f : Features} {ns : V} {m m' : Machine V} {env : ExitEnv}

theorem trapsSimd_false {r : Rec V} (h : ¬ (r.activePlaneId ≠ 0 ∧ r.plane1.trapSimd = true)) : r.trapsSimd = false := by
  by_cases h0 : r.activePlaneId = 0
  · simp [Rec.trapsSimd,Rec.isPlane0Active,h0]
  · rw [trapsSimd_of_planeN h0]
    by_contra ht
    exact h ⟨h0,by simpa using ht⟩

theorem Rel1Live.no_trap (hl : Rel1Live ns m) (ht : simdTrapTaken m.r.activeSysregs.cptrEl2 m.live.esrEl2 = true)
    (hs : hasEc .sve m.live.esrEl2 = true → m.r.realmInfo.simdCfg.sveEn = true)
    (hm : hasEc .sme m.live.esrEl2 = true → m.r.activeSimdCtx ≠ some .rel1)
    (hec : hasEc .fpu m.live.esrEl2 = true ∨ hasEc .sve m.live.esrEl2 = true ∨
      hasEc .sme m.live.esrEl2 = true) : False := by
  simp only [simdTrapTaken,Bool.and_eq_true,Bool.or_eq_true,Bool.not_eq_true'] at ht
  rcases hec with hec | hec | hec
  · simp [hec,hl.attached.active.1] at ht
  · simp [hec,hl.attached.active.2 (hs hec)] at ht
  · exact hm hec hl.active

theorem Live.syncOutcome {c : Cont} (hl : Live ns m) (h : SyncOutcome f env m m' c)
    (ht : simdTrapTaken m.r.activeSysregs.cptrEl2 m.live.esrEl2 = true)
    (hg : hasEc .smc m.live.esrEl2 = true → m.r.activePlaneId = 0 →
      functionId (m.r.activePlane.regs 0) = smcRsiPlaneEnter →
      Machine.planeFlag 4 env.planeEnter = true → m.r.activeSimdCtx ≠ some .rel1) : Live ns m' := by
  cases h with
  | quiet hq _ => exact hl.quiet hq
  | planeExit hp h₀ _ hn h₁ _ =>
    exact ((hl.quiet h₀).handlePlaneNExit (by rw [h₀.activePlaneId]; exact hp) hn).quiet h₁
  | planeEnter hp hi hq hent hec hf _ =>
    subst hent
    have hs := Quiet.saveRealmState m
    refine ((hl.quiet hs).activatePlaneN _ hi (by rw [hs.activePlaneId]; exact hp) ?_).quiet hq
    rw [hs.activeSimdCtx]
    exact hg hec hp hf
  | hostCall _ hq =>
    have hc : Live ns { m with r := { m.r with hostCall := true } } :=
      hl.congr ⟨rfl,rfl,rfl,rfl,rfl,rfl,rfl,fun _ => rfl⟩ rfl
    exact hc.quiet hq
  | simd hec hn hs hm hm' =>
    rcases hl with hl | hl
    · rw [hm']
      have ha : (m.check (m.r.activeSimdCtx != some .rel1)).r.activeSimdCtx = some .nwd := hl.active
      simp only [ha]
      exact .inr (hl.take (trapsSimd_false hn) rfl)
    · exact (hl.no_trap ht hs hm hec).elim
  | fpu _ h₁ h₂ _ => exact hl.fpu h₁ h₂

theorem SameSimd.setLastRunInfo (b : Bool) (i : LastRunInfo) (m : Machine V) : SameSimd m.r (m.setLastRunInfo b i).r := by
  cases b <;> exact ⟨rfl,rfl,rfl,rfl,rfl,rfl,rfl,fun _ => rfl⟩

theorem Live.serror (hl : Live ns m) : Live ns m.handleExceptionSerrorLel.1 := by
  unfold Machine.handleExceptionSerrorLel
  dsimp only
  repeat' split
  all_goals exact hl.congr ⟨rfl,rfl,rfl,rfl,rfl,rfl,rfl,fun _ => rfl⟩ rfl

theorem Live.setExit (hl : Live ns m) (x : RecExit) : Live ns { m with exit := x } :=
  hl.congr (.refl _) rfl

theorem Live.setLastRunInfo (hl : Live ns m) (b : Bool) (i : LastRunInfo) : Live ns (m.setLastRunInfo b i) :=
  hl.congr (SameSimd.setLastRunInfo b i m) rfl

theorem Live.handleRealmExit {exc : RealmException} (hl : Live ns m)
    (ht : exc = .sync → simdTrapTaken m.r.activeSysregs.cptrEl2 m.live.esrEl2 = true)
    (hg : exc = .sync → hasEc .smc m.live.esrEl2 = true → m.r.activePlaneId = 0 →
      functionId (m.r.activePlane.regs 0) = smcRsiPlaneEnter →
      Machine.planeFlag 4 env.planeEnter = true → m.r.activeSimdCtx ≠ some .rel1) :
    Live ns (m.handleRealmExit f env exc).1 := by
  unfold Machine.handleRealmExit
  cases exc with
  | sync =>
    dsimp only
    have h := (hl.setExit { m.exit with exitReason := .sync }).syncOutcome
      (SyncOutcome.of_handleExceptionSync f env _) (ht rfl) (hg rfl)
    split
    · exact h.setLastRunInfo _ _
    · exact h
  | irq | fiq => exact hl.setExit _
  | serror =>
    dsimp only
    have h := (hl.setExit { m.exit with exitReason := .serror }).serror
    split
    · exact h.setLastRunInfo _ _
    · exact h
  | other => exact hl

theorem Live.gic (hl : Live ns m) (h : m.r.gicOwner ≠ m.r.activePlaneId) : m.r.activePlaneId ≠ 0 := fun h0 => by
  rcases hl with hl | hl
  · exact h ((hl.detached.gic h0).trans h0.symm)
  · exact h ((hl.attached.gic h0).trans h0.symm)

theorem Live.body {inp : LoopInput V} (hl : Live ns m) (ht : inp.simdTrapsTaken m.r = true)
    (hg : inp.entersTrappingPlane m.r = true → m.r.activeSimdCtx ≠ some .rel1) : Live ns (m.recRunLoopBody f inp).1 := by
  unfold Machine.recRunLoopBody
  split
  · by_cases hne : m.r.gicOwner = m.r.activePlaneId
    · simp only [hne,ne_eq,not_true_eq_false,if_false]
      exact hl.setExit _
    · simp only [hne,ne_eq,not_false_eq_true,if_true]
      exact (hl.handlePlaneNExit (hl.gic hne) rfl).setExit _
  next htp =>
    have hs := SameSimd.runRealm inp.run m
    apply (hl.runRealm inp.run).handleRealmExit
    · intro he
      rw [hs.activeCptr]
      change simdTrapTaken m.r.activeSysregs.cptrEl2 inp.run.live.esrEl2 = true
      simpa [LoopInput.simdTrapsTaken,he] using ht
    · intro he hec h0 hf h4
      rw [hs.activeSimdCtx]
      apply hg
      rw [hs.activePlaneId] at h0
      have hregs : (m.activateEvents.runRealm inp.run).r.activePlane.regs = inp.run.regs := by
        simp [Machine.runRealm,Machine.setPlane]
      rw [hregs] at hf
      simp only [LoopInput.entersTrappingPlane,htp,he,Rec.isPlane0Active,h0,hf,h4]
      change hasEc .smc inp.run.live.esrEl2 = true at hec
      simpa using hec

end Body

section EnterLeave

variable {f : Features} {env : EnterEnv} {e : RecEnter} {ns : V} {m m' : Machine V} {res : EnterResult}

theorem Live.recRunLoopExit (hl : Live ns m) : IdleRec m.recRunLoopExit.r ∧ IdleCpu ns m.recRunLoopExit.cpu := by
  rcases hl with hl | hl
  · have hne : ¬ m.r.activeSimdCtx = some .rel1 := by rw [hl.active]; simp
    have hq := Quiet.saveRealmState { m with r := { m.r with activeSimdCtx := none } }
    unfold Machine.recRunLoopExit
    simp only [hne,if_false]
    refine ⟨hq.sameSimd.idleRec ⟨rfl,hl.initDone,hl.saved,⟨hl.detached.gic,hl.detached.active,hl.detached.plane0⟩⟩,?_⟩
    rw [hq.cpu]
    exact hl.cpu
  · have hsw := simdContextSwitch_split (m := m) .rel1 .nwd
    have hs := hl.suspend
    obtain ⟨hc,hr⟩ := hs.resumeNwd
    rw [← hsw] at hc hr
    have ht := switch_attached (a := some .rel1) (b := none) hl.attached
    rw [← hr] at ht
    unfold Machine.recRunLoopExit
    simp only [hl.active,if_true]
    refine ⟨(Quiet.saveRealmState _).sameSimd.idleRec ⟨rfl,?_,?_,⟨ht.gic,?_,?_⟩⟩,?_⟩
    · change (m.simdContextSwitch (some .rel1) (some .nwd)).r.simdCtx.initDone = true
      rw [hr]; exact hs.initDone
    · change (m.simdContextSwitch (some .rel1) (some .nwd)).r.simdCtx.saved = true
      rw [hr]; exact hs.saved
    · simp only [Rec.activeSysregs,Rec.setSysregs,Function.update_self]
      exact SimdOff.disable _
    · intro h
      have ht' : (m.simdContextSwitch (some .rel1) (some .nwd)).r.trapsSimd = true := h
      rw [ht.noTrap] at ht'
      cases ht'
    · rw [(Quiet.saveRealmState _).cpu]
      exact hc

theorem SameSimd.resetLastRunInfo (r : Rec V) : SameSimd r (resetLastRunInfo r) := by
  unfold TfRmm.Exec.resetLastRunInfo Rec.setActivePlane Rec.activePlane
  split <;> exact ⟨rfl,rfl,rfl,rfl,rfl,rfl,rfl,fun _ => rfl⟩

theorem IdleRec.startRun (hi : IdleRec m.r) (hc : IdleCpu ns m.cpu) :
    NwdLive ns { m.startRun e with r := { (m.startRun e).r with refcount := 1 } } := by
  have h1 := (Quiet.completeSysregEmulation e m).sameSimd
  have h2 := SameSimd.resetLastRunInfo (completeSysregEmulation e m.r)
  have h3 := (Quiet.restoreEntryTraps e { m with r := resetLastRunInfo (completeSysregEmulation e m.r) }).sameSimd
  have hs := ((h1.trans h2).trans h3).idleRec hi
  refine ⟨by simp,rfl,hs.initDone,hs.saved,⟨hs.detached.gic,hs.detached.active,hs.detached.plane0⟩,?_⟩
  have ha : ((restoreEntryTraps e (TfRmm.Exec.resetLastRunInfo (completeSysregEmulation e m.r))).activeSimdCtx ==
      none) = true := by rw [hs.active]; rfl
  refine ⟨hc.initDone,hc.saved,hc.simdSaved,hc.liveCtx,hc.vregs,?_⟩
  simp only [Machine.startRun,Machine.recRunLoopEnter,Machine.restoreRealmState,Machine.check,ha]
  simpa using hc.asserted

theorem IdleRec.enter (hi : IdleRec m.r) (hc : IdleCpu ns m.cpu) (h : m.smcRecEnter f env e = (m',res)) :
    (res = .running → NwdLive ns m') ∧ (res ≠ .running → IdleRec m'.r ∧ m'.cpu = m.cpu) := by
  have hclear : SameSimd m.r { m.r with hostCall := false } := ⟨rfl,rfl,rfl,rfl,rfl,rfl,rfl,fun _ => rfl⟩
  constructor
  · rintro rfl
    rcases smcRecEnter_running h with ⟨m₁,hp,rfl⟩ | hp
    · cases Prepared.of_prepareEntry hp with
      | stays _ _ hq =>
        apply IdleRec.startRun ((hclear.trans hq.sameSimd).idleRec hi)
        rw [hq.cpu]; exact hc
      | @leaves m₂ _ ret hl _ h₁ hq =>
        have h2 : IdleRec m₂.r := (hclear.trans h₁.sameSimd).idleRec hi
        have hp2 : m₂.r.activePlaneId ≠ 0 := by rw [h₁.activePlaneId]; exact leavesPlaneN_active hl
        apply IdleRec.startRun (hq.sameSimd.idleRec (h2.returnToPlane0 ret false hp2))
        rw [hq.cpu,(returnToPlane0_frame ret false).2.2,h₁.cpu]
        exact hc
    · cases Prepared.of_prepareEntry hp
  · intro hn
    cases Prepared.of_prepareEntry (smcRecEnter_some hn h) with
    | refused hr hcpu _ => exact ⟨hr ▸ hi,hcpu⟩
    | planeLost _ _ _ hq _ => exact ⟨(hclear.trans hq.sameSimd).idleRec hi,hq.cpu⟩
    | exited _ hq _ => exact ⟨hq.sameSimd.idleRec hi,hq.cpu⟩

theorem smcRecEnter_held (hh : m.r.refcount ≠ 0)
    (h : m.smcRecEnter f env e = (m',res)) : res = .error ∧ m'.r = m.r ∧ m'.cpu = m.cpu := by
  have ha : m.beginEntry.afterSea f env e = none := by
    unfold Machine.afterSea Machine.entryAllowed Machine.beginEntry
    simp [hh]
  have hp : m.beginEntry.prepareEntry f env e = (m.beginEntry,some .error) := by
    unfold Machine.prepareEntry
    rw [ha]
  unfold Machine.smcRecEnter at h
  split at h <;> rename_i hq <;> cases hp.symm.trans hq
  obtain ⟨rfl,rfl⟩ := h
  exact ⟨rfl,rfl,rfl⟩

end EnterLeave

open Function

structure World (V : Type) where
  recs : Nat → Rec V
  cpus : Nat → Cpu V
  live : Nat → LiveRegs
  exits : Nat → RecExit
  running : Nat → Option Nat
  normal : Nat → V

inductive WorldLabel (V : Type) where
  | host (cpu : Nat) (vregs : V)
  | enter (cpu : Nat) (i : Nat) (env : EnterEnv) (e : RecEnter)
  | iterate (cpu : Nat) (inp : LoopInput V)

namespace World

def machine (w : World V) (c i : Nat) : Machine V := ⟨w.recs i,w.cpus c,w.live c,w.exits c,false⟩

def put (w : World V) (c i : Nat) (m : Machine V) (run : Option Nat) : World V :=
  { w with
    recs := update w.recs i m.r
    cpus := update w.cpus c m.cpu
    live := update w.live c m.live
    exits := update w.exits c m.exit
    running := update w.running c run }

def hostRuns (w : World V) (c : Nat) (v : V) : World V :=
  { w with
    cpus := update w.cpus c { w.cpus c with vregs := v }
    normal := update w.normal c v }

inductive Step (f : Features) : World V → WorldLabel V → World V → Prop
  | host {w : World V} {c : Nat} {v : V} (hr : w.running c = none) : Step f w (.host c v) (w.hostRuns c v)
  | refused {w : World V} {c i : Nat} {env : EnterEnv} {e : RecEnter} {m' : Machine V} {res : EnterResult}
      (hr : w.running c = none) (h : (w.machine c i).smcRecEnter f env e = (m',res))
      (hn : res ≠ .running) : Step f w (.enter c i env e) (w.put c i m' none)
  | entered {w : World V} {c i : Nat} {env : EnterEnv} {e : RecEnter} {m' : Machine V}
      (hr : w.running c = none) (h : (w.machine c i).smcRecEnter f env e = (m',.running)) :
      Step f w (.enter c i env e) (w.put c i m' (some i))
  | resumed {w : World V} {c i : Nat} {inp : LoopInput V} {m' : Machine V} (hr : w.running c = some i)
      (ht : inp.simdTrapsTaken (w.recs i) = true)
      (h : (w.machine c i).recRunLoopStep f inp = (m',.resume)) :
      Step f w (.iterate c inp) (w.put c i m' (some i))
  | left {w : World V} {c i : Nat} {inp : LoopInput V} {m' : Machine V} (hr : w.running c = some i)
      (ht : inp.simdTrapsTaken (w.recs i) = true)
      (h : (w.machine c i).recRunLoopStep f inp = (m',.toHost)) :
      Step f w (.iterate c inp) (w.put c i m' none)

structure CreatedRec (r : Rec V) : Prop where
  active : r.activeSimdCtx = none
  initDone : r.simdCtx.initDone = true
  saved : r.simdCtx.saved = true
  activePlaneId : r.activePlaneId = 0
  gicOwner : r.gicOwner = 0
  cptr : ∀ p, (r.sysregs p).cptrEl2 = cptrVheInit

structure Created (w : World V) : Prop where
  recs : ∀ i, CreatedRec (w.recs i)
  cpus : ∀ c, IdleCpu (w.normal c) (w.cpus c)
  running : ∀ c, w.running c = none

end World

def world (V : Type) (f : Features) : TransitionSystem (World V) (WorldLabel V) :=
  ⟨World.Created,World.Step f⟩

namespace World

structure SimdAgrees (w : World V) : Prop where
  access : ∀ c i, w.running c = some i →
    (cptrFpEnabled (w.recs i).activeSysregs.cptrEl2 || cptrSveEnabled (w.recs i).activeSysregs.cptrEl2) = true →
    (w.recs i).activeSimdCtx = some .rel1 ∧ (w.cpus c).liveCtx = some .rel1
  normal : ∀ c i, w.running c = some i →
    ((w.cpus c).liveCtx = some .nwd ∧ (w.cpus c).vregs = w.normal c ∧ (w.machine c i).simdAccessible = false) ∨
    ((w.cpus c).liveCtx = some .rel1 ∧ (w.cpus c).nsSimdCtx.saved = true ∧
      (w.cpus c).nsSimdCtx.vregs = w.normal c)
  host : ∀ c, w.running c = none → (w.cpus c).liveCtx = some .nwd ∧ (w.cpus c).vregs = w.normal c
  assertions : ∀ c, (w.cpus c).asserted = false

def TrapsOnlyDetached (w : World V) : WorldLabel V → Prop
  | .iterate c inp => ∀ i, w.running c = some i → inp.entersTrappingPlane (w.recs i) = true →
      (w.recs i).activeSimdCtx ≠ some .rel1
  | _ => True

structure Invariant (w : World V) : Prop where
  idleCpu : ∀ c, w.running c = none → IdleCpu (w.normal c) (w.cpus c)
  idleRec : ∀ i, (∀ c, w.running c ≠ some i) → IdleRec (w.recs i)
  live : ∀ c i, w.running c = some i → Live (w.normal c) (w.machine c i)
  unique : ∀ c d i, w.running c = some i → w.running d = some i → c = d

theorem Created.invariant {w : World V} (h : w.Created) : w.Invariant := by
  refine ⟨fun c _ => h.cpus c,fun i _ => ?_,fun c i hr => ?_,fun c d i hr => ?_⟩
  · have hr := h.recs i
    refine ⟨hr.active,hr.initDone,hr.saved,⟨fun _ => hr.gicOwner,?_,?_⟩⟩
    · rw [Rec.activeSysregs,hr.cptr]
      exact ⟨by decide,by decide⟩
    · rw [hr.cptr]
      exact fun _ => ⟨by decide,by decide⟩
  · rw [h.running c] at hr; cases hr
  · rw [h.running c] at hr; cases hr

section Put

variable {w : World V} {c i : Nat} {m' : Machine V} {run : Option Nat} {d : Nat}

@[simp] theorem put_running_self : (w.put c i m' run).running c = run := by simp [put]

theorem put_running_of_ne (h : d ≠ c) : (w.put c i m' run).running d = w.running d := by
  simp [put,h]

theorem put_cpus_of_ne (h : d ≠ c) : (w.put c i m' run).cpus d = w.cpus d := by
  simp [put,h]

theorem put_recs_of_ne {j : Nat} (h : j ≠ i) : (w.put c i m' run).recs j = w.recs j := by
  simp [put,h]

open World (machine)

theorem Invariant.put (hi : w.Invariant) (hc : ∀ j, w.running c = some j → j = i) (hown : ∀ d, w.running d = some i → d = c)
    (hrun : ∀ j, run = some j → j = i) (hidle : run = none → IdleRec m'.r ∧ IdleCpu (w.normal c) m'.cpu)
    (hlive : run = some i → Live (w.normal c) m') : (w.put c i m' run).Invariant := by
  refine ⟨fun d hd => ?_,fun j hj => ?_,fun d j hd => ?_,fun d d' j hd hd' => ?_⟩
  · by_cases hdc : d = c
    · subst hdc
      rw [put_running_self] at hd
      simpa [World.put] using (hidle hd).2
    · rw [put_running_of_ne hdc] at hd
      rw [put_cpus_of_ne hdc]
      exact hi.idleCpu d hd
  · by_cases hji : j = i
    · subst hji
      have hn : run = none := by
        cases hr : run with
        | none => rfl
        | some k =>
          have := hj c
          rw [put_running_self,hr,hrun k hr] at this
          exact absurd rfl this
      simpa [World.put] using (hidle hn).1
    · rw [put_recs_of_ne hji]
      refine hi.idleRec j fun d hd => ?_
      by_cases hdc : d = c
      · subst hdc; exact hji (hc j hd)
      · exact hj d (by rw [put_running_of_ne hdc]; exact hd)
  · by_cases hdc : d = c
    · subst hdc
      rw [put_running_self] at hd
      obtain rfl := hrun j hd
      exact (hlive hd).congr (by simpa [machine,World.put] using SameSimd.refl _)
        (by simp [machine,World.put])
    · rw [put_running_of_ne hdc] at hd
      have hji : j ≠ i := by
        rintro rfl
        exact hdc (hown d hd)
      exact (hi.live d j hd).congr (by simpa [machine,put_recs_of_ne hji] using SameSimd.refl _)
        (by simp [machine,put_cpus_of_ne hdc])
  · have key : ∀ k, (w.put c i m' run).running k = some j → k = c ∧ j = i ∨ k ≠ c ∧ w.running k = some j := by
      intro k hk
      by_cases hkc : k = c
      · subst hkc
        rw [put_running_self] at hk
        exact .inl ⟨rfl,hrun j hk⟩
      · rw [put_running_of_ne hkc] at hk
        exact .inr ⟨hkc,hk⟩
    rcases key d hd with ⟨rfl,rfl⟩ | ⟨h1,h2⟩ <;> rcases key d' hd' with ⟨rfl,h3⟩ | ⟨h3,h4⟩
    · rfl
    · exact (hown d' h4).symm
    · rw [h3] at h2; exact hown d h2
    · exact hi.unique d d' j h2 h4

theorem Invariant.put_same (hi : w.Invariant) (hr : w.running c = none) (hm : m'.r = w.recs i)
    (hcpu : m'.cpu = w.cpus c) : (w.put c i m' none).Invariant := by
  have hrecs : (w.put c i m' none).recs = w.recs := by simp [World.put,hm]
  have hcpus : (w.put c i m' none).cpus = w.cpus := by simp [World.put,hcpu]
  have hrun : (w.put c i m' none).running = w.running := by simp [World.put,← hr]
  refine ⟨?_,?_,?_,?_⟩
  · rw [hrun,hcpus]; exact hi.idleCpu
  · rw [hrun,hrecs]; exact hi.idleRec
  · rw [hrun]
    intro d j hd
    exact (hi.live d j hd).congr (by simpa [machine,hrecs] using SameSimd.refl _)
      (by simp [machine,hcpus])
  · rw [hrun]; exact hi.unique

theorem Invariant.hostRuns (hi : w.Invariant) (hr : w.running c = none) (v : V) : (w.hostRuns c v).Invariant := by
  refine ⟨fun d hd => ?_,hi.idleRec,fun d j hd => ?_,hi.unique⟩
  · by_cases hdc : d = c
    · subst hdc
      have h := hi.idleCpu d hr
      simp only [World.hostRuns,update_self]
      exact ⟨h.initDone,h.saved,h.simdSaved,h.liveCtx,rfl,h.asserted⟩
    · simp only [World.hostRuns,update_of_ne hdc]
      exact hi.idleCpu d hd
  · have hdc : d ≠ c := by
      rintro rfl
      rw [show w.running d = some j from hd] at hr
      cases hr
    simp only [World.hostRuns,update_of_ne hdc]
    exact (hi.live d j hd).congr (.refl _) (by simp [machine,update_of_ne hdc])

end Put

variable {f : Features}

theorem Invariant.enter {w : World V} {c i : Nat} {env : EnterEnv} {e : RecEnter} {m' : Machine V} {res : EnterResult}
    (hi : w.Invariant) (hr : w.running c = none) (h : (w.machine c i).smcRecEnter f env e = (m',res)) :
    (w.put c i m' (if res = .running then some i else none)).Invariant := by
  by_cases hel : ∃ d, w.running d = some i
  · obtain ⟨d,hd⟩ := hel
    have hh : (w.recs i).refcount ≠ 0 := by
      rcases hi.live d i hd with hl | hl <;> exact hl.held
    obtain ⟨rfl,hm,hc⟩ := smcRecEnter_held hh h
    exact hi.put_same hr hm hc
  · have hne : ∀ d, w.running d ≠ some i := fun d hd => hel ⟨d,hd⟩
    obtain ⟨h1,h2⟩ := IdleRec.enter (hi.idleRec i hne) (hi.idleCpu c hr) h
    refine hi.put (fun j hj => ?_) (fun d hd => absurd hd (hne d)) (fun j hj => ?_) (fun hn => ?_) (fun hs => ?_)
    · rw [hr] at hj; cases hj
    · split at hj
      · exact (Option.some.inj hj).symm
      · cases hj
    · split at hn
      · cases hn
      next hnr =>
        obtain ⟨hrec,hcpu⟩ := h2 hnr
        exact ⟨hrec,hcpu ▸ hi.idleCpu c hr⟩
    · split at hs
      next hrr => exact .inl (h1 hrr)
      · cases hs

theorem Invariant.step {w w' : World V} {l : WorldLabel V} (hi : w.Invariant)
    (hg : w.TrapsOnlyDetached l) (h : World.Step f w l w') : w'.Invariant := by
  cases h with
  | host hr => exact hi.hostRuns hr _
  | refused hr h hn =>
    have := hi.enter hr h
    rwa [if_neg hn] at this
  | entered hr h => exact hi.enter hr h
  | @resumed c i inp m' hr ht h =>
    have hl := (hi.live c i hr).body (f := f) ht (hg i hr)
    rw [recRunLoopStep_resume h] at hl
    refine hi.put (fun j hj => ?_) (fun d hd => hi.unique d c i hd hr) (fun j hj => (Option.some.inj hj).symm)
      nofun (fun _ => hl)
    rw [hr] at hj
    exact (Option.some.inj hj).symm
  | @left c i inp m' hr ht h =>
    have hl := (hi.live c i hr).body (f := f) ht (hg i hr)
    obtain ⟨m₁,hb,rfl⟩ := recRunLoopStep_left h
    rw [hb] at hl
    obtain ⟨hrec,hcpu⟩ := hl.recRunLoopExit
    refine hi.put (fun j hj => ?_) (fun d hd => hi.unique d c i hd hr) (fun j hj => (by cases hj))
      (fun _ => ⟨⟨hrec.active,hrec.initDone,hrec.saved,
        ⟨hrec.detached.gic,hrec.detached.active,hrec.detached.plane0⟩⟩,hcpu⟩) nofun
    rw [hr] at hj
    exact (Option.some.inj hj).symm

theorem Invariant.simdAgrees {w : World V} (hi : w.Invariant) : w.SimdAgrees := by
  refine ⟨fun c i hr ha => ?_,fun c i hr => ?_,fun c hr => ?_,fun c => ?_⟩
  · rcases hi.live c i hr with hl | hl
    · rw [show cptrFpEnabled (w.recs i).activeSysregs.cptrEl2 = false from hl.detached.active.1,
        show cptrSveEnabled (w.recs i).activeSysregs.cptrEl2 = false from hl.detached.active.2] at ha
      cases ha
    · exact ⟨hl.active,hl.liveCtx⟩
  · rcases hi.live c i hr with hl | hl
    · refine .inl ⟨hl.cpu.liveCtx,hl.cpu.vregs,?_⟩
      simp only [Machine.simdAccessible,hl.detached.active.1,hl.detached.active.2]
      rfl
    · exact .inr ⟨hl.liveCtx,hl.nsSaved,hl.nsVregs⟩
  · exact ⟨(hi.idleCpu c hr).liveCtx,(hi.idleCpu c hr).vregs⟩
  · cases hr : w.running c with
    | none => exact (hi.idleCpu c hr).asserted
    | some i =>
      rcases hi.live c i hr with hl | hl
      · exact hl.cpu.asserted
      · exact hl.asserted

end World

theorem simd_registers_agree_with_traps {f : Features} {w : World V}
    (h : (world V f).ReachableUnder World.TrapsOnlyDetached w) : w.SimdAgrees :=
  World.Invariant.simdAgrees
    (h.invariant (fun _ hc => World.Created.invariant hc) (fun _ _ _ hi hg hs => hi.step hg hs))

namespace TrappingPlane

open Sample

def fresh : World Nat where
  recs := fun _ => freshRec 1 1
  cpus := fun _ => ⟨2,false,some .nwd,⟨true,false,0⟩,false⟩
  live := fun _ => freshLive
  exits := fun _ => RecExit.zero
  running := fun _ => none
  normal := fun _ => 2

def fpTrap : LoopInput Nat := loopInput .sync (fun _ => 0) Ec.fpu.word 0 0 3

def planeEnterTrapSimd : LoopInput Nat := loopInput .sync planeEnterRegs Ec.smc.word 0 (bit 4) 3

def interrupt : LoopInput Nat := loopInput .irq (fun _ => 0) 0 0 0 3

def hypervisorCall : LoopInput Nat := loopInput .sync (fun _ => 0) Ec.hvc.word 0 0 3

def entered (w : World Nat) : World Nat :=
  w.put 0 0 ((w.machine 0 0).smcRecEnter features enterEnv (recEnter 0)).1 (some 0)

def resumed (inp : LoopInput Nat) (w : World Nat) : World Nat :=
  w.put 0 0 ((w.machine 0 0).recRunLoopStep features inp).1 (some 0)

def left (inp : LoopInput Nat) (w : World Nat) : World Nat :=
  w.put 0 0 ((w.machine 0 0).recRunLoopStep features inp).1 none

def fpInUse : World Nat := resumed fpTrap (entered fresh)

def hostEntered : World Nat := left interrupt (resumed planeEnterTrapSimd fpInUse)

def plane0Resumed : World Nat := resumed hypervisorCall (entered hostEntered)

theorem fresh_created : fresh.Created :=
  ⟨fun _ => ⟨rfl,rfl,rfl,rfl,rfl,fun _ => rfl⟩,fun _ => ⟨rfl,rfl,rfl,rfl,rfl,rfl⟩,fun _ => rfl⟩

variable {w : World Nat} {inp : LoopInput Nat}

theorem step_entered (hr : w.running 0 = none)
    (h : ((w.machine 0 0).smcRecEnter features enterEnv (recEnter 0)).2 = .running) :
    World.Step features w (.enter 0 0 enterEnv (recEnter 0)) (entered w) :=
  .entered hr (Prod.ext rfl h)

theorem step_resumed (hr : w.running 0 = some 0) (ht : inp.simdTrapsTaken (w.recs 0) = true)
    (h : ((w.machine 0 0).recRunLoopStep features inp).2 = .resume) : World.Step features w (.iterate 0 inp) (resumed inp w)
    :=
  .resumed hr ht (Prod.ext rfl h)

theorem step_left (hr : w.running 0 = some 0) (ht : inp.simdTrapsTaken (w.recs 0) = true)
    (h : ((w.machine 0 0).recRunLoopStep features inp).2 = .toHost) : World.Step features w (.iterate 0 inp) (left inp w) :=
  .left hr ht (Prod.ext rfl h)

theorem fpInUse_reachable {guard : World Nat → WorldLabel Nat → Prop} (h₁ : guard fresh (.enter 0 0 enterEnv (recEnter 0)))
    (h₂ : guard (entered fresh) (.iterate 0 fpTrap)) : (world Nat features).ReachableUnder guard fpInUse :=
  ((TransitionSystem.ReachableUnder.initial fresh_created).next h₁ (step_entered rfl (by decide))).next h₂
    (step_resumed rfl (by decide) (by decide))

theorem plane0Resumed_reachable : (world Nat features).Reachable plane0Resumed :=
  ((((fpInUse_reachable trivial trivial).next trivial (step_resumed rfl (by decide +kernel) (by decide +kernel))).next trivial
    (step_left rfl (by decide +kernel) (by decide +kernel))).next trivial (step_entered rfl (by decide +kernel))).next trivial
    (step_resumed rfl (by decide +kernel) (by decide +kernel))

end TrappingPlane

open TrappingPlane in
theorem normal_world_simd_accessible : ∃ w : World Nat, (world Nat Sample.features).Reachable w ∧ ¬ w.SimdAgrees := by
  refine ⟨plane0Resumed,plane0Resumed_reachable,fun h => ?_⟩
  have ha := (h.access 0 0 rfl (by decide +kernel)).1
  revert ha
  decide +kernel

open TrappingPlane in
theorem simd_registers_agree_with_traps_fp :
    cptrFpEnabled (fpInUse.recs 0).activeSysregs.cptrEl2 = true ∧ fpInUse.SimdAgrees := by
  refine ⟨by decide +kernel,simd_registers_agree_with_traps (fpInUse_reachable trivial ?_)⟩
  intro i hr
  obtain rfl := Option.some.inj (show some 0 = some i from hr)
  decide +kernel

end TfRmm.Exec
