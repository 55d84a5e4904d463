import TfRmm.Exec.Completion

namespace TfRmm.Exec

open TfRmm.Arch
open TfRmm.Lib

variable {V : Type}

structure Requests.Idle (q : Requests) : Prop where
  ripas : q.setRipas.base = q.setRipas.top
  devMem : q.devMem.base = 0
  s2ap : q.setS2ap.base = 0 ∧ q.setS2ap.top = 0

structure RunPage (r : Rec V) : Prop where
  aligned : r.activePlaneId ≠ 0 → granuleAligned (r.plane0.regs 2) = true
  inPar : r.activePlaneId ≠ 0 → r.addrInPar (r.plane0.regs 2) = true
  idle : r.activePlaneId ≠ 0 → r.requests.Idle

structure PageFrame (r r' : Rec V) : Prop where
  active : r'.activePlaneId = r.activePlaneId
  realmInfo : r'.realmInfo = r.realmInfo
  requests : r'.requests = r.requests
  regs : r.activePlaneId ≠ 0 → r'.plane0.regs = r.plane0.regs

structure Lands (c : Cont) (r : Rec V) : Prop where
  page : RunPage r
  idle : c ≠ .toHost → r.requests.Idle

namespace PageFrame

variable {r r' r₁ r₂ : Rec V}

theorem refl (r : Rec V) : PageFrame r r := ⟨rfl,rfl,rfl,fun _ => rfl⟩

theorem trans (h : PageFrame r r₁) (k : PageFrame r₁ r₂) : PageFrame r r₂ where
  active := k.active.trans h.active
  realmInfo := k.realmInfo.trans h.realmInfo
  requests := k.requests.trans h.requests
  regs hn := (k.regs (by rw [h.active]; exact hn)).trans (h.regs hn)

theorem of_regs (ha : r'.activePlaneId = r.activePlaneId) (hi : r'.realmInfo = r.realmInfo)
    (hq : r'.requests = r.requests) (h : r'.plane0.regs = r.plane0.regs) : PageFrame r r' :=
  ⟨ha,hi,hq,fun _ => h⟩

theorem setActivePlane (r : Rec V) (p : RecPlane) : PageFrame r (r.setActivePlane p) := by
  unfold Rec.setActivePlane
  split
  · next h => exact ⟨rfl,rfl,rfl,fun hn => absurd (by simpa [Rec.isPlane0Active] using h) hn⟩
  · exact of_regs rfl rfl rfl rfl

theorem simdContextSwitch (a b : Option SimdOwner) (m : Machine V) :
    PageFrame m.r (m.simdContextSwitch a b).r := by
  obtain ⟨ctx,hr⟩ := Machine.simdContextSwitch_rec a b m
  rw [hr]
  exact of_regs rfl rfl rfl rfl

theorem saveRealmState (m : Machine V) : PageFrame m.r m.saveRealmState.r :=
  (setActivePlane m.r _).trans (of_regs rfl rfl rfl rfl)

theorem switched (b : Bool) (s t : Option SimdOwner) (m : Machine V) :
    PageFrame m.r (if b then m.simdContextSwitch s t else m).r := by
  cases b with
  | true => exact simdContextSwitch s t m
  | false => exact refl m.r

theorem setLastRunInfo (b : Bool) (i : LastRunInfo) (m : Machine V) : PageFrame m.r (m.setLastRunInfo b i).r := by
  cases b <;> exact of_regs rfl rfl rfl rfl

theorem runRealm (run : RealmRun V) (m : Machine V) : PageFrame m.r (m.activateEvents.runRealm run).r := by
  have hev : PageFrame m.r m.activateEvents.r := by
    unfold Machine.activateEvents
    split <;> exact of_regs rfl rfl rfl rfl
  exact hev.trans (setActivePlane m.activateEvents.r _)

theorem page (h : PageFrame r r') (hp : RunPage r) : RunPage r' where
  aligned hn := by
    rw [h.active] at hn
    rw [h.regs hn]
    exact hp.aligned hn
  inPar hn := by
    rw [h.active] at hn
    rw [h.regs hn]
    have hpar := hp.inPar hn
    unfold Rec.addrInPar Rec.parSize Rec.ipaSize at hpar ⊢
    rw [h.realmInfo]
    exact hpar
  idle hn := by
    rw [h.active] at hn
    rw [h.requests]
    exact hp.idle hn

theorem lands {c : Cont} (h : PageFrame r r') (hl : Lands c r) : Lands c r' :=
  ⟨h.page hl.page,fun hc => by rw [h.requests]; exact hl.idle hc⟩

end PageFrame

theorem RunPage.plane0 {r : Rec V} (h : r.activePlaneId = 0) : RunPage r :=
  ⟨fun hn => absurd h hn,fun hn => absurd h hn,fun hn => absurd h hn⟩

theorem Lands.mono {c : Cont} {r : Rec V} (h : Lands .resume r) : Lands c r :=
  ⟨h.page,fun _ => h.idle (by decide)⟩

section Handlers

variable {f : Features} {env : ExitEnv} {m : Machine V} {c : Cont} {esr : Word}

theorem activatePlaneN_kept (m : Machine V) {idx : Nat} (entry : PlaneEnter) (hi : idx ≠ 0) :
    (m.activatePlaneN idx entry).r.requests = m.r.requests ∧
      (m.activatePlaneN idx entry).r.realmInfo = m.r.realmInfo := by
  simp [Machine.activatePlaneN,Machine.copyStateFromPlaneEntry,Rec.setSysregs,Rec.setActivePlane,Rec.isPlane0Active,hi]

theorem planeNExit_requests (s2 : Word → S2Walk) (b : Bool) :
    (m.handlePlaneNExit s2 b).1.r.requests = m.r.requests := by
  unfold Machine.handlePlaneNExit
  dsimp only
  split
  · cases b with
    | true => exact (PageFrame.saveRealmState m).requests
    | false => rfl
  · split
    · cases b <;> rfl
    · rfl
  · rfl

theorem RunPage.planeNExit {s2 : Word → S2Walk} {b : Bool} (h : RunPage m.r) :
    RunPage (m.handlePlaneNExit s2 b).1.r := by
  rcases hn : m.handlePlaneNExit s2 b with ⟨m',_ | _⟩
  · rw [(handlePlaneNExit_false hn).1]
    exact h
  · obtain ⟨m₁,ret,-,-,rfl⟩ := handlePlaneNExit_true hn
    exact .plane0 (by cases b <;> rfl)

theorem Lands.planeNExit {s2 : Word → S2Walk} {b : Bool} (h : Lands .resume m.r) :
    Lands c (m.handlePlaneNExit s2 b).1.r :=
  ⟨h.page.planeNExit,fun _ => by rw [planeNExit_requests]; exact h.idle (by decide)⟩

variable (h : Lands .resume m.r)

include h

theorem Lands.wfx : Lands (m.handleWfxException env esr).2 (m.handleWfxException env esr).1.r := by
  unfold Machine.handleWfxException
  split
  · exact h.mono
  · dsimp only
    split <;> exact Lands.planeNExit (m := { m with live := advancePc m.live }) h

theorem Lands.hvc : Lands (m.handleHvcException f env).2 (m.handleHvcException f env).1.r := by
  unfold Machine.handleHvcException
  split
  · exact h.mono
  · dsimp only
    split <;> exact Lands.planeNExit h

theorem Lands.sysreg : Lands (m.handleSysregAccessTrap f env esr).2 (m.handleSysregAccessTrap f env esr).1.r := by
  unfold Machine.handleSysregAccessTrap
  dsimp only
  split
  · split
    · exact h.mono
    · exact (PageFrame.setActivePlane m.r _).lands h
  · exact h.mono
  · exact h.mono
  · split
    · exact (PageFrame.setActivePlane m.r _).lands h
    · exact h.mono

theorem Lands.external {out : Machine V × Cont} (ho : m.handleSyncExternalAbort f esr = some out) :
    Lands out.2 out.1.r := by
  unfold Machine.handleSyncExternalAbort at ho
  split at ho
  · cases ho
  · split at ho <;> cases ho <;> exact h.mono

theorem Lands.dataAbort : Lands (m.handleDataAbort f env esr).2 (m.handleDataAbort f env esr).1.r := by
  unfold Machine.handleDataAbort
  split
  · next out ho => exact h.external ho
  · split
    · exact h.mono
    · dsimp only
      split
      · exact h.mono
      split
      · exact Lands.planeNExit (m := Machine.assertThat _ _) h
      split <;> exact h.mono

theorem Lands.instructionAbort :
    Lands (m.handleInstructionAbort f env esr).2 (m.handleInstructionAbort f env esr).1.r := by
  unfold Machine.handleInstructionAbort
  split
  · next out ho => exact h.external ho
  · split
    · exact h.mono
    · dsimp only
      split
      · split
        · exact h.mono
        · exact Lands.planeNExit (m := Machine.assertThat _ _) h
      · exact h.mono

theorem Lands.simd : Lands (m.handleSimdException f env esr).2 (m.handleSimdException f env esr).1.r := by
  unfold Machine.handleSimdException
  split
  · exact h.planeNExit
  split
  · exact h.mono
  split
  · exact h.mono
  · have hs := PageFrame.simdContextSwitch m.r.activeSimdCtx (some .rel1)
      (m.check (m.r.activeSimdCtx != some .rel1))
    refine PageFrame.lands (hs.trans ?_) h
    exact .of_regs rfl rfl rfl rfl

theorem Lands.rsiOther (h0 : m.r.activePlaneId = 0) :
    Lands (if (m.handleRsiOther env).2.action.leavesRealm then .toHost else .resume) (m.handleRsiOther env).1.r := by
  have hf := PageFrame.setActivePlane m.r { m.r.activePlane with
    regs := fun i => if i < 8 then m.r.activePlane.regs i else env.rsiRegs i }
  unfold Machine.handleRsiOther
  dsimp only
  split
  · refine PageFrame.lands (hf.trans ?_) h
    exact .of_regs rfl rfl rfl rfl
  · exact ⟨.plane0 (hf.active.trans h0),fun hc => absurd rfl hc⟩
  · exact ⟨.plane0 (hf.active.trans h0),fun hc => absurd rfl hc⟩
  · refine PageFrame.lands (hf.trans ?_) h.mono
    exact .of_regs rfl rfl rfl rfl

theorem Lands.planeEnter (x : Nat → Word) (b : Bool) (entry : PlaneEnter) (s2 : Word → S2Walk) :
    Lands c (m.handleRsiPlaneEnter s2 entry b x).1.r := by
  rcases SyncOutcome.handleRsiPlaneEnter_cases s2 entry b x m with ⟨res,hr⟩ | ⟨idx,⟨hi,ha,hp⟩,hr⟩ <;> rw [hr]
  · exact h.mono
  have hidle := h.idle (by decide)
  have hreg : m.saveRealmState.r.plane0.regs = m.r.plane0.regs := by
    unfold Machine.saveRealmState Rec.setActivePlane Rec.activePlane
    dsimp only [Rec.setSysregs]
    split <;> rfl
  obtain ⟨hact,hp0,-,-⟩ := activatePlaneN_frame (m := m.saveRealmState) entry hi
  obtain ⟨hq,hinfo⟩ := activatePlaneN_kept m.saveRealmState entry hi
  rw [(PageFrame.saveRealmState m).requests] at hq
  rw [(PageFrame.saveRealmState m).realmInfo] at hinfo
  refine ⟨⟨fun _ => ?_,fun _ => ?_,fun _ => ?_⟩,fun _ => ?_⟩
  · change granuleAligned ((m.saveRealmState.activatePlaneN idx entry).r.plane0.regs 2) = true
    rw [hp0,hreg]
    exact ha
  · change (m.saveRealmState.activatePlaneN idx entry).r.addrInPar
      ((m.saveRealmState.activatePlaneN idx entry).r.plane0.regs 2) = true
    unfold Rec.addrInPar Rec.parSize Rec.ipaSize at hp ⊢
    rw [hp0,hreg,hinfo]
    exact hp
  · exact hq ▸ hidle
  · exact hq ▸ hidle

theorem Lands.rsiDispatch {fid : Nat} (hp : m.r.activePlaneId = 0 ∨ fid = smcRsiHostCall) :
    Lands (if (m.rsiDispatch env fid).2.action.leavesRealm then .toHost else .resume) (m.rsiDispatch env fid).1.r := by
  unfold Machine.rsiDispatch
  dsimp only
  split
  · rcases SyncOutcome.handleRsiHostCall_cases env
      (fun i => if 4 ≤ i ∧ i < 8 then m.r.activePlane.regs i else 0) m with ⟨res,hr⟩ | ⟨e,hr⟩ <;> rw [hr]
    · exact h.mono
    · refine PageFrame.lands ?_ h.mono
      exact .of_regs rfl rfl rfl rfl
  next hne =>
  split
  · exact h.planeEnter ..
  · exact h.rsiOther (hp.resolve_right hne)

theorem Lands.rsi : Lands (m.handleRealmRsi f env).2 (m.handleRealmRsi f env).1.r := by
  unfold Machine.handleRealmRsi
  dsimp only
  split
  · exact h.planeNExit
  next hc =>
  have hfr := PageFrame.switched (rsiHandlerNeedsFpu f (functionId (m.r.activePlane.regs 0))) m.r.activeSimdCtx none m
  have hp : m.r.activePlaneId = 0 ∨ functionId (m.r.activePlane.regs 0) = smcRsiHostCall := by
    simp only [Bool.and_eq_true,Bool.not_eq_true',not_and,Bool.not_eq_false] at hc
    by_cases h0 : m.r.isPlane0Active = true
    · exact .inl (by simpa [Rec.isPlane0Active] using h0)
    · exact .inr (by simpa using (hc (by simpa using h0)).1)
  generalize (if rsiHandlerNeedsFpu f (functionId (m.r.activePlane.regs 0)) = true then
    m.simdContextSwitch m.r.activeSimdCtx none else m) = m₁ at hfr
  have hd : Lands (if (m₁.rsiDispatch env (functionId (m.r.activePlane.regs 0))).2.action.leavesRealm then .toHost
      else .resume) (m₁.rsiDispatch env (functionId (m.r.activePlane.regs 0))).1.r :=
    Lands.rsiDispatch (hfr.lands h) (hp.imp_left hfr.active.trans)
  generalize m₁.rsiDispatch env (functionId (m.r.activePlane.regs 0)) = d at hd
  have hf₂ := PageFrame.switched (rsiHandlerNeedsFpu f (functionId (m.r.activePlane.regs 0))) none
    d.1.r.activeSimdCtx d.1
  refine (hf₂.trans ?_).lands hd
  unfold Machine.rsiFinish Machine.rsiUpdateRec Machine.rsiAdvance
  dsimp only
  generalize (if rsiHandlerNeedsFpu f (functionId (m.r.activePlane.regs 0)) = true then
    d.1.simdContextSwitch none d.1.r.activeSimdCtx else d.1) = m₂
  cases d.2.action
  · exact .setActivePlane m₂.r _
  · exact .refl m₂.r
  · exact .setActivePlane m₂.r _
  · exact .refl m₂.r
  · exact .refl m₂.r

theorem Lands.sync : Lands (m.handleExceptionSync f env).2 (m.handleExceptionSync f env).1.r := by
  unfold Machine.handleExceptionSync
  dsimp only
  split
  · exact h.wfx
  split
  · exact h.hvc
  split
  · exact h.rsi
  split
  · exact h.sysreg
  split
  · exact h.instructionAbort
  split
  · exact h.dataAbort
  split
  · exact h.simd
  · exact h.mono

theorem Lands.realmExit (exc : RealmException) : Lands (m.handleRealmExit f env exc).2 (m.handleRealmExit f env exc).1.r := by
  unfold Machine.handleRealmExit
  cases exc with
  | sync =>
    have hs : Lands (Machine.handleExceptionSync f env { m with exit := { m.exit with exitReason := .sync } }).2
        (Machine.handleExceptionSync f env { m with exit := { m.exit with exitReason := .sync } }).1.r := Lands.sync h
    dsimp only
    split
    · exact (PageFrame.setLastRunInfo ..).lands hs
    · exact hs
  | irq | fiq | other => exact h.mono
  | serror =>
    have hs : ∀ x : Machine V, PageFrame x.r x.handleExceptionSerrorLel.1.r := by
      intro x
      unfold Machine.handleExceptionSerrorLel
      dsimp only
      repeat' split
      all_goals exact .of_regs rfl rfl rfl rfl
    have hk := (hs { m with exit := { m.exit with exitReason := .serror } }).lands h
    dsimp only
    split
    · exact ((PageFrame.setLastRunInfo ..).lands hk).mono
    · exact hk.mono

theorem Lands.loopStep (inp : LoopInput V) : Lands (m.recRunLoopStep f inp).2 (m.recRunLoopStep f inp).1.r := by
  have hb : Lands (m.recRunLoopBody f inp).2 (m.recRunLoopBody f inp).1.r := by
    unfold Machine.recRunLoopBody
    split
    · dsimp only
      split
      · exact h.planeNExit
      · exact h.mono
    · exact ((PageFrame.runRealm inp.run m).lands h).realmExit _
  unfold Machine.recRunLoopStep
  split
  next m₁ hm =>
    rw [hm] at hb
    have hexit : PageFrame m₁.r m₁.recRunLoopExit.r := by
      unfold Machine.recRunLoopExit
      refine PageFrame.trans ?_ (.saveRealmState _)
      split
      · exact (PageFrame.simdContextSwitch (some .rel1) (some .nwd) m₁).trans (.of_regs rfl rfl rfl rfl)
      · exact .of_regs rfl rfl rfl rfl
    refine PageFrame.lands (hexit.trans ?_) hb
    exact .of_regs rfl rfl rfl rfl
  · exact hb

end Handlers

section Entry

variable {f : Features} {env : EnterEnv} {e : RecEnter} {m : Machine V} {r : Rec V}

theorem completeSetRipas_idle (e : RecEnter) (r : Rec V) :
    (completeSetRipas e r).requests.setRipas.base = (completeSetRipas e r).requests.setRipas.top := by
  unfold completeSetRipas
  dsimp only
  split
  · assumption
  · rfl

theorem completeDevMemMapping_idle (e : RecEnter) (r : Rec V) :
    (completeDevMemMapping e r).requests.devMem.base = 0 ∧
      (completeDevMemMapping e r).requests.setRipas = r.requests.setRipas := by
  unfold completeDevMemMapping
  dsimp only
  split
  · exact ⟨by assumption,rfl⟩
  · exact ⟨rfl,rfl⟩

theorem completeSetS2ap_idle (e : RecEnter) (r : Rec V) :
    ((completeSetS2ap e r).requests.setS2ap.base = 0 ∧ (completeSetS2ap e r).requests.setS2ap.top = 0) ∧
      (completeSetS2ap e r).requests.setRipas = r.requests.setRipas ∧
      (completeSetS2ap e r).requests.devMem = r.requests.devMem := by
  unfold completeSetS2ap
  dsimp only
  split
  · exact ⟨by assumption,rfl,rfl⟩
  · exact ⟨⟨rfl,rfl⟩,rfl,rfl⟩

theorem completeRequests_idle (e : RecEnter) (r : Rec V) :
    (completeSetS2ap e (completeDevMemMapping e (completeSetRipas e r))).requests.Idle := by
  obtain ⟨hs,hr,hd⟩ := completeSetS2ap_idle e (completeDevMemMapping e (completeSetRipas e r))
  obtain ⟨hd',hr'⟩ := completeDevMemMapping_idle e (completeSetRipas e r)
  refine ⟨?_,by rw [hd,hd'],hs⟩
  rw [hr,hr']
  exact completeSetRipas_idle e r

theorem completeRequests_of_idle (h : r.requests.Idle) (e : RecEnter) :
    completeSetS2ap e (completeDevMemMapping e (completeSetRipas e r)) = r := by
  rw [completeSetRipas,if_pos h.ripas,completeDevMemMapping,if_pos h.devMem,completeSetS2ap,if_pos h.s2ap]

theorem RunPage.completeRequests (h : RunPage m.r) (e : RecEnter) : RunPage (m.completeRequests e).r := by
  by_cases h0 : m.r.activePlaneId = 0
  · exact .plane0 ((Quiet.completeRequests e m).activePlaneId.trans h0)
  · unfold Machine.completeRequests
    rw [completeRequests_of_idle (h.idle h0)]
    exact h

theorem PageFrame.completeSea (f : Features) (e : RecEnter) (r : Rec V) :
    PageFrame r (completeSeaInsertion f e r).1 := by
  rw [completeSeaInsertion_eq]
  split
  · unfold injectSyncIdabortRec
    have hs : ∀ i s, PageFrame r (r.setSysregs i s) := fun _ _ => .of_regs rfl rfl rfl rfl
    exact (hs _ _).trans (.setActivePlane _ _)
  · exact .refl r

theorem PageFrame.completeMmio (e : RecEnter) (r : Rec V) : PageFrame r (completeMmioEmulation e r).1 := by
  unfold completeMmioEmulation
  dsimp only
  split
  · exact .refl r
  split
  · exact .refl r
  split
  · exact .refl r
  · exact .setActivePlane r _

theorem PageFrame.hostCall (env : EnterEnv) (m : Machine V) : PageFrame m.r (completeHostCall env m).1.r := by
  unfold completeHostCall
  split
  · exact .refl m.r
  dsimp only
  split
  · exact .refl m.r
  · exact .of_regs rfl rfl rfl rfl
  · exact (PageFrame.setActivePlane m.r _).trans (.of_regs rfl rfl rfl rfl)

theorem PageFrame.startRun (e : RecEnter) (m : Machine V) : PageFrame m.r (m.startRun e).r := by
  have hc : PageFrame m.r (completeSysregEmulation e m.r) := by
    unfold completeSysregEmulation
    dsimp only
    split
    · exact .refl m.r
    split
    · exact .refl m.r
    split
    · exact .setActivePlane m.r _
    · exact .refl m.r
  have hreset : PageFrame (completeSysregEmulation e m.r) (resetLastRunInfo (completeSysregEmulation e m.r)) :=
    .setActivePlane _ _
  exact (hc.trans hreset).trans (.of_regs rfl rfl rfl rfl)

theorem RunPage.prepareEntry (h : RunPage m.r) (f : Features) (env : EnterEnv) (e : RecEnter) :
    RunPage (m.prepareEntry f env e).1.r ∧
      ((m.prepareEntry f env e).2 = none → (m.prepareEntry f env e).1.r.requests.Idle) := by
  unfold Machine.prepareEntry
  split
  · exact ⟨h,nofun⟩
  next r hr =>
  have hs : RunPage r := by
    rw [(afterSea_some hr).2]
    exact (PageFrame.completeSea f e m.r).page h
  have hmm := (PageFrame.completeMmio e r).page hs
  split
  · exact ⟨hs,nofun⟩
  next r₂ hr₂ =>
  rw [hr₂] at hmm
  have hh := (PageFrame.hostCall env { m with r := r₂ }).page hmm
  split
  next m₂ hm₂ =>
    rw [hm₂] at hh
    exact ⟨hh,nofun⟩
  next m₂ hm₂ =>
  rw [hm₂] at hh
  have hx : RunPage (exitPlaneNAtEntry env e m₂).1.r := by
    unfold exitPlaneNAtEntry
    split
    · exact hh.planeNExit
    · exact hh
  split
  next m₃ hm₃ =>
    rw [hm₃] at hx
    exact ⟨hx,nofun⟩
  next m₃ hm₃ =>
    rw [hm₃] at hx
    exact ⟨hx.completeRequests e,fun _ => completeRequests_idle e m₃.r⟩

theorem RunPage.enter (h : RunPage m.r) (f : Features) (env : EnterEnv) (e : RecEnter) :
    RunPage (m.smcRecEnter f env e).1.r ∧
      ((m.smcRecEnter f env e).2 = .running → (m.smcRecEnter f env e).1.r.requests.Idle) := by
  obtain ⟨hp,hi⟩ := RunPage.prepareEntry (m := m.beginEntry) h f env e
  unfold Machine.smcRecEnter
  unfold Machine.beginEntry at hp hi
  split
  next m₁ res hm =>
    rw [hm] at hp
    refine ⟨hp,fun hr => ?_⟩
    obtain rfl : res = .running := hr
    cases Prepared.of_prepareEntry (m := m.beginEntry) hm
  next m₁ hm =>
    rw [hm] at hp hi
    have hf : PageFrame m₁.r { (m₁.startRun e).r with refcount := 1 } :=
      (PageFrame.startRun e m₁).trans (.of_regs rfl rfl rfl rfl)
    exact ⟨hf.page hp,fun _ => by rw [hf.requests]; exact hi rfl⟩

end Entry

structure Vcpu.Paged (v : Vcpu V) : Prop where
  page : RunPage v.m.r
  idle : v.running = true → v.m.r.requests.Idle

theorem Vcpu.Paged.step {f : Features} {v v' : Vcpu V} {l : VcpuLabel V} (hi : v.Paged)
    (h : Vcpu.Step f v l v') : v'.Paged := by
  cases h with
  | @error env e w m' hr h =>
    obtain ⟨hp,-⟩ := hi.page.enter f env e
    rw [h] at hp
    refine ⟨hp,fun ht => ?_⟩
    rw [show v.running = true from ht] at hr
    cases hr
  | @exited env e w m' hr h =>
    obtain ⟨hp,-⟩ := hi.page.enter f env e
    rw [h] at hp
    exact ⟨hp,nofun⟩
  | @entered env e w m' hr h =>
    obtain ⟨hp,hq⟩ := hi.page.enter f env e
    rw [h] at hp hq
    exact ⟨hp,fun _ => hq rfl⟩
  | @resumed inp m' hr hs h =>
    have hl := Lands.loopStep (f := f) ⟨hi.page,fun _ => hi.idle hr⟩ inp
    rw [h] at hl
    exact ⟨hl.page,fun _ => hl.idle nofun⟩
  | @left inp w m' hr hs h =>
    have hl := Lands.loopStep (f := f) ⟨hi.page,fun _ => hi.idle hr⟩ inp
    rw [h] at hl
    exact ⟨hl.page,nofun⟩

theorem Vcpu.paged_reachable {f : Features} {v : Vcpu V} (h : (vcpuSystem V f).Reachable v) : v.Paged :=
  h.invariant (fun _ hc => ⟨.plane0 hc.activePlaneId,fun hr => by rw [hc.running] at hr; cases hr⟩)
    (fun _ _ _ hi hs => hi.step hs)

end TfRmm.Exec
