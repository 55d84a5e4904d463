import TfRmm.Exec.RunPage
import TfRmm.S2tt.Descriptor

namespace TfRmm.Exec.Aborts

open TfRmm.Arch
open TfRmm.S2tt.Descriptor (piIndexMask rwApMask memattrMask)

variable {V : Type} {ipa : Word} {out : Machine V × Cont}

def s2tteLvlMask (level : Nat) (lpa2 : Bool) : Word :=
  let lsb := (3-level) * 9 + 12
  mask lsb (48-lsb) ||| flagWord lpa2 (mask 8 2 ||| mask 48 2)

def s2tteGetPiIndex (s2tte : Word) : Nat :=
  extract 6 1 s2tte ||| extract 51 1 s2tte <<< 1 ||| extract 53 1 s2tte <<< 2 ||| extract 54 1 s2tte <<< 3

def memattrFwbReserved : Word := bit 4

def hostNsS2tteIsValid (lpa2 indirectS2ap : Bool) (level : Nat) (s2tte : Word) : Bool :=
  let m := s2tteLvlMask level lpa2 ||| memattrMask ||| (if indirectS2ap then piIndexMask else rwApMask)
  s2tte &&& ~~~m == 0 && !(indirectS2ap && 5 ≤ s2tteGetPiIndex s2tte) &&
    s2tte &&& memattrMask != memattrFwbReserved

def s2tteAllowsWrite (s2tte : Word) : Bool := bitSet 7 s2tte

def esr (m : Machine V) : Word := m.live.esrEl2

structure StageTwoAbort (m : Machine V) : Prop where
  kind : hasEc .dataAbort (esr m) = true ∨ hasEc .instAbort (esr m) = true
  notExternal : fscIsExternalAbort (esrFsc (esr m)) = false

def planeN (m : Machine V) : Prop := m.r.isPlane0Active = false

def ToPlane0 (env : ExitEnv) (m : Machine V) (fipa : Word) : Prop :=
  planeN m ∧ (abortIsPermissionFault (esr m) = true ∨ m.ipaIsEmpty env fipa = true ∨
    (hasEc .instAbort (esr m) = true ∧ m.r.addrInPar fipa = false))

def runPageWalk (env : ExitEnv) (m : Machine V) : S2Walk := realmIpaToPa m.r env.s2 (m.r.plane0.regs 2)

def DeliveredToPlane0 (out : Machine V × Cont) : Prop :=
  out.2 = .resume ∧ out.1.r.activePlaneId = 0

structure RunPageFault (env : ExitEnv) (m : Machine V) (out : Machine V × Cont) : Prop where
  walk : ∃ ripas lvl, runPageWalk env m = .fail ripas lvl ∧ ¬ (ripas = .empty ∨ ripas = .dev) ∧
    out.1.exit = stage2DataAbortExit m.exit lvl (m.r.plane0.regs 2)
  toHost : out.2 = .toHost
  kept : out.1.r = m.r ∧ out.1.live = m.live

structure Routed (f : Features) (env : ExitEnv) (m : Machine V) (fipa : Word) : Prop where
  assertions : (m.handleExceptionSync f env).1.assertFailed = false
  emptyHidden : m.ipaIsEmpty env fipa = true →
    (m.handleExceptionSync f env).2 = .resume ∨ RunPageFault env m (m.handleExceptionSync f env)
  permission : planeN m → abortIsPermissionFault (esr m) = true → m.r.addrInPar fipa = true →
    DeliveredToPlane0 (m.handleExceptionSync f env) ∨ RunPageFault env m (m.handleExceptionSync f env)
  beyond : hasEc .dataAbort (esr m) = true → m.r.ipaSize ≤ fipa.toNat →
    (m.handleExceptionSync f env).2 = .resume
  mmio : (m.handleExceptionSync f env).2 = .toHost →
    esrIsv (m.handleExceptionSync f env).1.exit.esr = true →
      hasEc .dataAbort (esr m) = true ∧ m.live.spsrEl2 &&& spsrAarch32 = 0 ∧
        m.r.addrInPar fipa = false ∧ esrIsv (esr m) = true

theorem and_mask_aligned {w m : Word} (hm : ∀ i, i < 12 → m.getLsbD i = false) : granuleAligned (w &&& m) = true := by
  have h : (w &&& m).toNat % 2 ^ 12 = 0 := by
    refine Nat.eq_of_testBit_eq fun i => ?_
    rw [Nat.testBit_mod_two_pow,Nat.zero_testBit]
    by_cases hi : i < 12
    · have := hm i hi
      rw [BitVec.testBit_toNat,BitVec.getLsbD_and,this,Bool.and_false,Bool.and_false]
    · simp [hi]
  simpa [granuleAligned] using h

theorem hpfarFipa_aligned (hpfar : Word) : granuleAligned (hpfarFipa hpfar) = true := by
  have h : hpfarFipa hpfar = hpfarFipa hpfar &&& parPaMask := by
    apply BitVec.eq_of_getLsbD_eq
    intro i hi
    simp only [hpfarFipa,hpfarFipaMask,parPaMask,BitVec.getLsbD_and,BitVec.getLsbD_shiftLeft,getLsbD_mask]
    by_cases h12 : 12 ≤ i
    · have hw : (i-12 < 40) ↔ (i - 8 - 4 < 40) := by omega
      by_cases h40 : i - 8 - 4 < 40 <;> simp [hi,h12,h40,hw]
    · by_cases h8 : i < 8
      · simp [h8]
      · simp [show ¬ 4 ≤ i-8 by omega]
  rw [h]
  exact and_mask_aligned fun i hi => by simp [parPaMask,getLsbD_mask]; omega

theorem faultIpa_aligned {env : ExitEnv} {m : Machine V} {fipa hpfar : Word}
    (h : m.getAbortFaultIpa env (esr m) = some (fipa,hpfar)) : granuleAligned fipa = true := by
  unfold Machine.getAbortFaultIpa at h
  split at h
  · simp only [Option.some.injEq,Prod.mk.injEq] at h
    rw [← h.1]
    exact hpfarFipa_aligned _
  obtain ⟨par,_,hpar⟩ := Option.map_eq_some_iff.mp h
  simp only [Prod.mk.injEq] at hpar
  rw [← hpar.1]
  exact and_mask_aligned fun i hi => by simp [parPaMask,getLsbD_mask]; omega

theorem inPar_lt {r : Rec V} (h : r.addrInPar ipa = true) : ipa.toNat < r.ipaSize := by
  have : ipa.toNat < r.ipaSize / 2 := of_decide_eq_true h
  omega

theorem returnToPlane0_active (m : Machine V) (ret : Word) (b : Bool) : (m.returnToPlane0 ret b).r.activePlaneId = 0 := by
  unfold Machine.returnToPlane0
  cases b <;> rfl

theorem planeNExit_outcome {env : ExitEnv} {m : Machine V} {b : Bool} (hrun : runPageWalk env m ≠ .invalidParams)
    (hout : out = (((m.assertThat b).handlePlaneNExit env.s2 true).1,
      .ofBool ((m.assertThat b).handlePlaneNExit env.s2 true).2)) :
    DeliveredToPlane0 out ∨ RunPageFault env m out := by
  subst hout
  unfold runPageWalk at hrun
  unfold Machine.handlePlaneNExit
  dsimp only [Machine.assertThat_r]
  cases hw : realmIpaToPa m.r env.s2 (m.r.plane0.regs 2) with
  | invalidParams => exact absurd hw hrun
  | success => exact .inl ⟨rfl,returnToPlane0_active ..⟩
  | fail ripas lvl =>
    dsimp only
    by_cases hr : ripas = .empty ∨ ripas = .dev
    · rw [if_pos hr]
      exact .inl ⟨rfl,returnToPlane0_active ..⟩
    · rw [if_neg hr]
      exact .inr ⟨⟨ripas,lvl,hw,hr,rfl⟩,rfl,rfl,rfl⟩

def WalkLevelReported (env : ExitEnv) (m : Machine V) : Prop :=
  ∀ ripas lvl,runPageWalk env m = .fail ripas lvl → ¬ (ripas = .empty ∨ ripas = .dev) → 0 ≤ lvl.val

theorem planeNExit_asserts {env : ExitEnv} {m : Machine V} {b : Bool} (hok : m.assertFailed = false)
    (hrun : runPageWalk env m ≠ .invalidParams) :
    ((m.assertThat b).handlePlaneNExit env.s2 true).1.assertFailed = false ↔ b = true ∧ WalkLevelReported env m := by
  have hb : (m.assertThat b).assertFailed = !b := by simp [Machine.assertThat,hok]
  have hret : ∀ (x : Machine V) (ret : Word),(x.returnToPlane0 ret true).assertFailed = x.assertFailed :=
    fun _ _ => rfl
  unfold WalkLevelReported
  unfold runPageWalk at hrun ⊢
  unfold Machine.handlePlaneNExit
  dsimp only [Machine.assertThat_r]
  cases hw : realmIpaToPa m.r env.s2 (m.r.plane0.regs 2) with
  | invalidParams => exact absurd hw hrun
  | success =>
    simp only [if_true,hret]
    rw [show (m.assertThat b).saveRealmState.assertFailed = !b from hb]
    simp
  | fail ripas lvl =>
    dsimp only
    by_cases hr : ripas = .empty ∨ ripas = .dev
    · rw [if_pos hr]
      simp only [hret,hb]
      simp only [Bool.not_eq_false',S2Walk.fail.injEq,and_imp,iff_self_and]
      rintro - _ _ rfl rfl hn
      exact absurd hr hn
    · rw [if_neg hr]
      simp only [Machine.emulateStage2DataAbort]
      rw [show ((m.assertThat b).assertThat (decide (0 ≤ lvl.val))).assertFailed =
        (!b || !decide (0 ≤ lvl.val)) by rw [← hb]; rfl]
      simp only [Bool.or_eq_false_iff,Bool.not_eq_false',decide_eq_true_eq,S2Walk.fail.injEq,and_imp]
      refine and_congr_right fun _ => ⟨?_,fun h => h ripas lvl rfl rfl hr⟩
      rintro h _ _ rfl rfl -
      exact h

theorem DeliveredToPlane0.resumed (h : DeliveredToPlane0 out) : out.2 = .resume := h.1

theorem RunPageFault.isv {env : ExitEnv} {m : Machine V} (h : RunPageFault env m out) : esrIsv out.1.exit.esr = false := by
  obtain ⟨_,lvl,_,_,hx⟩ := h.walk
  rw [hx]
  exact stage2DataAbortExit_isv m.exit lvl _

section Outcomes

variable {f : Features} {env : ExitEnv} {m : Machine V} {fipa hpfar : Word}

theorem notExternal_none (h : StageTwoAbort m) : m.handleSyncExternalAbort f (esr m) = none := by
  simp [Machine.handleSyncExternalAbort,h.notExternal]

inductive Outcome (f : Features) (env : ExitEnv) (m : Machine V) (fipa hpfar : Word) : Prop
  | injected (h : (m.handleExceptionSync f env).2 = .resume)
      (ha : (m.handleExceptionSync f env).1.assertFailed = m.assertFailed) (h0 : ¬ ToPlane0 env m fipa)
  | planeExit (h : ToPlane0 env m fipa) {b : Bool}
      (hb : b = (hasEc .instAbort (esr m) || m.r.addrInPar fipa))
      (hout : m.handleExceptionSync f env = (((m.assertThat b).handlePlaneNExit env.s2 true).1,
        .ofBool ((m.assertThat b).handlePlaneNExit env.s2 true).2))
  | reportedData (hec : hasEc .dataAbort (esr m) = true) (h0 : ¬ ToPlane0 env m fipa)
      (hempty : m.ipaIsEmpty env fipa = false) (hlt : fipa.toNat < m.r.ipaSize)
      (hout : m.handleExceptionSync f env =
        ({ m with exit := m.reportDataAbort (esr m) fipa hpfar },.toHost))
  | reportedFetch (hec : hasEc .instAbort (esr m) = true) (h0 : ¬ ToPlane0 env m fipa)
      (hempty : m.ipaIsEmpty env fipa = false)
      (ha : (m.handleExceptionSync f env).1.assertFailed = m.assertFailed)
      (hesr : (m.handleExceptionSync f env).1.exit.esr = esr m &&& instructionAbortMask)

section

variable (h : StageTwoAbort m) (hf : m.getAbortFaultIpa env (esr m) = some (fipa,hpfar))

include h hf

theorem dataAbort_outcome (hec : hasEc .dataAbort (esr m) = true) : Outcome f env m fipa hpfar := by
  have hni : hasEc .instAbort (esr m) = false := hasEc_other hec (by decide)
  have hbody : m.handleExceptionSync f env = m.handleDataAbort f env (esr m) := handleExceptionSync_dataAbort hec
  rw [Machine.handleDataAbort,notExternal_none h,hf] at hbody
  dsimp only at hbody
  rw [faultIpa_aligned hf,Machine.assertThat_true] at hbody
  by_cases h0 : m.r.isPlane0Active = true
  · have hto : ¬ ToPlane0 env m fipa := fun ht => by simp [planeN,ToPlane0,h0] at ht
    by_cases he : m.ipaIsEmpty env fipa = true
    · rw [if_pos (by simp [h0,he])] at hbody
      exact .injected (by rw [hbody]) (by rw [hbody]) hto
    rw [if_neg (by simp [he]),if_neg (by simp [h0])] at hbody
    split at hbody
    · exact .injected (by rw [hbody]) (by rw [hbody]) hto
    · next hlt => exact .reportedData hec hto (by simpa using he) (by omega) hbody
  · rw [if_neg (by simp [h0])] at hbody
    by_cases hp : abortIsPermissionFault (esr m) = true ∨ m.ipaIsEmpty env fipa = true
    · rw [if_pos (by rcases hp with hp | hp <;> simp [h0,hp])] at hbody
      exact .planeExit ⟨by simpa [planeN] using h0,hp.imp_right .inl⟩ (by rw [hni]; rfl) hbody
    have hto : ¬ ToPlane0 env m fipa := fun ht => by
      rcases ht.2 with ht | ht | ht
      · exact hp (.inl ht)
      · exact hp (.inr ht)
      · exact absurd ht.1 (by simp [hni])
    rw [not_or] at hp
    rw [if_neg (by simp [hp.1,hp.2])] at hbody
    split at hbody
    · exact .injected (by rw [hbody]) (by rw [hbody]) hto
    · next hlt => exact .reportedData hec hto (by simpa using hp.2) (by omega) hbody

theorem instAbort_outcome (hec : hasEc .instAbort (esr m) = true) : Outcome f env m fipa hpfar := by
  have hsync : m.handleExceptionSync f env = m.handleInstructionAbort f env (esr m) := handleExceptionSync_instAbort hec
  rw [Machine.handleInstructionAbort,notExternal_none h,hf] at hsync
  dsimp only at hsync
  rw [faultIpa_aligned hf,Machine.assertThat_true] at hsync
  by_cases hc : (abortIsPermissionFault (esr m) || m.ipaIsEmpty env fipa || !m.r.addrInPar fipa) = true
  · rw [if_pos hc] at hsync
    by_cases h0 : m.r.isPlane0Active = true
    · rw [if_pos h0] at hsync
      exact .injected (by rw [hsync]) (by rw [hsync]) fun ht => by simp [planeN,ToPlane0,h0] at ht
    rw [if_neg h0] at hsync
    refine .planeExit (b := true) ⟨by simpa [planeN] using h0,?_⟩ (by rw [hec]; rfl)
      (by rw [Machine.assertThat_true]; exact hsync)
    simp only [Bool.or_eq_true,Bool.not_eq_true'] at hc
    rcases hc with (hc | hc) | hc
    · exact .inl hc
    · exact .inr (.inl hc)
    · exact .inr (.inr ⟨hec,hc⟩)
  · rw [if_neg hc] at hsync
    simp only [Bool.or_eq_true,Bool.not_eq_true',not_or,Bool.not_eq_true,Bool.not_eq_false] at hc
    refine .reportedFetch hec (fun ht => ?_) hc.1.2 (by rw [hsync]) (by rw [hsync])
    rcases ht.2 with ht | ht | ht
    · simp [hc.1.1] at ht
    · simp [hc.1.2] at ht
    · simp [hc.2] at ht

theorem abort_outcome : Outcome f env m fipa hpfar := by
  rcases h.kind with hec | hec
  · exact dataAbort_outcome h hf hec
  · exact instAbort_outcome h hf hec

end

theorem reportDataAbort_isv (h : esrIsv (m.reportDataAbort (esr m) fipa hpfar).esr = true) :
    m.live.spsrEl2 &&& spsrAarch32 = 0 ∧ m.r.addrInPar fipa = false ∧ esrIsv (esr m) = true := by
  unfold Machine.reportDataAbort at h
  dsimp only at h
  split at h
  · simp at h
  next hc =>
  simp only [Bool.or_eq_true,bne_iff_ne,not_or,not_not,Bool.not_eq_true] at hc
  split at h
  · next hisv =>
      have hz : (nonemulatedAbortMask ||| ilMask ||| wnrBit) &&& isvBit = 0 := by decide
      simp only [esrIsv,BitVec.and_assoc,hz] at h
      simp at h
  · next hisv => exact ⟨hc.1,hc.2,by simpa using hisv⟩

end Outcomes

structure Sheltered (env : ExitEnv) (m : Machine V) (fipa : Word) : Prop where
  protectedFault : hasEc .dataAbort (esr m) = true → planeN m →
    abortIsPermissionFault (esr m) = true → m.r.addrInPar fipa = true
  walkLevel : ToPlane0 env m fipa → WalkLevelReported env m

section Routing

variable {f : Features} {env : ExitEnv} {m : Machine V} {fipa hpfar : Word}

theorem Sheltered.inPar (h : Sheltered env m fipa) (hto : ToPlane0 env m fipa) (hk : StageTwoAbort m) :
    (hasEc .instAbort (esr m) || m.r.addrInPar fipa) = true := by
  rw [Bool.or_eq_true]
  rcases hk.kind with hec | hec
  · refine .inr ?_
    rcases hto.2 with hp | hp | hp
    · exact h.protectedFault hec hto.1 hp
    · exact ipaIsEmpty_inPar hp
    · cases hasEc_unique hec hp.1
  · exact .inl hec

theorem Sheltered.routed (h : Sheltered env m fipa) (hok : m.assertFailed = false)
    (hpage : planeN m → runPageWalk env m ≠ .invalidParams) (habort : StageTwoAbort m)
    (hfault : m.getAbortFaultIpa env (esr m) = some (fipa,hpfar)) : Routed f env m fipa := by
  rcases abort_outcome habort hfault with
    ⟨hres,ha,hto⟩ | ⟨hto,hb,hout⟩ | ⟨hec,hto,hempty,hlt,hout⟩ | ⟨hec,hto,hempty,ha,hesr⟩
  · refine ⟨ha.trans hok,fun _ => .inl hres,fun hn hp _ => absurd ⟨hn,.inl hp⟩ hto,fun _ _ => hres,fun hhost => ?_⟩
    rw [hres] at hhost
    cases hhost
  · have hin := h.inPar hto habort
    have hcases := planeNExit_outcome (hpage hto.1) hout
    refine ⟨?_,fun _ => hcases.imp_left DeliveredToPlane0.resumed,fun _ _ _ => hcases,
      fun hec hle => ?_,fun hhost hisv => ?_⟩
    · rw [hout,planeNExit_asserts hok (hpage hto.1)]
      exact ⟨hb.trans hin,h.walkLevel hto⟩
    · rw [hasEc_other hec (by decide),Bool.false_or] at hin
      have := inPar_lt hin
      omega
    · rcases hcases with hd | hr
      · rw [hd.1] at hhost
        cases hhost
      · rw [hr.isv] at hisv
        cases hisv
  · refine ⟨by rw [hout]; exact hok,fun he => absurd he (by simp [hempty]),fun hn hp _ => absurd ⟨hn,.inl hp⟩ hto,
      fun _ hle => by omega,fun _ hisv => ?_⟩
    rw [hout] at hisv
    exact ⟨hec,reportDataAbort_isv hisv⟩
  · refine ⟨ha.trans hok,fun he => absurd he (by simp [hempty]),fun hn hp _ => absurd ⟨hn,.inl hp⟩ hto,
      fun hd => absurd (hasEc_unique hd hec) (by decide),fun _ hisv => ?_⟩
    rw [hesr,instructionAbort_isv] at hisv
    cases hisv

theorem Routed.sheltered (h : Routed f env m fipa) (hok : m.assertFailed = false)
    (hpage : planeN m → runPageWalk env m ≠ .invalidParams) (habort : StageTwoAbort m)
    (hfault : m.getAbortFaultIpa env (esr m) = some (fipa,hpfar)) : Sheltered env m fipa := by
  have key : ToPlane0 env m fipa →
      (hasEc .instAbort (esr m) || m.r.addrInPar fipa) = true ∧ WalkLevelReported env m := by
    intro hto
    have hassert := h.assertions
    rcases abort_outcome (f := f) habort hfault with
      ⟨_,_,hn⟩ | ⟨_,hb,hout⟩ | ⟨_,hn,_,_,_⟩ | ⟨_,hn,_,_,_⟩
    · exact absurd hto hn
    · rw [hout,planeNExit_asserts hok (hpage hto.1)] at hassert
      exact ⟨hb.symm.trans hassert.1,hassert.2⟩
    · exact absurd hto hn
    · exact absurd hto hn
  refine ⟨fun hec hn hp => ?_,fun hto => (key hto).2⟩
  have hin := (key ⟨hn,.inl hp⟩).1
  rwa [hasEc_other hec (by decide),Bool.false_or] at hin

end Routing

section Runs

variable {f : Features} {v : Vcpu V} {inp : LoopInput V}

def faulting (v : Vcpu V) (inp : LoopInput V) : Machine V :=
  let m := v.m.activateEvents.runRealm inp.run
  { m with exit := { m.exit with exitReason := .sync } }

theorem faulting_assertFailed : (faulting v inp).assertFailed = v.m.assertFailed := by
  unfold faulting Machine.runRealm Machine.setPlane Machine.activateEvents
  dsimp only
  split <;> rfl

theorem faulting_runPage (h : (vcpuSystem V f).Reachable v) (hwalk : ∀ a, inp.env.s2 a ≠ .invalidParams)
    (hn : planeN (faulting v inp)) : runPageWalk inp.env (faulting v inp) ≠ .invalidParams := by
  have hp : RunPage (faulting v inp).r := (PageFrame.runRealm inp.run v.m).page (Vcpu.paged_reachable h).page
  have h0 : (faulting v inp).r.activePlaneId ≠ 0 := by simpa [planeN,Rec.isPlane0Active] using hn
  unfold runPageWalk realmIpaToPa
  rw [if_neg (by simp [hp.aligned h0,hp.inPar h0])]
  exact hwalk _

end Runs

section Instances

open Sample StaleSyndrome

def planeNRunning : Vcpu Unit := resumed planeEnterCall (entered 0 vcpu)

theorem planeNRunning_reachable : (vcpuSystem Unit features).Reachable planeNRunning :=
  ((Lib.TransitionSystem.ReachableUnder.initial created).next trivial (step_entered rfl (by decide))).next trivial
    (step_resumed rfl (by decide) (by decide))

def storeFault (par : Word) (walk : S2Walk) : LoopInput Unit :=
  { loopInput .sync (fun _ => 0) (Ec.dataAbort.word ||| wnrBit ||| 0x0f) 0 0 () with
    env := { exitEnv 0 with s2 := fun _ => walk,fipaFromFar := some par } }

theorem storeFault_abort (par : Word) (walk : S2Walk) :
    StageTwoAbort (faulting planeNRunning (storeFault par walk)) := by
  have hesr : esr (faulting planeNRunning (storeFault par walk)) = Ec.dataAbort.word ||| wnrBit ||| 0x0f := rfl
  constructor
  · rw [hesr]
    exact .inl (by decide)
  · rw [hesr]
    decide

end Instances

end TfRmm.Exec.Aborts
