import TfRmm.Exec.Aborts
import TfRmm.Exec.Measurement

namespace TfRmm.Exec.RsiFault

open TfRmm.Arch
open Function

variable {V : Type}

inductive Command where
  | attestTokenContinue
  | realmConfig
  | hostCall
  | planeEnter
  | vdevGetInfo
  deriving DecidableEq

def Command.fid : Command → Nat
  | .attestTokenContinue => smcRsiAttestTokenContinue
  | .realmConfig => smcRsiFid 0x6
  | .hostCall => smcRsiHostCall
  | .planeEnter => smcRsiPlaneEnter
  | .vdevGetInfo => smcRsiFid 0xD

inductive Signing where
  | signed
  | failed (code : Word)
  | interrupted
  deriving DecidableEq

inductive Claim where
  | notFound
  | contended
  | lockFailed
  | epochChanged
  | claimed
  deriving DecidableEq

structure AccessEnv extends ExitEnv where
  signing : Signing
  daEnabled : Bool
  claim : Claim
  startLevel : S2Level
  leafLevel : S2Level
  reply : Nat → Word

def rsiErrorState : Word := 2
def rsiIncomplete : Word := 3

def granuleOf (ipa : Word) : Word := ipa &&& ~~~0xfff

inductive Lock where
  | rd
  | pdev
  | vdev
  | rtt (level : Int)
  deriving DecidableEq

def acquire (l : Lock) (held : List Lock) : List Lock := l :: held

def release (l : Lock) (held : List Lock) : List Lock := held.erase l

def walkLockUnlock (startLevel : Int) : Nat → List Lock → List Lock
  | 0,held => held
  | n+1,held => release (.rtt (startLevel+n)) (acquire (.rtt (startLevel+n+1)) (walkLockUnlock startLevel n held))

def lockedWalk (env : AccessEnv) (lastLevel : Int) (held : List Lock) : List Lock :=
  walkLockUnlock env.startLevel (lastLevel-env.startLevel).toNat (acquire (.rtt env.startLevel) held)

def realmIpaToPaLocked (env : AccessEnv) (r : Rec V) (ipa : Word) (held : List Lock) : S2Walk × List Lock :=
  match realmIpaToPa r env.s2 ipa with
  | .invalidParams => (.invalidParams,held)
  | .success => (.success,lockedWalk env env.leafLevel held)
  | .fail ripas lvl => (.fail ripas lvl,release (.rtt lvl) (lockedWalk env lvl held))

def realmMemLockMapLocked (env : AccessEnv) (r : Rec V) (ipa : Word) (held : List Lock) : MemLockMap × List Lock :=
  match realmIpaToPaLocked env r ipa held with
  | (.success,held) => (.mapped,held)
  | (.invalidParams,held) => (.mapped,held)
  | (.fail ripas lvl,held) =>
    (if ripas = .empty ∨ ripas = .dev then .errorInput else .translationFault lvl,held)

def rsiVdevReleaseObjects (held : List Lock) : List Lock := release .rd (release .pdev (release .vdev held))

def rsiVdevClaimObjects (claim : Claim) (held : List Lock) : Option Word × List Lock :=
  let found := acquire .vdev (acquire .rd held)
  let dropped := release .rd (release .vdev found)
  let locked := acquire .vdev (acquire .pdev (acquire .rd dropped))
  match claim with
  | .notFound => (some rsiErrorInput,release .rd (acquire .rd held))
  | .contended => (some rsiIncomplete,release .rd (acquire .rd held))
  | .lockFailed => (some rsiIncomplete,dropped)
  | .epochChanged => (some rsiIncomplete,rsiVdevReleaseObjects locked)
  | .claimed => (none,locked)

abbrev Call (V : Type) := (Machine V × RsiResult) × List Lock

def errorInput (m : Machine V) (x : Nat → Word) : Machine V × RsiResult :=
  (m,.returnToRealm (update x 0 rsiErrorInput))

def memAccess (env : AccessEnv) (m : Machine V) (x : Nat → Word) (ipa : Word) (held : List Lock)
    (mapped : Machine V × RsiResult) : Call V :=
  match realmMemLockMapLocked env m.r ipa held with
  | (.errorInput,held) => (errorInput m x,held)
  | (.translationFault lvl,held) => ((m,⟨.stage2TranslationFault,lvl,x⟩),held)
  | (.mapped,held) => (mapped,release (.rtt env.leafLevel) held)

section Handlers

variable (env : AccessEnv) (x : Nat → Word) (m : Machine V) (held : List Lock)

def attestArgsValid : Bool :=
  let regs := m.r.activePlane.regs
  granuleAligned (regs 1) && (regs 2).toNat < 4096 && (regs 2 + regs 3).toNat ≤ 4096 &&
    !(regs 2 + regs 3 < regs 2) && m.r.addrInPar (regs 1)

def handleRsiAttestTokenContinue : Call V :=
  if !attestArgsValid m then (errorInput m x,held)
  else
    match env.signing with
    | .failed code => ((m,.returnToRealm (update x 0 code)),held)
    | .interrupted =>
      (({ m with exit := { m.exit with exitReason := .irq } },
        .unleveled .updateRecExitToHost (update x 0 rsiIncomplete)),held)
    | .signed => memAccess env m x (m.r.activePlane.regs 1) held (m,.returnToRealm env.reply)

def handleRsiRealmConfig : Call V :=
  let ipa := m.r.activePlane.regs 1
  if !granuleAligned ipa || !m.r.addrInPar ipa then (errorInput m x,held)
  else memAccess env m x ipa held (m,.returnToRealm (update x 0 rsiSuccess))

def handleRsiHostCall : Call V :=
  let ipa := m.r.activePlane.regs 1
  if ipa.toNat % 256 ≠ 0 ∨ ipa.toNat / 4096 ≠ (ipa.toNat+255) / 4096 ∨ !m.r.addrInPar ipa then
    (errorInput m x,held)
  else memAccess env m x (granuleOf ipa) held (m.doHostCallExit env.toExitEnv x)

def handleRsiPlaneEnter : Call V :=
  let planeIdx := (m.r.plane0.regs 1).toNat
  let runIpa := m.r.plane0.regs 2
  if planeIdx = 0 ∨ m.r.numPlanes ≤ planeIdx ∨ !granuleAligned runIpa ∨ !m.r.addrInPar runIpa then
    (errorInput m x,held)
  else memAccess env m x runIpa held (m.handleRsiPlaneEnter env.s2 env.planeEnter env.lrsValid x)

def handleRsiVdevGetInfo : Call V :=
  let infoAddr := m.r.activePlane.regs 2
  if !env.daEnabled then ((m,.returnToRealm (update x 0 rsiErrorState)),held)
  else if infoAddr.toNat % 512 ≠ 0 ∨ !m.r.addrInPar infoAddr then (errorInput m x,held)
  else
    match rsiVdevClaimObjects env.claim held with
    | (some code,held) => ((m,.returnToRealm (update x 0 code)),held)
    | (none,held) =>
      let (out,held) := memAccess env m x (granuleOf infoAddr) held (m,.returnToRealm (update x 0 rsiSuccess))
      (out,rsiVdevReleaseObjects held)

def handler (c : Command) : Call V :=
  match c with
  | .attestTokenContinue => handleRsiAttestTokenContinue env x m held
  | .realmConfig => handleRsiRealmConfig env x m held
  | .hostCall => handleRsiHostCall env x m held
  | .planeEnter => handleRsiPlaneEnter env x m held
  | .vdevGetInfo => handleRsiVdevGetInfo env x m held

end Handlers

def handleRealmRsi (f : Features) (c : Command) (env : AccessEnv) (m : Machine V) (held : List Lock) :
    (Machine V × Cont) × List Lock :=
  let plane := m.r.activePlane
  let needsFpu := rsiHandlerNeedsFpu f c.fid
  let m := if needsFpu then m.simdContextSwitch m.r.activeSimdCtx none else m
  let ((m,res),held) := handler env (Measurement.prefill plane.regs) m held c
  let m := if needsFpu then m.simdContextSwitch none m.r.activeSimdCtx else m
  (m.rsiFinish c.fid plane res,held)

def needs (c : Command) (env : AccessEnv) (m : Machine V) : Option Word :=
  let regs := m.r.activePlane.regs
  match c with
  | .attestTokenContinue => if attestArgsValid m && env.signing == .signed then some (regs 1) else none
  | .realmConfig => if granuleAligned (regs 1) && m.r.addrInPar (regs 1) then some (regs 1) else none
  | .hostCall =>
    if (regs 1).toNat % 256 = 0 ∧ (regs 1).toNat / 4096 = ((regs 1).toNat + 255) / 4096 ∧
      m.r.addrInPar (regs 1) = true then some (granuleOf (regs 1)) else none
  | .planeEnter =>
    if (regs 1).toNat ≠ 0 ∧ (regs 1).toNat < m.r.numPlanes ∧ granuleAligned (regs 2) = true ∧
      m.r.addrInPar (regs 2) = true then some (regs 2) else none
  | .vdevGetInfo =>
    if env.daEnabled = true ∧ (regs 2).toNat % 512 = 0 ∧ m.r.addrInPar (regs 2) = true ∧
      env.claim = .claimed then some (granuleOf (regs 2)) else none

def fault (f : Features) (c : Command) (env : AccessEnv) (m : Machine V) : Machine V × Cont :=
  (handleRealmRsi f c env m []).1

structure FaultNamesGranule (f : Features) (c : Command) (env : AccessEnv) (m : Machine V)
    (ipa : Word) (lvl : S2Level) : Prop where
  asserted : (fault f c env m).1.assertFailed = false
  toHost : (fault f c env m).2 = .toHost
  level : (fault f c env m).1.exit.esr = Ec.dataAbort.word ||| BitVec.ofInt 64 (4+lvl.val)
  granule : hpfarFipa (fault f c env m).1.exit.hpfar = ipa
  regs : (fault f c env m).1.r.activePlane.regs = m.r.activePlane.regs
  pc : (fault f c env m).1.live.elrEl2 = m.live.elrEl2
  locks : ∀ held,(handleRealmRsi f c env m held).2 = held
  retried : ∀ s2 : Word → S2Walk,s2 (hpfarFipa (fault f c env m).1.exit.hpfar) = .success →
    realmMemLockMap m.r s2 ipa = .mapped

theorem granuleOf_aligned {ipa : Word} (h : granuleAligned ipa = true) : granuleOf ipa = ipa := by
  apply BitVec.eq_of_getLsbD_eq
  intro i hi
  have hmod : ipa.toNat % 2 ^ 12 = 0 := by simpa [granuleAligned] using h
  have hmask : (0xfff : Word) = mask 0 12 := by decide
  simp only [granuleOf,BitVec.getLsbD_and,BitVec.getLsbD_not,hmask,getLsbD_mask,hi]
  by_cases h12 : i < 12
  · have hb : (ipa.toNat % 2 ^ 12).testBit i = false := by rw [hmod]; exact Nat.zero_testBit i
    rw [Nat.testBit_mod_two_pow] at hb
    simp only [h12,decide_true,Bool.true_and] at hb
    rw [BitVec.testBit_toNat] at hb
    simp [hb]
  · simp [h12]

theorem hpfarFipa_of_lt {ipa : Word} (h : ipa.toNat < 2 ^ 52) : hpfarFipa (ipa >>> 8) = granuleOf ipa := by
  apply BitVec.eq_of_getLsbD_eq
  intro i hi
  have hmask : (0xfff : Word) = mask 0 12 := by decide
  simp only [hpfarFipa,hpfarFipaMask,granuleOf,BitVec.getLsbD_and,BitVec.getLsbD_shiftLeft,
    BitVec.getLsbD_ushiftRight,BitVec.getLsbD_not,hmask,getLsbD_mask]
  by_cases h52 : 52 ≤ i
  · have hb : ipa.getLsbD i = false := by
      rw [← BitVec.testBit_toNat]
      exact Nat.testBit_lt_two_pow (Nat.lt_of_lt_of_le h (Nat.pow_le_pow_right (by decide) h52))
    have he : ¬ i < 8 → 8+(i-8) = i := by omega
    simp [hb,show ¬ i < 8 by omega,he (by omega)]
  · by_cases h12 : 12 ≤ i
    · have he : 8+(i-8) = i := by omega
      have hw : i - 8 - 4 < 40 := by omega
      simp [hi,show ¬ i < 8 by omega,show 4 ≤ i-8 by omega,hw,he,show ¬ i < 12 by omega,show i-8 < 64 by omega]
    · by_cases h8 : i < 8
      · simp [h8,show i < 12 by omega,hi]
      · simp [h8,show ¬ 4 ≤ i-8 by omega,show i < 12 by omega,hi]

section Locks

variable {env : AccessEnv} {r : Rec V} {ipa : Word} {held : List Lock}

theorem release_acquire (l : Lock) (held : List Lock) : release l (acquire l held) = held := by
  simp [release,acquire]

theorem release_acquire_ne {l l' : Lock} (h : l' ≠ l) (held : List Lock) :
    release l (acquire l' held) = acquire l' (release l held) := by
  simp [release,acquire,List.erase_cons_tail,h]

theorem walkLockUnlock_held (start : Int) (n : Nat) (held : List Lock) :
    walkLockUnlock start n (acquire (.rtt start) held) = acquire (.rtt (start+n)) held := by
  induction n with
  | zero => simp [walkLockUnlock]
  | succ n ih =>
    have hne : Lock.rtt (start+n+1) ≠ .rtt (start+n) := fun h => by
      injection h with h
      omega
    rw [walkLockUnlock,ih,release_acquire_ne hne,release_acquire]
    push_cast
    rw [Int.add_assoc]

theorem lockedWalk_held {level : Int} (h : env.startLevel.val ≤ level) :
    lockedWalk env level held = acquire (.rtt level) held := by
  unfold lockedWalk
  rw [walkLockUnlock_held]
  congr 2
  omega

theorem memLockMapLocked_fail {ripas : Ripas} {lvl : S2Level} (h : env.startLevel.val ≤ lvl.val)
    (hf : realmIpaToPa r env.s2 ipa = .fail ripas lvl) :
    realmMemLockMapLocked env r ipa held =
      (if ripas = .empty ∨ ripas = .dev then .errorInput else .translationFault lvl,held) := by
  simp only [realmMemLockMapLocked,realmIpaToPaLocked,hf,lockedWalk_held h,release_acquire]

theorem claimed_released (held : List Lock) :
    ∃ locked,rsiVdevClaimObjects .claimed held = (none,locked) ∧ rsiVdevReleaseObjects locked = held := by
  refine ⟨_,rfl,?_⟩
  simp only [rsiVdevReleaseObjects,release_acquire]

end Locks

section Access

variable {c : Command} {env : AccessEnv} {m : Machine V} {x : Nat → Word} {ipa : Word} {held : List Lock}

theorem memAccess_fault {lvl : S2Level} (hl : env.startLevel.val ≤ lvl.val)
    (hf : realmIpaToPa m.r env.s2 ipa = .fail .ram lvl) (mapped : Machine V × RsiResult) :
    memAccess env m x ipa held mapped = ((m,⟨.stage2TranslationFault,lvl,x⟩),held) := by
  rw [memAccess,memLockMapLocked_fail hl hf]
  rfl

theorem handler_fault {lvl : S2Level} (hp : m.r.isPlane0Active = true ∨ c = .hostCall)
    (h : needs c env m = some ipa) (hl : env.startLevel.val ≤ lvl.val)
    (hf : realmIpaToPa m.r env.s2 ipa = .fail .ram lvl) :
    handler env x m held c = ((m,⟨.stage2TranslationFault,lvl,x⟩),held) := by
  cases c
  all_goals simp only [needs,Option.ite_none_right_eq_some,Option.some.injEq] at h
  case attestTokenContinue =>
    simp only [Bool.and_eq_true,beq_iff_eq] at h
    obtain ⟨⟨hargs,hsigned⟩,rfl⟩ := h
    simp only [handler,handleRsiAttestTokenContinue,hargs,hsigned]
    exact memAccess_fault hl hf _
  case realmConfig =>
    simp only [Bool.and_eq_true] at h
    obtain ⟨⟨halign,hpar⟩,rfl⟩ := h
    simp only [handler,handleRsiRealmConfig,halign,hpar]
    exact memAccess_fault hl hf _
  case hostCall =>
    obtain ⟨⟨halign,hone,hpar⟩,rfl⟩ := h
    simp only [handler,handleRsiHostCall]
    rw [if_neg (by simp [halign,hone,hpar])]
    exact memAccess_fault hl hf _
  case planeEnter =>
    have h0 : m.r.isPlane0Active = true := hp.resolve_right (by decide)
    have hplane : m.r.plane0 = m.r.activePlane := by simp [Rec.activePlane,h0]
    obtain ⟨⟨hidx,hnum,halign,hpar⟩,rfl⟩ := h
    simp only [handler,handleRsiPlaneEnter,hplane]
    rw [if_neg (by simp [hidx,hnum,halign,hpar])]
    exact memAccess_fault hl hf _
  case vdevGetInfo =>
    obtain ⟨⟨hda,halign,hpar,hclaim⟩,rfl⟩ := h
    obtain ⟨locked,hc,hrel⟩ := claimed_released held
    simp only [handler,handleRsiVdevGetInfo,hda,hclaim,hc]
    rw [if_neg (by simp),if_neg (by simp [halign,hpar]),memAccess_fault hl hf,hrel]

theorem memLockMapLocked_forget (r : Rec V) :
    (realmMemLockMapLocked env r ipa held).1 = realmMemLockMap r env.s2 ipa := by
  unfold realmMemLockMapLocked realmIpaToPaLocked realmMemLockMap
  cases realmIpaToPa r env.s2 ipa <;> rfl

theorem memAccess_forget (mapped : Machine V × RsiResult) : (memAccess env m x ipa held mapped).1 =
    match realmMemLockMap m.r env.s2 ipa with
    | .errorInput => errorInput m x
    | .translationFault lvl => (m,⟨.stage2TranslationFault,lvl,x⟩)
    | .mapped => mapped := by
  rw [← @memLockMapLocked_forget V env ipa held,memAccess]
  rcases realmMemLockMapLocked env m.r ipa held with ⟨_ | _ | _,_⟩ <;> rfl

theorem handleRsiHostCall_forget : (handleRsiHostCall env x m held).1 = m.handleRsiHostCall env.toExitEnv x := by
  unfold handleRsiHostCall Machine.handleRsiHostCall
  dsimp only
  split
  · rfl
  · rw [memAccess_forget,Machine.doHostCallExit]
    dsimp only [granuleOf]
    cases realmMemLockMap m.r env.s2 (m.r.activePlane.regs 1 &&& ~~~0xfff) <;> rfl

theorem handleRsiPlaneEnter_forget : (handleRsiPlaneEnter env x m held).1 =
    m.handleRsiPlaneEnter env.s2 env.planeEnter env.lrsValid x := by
  unfold handleRsiPlaneEnter
  dsimp only
  split
  · next h => rw [Machine.handleRsiPlaneEnter,if_pos h]; rfl
  · next h =>
    rw [memAccess_forget,Machine.handleRsiPlaneEnter,if_neg h]
    cases realmMemLockMap m.r env.s2 (m.r.plane0.regs 2) <;> rfl

theorem needs_granule (h : needs c env m = some ipa) :
    ipa = granuleOf (m.r.activePlane.regs (if c = .planeEnter ∨ c = .vdevGetInfo then 2 else 1)) ∧
      m.r.addrInPar (m.r.activePlane.regs (if c = .planeEnter ∨ c = .vdevGetInfo then 2 else 1)) = true := by
  cases c
  all_goals simp only [needs,Option.ite_none_right_eq_some,Option.some.injEq] at h
  case attestTokenContinue =>
    simp only [attestArgsValid,Bool.and_eq_true] at h
    obtain ⟨⟨⟨⟨⟨⟨halign,_⟩,_⟩,_⟩,hpar⟩,_⟩,rfl⟩ := h
    exact ⟨(granuleOf_aligned halign).symm,hpar⟩
  case realmConfig =>
    simp only [Bool.and_eq_true] at h
    obtain ⟨⟨halign,hpar⟩,rfl⟩ := h
    exact ⟨(granuleOf_aligned halign).symm,hpar⟩
  case hostCall => exact ⟨h.2.symm,h.1.2.2⟩
  case planeEnter =>
    obtain ⟨⟨_,_,halign,hpar⟩,rfl⟩ := h
    exact ⟨(granuleOf_aligned halign).symm,hpar⟩
  case vdevGetInfo => exact ⟨h.2.symm,h.1.2.2.1⟩

end Access

structure SameRec (m m' : Machine V) : Prop where
  state : ∃ ctx,m'.r = { m.r with simdCtx := ctx }
  live : m'.live = m.live
  flag : m'.assertFailed = m.assertFailed

theorem SameRec.switch {m m' : Machine V} (h : SameRec m m') (b : Bool) (s r : Option SimdOwner) :
    SameRec m (if b then m'.simdContextSwitch s r else m') := by
  cases b with
  | false => exact h
  | true =>
    obtain ⟨ctx,hr⟩ := h.state
    obtain ⟨ctx',hr'⟩ := Machine.simdContextSwitch_rec s r m'
    exact ⟨⟨ctx',by rw [if_pos rfl,hr',hr]⟩,by rw [if_pos rfl,Machine.simdContextSwitch_live,h.live],
      by rw [if_pos rfl,Machine.simdContextSwitch_assertFailed,h.flag]⟩

theorem SameRec.plane {m m' : Machine V} (h : SameRec m m') : m'.r.activePlane = m.r.activePlane := by
  obtain ⟨ctx,hr⟩ := h.state
  rw [hr]
  rfl

theorem SameRec.needs {m m' : Machine V} (h : SameRec m m') (c : Command) (env : AccessEnv) :
    needs c env m' = needs c env m := by
  obtain ⟨ctx,hr⟩ := h.state
  unfold RsiFault.needs attestArgsValid
  rw [hr]
  rfl

theorem SameRec.walk {m m' : Machine V} (h : SameRec m m') (s2 : Word → S2Walk) (ipa : Word) :
    realmIpaToPa m'.r s2 ipa = realmIpaToPa m.r s2 ipa := by
  obtain ⟨ctx,hr⟩ := h.state
  rw [hr]
  rfl

def reportedReg (c : Command) : Nat := if c = .planeEnter then 2 else 1

theorem fid_planeEnter (c : Command) : (if c.fid = smcRsiPlaneEnter then 2 else 1) = reportedReg c := by
  cases c <;> decide

theorem fault_outcome {f : Features} {c : Command} {env : AccessEnv} {m : Machine V} {ipa : Word} {lvl : S2Level}
    (hp : m.r.isPlane0Active = true ∨ c = .hostCall) (h : needs c env m = some ipa)
    (hl : env.startLevel.val ≤ lvl.val) (hf : realmIpaToPa m.r env.s2 ipa = .fail .ram lvl) :
    ∃ m',SameRec m m' ∧ ∀ held,handleRealmRsi f c env m held =
      ((m'.emulateStage2DataAbort lvl (m.r.activePlane.regs (reportedReg c)),.toHost),held) := by
  have hsame : SameRec m m := ⟨⟨m.r.simdCtx,rfl⟩,rfl,rfl⟩
  have h1 := hsame.switch (rsiHandlerNeedsFpu f c.fid) m.r.activeSimdCtx none
  unfold handleRealmRsi
  dsimp only
  generalize (if rsiHandlerNeedsFpu f c.fid = true then m.simdContextSwitch m.r.activeSimdCtx none else m) = m1 at h1
  have hp1 : m1.r.isPlane0Active = true ∨ c = .hostCall := by
    obtain ⟨ctx,hr⟩ := h1.state
    rwa [hr]
  have h2 := h1.switch (rsiHandlerNeedsFpu f c.fid) none m1.r.activeSimdCtx
  refine ⟨_,h2,fun held => ?_⟩
  rw [handler_fault hp1 ((h1.needs c env).trans h) hl ((h1.walk env.s2 ipa).trans hf)]
  simp only [Machine.rsiFinish,Machine.rsiAdvance,Machine.rsiUpdateRec,RsiAction.updateRec,
    RsiAction.leavesRealm,fid_planeEnter]
  rfl

theorem fault_names_granule_iff (f : Features) (c : Command) (env : AccessEnv) (m : Machine V)
    (ipa : Word) (lvl : S2Level) (hok : m.assertFailed = false) (hbits : m.r.realmInfo.ipaBits ≤ 52)
    (hplane : m.r.isPlane0Active = true ∨ c = .hostCall) (hneeds : needs c env m = some ipa)
    (hstart : env.startLevel.val ≤ lvl.val) (hunmapped : realmIpaToPa m.r env.s2 ipa = .fail .ram lvl) :
    FaultNamesGranule f c env m ipa lvl ↔
      0 ≤ lvl.val ∧ (c = .vdevGetInfo → hpfarFipa (m.r.activePlane.regs 1 >>> 8) = ipa) := by
  obtain ⟨m',hsame,hall⟩ := fault_outcome (f := f) hplane hneeds hstart hunmapped
  have hout : fault f c env m =
      (m'.emulateStage2DataAbort lvl (m.r.activePlane.regs (reportedReg c)),.toHost) := by
    rw [fault,hall]
  obtain ⟨hipa,hpar⟩ := needs_granule hneeds
  have hgranule : hpfarFipa (fault f c env m).1.exit.hpfar =
      hpfarFipa (m.r.activePlane.regs (reportedReg c) >>> 8) := by rw [hout]; rfl
  have hassert : (fault f c env m).1.assertFailed = !decide (0 ≤ lvl.val) := by
    rw [hout]
    change (m'.assertFailed || _) = _
    rw [hsame.flag,hok,Bool.false_or]
  constructor
  · intro h
    refine ⟨by simpa using hassert.symm.trans h.asserted,fun hc => ?_⟩
    have hg := h.granule
    rwa [hgranule,reportedReg,if_neg (by rw [hc]; decide)] at hg
  rintro ⟨hlevel,hv⟩
  have hreported : hpfarFipa (m.r.activePlane.regs (reportedReg c) >>> 8) = ipa := by
    by_cases hc : c = .vdevGetInfo
    · rw [reportedReg,if_neg (by rw [hc]; decide)]
      exact hv hc
    have hreg : reportedReg c = if c = .planeEnter ∨ c = .vdevGetInfo then 2 else 1 := by
      simp [reportedReg,hc]
    rw [hreg,hipa]
    refine hpfarFipa_of_lt (Nat.lt_of_lt_of_le (Aborts.inPar_lt hpar) ?_)
    exact Nat.pow_le_pow_right (by decide) hbits
  refine ⟨by simpa [hlevel] using hassert,by rw [hout],by rw [hout]; rfl,hgranule.trans hreported,?_,?_,
    fun held => by rw [hall],?_⟩
  · rw [hout]
    exact congrArg RecPlane.regs hsame.plane
  · rw [hout]
    exact congrArg LiveRegs.elrEl2 hsame.live
  · intro s2 hs2
    rw [hgranule,hreported] at hs2
    have hvalid : (!granuleAligned ipa || !m.r.addrInPar ipa) = false := by
      by_contra hn
      rw [realmIpaToPa,if_pos (Bool.not_eq_false _ ▸ hn)] at hunmapped
      cases hunmapped
    simp [realmMemLockMap,realmIpaToPa,hvalid,hs2]

section Instances

def callerRegs : Nat → Word := fun i => if i = 1 then 0x5000 else if i = 2 then 0x9000 else 0

def caller : Machine Unit := Measurement.freshMachine callerRegs

def unmappedEnv (lvl : S2Level) : AccessEnv :=
  { Sample.exitEnv 0 with
    s2 := fun _ => .fail .ram lvl
    signing := .signed
    daEnabled := true
    claim := .claimed
    startLevel := lvl
    leafLevel := .page
    reply := fun _ => 0 }

end Instances

open Sample in
theorem realm_config_fault_named : needs .realmConfig (unmappedEnv .page) caller = some 0x5000 ∧
      realmIpaToPa caller.r (unmappedEnv .page).s2 0x5000 = .fail .ram .page ∧
      FaultNamesGranule features .realmConfig (unmappedEnv .page) caller 0x5000 .page :=
  ⟨by decide,by decide,(fault_names_granule_iff features .realmConfig (unmappedEnv .page) caller 0x5000
    .page rfl (by decide) (by decide) (by decide) (by decide) (by decide)).mpr
      ⟨by decide,fun h => absurd h (by decide)⟩⟩

open Sample in
theorem vdev_get_info_fault_misnamed : needs .vdevGetInfo (unmappedEnv .page) caller = some 0x9000 ∧
      realmIpaToPa caller.r (unmappedEnv .page).s2 0x9000 = .fail .ram .page ∧
      hpfarFipa (fault features .vdevGetInfo (unmappedEnv .page) caller).1.exit.hpfar = 0x5000 ∧
      ¬ FaultNamesGranule features .vdevGetInfo (unmappedEnv .page) caller 0x9000 .page ∧
      ¬ FaultNamesGranule features .realmConfig (unmappedEnv .lpa2Start) caller 0x5000 .lpa2Start := by
  have h5000 : hpfarFipa (fault features .vdevGetInfo (unmappedEnv .page) caller).1.exit.hpfar = 0x5000 := by
    decide
  refine ⟨by decide,by decide,h5000,fun h => ?_,fun h => ?_⟩
  · cases h5000.symm.trans h.granule
  · have hassert := h.asserted
    revert hassert
    decide

end TfRmm.Exec.RsiFault
