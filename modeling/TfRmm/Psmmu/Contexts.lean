import TfRmm.Psmmu.Inversion

namespace TfRmm.Psmmu

open TfRmm.Lib TfRmm.Smmu

theorem Smmu.sid_lt {m : Smmu} {sid : Nat} (h : m.validateSid sid = true) : sid < 2 ^ m.tab.sidBits := by
  unfold validateSid at h
  simp only [Bool.and_eq_true,decide_eq_true_eq] at h
  exact h.2

namespace Ctx

structure Filled (c : Ctx) (k : Nat) : Prop where
  holding : c.stage.holding = true
  total : c.total = c.before k
  le : k ≤ c.rangeIdx+1

variable {c : Ctx} {k r q : Nat}

theorem Filled.part (h : c.Filled k) : c.Part r q ↔ r < k ∧ c.base r ≤ q ∧ q < c.base r + c.requested r := by
  unfold Part
  by_cases hr : r < k
  · have hle := before_mono (c := c) (show r+1 ≤ k from hr)
    have hb : c.before (r+1) = c.before r + c.requested r := rfl
    have hk := h.le
    rw [count_holding h.holding (by omega),h.total,Nat.min_eq_left (by omega)]
    simp [hr]
  · have hle := before_mono (c := c) (Nat.le_of_not_lt hr)
    rw [count_eq_zero (by rw [h.total]; exact hle)]
    constructor
    · rintro ⟨h1,h2⟩
      omega
    · rintro ⟨h1,-⟩
      exact absurd h1 hr

structure Fits (size : Nat → Nat → Nat) (bits : Nat → Nat) (c : Ctx) : Prop where
  due : c.Due
  range : c.rangeIdx < psmmuMemRangeNum
  smmuOp : c.stage = .activateStart ∨ c.stage = .activateFinish ∨ c.stage = .deactivateStart ∨
    c.stage = .deactivateFinish → c.sid = none
  tableOp : c.stage = .createL2Start ∨ c.stage = .createL2Finish ∨ c.stage = .destroyL2Start ∨
    c.stage = .destroyL2Finish → ∃ sid, c.sid = some sid
  sid : ∀ sid, c.sid = some sid → sid < 2 ^ bits c.smmu
  activating : c.stage = .activateStart → c.Filled c.rangeIdx ∧ c.requested = size c.smmu
  activated : c.stage = .activateFinish → c.Filled psmmuMemRangeNum ∧ c.requested = size c.smmu
  creating : c.stage = .createL2Start → c.Filled 0 ∧ c.rangeIdx = 0 ∧ c.requested = fun _ => 1
  created : c.stage = .createL2Finish → c.Filled 1 ∧ c.requested = fun _ => 1
  failed : c.stage = .reclaimStart ∨ c.stage = .reclaimFinish → c.retErr = .errorInput

variable {size : Nat → Nat → Nat} {bits : Nat → Nat} {c' : Ctx} {b : Bool} {e : Fid}

theorem fits_activate (s : Rmm) (i : Nat) : (s.newCtx i none .activateStart .donate (size i)).Fits size bits where
  due := ⟨fun _ => rfl,nofun,nofun⟩
  range := (by decide : 0 < psmmuMemRangeNum)
  smmuOp := fun _ => rfl
  tableOp := fun h => by rcases h with h | h | h | h <;> cases h
  sid := nofun
  activating := fun _ => ⟨⟨rfl,rfl,Nat.zero_le _⟩,rfl⟩
  activated := nofun
  creating := nofun
  created := nofun
  failed := fun h => by rcases h with h | h <;> cases h

theorem fits_create (s : Rmm) {i sid : Nat} (hsid : sid < 2 ^ bits i) :
    (s.newCtx i (some sid) .createL2Start .donate fun _ => 1).Fits size bits where
  due := ⟨fun _ => rfl,nofun,nofun⟩
  range := (by decide : 0 < psmmuMemRangeNum)
  smmuOp := fun h => by rcases h with h | h | h | h <;> cases h
  tableOp := fun _ => ⟨sid,rfl⟩
  sid := fun x h => by
    cases h
    exact hsid
  activating := nofun
  activated := nofun
  creating := fun _ => ⟨⟨rfl,rfl,Nat.zero_le _⟩,rfl,rfl⟩
  created := nofun
  failed := fun h => by rcases h with h | h <;> cases h

theorem fits_last {c c' : Ctx} (h : c.Fits size bits) (hdue : c'.Due) (hsmmu : c'.smmu = c.smmu) (hsid : c'.sid = c.sid)
    (hidx : c'.rangeIdx = c.rangeIdx) (hsmmuOp : c'.stage = .deactivateStart ∨ c'.stage = .deactivateFinish → c.sid = none)
    (htableOp : c'.stage = .destroyL2Start ∨ c'.stage = .destroyL2Finish → ∃ sid, c.sid = some sid)
    (hstage : c'.stage.fid = .reclaim ∨ c'.stage.holding = false)
    (hfailed : c'.stage = .reclaimStart ∨ c'.stage = .reclaimFinish → c'.retErr = .errorInput) : c'.Fits size bits := by
  have hno : c'.stage ≠ .activateStart ∧ c'.stage ≠ .activateFinish ∧ c'.stage ≠ .createL2Start ∧
      c'.stage ≠ .createL2Finish := by
    refine ⟨?_,?_,?_,?_⟩ <;> rintro hs <;> rw [hs] at hstage <;> rcases hstage with h | h <;> cases h
  refine ⟨hdue,hidx ▸ h.range,fun hs => ?_,fun hs => ?_,fun sid hs => ?_,fun hs => absurd hs hno.1,
    fun hs => absurd hs hno.2.1,fun hs => absurd hs hno.2.2.1,fun hs => absurd hs hno.2.2.2,hfailed⟩
  · rw [hsid]
    rcases hs with hs | hs | hs
    · exact absurd hs hno.1
    · exact absurd hs hno.2.1
    · exact hsmmuOp hs
  · rw [hsid]
    rcases hs with hs | hs | hs
    · exact absurd hs hno.2.2.1
    · exact absurd hs hno.2.2.2
    · exact htableOp hs
  · rw [hsmmu]
    exact h.sid sid (hsid ▸ hs)

theorem Fits.abandon (h : c.Fits size bits) (hcopy : c.copying = false) : c.abandon.Fits size bits :=
  fits_last h ⟨fun _ => rfl,fun hc => absurd hc (by rw [show c.abandon.copying = c.copying from rfl,hcopy]; simp),
    nofun⟩ rfl rfl rfl (fun hs => by rcases hs with hs | hs <;> cases hs)
    (fun hs => by rcases hs with hs | hs <;> cases hs) (.inl rfl) fun _ => rfl

theorem Fits.reclaim (h : c.Fits size bits) (hfid : c.stage.fid = .reclaim)
    (hc' : c' = { c with stage := c.stage.reclaimed,expected := e,copying := b }) (hdue : c'.Due) :
    c'.Fits size bits := by
  subst hc'
  have hst : c.stage = .deactivateStart ∨ c.stage = .destroyL2Start ∨ c.stage = .reclaimStart := by
    cases hs : c.stage <;> simp [hs,Stage.fid] at hfid ⊢
  refine fits_last h hdue rfl rfl rfl (fun hs => ?_) (fun hs => ?_) (.inr ?_) fun hs => ?_
  · rcases hst with hst | hst | hst <;> simp only [hst,Stage.reclaimed] at hs
    · exact h.smmuOp (.inr (.inr (.inl hst)))
    · rcases hs with hs | hs <;> cases hs
    · rcases hs with hs | hs <;> cases hs
  · rcases hst with hst | hst | hst <;> simp only [hst,Stage.reclaimed] at hs
    · rcases hs with hs | hs <;> cases hs
    · exact h.tableOp (.inr (.inr (.inl hst)))
    · rcases hs with hs | hs <;> cases hs
  · rcases hst with hst | hst | hst <;> simp only [hst] <;> rfl
  · rcases hst with hst | hst | hst <;> simp only [hst,Stage.reclaimed] at hs
    · rcases hs with hs | hs <;> cases hs
    · rcases hs with hs | hs <;> cases hs
    · exact h.failed (.inl hst)

theorem Fits.copy (h : c.Fits size bits) (hcopy : c.copying = true)
    (hc' : c' = { c with expected := e,copying := b }) (hdue : c'.Due) : c'.Fits size bits := by
  subst hc'
  exact fits_last h hdue rfl rfl rfl (fun hs => h.smmuOp (.inr (.inr hs))) (fun hs => h.tableOp (.inr (.inr hs)))
    (.inr (h.due.copying hcopy).2) h.failed

theorem Fits.advance (h : c.Fits size bits) (hfid : c.stage.fid = .donate) (hcopy : c.copying = false)
    {b : Nat → Nat} :
    ({ c with base := b,total := c.total + c.requested c.rangeIdx } : Ctx).advance.Fits size bits := by
  have hnext : ∀ k, c.total = c.before k → k = c.rangeIdx →
      c.total + c.requested c.rangeIdx = c.before (c.rangeIdx+1) := fun k ht hk => by
    rw [ht,hk]
    rfl
  rcases fid_donate hfid with hst | hst
  · obtain ⟨hfill,hreq⟩ := h.activating hst
    unfold Ctx.advance
    rw [if_pos hst]
    split
    next hlt =>
      refine ⟨⟨fun _ => by rw [hst]; rfl,fun hc => absurd hc (by simp [hcopy]),fun hs => ?_⟩,hlt,
        fun _ => h.smmuOp (.inl hst),h.tableOp,h.sid,fun _ => ⟨⟨hfill.holding,?_,Nat.le_succ _⟩,hreq⟩,
        fun hs => ?_,fun hs => ?_,fun hs => ?_,h.failed⟩
      · cases hst.symm.trans hs
      · exact hnext _ hfill.total rfl
      · cases hst.symm.trans hs
      · cases hst.symm.trans hs
      · cases hst.symm.trans hs
    next hlt =>
    have hr : c.rangeIdx+1 = psmmuMemRangeNum := by
      have := h.range
      simp only at hlt
      omega
    refine ⟨⟨fun _ => rfl,fun hc => absurd hc (by simp [hcopy]),nofun⟩,h.range,
      fun _ => h.smmuOp (.inl hst),fun hs => ?_,h.sid,nofun,
      fun _ => ⟨⟨rfl,?_,le_of_eq hr.symm⟩,hreq⟩,nofun,nofun,fun hs => ?_⟩
    · rcases hs with hs | hs | hs | hs <;> cases hs
    · rw [← hr]
      exact hnext _ hfill.total rfl
    · rcases hs with hs | hs <;> cases hs
  · obtain ⟨hfill,hidx,hreq⟩ := h.creating hst
    unfold Ctx.advance
    rw [if_neg (by rw [hst]; simp)]
    obtain ⟨x,hx⟩ := h.tableOp (.inl hst)
    refine ⟨⟨fun _ => rfl,fun hc => absurd hc (by simp [hcopy]),fun _ => ⟨x,hx⟩⟩,h.range,fun hs => ?_,
      fun _ => ⟨x,hx⟩,h.sid,nofun,nofun,nofun,
      fun _ => ⟨⟨rfl,?_,le_of_eq (by rw [hidx])⟩,hreq⟩,fun hs => ?_⟩
    · rcases hs with hs | hs | hs | hs <;> cases hs
    · show c.total + c.requested c.rangeIdx = c.before 1
      rw [hnext 0 hfill.total hidx.symm,hidx]
    · rcases hs with hs | hs <;> cases hs

end Ctx

namespace Rmm

variable {s : Rmm} {h i : Nat} {c : Ctx} {o : Option Ctx} {m : Smmu} (n : Nat)

def size (s : Rmm) (i : Nat) : Nat → Nat := (s.smmu i).size

def bits (s : Rmm) (i : Nat) : Nat := (s.smmu i).tab.sidBits

def Contexts (s : Rmm) : Prop := ∀ h c, s.sro h = some c → c.Fits s.size s.bits

theorem smmu_setSmmu (j : Nat) : (s.setSmmu i m).smmu j = if j = i then m else s.smmu j :=
  Function.update_apply ..

theorem sro_setSro (h' : Nat) : (s.setSro h o).sro h' = if h' = h then o else s.sro h' :=
  Function.update_apply ..

theorem forall_setSro {P : Nat → Ctx → Prop} (hold : ∀ h' c', h' ≠ h → s.sro h' = some c' → P h' c')
    (hnew : ∀ c', o = some c' → P h c') (h' : Nat) (c' : Ctx) (hc : (s.setSro h o).sro h' = some c') : P h' c' := by
  rw [sro_setSro] at hc
  split at hc
  next he =>
    subst he
    exact hnew c' hc
  next he => exact hold h' c' he hc

theorem dims_setSmmu (hs : m.size = (s.smmu i).size) (hb : m.tab.sidBits = (s.smmu i).tab.sidBits) :
    (s.setSmmu i m).size = s.size ∧ (s.setSmmu i m).bits = s.bits := by
  constructor <;> funext j <;> simp only [size,bits,smmu_setSmmu] <;> split
  next hj => rw [hs,hj]
  next => rfl
  next hj => rw [hb,hj]
  next => rfl

@[simp] theorem report_sro (st : Status) : (s.report n st).sro = s.sro := by
  unfold report
  split <;> rfl

@[simp] theorem report_smmu (st : Status) : (s.report n st).smmu = s.smmu := by
  unfold report
  split <;> rfl

@[simp] theorem report_granule (st : Status) : (s.report n st).granule = s.granule := by
  unfold report
  split <;> rfl

@[simp] theorem report_counters (st : Status) :
    (s.report n st).donated = s.donated ∧ (s.report n st).returned = s.returned := by
  unfold report
  split <;> exact ⟨rfl,rfl⟩

@[simp] theorem report_attached (st : Status) : (s.report n st).attached = s.attached := by
  unfold report
  split <;> rfl

end Rmm

variable {s s' : Rmm} {h i : Nat} {c : Ctx} {o : Option Ctx} {m : Smmu} {st : Status}

open Rmm

theorem Concludes.dims (hcon : Concludes s c s' st) : s'.size = s.size ∧ s'.bits = s.bits := by
  have hset := dims_setSmmu (m := (s.smmu c.smmu).setState .inactive) rfl rfl
  cases hcon with
  | deactivate => exact hset
  | destroyL2 => exact ⟨rfl,rfl⟩
  | reclaim =>
    split
    · exact hset
    · exact ⟨rfl,rfl⟩

theorem Concludes.sro (hcon : Concludes s c s' st) : s'.sro = s.sro := by
  cases hcon with
  | deactivate => rfl
  | destroyL2 => rfl
  | reclaim => split <;> rfl

theorem Rmm.memoryReclaim_dims {n r t : Nat} : (memoryReclaim c s n r t).smmu = s.smmu ∧
    (memoryReclaim c s n r t).sro = s.sro := by
  obtain ⟨g,f,hx⟩ := memoryReclaim_books c s n r t
  rw [hx]
  exact ⟨rfl,rfl⟩

theorem Effect.dims (he : Effect s s') : s'.size = s.size ∧ s'.bits = s.bits := by
  cases he with
  | same | refuse | create | donate | skip | abandon | copy | refusedL2 | elsewhere => exact ⟨rfl,rfl⟩
  | activate i h | createdL2 | destroy | attach | detach | toggle => exact dims_setSmmu rfl rfl
  | reclaim h c c' =>
    have hx := (memoryReclaim_dims (s := s) (c := c) (n := c.rangeIdx+1) (r := 0) (t := c.total)).1
    constructor <;> funext i <;> simp only [size,bits,setSro,hx]
  | activated h c m hc hst hm => exact dims_setSmmu hm.size (by rw [hm.tab])
  | undone h c m hc hst hm =>
    apply dims_setSmmu hm.size
    rcases hm.tab with ht | ht <;> rw [ht]
  | conclude h c s₁ st hc hcon =>
    have := hcon.dims
    constructor <;> funext i <;> simp only [size,bits,report_smmu,setSro]
    · exact congrFun this.1 i
    · exact congrFun this.2 i
  | deactivate i h m c hact hh hz hm => exact dims_setSmmu hm.size (by rw [hm.tab]; rfl)

theorem Rmm.Contexts.setSro (hfit : s.Contexts) (hnew : ∀ c, o = some c → c.Fits s.size s.bits) (h' : Nat)
    (c' : Ctx) (hc : (s.setSro h o).sro h' = some c') : c'.Fits s.size s.bits :=
  forall_setSro (fun h' c' _ => hfit h' c') hnew h' c' hc

theorem Rmm.Contexts.put (hfit : s.Contexts) (hnew : d.Fits s.size s.bits) (h' : Nat) (c' : Ctx)
    (hc : (s.setSro h (some d)).sro h' = some c') : c'.Fits s.size s.bits :=
  hfit.setSro (fun _ hd => Option.some.inj hd ▸ hnew) h' c' hc

theorem Rmm.Contexts.clear (hfit : s.Contexts) (h' : Nat) (c' : Ctx)
    (hc : (s.setSro h none).sro h' = some c') : c'.Fits s.size s.bits :=
  hfit.setSro (fun _ hd => by cases hd) h' c' hc

theorem Rmm.plain_of_donate (hfit : s.Contexts) (hc : s.sro h = some c) (hfid : c.stage.fid = .donate) :
    c.copying = false := by
  by_contra hcopy
  have := ((hfit h c hc).due.copying (Bool.eq_true_of_not_eq_false hcopy)).2
  rcases Ctx.fid_donate hfid with hst | hst <;> rw [hst] at this <;> cases this

theorem Rmm.plain_of_holding (hfit : s.Contexts) (hc : s.sro h = some c) (hh : c.stage.holding = true) :
    c.copying = false := by
  by_contra hcopy
  rw [((hfit h c hc).due.copying (Bool.eq_true_of_not_eq_false hcopy)).2] at hh
  cases hh

theorem Rmm.Contexts.effect (hfit : s.Contexts) (he : Effect s s') : s'.Contexts := fun h' c' hc' => by
  rw [he.dims.1,he.dims.2]
  cases he with
  | same | refuse | attach | detach | toggle | elsewhere => exact hfit h' c' hc'
  | activate i h hst hh => exact hfit.put (Ctx.fits_activate s i) h' c' hc'
  | create i sid h hsid hh => exact hfit.put (Ctx.fits_create s (Smmu.sid_lt hsid)) h' c' hc'
  | donate h c base n hc hfid hd hn =>
    subst hn
    exact hfit.put ((hfit h c hc).advance hfid (plain_of_donate hfit hc hfid)) h' c' hc'
  | skip h c hc hfid hz =>
    have := (hfit h c hc).advance hfid (plain_of_donate hfit hc hfid) (b := c.base)
    rw [hz,add_zero] at this
    exact hfit.put this h' c' hc'
  | abandon h c hc hst | undone h c m hc hst hm | refusedL2 h c hc hst =>
    exact hfit.put ((hfit h c hc).abandon (plain_of_holding hfit hc (by rw [hst]; rfl))) h' c' hc'
  | reclaim h c c₂ e b hc hfid hc₂ hdue =>
    rw [sro_setSro,memoryReclaim_dims.2,← sro_setSro] at hc'
    exact hfit.put ((hfit h c hc).reclaim hfid hc₂ hdue) h' c' hc'
  | copy h c c₂ e b hc hcopy hc₂ hdue => exact hfit.put ((hfit h c hc).copy hcopy hc₂ hdue) h' c' hc'
  | activated h c m hc hst hm | createdL2 h c sid hc hst hsid hact hnone =>
    rw [report_sro] at hc'
    exact hfit.clear h' c' hc'
  | conclude h c s₁ st hc hcon =>
    rw [report_sro] at hc'
    rw [sro_setSro,hcon.sro,← sro_setSro] at hc'
    exact hfit.clear h' c' hc'
  | deactivate i h m c hact hh hz hm hc =>
    subst hc
    refine hfit.put ?_ h' c' hc'
    exact ⟨⟨fun _ => rfl,nofun,nofun⟩,(by decide : 2 < psmmuMemRangeNum),
      fun _ => rfl,fun h => (by rcases h with h | h | h | h <;> cases h),nofun,
      nofun,nofun,nofun,nofun,
      fun h => (by rcases h with h | h <;> cases h)⟩
  | destroy i sid h pa c hsid hact hh hl hr hc =>
    subst hc
    refine hfit.put ?_ h' c' hc'
    refine ⟨⟨fun _ => rfl,nofun,nofun⟩,(by decide : 0 < psmmuMemRangeNum),
      fun h => (by rcases h with h | h | h | h <;> cases h),fun _ => ⟨sid,rfl⟩,fun x hx => ?_,
      nofun,nofun,nofun,nofun,
      fun h => (by rcases h with h | h <;> cases h)⟩
    cases hx
    exact Smmu.sid_lt hsid

open Function

structure Smmu.Ok (m : Smmu) (attached : Nat → Bool) : Prop where
  sound : m.tab.Sound
  cached : ∀ k q, m.cached k = some q → m.tab.l1 k = some q
  off : m.tab.state ≠ .active → m.cr0 = allOff ∧ m.ack = allOff
  attached : ∀ sid, attached sid = (m.tab.ste sid).config
  backed : ∀ sid, (m.tab.ste sid).config = true → (m.tab.l1 (l1stdIdx sid)).isSome = true

def Rmm.Tables (s : Rmm) : Prop := ∀ i, (s.smmu i).Ok (s.attached i)

variable {t : StreamTable}

namespace Smmu

variable {m' : Smmu} {att : Nat → Bool} {k pa sid : Nat}

theorem Ok.no_tables (h : m.Ok att) (hst : m.tab.state ≠ .active) (k : Nat) : m.tab.l1 k = none :=
  h.sound.inactive hst k

theorem sound_setState (h : t.Sound) (hn : ∀ k, t.l1 k = none) (st : PsmmuState) :
    StreamTable.Sound { t with state := st } :=
  ⟨h.l1Refcnt,h.outside,fun _ => hn,h.refcount⟩

theorem clear_l1 (hn : ∀ k, t.l1 k = none) : { t with l1 := fun _ => none } = t := by
  have : t.l1 = fun _ => none := funext hn
  rw [← this]

theorem Ok.activate (h : m.Ok att) (hst : m.tab.state = .inactive) : (m.setState .busy).Ok att where
  sound := sound_setState h.sound (h.no_tables (by rw [hst]; simp)) .busy
  cached := h.cached
  off := fun _ => h.off (by rw [hst]; simp)
  attached := h.attached
  backed := h.backed

theorem Ok.inactive (h : m.Ok att) (hst : m.tab.state = .busy) : (m.setState .inactive).Ok att where
  sound := sound_setState h.sound (h.no_tables (by rw [hst]; simp)) .inactive
  cached := h.cached
  off := fun _ => h.off (by rw [hst]; simp)
  attached := h.attached
  backed := h.backed

theorem Ok.installed (h : m.Ok att) (hst : m.tab.state = .busy) {base : Nat → Nat} (hi : Installed m base m') :
    m'.Ok att where
  sound := by
    have hn := h.no_tables (by rw [hst]; simp)
    have hclear : m'.tab = { m.tab with state := .active } := by
      rw [hi.tab]
      have := clear_l1 hn
      rw [StreamTable.mk.injEq] at this
      simp [this.2.2.1]
    rw [hclear]
    exact sound_setState h.sound hn .active
  cached := fun k q hc => by
    rw [hi.cached k] at hc
    cases hc
  off := fun hn => absurd (by rw [hi.tab]) hn
  attached := fun sid => by
    rw [hi.tab]
    exact h.attached sid
  backed := fun sid hs => by
    rw [hi.tab] at hs
    have := h.backed sid hs
    rw [h.no_tables (by rw [hst]; simp)] at this
    cases this

theorem Ok.undone (h : m.Ok att) (hst : m.tab.state = .busy) (hu : Undone m m') : m'.Ok att := by
  have hn := h.no_tables (by rw [hst]; simp)
  have htab : m'.tab = m.tab := by
    rcases hu.tab with ht | ht
    · exact ht
    · rw [ht,clear_l1 hn]
  refine ⟨htab ▸ h.sound,fun k q hc => ?_,fun hs => ?_,fun sid => ?_,htab ▸ h.backed⟩
  · rw [htab]
    exact h.cached k q (hu.cached ▸ hc)
  · rw [hu.cr0,hu.ack]
    exact h.off (by rw [← htab]; exact hs)
  · rw [htab]
    exact h.attached sid

theorem Ok.removed (h : m.Ok att) (hz : m.tab.l1Refcnt = 0) (hr : Removed (m.setState .busy) m') : m'.Ok att where
  sound := by
    rw [hr.tab]
    exact sound_setState h.sound (h.sound.no_tables hz) .busy
  cached := fun k q hc => by
    rcases hr.cached k with he | he <;> rw [he] at hc
    · rw [hr.tab]
      exact h.cached k q hc
    · cases hc
  off := fun _ => ⟨hr.cr0,hr.ack⟩
  attached := fun sid => by
    rw [hr.tab]
    exact h.attached sid
  backed := fun sid hs => by
    rw [hr.tab] at hs ⊢
    exact h.backed sid hs

theorem cached_update {f g : Nat → Option Nat} (h : ∀ k q, f k = some q → g k = some q) {k q j : Nat}
    {o : Option Nat} (hc : update f k o j = some q) : update g k o j = some q := by
  rw [update_apply] at hc ⊢
  split
  next he => rwa [if_pos he] at hc
  next he =>
    rw [if_neg he] at hc
    exact h j q hc

theorem Ok.created (h : m.Ok att) (hact : m.tab.state = .active) (hnone : m.tab.l1 (l1stdIdx sid) = none)
    (hsid : sid < 2 ^ m.tab.sidBits) :
    (m.withDescriptor (l1stdIdx sid) (some pa) (createdTable m.tab (l1stdIdx sid) pa)).Ok att where
  sound := by
    have hk : l1stdIdx sid < 2 ^ m.tab.sidBits := lt_of_le_of_lt (Nat.div_le_self ..) hsid
    exact StreamTable.Sound.install (h.sound.clear) hact hk hnone
  cached := fun _ _ hc => cached_update h.cached hc
  off := fun hn => absurd hact hn
  attached := fun x => by
    rw [h.attached x]
    show _ = (if l1stdIdx x = l1stdIdx sid then Ste.zero else m.tab.ste x).config
    split
    next hx =>
      by_contra hc
      have := h.backed x (by simpa [Ste.zero] using hc)
      rw [hx,hnone] at this
      cases this
    next => rfl
  backed := fun x hx => by
    have hne : l1stdIdx x ≠ l1stdIdx sid ∧ (m.tab.ste x).config = true := by
      have hx : (if l1stdIdx x = l1stdIdx sid then Ste.zero else m.tab.ste x).config = true := hx
      split at hx
      · cases hx
      next hne => exact ⟨hne,hx⟩
    show (update m.tab.l1 (l1stdIdx sid) (some pa) (l1stdIdx x)).isSome = true
    rw [update_of_ne hne.1]
    exact h.backed x hne.2

theorem Ok.destroyed (h : m.Ok att) (hact : m.tab.state = .active) (hl : m.tab.l1 k = some pa)
    (hr : m.tab.refcount k = 0) : (m.withDescriptor k none (removedTable m.tab k)).Ok att where
  sound := h.sound.remove hl
  cached := fun _ _ hc => cached_update h.cached hc
  off := fun hn => absurd hact hn
  attached := h.attached
  backed := fun x hx => by
    have hne : l1stdIdx x ≠ k := by
      rintro rfl
      have := h.sound.refcount_pos hx
      omega
    show (update m.tab.l1 k none (l1stdIdx x)).isSome = true
    rw [update_of_ne hne]
    exact h.backed x hx

theorem ready_active (h : t.ready sid = true) : t.state = .active ∧ (t.l1 (l1stdIdx sid)).isSome = true := by
  unfold StreamTable.ready at h
  simp only [Bool.and_eq_true,beq_iff_eq] at h
  exact ⟨h.1.2,h.2⟩

theorem Ok.written (h : m.Ok att) (hsound : t.Sound) (hstate : t.state = m.tab.state)
    (hl1 : t.l1 = m.tab.l1) {e : Ste} (hste : t.ste = update m.tab.ste sid e)
    (hback : e.config = true → (m.tab.l1 (l1stdIdx sid)).isSome = true) :
    (m.withTable t).Ok (update att sid e.config) where
  sound := hsound
  cached := fun k q hc => by
    show t.l1 k = some q
    rw [hl1]
    exact h.cached k q hc
  off := fun hn => h.off (by rw [← hstate]; exact hn)
  attached := fun x => by
    show _ = (t.ste x).config
    rw [hste,update_apply,update_apply]
    split
    · rfl
    · exact h.attached x
  backed := fun x hx => by
    change (t.ste x).config = true at hx
    show (t.l1 (l1stdIdx x)).isSome = true
    rw [hl1]
    rw [hste,update_apply] at hx
    split at hx
    next he => exact he ▸ hback hx
    next => exact h.backed x hx

end Smmu

theorem Rmm.Tables.setSmmu (ht : s.Tables) (hm : m.Ok (s.attached i)) (j : Nat) :
    ((s.setSmmu i m).smmu j).Ok (s.attached j) := by
  rw [smmu_setSmmu]
  split
  next he => exact he ▸ hm
  next => exact ht j

theorem Rmm.Tables.write (ht : s.Tables) {sid : Nat} {b : Bool}
    (hm : (Smmu.withTable (s.smmu i) t).Ok (update (s.attached i) sid b)) :
    ((s.setTable i t).setAttached i sid b).Tables := fun j => by
  show ((s.setSmmu i _).smmu j).Ok (update s.attached i (update (s.attached i) sid b) j)
  rw [smmu_setSmmu,update_apply]
  split
  · exact hm
  next => exact ht j

theorem Concludes.smmu {c : Ctx} {st : Status} (hcon : Concludes s c s' st) :
    s'.attached = s.attached ∧ (s'.smmu = s.smmu ∨
      (c.sid = none ∨ c.stage = .deactivateFinish) ∧ s' = s.setInactive c.smmu) := by
  cases hcon with
  | deactivate hst => exact ⟨rfl,.inr ⟨.inr hst,rfl⟩⟩
  | destroyL2 => exact ⟨rfl,.inl rfl⟩
  | reclaim =>
    split
    next hs => exact ⟨rfl,.inr ⟨.inl (by simpa using hs),rfl⟩⟩
    next => exact ⟨rfl,.inl rfl⟩

theorem Rmm.Tables.effect (ht : s.Tables) (hfit : s.Contexts)
    (hbusy : ∀ h c, s.sro h = some c → c.sid = none → (s.smmu c.smmu).tab.state = .busy) (he : Effect s s') :
    s'.Tables := by
  cases he with
  | same | refuse | create | donate | skip | abandon | copy | refusedL2 | elsewhere => exact ht
  | activate i h hst hh => exact ht.setSmmu ((ht i).activate hst)
  | reclaim h c =>
    obtain ⟨g,f,hx⟩ := memoryReclaim_books c s (c.rangeIdx+1) 0 c.total
    rw [hx]
    exact ht
  | activated h c m hc hst hm =>
    have hb := hbusy h c hc ((hfit h c hc).smmuOp (.inr (.inl hst)))
    intro j
    rw [report_smmu,report_attached]
    exact ht.setSmmu ((ht c.smmu).installed hb hm) j
  | undone h c m hc hst hm =>
    have hb := hbusy h c hc ((hfit h c hc).smmuOp (.inr (.inl hst)))
    exact ht.setSmmu ((ht c.smmu).undone hb hm)
  | createdL2 h c sid hc hst hsid hact hnone =>
    intro j
    rw [report_smmu,report_attached]
    exact ht.setSmmu ((ht c.smmu).created hact hnone ((hfit h c hc).sid sid hsid)) j
  | conclude h c s₁ st hc hcon =>
    intro j
    rw [report_smmu,report_attached]
    obtain ⟨hatt,hs₁⟩ := hcon.smmu
    show (s₁.smmu j).Ok (s₁.attached j)
    rw [hatt]
    rcases hs₁ with hs₁ | ⟨hsid,hs₁⟩
    · rw [hs₁]
      exact ht j
    · have hsid : c.sid = none := hsid.elim id fun hst => (hfit h c hc).smmuOp (.inr (.inr (.inr hst)))
      rw [hs₁]
      exact ht.setSmmu ((ht c.smmu).inactive (hbusy h c hc hsid)) j
  | deactivate i h m c hact hh hz hm => exact ht.setSmmu ((ht i).removed hz hm)
  | destroy i sid h pa c hsid hact hh hl hr => exact ht.setSmmu ((ht i).destroyed hact hl hr)
  | attach i sid hready hz =>
    apply ht.write
    exact (ht i).written ((ht i).sound.configure hz) rfl rfl rfl fun _ => (Smmu.ready_active hready).2
  | detach i sid ha =>
    apply ht.write
    have hconf : ((s.smmu i).tab.ste sid).config = true := (ht i).attached sid ▸ ha
    exact (ht i).written ((ht i).sound.release hconf) rfl rfl rfl nofun
  | toggle i sid b =>
    have hx := (ht i).written
      (t := toggledTable (s.smmu i).tab sid b) ((ht i).sound.setSte rfl) rfl rfl
      (show _ = update _ sid _ from rfl) ((ht i).backed sid)
    rw [show ({ (s.smmu i).tab.ste sid with v := b } : Ste).config = s.attached i sid from
      ((ht i).attached sid).symm,update_eq_self] at hx
    exact ht.setSmmu hx

end TfRmm.Psmmu
