import TfRmm.Psmmu.Contexts

namespace TfRmm.Psmmu

open TfRmm.Lib TfRmm.Smmu

namespace Rmm

variable {s s' : Rmm} {h i : Nat} {c : Ctx} {o : Option Ctx} {m : Smmu}

def Works (s : Rmm) (i h : Nat) : Prop := ∃ c, s.sro h = some c ∧ c.sid = none ∧ c.smmu = i

def busy (s : Rmm) (i : Nat) : Prop := (s.smmu i).tab.state = .busy

structure Busy (s : Rmm) : Prop where
  works : ∀ i, s.busy i ↔ ∃ h, s.Works i h
  single : ∀ i h h', s.Works i h → s.Works i h' → h = h'

theorem works_congr (hsro : s'.sro = s.sro) (i h : Nat) : s'.Works i h ↔ s.Works i h := by
  unfold Works
  rw [hsro]

theorem works_setSro {h' : Nat} : (s.setSro h o).Works i h' ↔
    if h' = h then ∃ c, o = some c ∧ c.sid = none ∧ c.smmu = i else s.Works i h' := by
  unfold Works
  rw [sro_setSro]
  split <;> rfl

theorem works_same (d : Ctx) (hc : s.sro h = some c) (hsid : d.sid = c.sid) (hsmmu : d.smmu = c.smmu)
    (i h' : Nat) : (s.setSro h (some d)).Works i h' ↔ s.Works i h' := by
  rw [works_setSro]
  split
  next he =>
    subst he
    unfold Works
    rw [hc]
    simp [hsid,hsmmu]
  next => rfl

theorem works_table (hold : ∀ c, s.sro h = some c → c.sid ≠ none) (hnew : ∀ c, o = some c → c.sid ≠ none)
    (i h' : Nat) : (s.setSro h o).Works i h' ↔ s.Works i h' := by
  rw [works_setSro]
  split
  next he =>
    subst he
    constructor
    · rintro ⟨c,hc,hs,_⟩
      exact absurd hs (hnew c hc)
    · rintro ⟨c,hc,hs,_⟩
      exact absurd hs (hold c hc)
  next => rfl

theorem Busy.same (hb : s.Busy) (hst : ∀ i, s'.busy i ↔ s.busy i) (hw : ∀ i h, s'.Works i h ↔ s.Works i h) : s'.Busy := by
  refine ⟨fun i => ?_,fun i h h' h1 h2 => hb.single i h h' ((hw i h).mp h1) ((hw i h').mp h2)⟩
  rw [hst,hb.works]
  exact exists_congr fun h => (hw i h).symm

theorem Busy.start (hb : s.Busy) (hfree : ¬s.busy i) (hst : ∀ j, s'.busy j ↔ j = i ∨ s.busy j)
    (hw : ∀ j h', s'.Works j h' ↔ (h' = h ∧ j = i) ∨ (h' ≠ h ∧ s.Works j h')) (hnew : ∀ j, ¬s.Works j h) : s'.Busy := by
  have hnone : ∀ h', ¬s.Works i h' := fun h' hx => hfree ((hb.works i).mpr ⟨h',hx⟩)
  refine ⟨fun j => ?_,fun j h₁ h₂ h1 h2 => ?_⟩
  · rw [hst,hb.works]
    constructor
    · rintro (rfl | ⟨h',hx⟩)
      · exact ⟨h,(hw j h).mpr (.inl ⟨rfl,rfl⟩)⟩
      · exact ⟨h',(hw j h').mpr (.inr ⟨fun he => hnew j (he ▸ hx),hx⟩)⟩
    rintro ⟨h',hx⟩
    rcases (hw j h').mp hx with ⟨_,hj⟩ | ⟨_,hx⟩
    · exact .inl hj
    · exact .inr ⟨h',hx⟩
  · rcases (hw j h₁).mp h1 with ⟨e1,j1⟩ | ⟨_,w1⟩ <;> rcases (hw j h₂).mp h2 with ⟨e2,j2⟩ | ⟨_,w2⟩
    · rw [e1,e2]
    · exact absurd (j1 ▸ w2) (hnone h₂)
    · exact absurd (j2 ▸ w1) (hnone h₁)
    · exact hb.single j h₁ h₂ w1 w2

theorem Busy.finish (hb : s.Busy) (hworks : s.Works i h) (hst : ∀ j, s'.busy j ↔ j ≠ i ∧ s.busy j)
    (hw : ∀ j h', s'.Works j h' ↔ h' ≠ h ∧ s.Works j h') : s'.Busy := by
  refine ⟨fun j => ?_,fun j h₁ h₂ h1 h2 => hb.single j h₁ h₂ ((hw j h₁).mp h1).2 ((hw j h₂).mp h2).2⟩
  rw [hst,hb.works]
  constructor
  · rintro ⟨hj,h',hx⟩
    refine ⟨h',(hw j h').mpr ⟨?_,hx⟩⟩
    rintro rfl
    obtain ⟨c,hc,_,rfl⟩ := hx
    obtain ⟨c₂,hc₂,_,rfl⟩ := hworks
    rw [hc] at hc₂
    cases hc₂
    exact hj rfl
  · rintro ⟨h',hx⟩
    obtain ⟨hne,hx⟩ := (hw j h').mp hx
    refine ⟨?_,h',hx⟩
    rintro rfl
    exact hne (hb.single j h' h hx hworks)

theorem busy_setSmmu (j : Nat) : (s.setSmmu i m).busy j ↔ if j = i then m.tab.state = .busy else s.busy j := by
  unfold busy
  rw [smmu_setSmmu]
  split <;> rfl

theorem busy_setSmmu_same (hm : m.tab.state = (s.smmu i).tab.state) (j : Nat) : (s.setSmmu i m).busy j ↔ s.busy j := by
  rw [busy_setSmmu]
  split
  next he =>
    subst he
    unfold busy
    rw [hm]
  next => rfl

theorem busy_setSmmu_busy (hm : m.tab.state = .busy) (j : Nat) : (s.setSmmu i m).busy j ↔ j = i ∨ s.busy j := by
  rw [busy_setSmmu]
  split
  next he => simp [he,hm]
  next he => simp [he]

theorem busy_setSmmu_free (hm : m.tab.state ≠ .busy) (j : Nat) : (s.setSmmu i m).busy j ↔ j ≠ i ∧ s.busy j := by
  rw [busy_setSmmu]
  split
  next he => simp [he,hm]
  next he => simp [he]

end Rmm

open Rmm

variable {s s' : Rmm} {h i : Nat} {c c' : Ctx} {o : Option Ctx}

theorem works_start (hh : s.sro h = none) (hsid : c.sid = none) (hsmmu : c.smmu = i) (j h' : Nat) :
    (s.setSro h (some c)).Works j h' ↔ (h' = h ∧ j = i) ∨ (h' ≠ h ∧ s.Works j h') := by
  rw [works_setSro]
  split
  next he =>
    subst he
    simp [hsid,hsmmu,eq_comm]
  next he => simp [he]

theorem works_finish (j h' : Nat) : (s.setSro h none).Works j h' ↔ h' ≠ h ∧ s.Works j h' := by
  rw [works_setSro]
  split <;> simp [*]

theorem advance_frame : c.advance.sid = c.sid ∧ c.advance.smmu = c.smmu ∧ c.advance.serial = c.serial := by
  unfold Ctx.advance
  split
  · split <;> exact ⟨rfl,rfl,rfl⟩
  · exact ⟨rfl,rfl,rfl⟩

theorem Rmm.Busy.effect (hb : s.Busy) (hfit : s.Contexts) (he : Effect s s') : s'.Busy := by
  cases he with
  | same => exact hb
  | refuse | elsewhere => exact hb.same (fun _ => Iff.rfl) fun _ _ => Iff.rfl
  | activate i h hst hh =>
    refine hb.start (by unfold Rmm.busy; rw [hst]; simp) (fun j => busy_setSmmu_busy rfl j)
      (fun j h' => works_start hh rfl rfl j h') ?_
    rintro j ⟨c,hc,_⟩
    rw [hh] at hc
    cases hc
  | create i sid h hsid hh =>
    refine hb.same (fun _ => Iff.rfl) fun j h' => works_table (fun c hc => ?_) (fun c hc => ?_) j h'
    · rw [hh] at hc
      cases hc
    · cases hc
      simp [newCtx]
  | donate h c base n hc =>
    have hf := @advance_frame (c.give base n)
    exact hb.same (fun _ => Iff.rfl) fun j h' => works_same _ hc hf.1 hf.2.1 j h'
  | skip h c hc =>
    have hf := @advance_frame c
    exact hb.same (fun _ => Iff.rfl) fun j h' => works_same _ hc hf.1 hf.2.1 j h'
  | abandon h c hc | refusedL2 h c hc => exact hb.same (fun _ => Iff.rfl) fun j h' => works_same c.abandon hc rfl rfl j h'
  | reclaim h c c₂ e b hc hfid hc₂ =>
    have hd := memoryReclaim_dims (s := s) (c := c) (n := c.rangeIdx+1) (r := 0) (t := c.total)
    refine hb.same (fun j => ?_) fun j h' => ?_
    · show ((memoryReclaim c s (c.rangeIdx+1) 0 c.total).smmu j).tab.state = .busy ↔ _
      rw [hd.1]
      rfl
    · rw [works_same c₂ (by rw [hd.2]; exact hc) (by rw [hc₂]) (by rw [hc₂])]
      exact works_congr hd.2 j h'
  | copy h c c₂ e b hc hcopy hc₂ =>
    exact hb.same (fun _ => Iff.rfl) fun j h' => works_same c₂ hc (by rw [hc₂]) (by rw [hc₂]) j h'
  | activated h c m hc hst hm =>
    have hsid := (hfit h c hc).smmuOp (.inr (.inl hst))
    refine hb.finish ⟨c,hc,hsid,rfl⟩ (fun j => ?_) fun j h' => ?_
    · unfold Rmm.busy
      rw [report_smmu]
      exact busy_setSmmu_free (by rw [hm.tab]; simp) j
    · rw [works_congr (report_sro _ _)]
      exact works_finish j h'
  | undone h c m hc hst hm =>
    refine hb.same (fun j => busy_setSmmu_same ?_ j) fun j h' =>
      works_same c.abandon hc rfl rfl j h'
    rcases hm.tab with ht | ht <;> rw [ht]
  | createdL2 h c sid hc hst hsid =>
    refine hb.same (fun j => ?_) fun j h' => ?_
    · unfold Rmm.busy
      rw [report_smmu]
      refine busy_setSmmu_same ?_ j
      rfl
    · rw [works_congr (report_sro _ _)]
      refine works_table (s := s) (fun c₁ hc₁ => ?_) (fun c₁ hc₁ => by cases hc₁) j h'
      rw [hc] at hc₁
      cases hc₁
      simp [hsid]
  | conclude h c s₁ st hc hcon =>
    have hclose : ∀ j h', ((s₁.setSro h none).report c.serial st).Works j h' ↔ h' ≠ h ∧ s.Works j h' :=
      fun j h' => by
        rw [works_congr (report_sro _ _),works_finish,works_congr hcon.sro]
    have hfree : c.sid = none → s₁ = s.setInactive c.smmu →
        ((s₁.setSro h none).report c.serial st).Busy := fun hsid hs₁ => by
      refine hb.finish ⟨c,hc,hsid,rfl⟩ (fun j => ?_) hclose
      unfold Rmm.busy
      rw [report_smmu,hs₁]
      exact busy_setSmmu_free (by simp [Smmu.setState]) j
    have hkeep : (∃ sid, c.sid = some sid) → s₁ = s → ((s₁.setSro h none).report c.serial st).Busy :=
      fun hsid hs₁ => by
        refine hb.same (fun j => ?_) fun j h' => ?_
        · unfold Rmm.busy
          rw [report_smmu,hs₁]
          rfl
        rw [works_congr (report_sro _ _),hs₁]
        refine works_table (fun c₁ hc₁ => ?_) (fun c₁ hc₁ => by cases hc₁) j h'
        rw [hc] at hc₁
        cases hc₁
        obtain ⟨sid,hsid⟩ := hsid
        simp [hsid]
    cases hcon with
    | deactivate hst => exact hfree ((hfit h c hc).smmuOp (.inr (.inr (.inr hst)))) rfl
    | destroyL2 hst => exact hkeep ((hfit h c hc).tableOp (.inr (.inr (.inr hst)))) rfl
    | reclaim hst =>
      cases hsid : c.sid with
      | none =>
        rw [hsid] at hfree
        exact hfree rfl rfl
      | some sid =>
        rw [hsid] at hkeep
        exact hkeep ⟨sid,rfl⟩ rfl
  | deactivate i h m c hact hh hz hm hc =>
    subst hc
    refine hb.start (by unfold Rmm.busy; rw [hact]; simp)
      (fun j => busy_setSmmu_busy (by rw [hm.tab]; rfl) j) (fun j h' => works_start hh rfl rfl j h') ?_
    rintro j ⟨c,hc,_⟩
    rw [hh] at hc
    cases hc
  | destroy i sid h pa c hsid hact hh hl hr hc =>
    subst hc
    refine hb.same (fun j => busy_setSmmu_same ?_ j) fun j h' =>
      works_table (s := s) (fun c hc => ?_) (fun c hc => ?_) j h'
    · rfl
    · rw [hh] at hc
      cases hc
    · cases hc
      simp [newCtx]
  | attach | detach | toggle => exact hb.same (fun j => busy_setSmmu_same (by rfl) j) fun _ _ => Iff.rfl

variable {r q k : Nat} {d : Ctx} {m : Smmu}

theorem Rmm.holds_setSro (x : Holder) (q : Nat) : (s.setSro h o).Holds x q ↔
    match x with
    | .ctx h' r => if h' = h then ∃ c, o = some c ∧ c.Part r q else s.Holds x q
    | _ => s.Holds x q := by
  cases x with
  | range i r => rfl
  | table i k => rfl
  | ctx h' r =>
    simp only [Holds,sro_setSro]
    split <;> rfl

theorem Rmm.holds_setSmmu (x : Holder) (q : Nat) : (s.setSmmu i m).Holds x q ↔
    match x with
    | .range j r => if j = i then m.Range r q else s.Holds x q
    | .table j k => if j = i then m.tab.l1 k = some q else s.Holds x q
    | .ctx _ _ => s.Holds x q := by
  cases x with
  | range j r | table j k =>
    simp only [Holds,smmu_setSmmu]
    split <;> rfl
  | ctx h r => rfl

theorem holds_same (d : Ctx) (hc : s.sro h = some c) (hp : ∀ r q, d.Part r q ↔ c.Part r q) (q : Nat)
    (x : Holder) : (s.setSro h (some d)).Holds x q ↔ s.Holds x q := by
  rw [holds_setSro]
  cases x with
  | range => rfl
  | table => rfl
  | ctx h' r =>
    simp only
    split
    next he =>
      subst he
      simp [Holds,hc,hp]
    next => rfl

theorem holds_empty (hold : ∀ c, s.sro h = some c → ∀ r q, ¬c.Part r q) (hnew : ∀ c, o = some c → ∀ r q, ¬c.Part r q)
    (q : Nat) (x : Holder) : (s.setSro h o).Holds x q ↔ s.Holds x q := by
  rw [holds_setSro]
  cases x with
  | range => rfl
  | table => rfl
  | ctx h' r =>
    simp only
    split
    next he =>
      subst he
      constructor
      · rintro ⟨c,hc,hp⟩
        exact absurd hp (hnew c hc r q)
      · rintro ⟨c,hc,hp⟩
        exact absurd hp (hold c hc r q)
    next => rfl

theorem holds_smmu_same (m : Smmu) (hr : ∀ r q, m.Range r q ↔ (s.smmu i).Range r q) (hl : m.tab.l1 = (s.smmu i).tab.l1)
    (q : Nat) (x : Holder) : (s.setSmmu i m).Holds x q ↔ s.Holds x q := by
  rw [holds_setSmmu]
  cases x with
  | range j r =>
    simp only
    split
    next he =>
      subst he
      exact hr r q
    next => rfl
  | table j k =>
    simp only
    split
    next he =>
      subst he
      rw [hl]
      rfl
    next => rfl
  | ctx => rfl

theorem not_range (h : m.tab.state ≠ .active) : ¬m.Range r q := fun hr => h hr.1

theorem part_congr (hst : d.stage.holding = c.stage.holding) (hidx : d.rangeIdx = c.rangeIdx) (hbase : d.base = c.base)
    (hreq : d.requested = c.requested) (htotal : d.total = c.total) (r q : Nat) : d.Part r q ↔ c.Part r q := by
  simp only [Ctx.Part,Ctx.count,Ctx.before,hst,hidx,hbase,hreq,htotal]

theorem part_abandon (hh : c.stage.holding = true) (r q : Nat) : c.abandon.Part r q ↔ c.Part r q :=
  part_congr (d := c.abandon) hh.symm rfl rfl rfl rfl r q

theorem not_part_empty (ht : c.total = 0) : ¬c.Part r q := by
  rintro ⟨h1,h2⟩
  rw [Ctx.count_eq_zero (by rw [ht]; exact Nat.zero_le _)] at h2
  omega

theorem filled_donate {size : Nat → Nat → Nat} {bits : Nat → Nat} (hfit : c.Fits size bits)
    (hfid : c.stage.fid = .donate) : c.Filled c.rangeIdx := by
  rcases Ctx.fid_donate hfid with hst | hst
  · exact (hfit.activating hst).1
  · rw [(hfit.creating hst).2.1]
    exact (hfit.creating hst).1

theorem advance_data : c.advance.base = c.base ∧ c.advance.requested = c.requested ∧ c.advance.total = c.total := by
  unfold Ctx.advance
  split
  · split <;> exact ⟨rfl,rfl,rfl⟩
  · exact ⟨rfl,rfl,rfl⟩

theorem filled_advance (hfill : c.Filled c.rangeIdx) (base : Nat → Nat) :
    ({ c with base := base,total := c.total + c.requested c.rangeIdx } : Ctx).advance.Filled (c.rangeIdx+1) := by
  have htotal : c.total + c.requested c.rangeIdx = c.before (c.rangeIdx+1) := by
    rw [hfill.total]
    rfl
  unfold Ctx.advance
  split
  · split
    · exact ⟨hfill.holding,htotal,Nat.le_succ _⟩
    · exact ⟨rfl,htotal,le_rfl⟩
  · exact ⟨rfl,htotal,le_rfl⟩

theorem balanced_same (hb : s.ledger.Balanced) (hh : ∀ q x, s'.Holds x q ↔ s.Holds x q)
    (hg : ∀ q, (s'.granule q).kept = (s.granule q).kept := by intro; rfl) (hd : s'.donated = s.donated := by rfl)
    (hr : s'.returned = s.returned := by rfl) : s'.ledger.Balanced :=
  hb.same hh hg (fun q => congrFun hd q) fun q => congrFun hr q

theorem holds_alone (hb : s.ledger.Balanced) {x y : Holder} (hx : s.Holds x q) (hy : s.Holds y q) : x = y :=
  hb.alone x y q hx hy

theorem not_holds_free (hb : s.ledger.Balanced) (hq : (s.granule q).kept = false) (x : Holder) : ¬s.Holds x q :=
  fun hx => by
    have := (hb.held q).mpr ⟨x,hx⟩
    rw [show s.ledger.kept q = (s.granule q).kept from rfl,hq] at this
    cases this

theorem delegated_range {base n : Nat} (hd : s.delegated base n = true) (hq : base ≤ q ∧ q < base+n) :
    s.granule q = .delegated := by
  unfold Rmm.delegated at hd
  rw [List.all_eq_true] at hd
  have := hd (q-base) (List.mem_range.mpr (by omega))
  rw [show base+(q-base) = q by omega] at this
  simpa using this

theorem balanced_donate (hb : s.ledger.Balanced) (hfit : c.Fits s.size s.bits) {base n : Nat} (hc : s.sro h = some c)
    (hfid : c.stage.fid = .donate) (hd : s.delegated base n = true) (hn : n = c.requested c.rangeIdx) :
    ((s.take base n).setSro h (some (c.give base n).advance)).ledger.Balanced := by
  subst hn
  have hfill := filled_donate hfit hfid
  have hnew : (c.give base (c.requested c.rangeIdx)).advance.Filled (c.rangeIdx+1) :=
    filled_advance hfill (Function.update c.base c.rangeIdx base)
  obtain ⟨hbase,hreq,_⟩ := @advance_data (c.give base (c.requested c.rangeIdx))
  have hpart : ∀ r q, (c.give base (c.requested c.rangeIdx)).advance.Part r q ↔
      c.Part r q ∨ r = c.rangeIdx ∧ base ≤ q ∧ q < base + c.requested c.rangeIdx := fun r q => by
    rw [hnew.part,hfill.part,hbase,hreq]
    show r < c.rangeIdx+1 ∧ Function.update c.base c.rangeIdx base r ≤ q ∧
      q < Function.update c.base c.rangeIdx base r + c.requested r ↔ _
    rw [Function.update_apply]
    rcases Nat.lt_trichotomy r c.rangeIdx with hr | hr | hr
    · rw [if_neg (ne_of_lt hr)]
      constructor
      · rintro ⟨_,h1,h2⟩
        exact .inl ⟨hr,h1,h2⟩
      · rintro (⟨_,h1,h2⟩ | ⟨he,_⟩)
        · exact ⟨Nat.lt_succ_of_lt hr,h1,h2⟩
        · omega
    · subst hr
      rw [if_pos rfl]
      constructor
      · rintro ⟨_,h1,h2⟩
        exact .inr ⟨rfl,h1,h2⟩
      · rintro (⟨hl,_⟩ | ⟨_,h1,h2⟩)
        · omega
        · exact ⟨Nat.lt_succ_self _,h1,h2⟩
    · constructor
      · rintro ⟨hl,_⟩
        omega
      · rintro (⟨hl,_⟩ | ⟨he,_⟩) <;> omega
  have hholds : ∀ x q, ((s.take base (c.requested c.rangeIdx)).setSro h
      (some (c.give base (c.requested c.rangeIdx)).advance)).Holds x q ↔
      s.Holds x q ∨ x = .ctx h c.rangeIdx ∧ base ≤ q ∧ q < base + c.requested c.rangeIdx := fun x q => by
    rw [holds_setSro]
    cases x with
    | range | table => simp [Holds,Rmm.take]
    | ctx h' r =>
      simp only
      split
      next he =>
        subst he
        simp [Holds,hc,hpart]
      next he => simp [Holds,Rmm.take,he]
  refine hb.takeIn (M := fun q => base ≤ q ∧ q < base + c.requested c.rangeIdx)
    (o := fun _ => .ctx h c.rangeIdx) ⟨fun q hq x => ?_,fun q hq => ?_,fun q hq => ?_,fun q _ => rfl⟩
    (fun q hq x => ?_) (fun q hq => ?_) (fun q hq => ?_) (fun q hq => ?_) fun q _ => rfl
  · exact (hholds x q).trans ⟨fun hx => hx.elim id fun hx => absurd hx.2 hq,.inl⟩
  · show (if _ then _ else _ : GranuleState).kept = _
    rw [if_neg hq]
    rfl
  · exact if_neg hq
  · refine (hholds x q).trans ⟨fun hx => ?_,fun hx => .inr ⟨hx.symm,hq⟩⟩
    rcases hx with hx | hx
    · exact absurd hx (not_holds_free hb (by rw [delegated_range hd hq]; rfl) x)
    · exact hx.1.symm
  · show (s.granule q).kept = false
    rw [delegated_range hd hq]
    rfl
  · show (if _ then _ else _ : GranuleState).kept = true
    rw [if_pos hq]
    rfl
  · exact if_pos hq

theorem balanced_reclaim (hb : s.ledger.Balanced) (hc : s.sro h = some c) (hh : c.stage.holding = true)
    (hd : d.stage.holding = false) :
    ((Rmm.memoryReclaim c s (c.rangeIdx+1) 0 c.total).setSro h (some d)).ledger.Balanced := by
  have hspec := fun q => memoryReclaim_spec (s := s) hh (q := q) (r := 0) rfl
  simp only [Ctx.before,sumBefore,Nat.sub_zero] at hspec
  obtain ⟨g,f,hx⟩ := memoryReclaim_books c s (c.rangeIdx+1) 0 c.total
  rw [hx] at hspec ⊢
  have hheld : ∀ r q, c.Part r q → s.Holds (.ctx h r) q := fun r q hp => ⟨c,hc,hp⟩
  have hone : ∀ r q, c.Part r q → ∀ r', c.Part r' q → r' = r := fun r q hp r' hp' => by
    have := holds_alone hb (hheld r' q hp') (hheld r q hp)
    cases this
    rfl
  have hholds : ∀ x q, ((s.withBooks g f).setSro h (some d)).Holds x q ↔ s.Holds x q ∧ ∀ r, x ≠ .ctx h r :=
    fun x q => by
      rw [holds_setSro]
      cases x with
      | range | table => simp [Holds,withBooks]
      | ctx h' r =>
        simp only
        split
        next he =>
          subst he
          simp [Ctx.not_part_of_done hd]
        next he => simp [Holds,withBooks,he]
  refine hb.giveBack (M := fun q => ∃ r, c.Part r q) ⟨fun q hq x => ?_,fun q hq => ?_,fun q _ => rfl,fun q hq => ?_⟩
    (fun q hq x => ?_) (fun q hq => ?_) (fun q hq => ?_) (fun q _ => rfl) fun q hq => ?_
  · refine (hholds x q).trans ⟨fun hx => hx.1,fun hx => ⟨hx,fun r he => hq ⟨r,?_⟩⟩⟩
    subst he
    obtain ⟨c',hc',hp⟩ := hx
    rw [hc] at hc'
    cases hc'
    exact hp
  · exact congrArg GranuleState.kept ((hspec q).1 fun j _ hp => hq ⟨j,hp⟩).1
  · exact ((hspec q).1 fun j _ hp => hq ⟨j,hp⟩).2
  · obtain ⟨r,hp⟩ := hq
    intro hx
    obtain ⟨hx,hne⟩ := (hholds x q).mp hx
    exact hne r (holds_alone hb hx (hheld r q hp))
  · obtain ⟨r,hp⟩ := hq
    exact (hb.held q).mpr ⟨.ctx h r,hheld r q hp⟩
  · obtain ⟨r,hp⟩ := hq
    show (g q).kept = false
    rw [show g q = .delegated from ((hspec q).2 r (Nat.zero_le r) hp (hone r q hp)).1]
    rfl
  · obtain ⟨r,hp⟩ := hq
    exact ((hspec q).2 r (Nat.zero_le r) hp (hone r q hp)).2

variable {pa : Nat}

theorem ranges_activated (hfit : c.Fits s.size s.bits) (hst : c.stage = .activateFinish)
    (hm : Smmu.Installed (s.smmu c.smmu) c.base m) (r q : Nat) : m.Range r q ↔ c.Part r q := by
  obtain ⟨hfill,hreq⟩ := hfit.activated hst
  rw [hfill.part]
  unfold Smmu.Range
  constructor
  · rintro ⟨_,hr,h1,h2⟩
    rw [hm.pa r hr] at h1 h2
    rw [hm.size] at h2
    exact ⟨hr,h1,by rw [hreq]; exact h2⟩
  · rintro ⟨hr,h1,h2⟩
    rw [hm.pa r hr,hm.size]
    rw [hreq] at h2
    exact ⟨by rw [hm.tab],hr,h1,h2⟩

def rangeToCtx (i h : Nat) : Holder → Holder
  | .range j r => if j = i then .ctx h r else .range j r
  | x => x

def ctxToRange (i h : Nat) : Holder → Holder
  | .ctx h' r => if h' = h then .range i r else .ctx h' r
  | x => x

def tableToCtx (i k h : Nat) : Holder → Holder
  | .table j l => if j = i ∧ l = k then .ctx h 0 else .table j l
  | x => x

def ctxToTable (i k h : Nat) : Holder → Holder
  | .ctx h' r => if h' = h ∧ r = 0 then .table i k else .ctx h' r
  | x => x

def exchange (f g : Holder → Holder) : Holder → Holder
  | .ctx h r => g (.ctx h r)
  | x => f x

theorem exchange_ranges (i h : Nat) : Function.Involutive (exchange (rangeToCtx i h) (ctxToRange i h)) := by
  rintro (⟨j,r⟩ | ⟨j,k⟩ | ⟨h',r⟩)
  · by_cases he : j = i <;> simp [exchange,rangeToCtx,ctxToRange,he]
  · rfl
  · by_cases he : h' = h <;> simp [exchange,rangeToCtx,ctxToRange,he]

theorem exchange_table (i k h : Nat) : Function.Involutive (exchange (tableToCtx i k h) (ctxToTable i k h)) := by
  rintro (⟨j,r⟩ | ⟨j,l⟩ | ⟨h',r⟩)
  · rfl
  · by_cases he : j = i ∧ l = k <;> simp [exchange,tableToCtx,ctxToTable,he]
  · by_cases he : h' = h ∧ r = 0 <;> simp [exchange,tableToCtx,ctxToTable,he]

theorem kept_setGranule {g : GranuleState} (hq : (s.granule pa).kept = true) (hg : g.kept = true) (q : Nat) :
    ((s.setGranule pa g).granule q).kept = (s.granule q).kept := by
  show (Function.update s.granule pa g q).kept = _
  rw [Function.update_apply]
  split
  next he => rw [he,hg,hq]
  next => rfl

section

variable (hb : s.ledger.Balanced) (hd : s'.donated = s.donated) (hr : s'.returned = s.returned)

include hb hd hr

theorem balanced_ranges {o : Option Ctx} (hs : ∀ x q, s'.Holds x q ↔ ((s.setSmmu i m).setSro h o).Holds x q)
    (hrange : ∀ r q, m.Range r q ↔ s.Holds (.ctx h r) q) (htab : m.tab.l1 = (s.smmu i).tab.l1)
    (hctx : ∀ r q, (∃ c, o = some c ∧ c.Part r q) ↔ (s.smmu i).Range r q)
    (hg : s'.granule = s.granule) : s'.ledger.Balanced := by
  refine hb.exchange (exchange_ranges i h) (fun x q => (hs x q).trans ?_) (fun q => ?_) (congrFun hd) (congrFun hr)
  · rw [holds_setSro]
    cases x with
    | range j r =>
      apply (holds_setSmmu (.range j r) q).trans
      by_cases he : j = i
      · simp only [exchange,rangeToCtx,he,if_true]
        exact hrange r q
      · simp only [exchange,rangeToCtx,he,if_false]
        rfl
    | table j k =>
      apply (holds_setSmmu (.table j k) q).trans
      by_cases he : j = i
      · simp only [he,if_true,htab]
        rfl
      · simp only [he,if_false]
        rfl
    | ctx h' r =>
      by_cases he : h' = h
      · simp only [exchange,ctxToRange,he,if_true]
        exact hctx r q
      · simp only [exchange,ctxToRange,he,if_false]
        rfl
  · show (s'.granule q).kept = _
    rw [hg]
    rfl

theorem balanced_activated (ht : s.Tables) (hfit : c.Fits s.size s.bits)
    (hc : s.sro h = some c) (hst : c.stage = .activateFinish) (hbusy : (s.smmu c.smmu).tab.state = .busy)
    (hm : Smmu.Installed (s.smmu c.smmu) c.base m)
    (hs : ∀ x q, s'.Holds x q ↔ ((s.setSmmu c.smmu m).setSro h none).Holds x q)
    (hg : s'.granule = s.granule) : s'.ledger.Balanced := by
  have hne : (s.smmu c.smmu).tab.state ≠ .active := by
    rw [hbusy]
    simp
  refine balanced_ranges hb hd hr hs (fun r q => ?_) ?_ (fun r q => ?_) hg
  · rw [ranges_activated hfit hst hm]
    simp [Holds,hc]
  · funext k
    rw [hm.tab,(ht c.smmu).no_tables hne k]
  · simp [not_range hne]

theorem balanced_deactivate (hact : (s.smmu i).tab.state = .active) (hh : s.sro h = none)
    (hm : Smmu.Removed ((s.smmu i).setState .busy) m) (hfill : c.Filled psmmuMemRangeNum) (hbase : c.base = m.pa)
    (hreq : c.requested = m.size) (hs : ∀ x q, s'.Holds x q ↔ ((s.setSmmu i m).setSro h (some c)).Holds x q)
    (hg : s'.granule = s.granule) : s'.ledger.Balanced := by
  have hne : m.tab.state ≠ .active := by
    rw [hm.tab]
    simp [Smmu.setState]
  refine balanced_ranges hb hd hr hs (fun r q => ?_) ?_ (fun r q => ?_) hg
  · simp [not_range hne,Holds,hh]
  · rw [hm.tab]
    rfl
  have hpart : c.Part r q ↔ (s.smmu i).Range r q := by
    rw [hfill.part,hbase,hreq,hm.pa,hm.size]
    exact ⟨fun hx => ⟨hact,hx⟩,fun hx => hx.2⟩
  simpa using hpart

theorem balanced_page {o e : Option Ctx} {d : Option Nat} {t : StreamTable} {g : GranuleState}
    (hs : ∀ x q, s'.Holds x q ↔ ((s.setSmmu i ((s.smmu i).withDescriptor k d t)).setSro h o).Holds x q)
    (hst : t.state = (s.smmu i).tab.state) (htab : t.l1 = Function.update (s.smmu i).tab.l1 k d)
    (hsro : s.sro h = e) (hin : ∀ r q, (∃ c, e = some c ∧ c.Part r q) ↔ r = 0 ∧ d = some q)
    (hout : ∀ r q, (∃ c, o = some c ∧ c.Part r q) ↔ r = 0 ∧ (s.smmu i).tab.l1 k = some q)
    (hkept : (s.granule pa).kept = true) (hgk : g.kept = true)
    (hg : s'.granule = (s.setGranule pa g).granule) : s'.ledger.Balanced := by
  subst hsro
  refine hb.exchange (exchange_table i k h) (fun x q => (hs x q).trans ?_) (fun q => ?_) (congrFun hd) (congrFun hr)
  · rw [holds_setSro]
    cases x with
    | range j r =>
      apply (holds_setSmmu (.range j r) q).trans
      by_cases he : j = i
      · subst he
        simp only [if_true]
        show t.state = .active ∧ _ ↔ _
        rw [hst]
        rfl
      · simp only [he,if_false]
        rfl
    | table j l =>
      apply (holds_setSmmu (.table j l) q).trans
      by_cases he : j = i
      · subst he
        simp only [if_true]
        show t.l1 l = some q ↔ _
        by_cases hl : l = k
        · simp only [htab,hl,exchange,tableToCtx,Function.update_self,and_self,if_true]
          exact ((hin 0 q).trans (and_iff_right rfl)).symm
        · simp only [htab,hl,exchange,tableToCtx,Function.update_of_ne hl,and_false,if_false]
          rfl
      · simp only [he,exchange,tableToCtx,false_and,if_false]
        rfl
    | ctx h' r =>
      by_cases he : h' = h
      · subst he
        simp only [if_true]
        by_cases h0 : r = 0
        · simp only [h0,exchange,ctxToTable,and_self,if_true]
          exact (hout 0 q).trans (and_iff_right rfl)
        simp only [h0,exchange,ctxToTable,and_false,if_false]
        apply (hout r q).trans
        simp only [h0,false_and,false_iff]
        exact fun hx => h0 ((hin r q).mp hx).1
      · simp only [he,exchange,ctxToTable,false_and,if_false]
        rfl
  · show (s'.granule q).kept = _
    rw [hg]
    exact kept_setGranule hkept hgk q

theorem balanced_createdL2 (hc : s.sro h = some c) (hfill : c.Filled 1)
    (hreq : c.requested 0 = 1) (hnone : (s.smmu i).tab.l1 k = none)
    (hs : ∀ x q, s'.Holds x q ↔ ((s.setSmmu i ((s.smmu i).withDescriptor k (some (c.base 0))
      (createdTable (s.smmu i).tab k (c.base 0)))).setSro h none).Holds x q)
    (hg : s'.granule = (s.setGranule (c.base 0) .psmmuStL2).granule) : s'.ledger.Balanced := by
  have hpart : ∀ r q, c.Part r q ↔ r = 0 ∧ c.base 0 = q := fun r q => by
    rw [hfill.part]
    constructor
    · rintro ⟨hr,h1,h2⟩
      obtain rfl : r = 0 := by omega
      exact ⟨rfl,by omega⟩
    · rintro ⟨rfl,rfl⟩
      exact ⟨by omega,le_rfl,by omega⟩
  have hkept : (s.granule (c.base 0)).kept = true :=
    (hb.held _).mpr ⟨.ctx h 0,c,hc,(hpart 0 _).mpr ⟨rfl,rfl⟩⟩
  refine balanced_page hb hd hr hs rfl rfl hc (fun r q => ?_) (fun r q => ?_) hkept rfl hg
  · simp [hpart]
  · simp [hnone]

theorem balanced_destroy (hh : s.sro h = none) (hl : (s.smmu i).tab.l1 k = some pa)
    (hpart : ∀ r q, c.Part r q ↔ r = 0 ∧ q = pa)
    (hs : ∀ x q, s'.Holds x q ↔ ((s.setSmmu i ((s.smmu i).withDescriptor k none
      (removedTable (s.smmu i).tab k))).setSro h (some c)).Holds x q)
    (hg : s'.granule = (s.setGranule pa .internal).granule) : s'.ledger.Balanced := by
  have hkept : (s.granule pa).kept = true := (hb.held _).mpr ⟨.table i k,hl⟩
  refine balanced_page hb hd hr hs rfl rfl hh (fun r q => ?_) (fun r q => ?_) hkept rfl hg
  · simp
  · simp [hpart,hl,eq_comm]

end

end TfRmm.Psmmu
