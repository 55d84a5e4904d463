import TfRmm.Da.Freshness

namespace TfRmm.Da

open TfRmm.Smmu

open Function
open StreamTable

variable {s s' : Rmm} {c : Command} {v v' : Vdev} {t : StreamTable} {cfg : Config}

def Vdev.unlocking (v : Vdev) : Prop := v.op = .unlock ∧ v.commState ≠ .idle

def Vdev.quiesced (v : Vdev) : Prop := v.rmiState = .new ∨ v.rmiState = .unlocked ∨ v.unlocking

def Allowed (s : Rmm) (c : Command) : Prop :=
  c.quiet = true ∧ ∀ rd id n f e e', c = .dmaEnable rd id n f e e' →
    ∀ a, (s.rd rd).vdevMap id = some a → ¬ (s.vdev a).unlocking

structure Dma (s : Rmm) : Prop where
  sound : ∀ i, (s.smmu i).Sound
  table : ∀ a, s.granule a = .vdev → ((s.smmu (s.vdev a).smmuIdx).l1 (l1stdIdx (s.vdev a).sid)).isSome
  stream : ∀ a, s.granule a = .vdev →
    (s.smmu (s.vdev a).smmuIdx).ste (s.vdev a).sid = ⟨true,(s.vdev a).dmaEnabled⟩
  apart : ∀ a b, s.granule a = .vdev → s.granule b = .vdev → (s.vdev a).smmuIdx = (s.vdev b).smmuIdx →
    (s.vdev a).sid = (s.vdev b).sid → a = b
  quiesced : ∀ a, s.granule a = .vdev → (s.vdev a).quiesced → (s.vdev a).dmaEnabled = false

theorem Dma.transfer (h : Dma s) (hsmmu : s'.smmu = s.smmu)
    (hvdev : ∀ a, s'.granule a = .vdev → s.granule a = .vdev ∧ SameVdev (s.vdev a) (s'.vdev a) ∧
      (s'.vdev a).dmaEnabled = (s.vdev a).dmaEnabled ∧
      ((s'.vdev a).quiesced → (s.vdev a).dmaEnabled = false)) : Dma s' := by
  refine ⟨fun i => ?_,fun a ha => ?_,fun a ha => ?_,fun a b ha hb hi hsid => ?_,fun a ha hq => ?_⟩
  · rw [hsmmu]
    exact h.sound i
  · obtain ⟨ha,hs,_⟩ := hvdev a ha
    rw [hsmmu,hs.smmuIdx,hs.sid]
    exact h.table a ha
  · obtain ⟨ha,hs,hd,_⟩ := hvdev a ha
    rw [hsmmu,hs.smmuIdx,hs.sid,hd]
    exact h.stream a ha
  · obtain ⟨ha,hs,_⟩ := hvdev a ha
    obtain ⟨hb,hs',_⟩ := hvdev b hb
    rw [hs.smmuIdx,hs'.smmuIdx] at hi
    rw [hs.sid,hs'.sid] at hsid
    exact h.apart a b ha hb hi hsid
  · obtain ⟨_,_,hd,hq'⟩ := hvdev a ha
    rw [hd]
    exact hq' hq

theorem Dma.of_vdevs (h : Dma s) (hsmmu : s'.smmu = s.smmu) (hv : s'.vdev = s.vdev)
    (hg : ∀ a, s'.granule a = .vdev → s.granule a = .vdev) : Dma s' := by
  refine h.transfer hsmmu fun a ha => ?_
  rw [hv]
  exact ⟨hg a ha,.refl _,rfl,h.quiesced a (hg a ha)⟩

theorem Dma.setGranule (h : Dma s) {t : Rmm} {a : Nat} {g : Rtt.GranuleState} (hsmmu : t.smmu = s.smmu)
    (hv : t.vdev = s.vdev) (hgran : t.granule = s.granule) (hg : g ≠ .vdev) : Dma (t.setGranule a g) := by
  refine h.of_vdevs hsmmu hv fun b hb => ?_
  rw [Rmm.granule_setGranule] at hb
  split at hb
  · exact absurd hb hg
  · rwa [hgran] at hb

theorem Dma.setVdev (h : Dma s) {t : Rmm} {a : Nat} (hsmmu : t.smmu = s.smmu) (hv : t.vdev = s.vdev)
    (hgran : t.granule = s.granule) (hs : SameVdev (s.vdev a) v') (hd : v'.dmaEnabled = (s.vdev a).dmaEnabled)
    (hq : v'.quiesced → (s.vdev a).dmaEnabled = false) : Dma (t.setVdev a v') := by
  cases t
  subst hsmmu hv hgran
  refine h.transfer rfl fun b hb => ⟨hb,?_⟩
  show SameVdev _ (update s.vdev a v' b) ∧ (update s.vdev a v' b).dmaEnabled = _ ∧
    ((update s.vdev a v' b).quiesced → _)
  by_cases hba : b = a
  · subst hba
    rw [update_self]
    exact ⟨hs,hd,hq⟩
  · rw [update_of_ne hba]
    exact ⟨.refl _,rfl,h.quiesced b hb⟩

theorem Move.quiesced (hs : v.Sane) (hm : Move v v') (h : v.quiesced → v.dmaEnabled = false)
    (hq : v'.quiesced) : v.dmaEnabled = false := by
  cases hm with
  | start op hidle hop =>
    rcases hq with hq | hq | ⟨hq,_⟩
    · exact h (.inl hq)
    · exact h (.inr (.inl hq))
    · have hq : op = .unlock := hq
      rw [hq] at hop
      exact absurd hop (by simp [startable])
  | unlock hidle hoff hst => exact hoff
  | active hcomm =>
    rcases hq with hq | hq | ⟨hq,_⟩
    · exact h (.inl hq)
    · exact h (.inr (.inl hq))
    · exact h (.inr (.inr ⟨hq,hcomm⟩))
  | fail hcomm =>
    rcases hq with hq | hq | ⟨_,hq⟩
    · cases hq
    · cases hq
    · exact absurd rfl hq
  | abort hcomm =>
    rw [abortState_eq hs] at hq
    rcases hq with hq | hq | ⟨_,hq⟩
    · cases hq
    · cases hq
    · exact absurd rfl hq
  | finish st hcomm hf =>
    generalize hop : v.op = op at hf
    cases hf with
    | unlock => exact h (.inr (.inr ⟨hop,hcomm⟩))
    | init => exact h (.inl (hs.init hop hcomm))
    | start => rcases hq with hq | hq | ⟨hq,_⟩ <;> cases hq

theorem Renews.quiesced {r r' : Realm} {f : Freshness} {st : VdevState}
    (hf : Renews r v.freshness v.rmiState v.op r' f st) (h : v.quiesced → v.dmaEnabled = false)
    (hq : Vdev.quiesced { v with rmiState := st,commState := .idle,freshness := f,op := .none }) :
    v.dmaEnabled = false := by
  have hst : st = .new ∨ st = .unlocked := by
    rcases hq with hq | hq | ⟨hq,_⟩
    · exact .inl hq
    · exact .inr hq
    · cases hq
  generalize v.op = op at hf
  cases hf with
  | lock _ => simp at hst
  | meas _ | report _ => exact h (hst.imp_right .inl)

structure Kept (t t' : StreamTable) : Prop where
  sound : t'.Sound
  stream : ∀ sid, (t.l1 (l1stdIdx sid)).isSome → (t.ste sid).config = true →
    (t'.l1 (l1stdIdx sid)).isSome ∧ t'.ste sid = t.ste sid

theorem Kept.refl (h : t.Sound) : Kept t t := ⟨h,fun _ h1 _ => ⟨h1,rfl⟩⟩

theorem Kept.setState (h : t.Sound) (hn : ∀ k, t.l1 k = none) (st : PsmmuState) : Kept t { t with state := st } :=
  ⟨⟨h.l1Refcnt,h.outside,fun _ => hn,h.refcount⟩,fun _ h1 _ => ⟨h1,rfl⟩⟩

theorem registerStL2_kept (h : t.Sound) {sid pa : Nat} {mapping inval : Option Errno}
    (hsid : sid < 2 ^ t.sidBits) : Kept t (t.registerStL2 sid pa mapping inval).1 := by
  unfold registerStL2
  extract_lets k t'
  split
  · exact .refl h
  next hact =>
  have hact := not_not.mp hact
  split
  · exact .refl h
  next hk =>
  have hk : t.l1 k = none := by simpa using hk
  cases mapping with
  | some e => exact .refl h
  | none =>
    have hlt : k < 2 ^ t.sidBits := Nat.lt_of_le_of_lt (Nat.div_le_self _ _) hsid
    have hclear : ((t.clearTable k).setRefcount k 0).Sound := h.clear
    have hne : ∀ x, (t.l1 (l1stdIdx x)).isSome → l1stdIdx x ≠ k := fun x hx hxk => by
      rw [hxk,hk] at hx
      cases hx
    cases inval with
    | some e =>
      have hl : t'.setL1 k none = (t.clearTable k).setRefcount k 0 := by
        simp only [t',setL1,StreamTable.setRefcount,update_idem]
        rw [show update (t.clearTable k).l1 k none = (t.clearTable k).l1 from
          update_eq_iff.mpr ⟨hk.symm,fun _ _ => rfl⟩]
      rw [hl]
      refine ⟨hclear,fun x hx _ => ⟨hx,?_⟩⟩
      show (if l1stdIdx x = k then Ste.zero else t.ste x) = t.ste x
      rw [if_neg (hne x hx)]
    | none =>
      refine ⟨hclear.install hact hlt hk,fun x hx _ => ⟨?_,?_⟩⟩
      · show (update t.l1 k (some pa) (l1stdIdx x)).isSome
        rw [update_of_ne (hne x hx)]
        exact hx
      · show (if l1stdIdx x = k then Ste.zero else t.ste x) = t.ste x
        rw [if_neg (hne x hx)]

theorem releaseStL2_kept (h : t.Sound) {sid : Nat} {inval : Option Errno} : Kept t (t.releaseStL2 sid inval).1 := by
  unfold releaseStL2
  extract_lets k t'
  split
  · exact .refl h
  split
  · exact .refl h
  next pa hpa =>
  split
  · exact .refl h
  next hcount =>
  have hcount := not_not.mp hcount
  have hkept : Kept t { t.setL1 k none with l1Refcnt := t.l1Refcnt-1 } := by
    refine ⟨h.remove hpa,fun x hx hc => ⟨?_,rfl⟩⟩
    have hne : l1stdIdx x ≠ k := fun hxk => by
      have := h.refcount_pos hc
      rw [hxk,hcount] at this
      cases this
    show (update t.l1 k none (l1stdIdx x)).isSome
    rw [update_of_ne hne]
    exact hx
  cases inval <;> exact hkept

theorem psmmu_kept (h : t.Sound) (op : PsmmuOp) : Kept t (StreamTable.psmmu t op) := by
  cases op with
  | activate =>
    simp only [StreamTable.psmmu,setBusy]
    split
    next hst => exact .setState h (h.inactive (by rw [hst]; simp)) _
    · exact .refl h
  | activateFinish =>
    simp only [StreamTable.psmmu]
    split
    next hst =>
      have hn := h.inactive (by rw [hst]; simp)
      have hl : (fun _ => none) = t.l1 := by funext k; exact (hn k).symm
      rw [hl]
      exact .setState h hn _
    · exact .refl h
  | setInactive =>
    simp only [StreamTable.psmmu]
    split
    next hst => exact .setState h (h.inactive (by rw [hst]; simp)) _
    · exact .refl h
  | deactivate =>
    simp only [StreamTable.psmmu]
    split
    next hst => exact .setState h (h.no_tables hst.2) _
    · exact .refl h
  | createStL2 sid pa mapping inval =>
    simp only [StreamTable.psmmu]
    split
    next hsid =>
      simp only [validSid,Bool.and_eq_true,decide_eq_true_eq] at hsid
      exact registerStL2_kept h hsid.2
    · exact .refl h
  | destroyStL2 sid inval =>
    simp only [StreamTable.psmmu]
    split
    · exact releaseStL2_kept h
    · exact .refl h

theorem Rmm.smmu_setSmmu {i j : Nat} : (s.setSmmu i t).smmu j = if j = i then t else s.smmu j :=
  update_apply ..

open Rmm (runs smmu_setSmmu)
open Sample (boot boot_initial platform)

theorem Dma.psmmu (h : Dma s) (i : Nat) (op : PsmmuOp) : Dma (s.setSmmu i (StreamTable.psmmu (s.smmu i) op)) := by
  have hk := psmmu_kept (h.sound i) op
  have hstream : ∀ a, s.granule a = .vdev →
      (((s.setSmmu i (StreamTable.psmmu (s.smmu i) op)).smmu (s.vdev a).smmuIdx).l1
        (l1stdIdx (s.vdev a).sid)).isSome ∧
      ((s.setSmmu i (StreamTable.psmmu (s.smmu i) op)).smmu (s.vdev a).smmuIdx).ste (s.vdev a).sid =
        ⟨true,(s.vdev a).dmaEnabled⟩ := fun a ha => by
    rw [smmu_setSmmu]
    split
    next hi =>
      have h1 := h.table a ha
      have h2 := h.stream a ha
      rw [hi] at h1 h2
      obtain ⟨h3,h4⟩ := hk.stream _ h1 (by rw [h2])
      exact ⟨h3,h4.trans h2⟩
    · exact ⟨h.table a ha,h.stream a ha⟩
  refine ⟨fun j => ?_,fun a ha => (hstream a ha).1,fun a ha => (hstream a ha).2,h.apart,h.quiesced⟩
  rw [smmu_setSmmu]
  split
  · exact hk.sound
  · exact h.sound j

theorem stream_other (h : Dma s) {i sid b : Nat} (hl1 : t.l1 = (s.smmu i).l1)
    (hste : ∀ x, x ≠ sid → t.ste x = (s.smmu i).ste x) (hb : s.granule b = .vdev)
    (hne : (s.vdev b).smmuIdx = i → (s.vdev b).sid ≠ sid) :
    (((s.setSmmu i t).smmu (s.vdev b).smmuIdx).l1 (l1stdIdx (s.vdev b).sid)).isSome ∧
      ((s.setSmmu i t).smmu (s.vdev b).smmuIdx).ste (s.vdev b).sid = ⟨true,(s.vdev b).dmaEnabled⟩ := by
  rw [smmu_setSmmu]
  split
  next hi =>
    have h1 := h.table b hb
    have h2 := h.stream b hb
    rw [hi] at h1 h2
    rw [hl1,hste _ (hne hi)]
    exact ⟨h1,h2⟩
  · exact ⟨h.table b hb,h.stream b hb⟩

theorem Dma.ownStream (h : Dma s) {a : Nat} (ha : s.granule a = .vdev) (hv : s.vdev a = v) (hsound : t.Sound)
    (hl1 : t.l1 = (s.smmu v.smmuIdx).l1) (hste : ∀ x, x ≠ v.sid → t.ste x = (s.smmu v.smmuIdx).ste x)
    (hself : t.ste v.sid = ⟨true,v'.dmaEnabled⟩) (hs : SameVdev v v') (hq : v'.quiesced → v'.dmaEnabled = false) : Dma
    ((s.setSmmu v.smmuIdx t).setVdev a v') := by
  have hvdev : ∀ b, ((s.setSmmu v.smmuIdx t).setVdev a v').vdev b = if b = a then v' else s.vdev b :=
    fun b => update_apply ..
  have hother : ∀ b, s.granule b = .vdev → b ≠ a → (s.vdev b).smmuIdx = v.smmuIdx →
      (s.vdev b).sid ≠ v.sid := fun b hb hba hi hsid =>
    hba (h.apart b a hb ha (by rw [hi,hv]) (by rw [hsid,hv]))
  have hstream : ∀ b, s.granule b = .vdev →
      (((s.setSmmu v.smmuIdx t).smmu (if b = a then v' else s.vdev b).smmuIdx).l1
        (l1stdIdx (if b = a then v' else s.vdev b).sid)).isSome ∧
      ((s.setSmmu v.smmuIdx t).smmu (if b = a then v' else s.vdev b).smmuIdx).ste
        (if b = a then v' else s.vdev b).sid = ⟨true,(if b = a then v' else s.vdev b).dmaEnabled⟩ :=
    fun b hb => by
      by_cases hba : b = a
      · have h1 := h.table a ha
        rw [hv] at h1
        rw [if_pos hba,hs.smmuIdx,hs.sid,smmu_setSmmu,if_pos rfl,hl1]
        exact ⟨h1,hself⟩
      · rw [if_neg hba]
        exact stream_other h hl1 hste hb (hother b hb hba)
  refine ⟨fun j => ?_,fun b hb => ?_,fun b hb => ?_,fun b b' hb hb' hi hsid => ?_,fun b hb hbq => ?_⟩
  · show ((s.setSmmu v.smmuIdx t).smmu j).Sound
    rw [smmu_setSmmu]
    split
    · exact hsound
    · exact h.sound j
  · rw [hvdev]
    exact (hstream b hb).1
  · rw [hvdev]
    exact (hstream b hb).2
  · have hsame : ∀ b, SameVdev (s.vdev b) (if b = a then v' else s.vdev b) := fun b => by
      split
      next hba => rw [hba,hv]; exact hs
      · exact .refl _
    rw [hvdev,hvdev,(hsame b).smmuIdx,(hsame b').smmuIdx] at hi
    rw [hvdev,hvdev,(hsame b).sid,(hsame b').sid] at hsid
    exact h.apart b b' hb hb' hi hsid
  · rw [hvdev] at hbq ⊢
    split at hbq
    next hba => rw [if_pos hba]; exact hq hbq
    next hba => rw [if_neg hba]; exact h.quiesced b hb hbq

theorem toggled_sound (h : t.Sound) (sid : Nat) (b : Bool) : (toggledTable t sid b).Sound := h.setSte rfl

theorem Dma.toggle (h : Dma s) {a : Nat} (ha : s.granule a = .vdev) (hv : s.vdev a = v)
    (hs : SameVdev v v') (hq : v'.quiesced → v'.dmaEnabled = false) :
    Dma ((s.setSmmu v.smmuIdx (toggledTable (s.smmu v.smmuIdx) v.sid v'.dmaEnabled)).setVdev a v') := by
  have hste := h.stream a ha
  rw [hv] at hste
  refine h.ownStream ha hv (toggled_sound (h.sound _) _ _) rfl (fun x hx => update_of_ne hx ..) ?_ hs hq
  show update (s.smmu v.smmuIdx).ste v.sid _ v.sid = _
  rw [update_self,hste]

theorem Dma.create (h : Dma s) {rd p a sid i slot : Nat} {x : VdevParams}
    (hready : (s.smmu i).ready sid = true) (hz : (s.smmu i).ste sid = .zero) :
    Dma ((s.setSmmu i (configuredTable (s.smmu i) sid)).insertVdev rd p a sid i slot x) := by
  set t := (s.setSmmu i (configuredTable (s.smmu i) sid)).insertVdev rd p a sid i slot x with ht
  have hgran : ∀ b, t.granule b = if b = a then .vdev else s.granule b := fun b => update_apply ..
  have hvdev : ∀ b, t.vdev b = if b = a then Rmm.newVdev rd p sid i slot x else s.vdev b := fun b => update_apply ..
  have hold : ∀ b, t.granule b = .vdev → b ≠ a → s.granule b = .vdev := fun b hb hba => by
    rwa [hgran,if_neg hba] at hb
  have hste : ∀ y, y ≠ sid → (configuredTable (s.smmu i) sid).ste y = (s.smmu i).ste y := fun y hy =>
    update_of_ne hy ..
  have hfree : ∀ b, s.granule b = .vdev → (s.vdev b).smmuIdx = i → (s.vdev b).sid ≠ sid :=
    fun b hb hi hsid => by
      have := h.stream b hb
      rw [hi,hsid,hz] at this
      exact absurd this (by simp [Ste.zero])
  have hstream : ∀ b, t.granule b = .vdev → ((t.smmu (t.vdev b).smmuIdx).l1 (l1stdIdx (t.vdev b).sid)).isSome ∧
      (t.smmu (t.vdev b).smmuIdx).ste (t.vdev b).sid = ⟨true,(t.vdev b).dmaEnabled⟩ := fun b hb => by
    rw [hvdev]
    by_cases hba : b = a
    · rw [if_pos hba]
      show (((s.setSmmu i _).smmu i).l1 (l1stdIdx sid)).isSome ∧ ((s.setSmmu i _).smmu i).ste sid = ⟨true,false⟩
      rw [smmu_setSmmu,if_pos rfl]
      unfold ready at hready
      simp only [Bool.and_eq_true] at hready
      exact ⟨hready.2,update_self ..⟩
    · rw [if_neg hba]
      have hb := hold b hb hba
      exact stream_other h rfl hste hb (hfree b hb)
  refine ⟨fun j => ?_,fun b hb => (hstream b hb).1,fun b hb => (hstream b hb).2,fun b b' hb hb' hi hsid => ?_,
    fun b hb hq => ?_⟩
  · show ((s.setSmmu i _).smmu j).Sound
    rw [smmu_setSmmu]
    split
    · exact (h.sound i).configure hz
    · exact h.sound j
  · rw [hvdev,hvdev] at hi hsid
    by_cases hba : b = a
    · by_cases hba' : b' = a
      · rw [hba,hba']
      · rw [if_pos hba,if_neg hba'] at hi hsid
        exact absurd hsid.symm (hfree b' (hold b' hb' hba') hi.symm)
    · by_cases hba' : b' = a
      · rw [if_neg hba,if_pos hba'] at hi hsid
        exact absurd hsid (hfree b (hold b hb hba) hi)
      · rw [if_neg hba,if_neg hba'] at hi hsid
        exact h.apart b b' (hold b hb hba) (hold b' hb' hba') hi hsid
  · rw [hvdev] at hq ⊢
    split
    · rfl
    next hba => rw [if_neg hba] at hq; exact h.quiesced b (hold b hb hba) hq

theorem Dma.destroy (h : Dma s) {p a : Nat} (ha : s.granule a = .vdev) (hv : s.vdev a = v) :
    Dma ((s.setSmmu v.smmuIdx (releasedTable (s.smmu v.smmuIdx) v.sid)).removeVdev v.rd p a) := by
  have hgran : ∀ b, ((s.setSmmu v.smmuIdx (releasedTable (s.smmu v.smmuIdx) v.sid)).removeVdev v.rd p a).granule b =
      if b = a then .delegated else s.granule b := fun b => update_apply ..
  have hold : ∀ b, ((s.setSmmu v.smmuIdx (releasedTable (s.smmu v.smmuIdx) v.sid)).removeVdev v.rd p a).granule b =
      .vdev → b ≠ a ∧ s.granule b = .vdev := fun b hb => by
    rw [hgran] at hb
    split at hb
    · cases hb
    next hba => exact ⟨hba,hb⟩
  have hself := h.stream a ha
  rw [hv] at hself
  have hstream : ∀ b, b ≠ a → s.granule b = .vdev → _ := fun b hba hb =>
    @stream_other s (releasedTable (s.smmu v.smmuIdx) v.sid) h v.smmuIdx v.sid b rfl
      (fun y hy => update_of_ne hy ..) hb fun hi hsid =>
      hba (h.apart b a hb ha (by rw [hi,hv]) (by rw [hsid,hv]))
  refine ⟨fun j => ?_,fun b hb => (hstream b (hold b hb).1 (hold b hb).2).1,
    fun b hb => (hstream b (hold b hb).1 (hold b hb).2).2,
    fun b b' hb hb' => h.apart b b' (hold b hb).2 (hold b' hb').2,fun b hb => h.quiesced b (hold b hb).2⟩
  show ((s.setSmmu v.smmuIdx _).smmu j).Sound
  rw [smmu_setSmmu]
  split
  · exact (h.sound _).release (by rw [hself])
  · exact h.sound j

theorem Dma.effect (h : Dma s) (ho : Objects s) (hg : Allowed s c) (he : Effect s c s') : Dma s' := by
  cases he with
  | same => exact h
  | granule a g ha hg => exact h.setGranule rfl rfl rfl hg.2
  | pdev a x => exact h.of_vdevs rfl rfl fun _ hb => hb
  | pdevCreate a x ha => exact Dma.setGranule h rfl rfl rfl (by simp)
  | realmCreate a m n d ha =>
    refine h.of_vdevs rfl rfl fun b hb => ?_
    have hb : update s.granule a .rd b = .vdev := hb
    rw [update_apply] at hb
    split at hb
    · cases hb
    · exact hb
  | realmDestroy a ha hv => exact h.setGranule rfl rfl rfl (by simp)
  | psmmu i op => exact h.psmmu i op
  | move a p x v v' ha hv hm =>
    have hs : v.Sane := by rw [← hv]; exact ho.sane a ha
    refine Dma.setVdev h rfl rfl rfl ?_ ?_ fun hq => ?_
    · rw [hv]
      exact hm.sameVdev
    · rw [hv]
      cases hm <;> rfl
    · rw [hv]
      exact hm.quiesced hs (by rw [← hv]; exact h.quiesced a ha) hq
  | renew a p x v r f st ha hv hr hcomm hf =>
    have : Dma (((s.setPdev p x).setRd v.rd r).setVdev a
        { v with rmiState := st,commState := .idle,freshness := f,op := .none }) :=
      Dma.setVdev h rfl rfl rfl (by rw [hv]; exact ⟨rfl,rfl,rfl,rfl⟩)
        (by rw [hv]) fun hq => by
          rw [hv]
          exact hf.quiesced (by rw [← hv]; exact h.quiesced a ha) hq
    exact ⟨this.sound,this.table,this.stream,this.apart,this.quiesced⟩
  | toggle a v b ha hq hb | release a v ha hv hq => rw [hg.1] at hq; cases hq
  | dma a v b ha hb =>
    obtain ⟨hvdev,hv⟩ := ho.held ha
    refine @Dma.toggle s v { v with dmaEnabled := b } h a hvdev hv ⟨rfl,rfl,rfl,rfl⟩ fun hq => ?_
    cases b with
    | false => rfl
    | true =>
      obtain ⟨hst,n,e,e',rfl⟩ := hb rfl
      have hmap := (ho.mapped a hvdev).2
      rw [hv] at hmap
      have hun := hg.2 _ _ _ _ _ _ rfl a hmap
      rw [hv] at hun
      rcases hq with hq | hq | hq
      · cases hst.symm.trans hq
      · cases hst.symm.trans hq
      · exact absurd hq hun
  | unlockDma a v ha hv hidle hst =>
    exact @Dma.toggle s v { v with dmaEnabled := false,op := .unlock,commState := .pending } h a ha hv
      ⟨rfl,rfl,rfl,rfl⟩ fun _ => rfl
  | create rd p a sid i slot x hr ha hi hready hz hid => exact h.create hready hz
  | destroy p a v ha hv hr hst hoff => exact h.destroy ha hv

theorem psmmu_ste {sid : Nat} (op : PsmmuOp) :
    (StreamTable.psmmu t op).ste sid = t.ste sid ∨ (StreamTable.psmmu t op).ste sid = .zero := by
  have hclear : ∀ k, (t.clearTable k).ste sid = t.ste sid ∨ (t.clearTable k).ste sid = .zero := fun k => by
    show (if l1stdIdx sid = k then Ste.zero else t.ste sid) = t.ste sid ∨
      (if l1stdIdx sid = k then Ste.zero else t.ste sid) = .zero
    split
    · exact .inr rfl
    · exact .inl rfl
  cases op with
  | createStL2 x pa mapping inval =>
    simp only [StreamTable.psmmu]
    split
    · unfold registerStL2
      extract_lets k t'
      split
      · exact .inl rfl
      split
      · exact .inl rfl
      · cases mapping with
        | some e => exact .inl rfl
        | none => cases inval <;> exact hclear k
    · exact .inl rfl
  | destroyStL2 x inval =>
    simp only [StreamTable.psmmu]
    split
    · unfold releaseStL2
      extract_lets k t'
      split
      · exact .inl rfl
      split
      · exact .inl rfl
      · split
        · exact .inl rfl
        · cases inval <;> exact .inl rfl
    · exact .inl rfl
  | activate =>
    simp only [StreamTable.psmmu,setBusy]
    split <;> exact .inl rfl
  | _ =>
    simp only [StreamTable.psmmu]
    split <;> exact .inl rfl

theorem Effect.enables (ho : Objects s) (he : Effect s c s') {i sid : Nat}
    (hoff : ((s.smmu i).ste sid).v = false) (hon : ((s'.smmu i).ste sid).v = true) :
    ∃ a, s.granule a = .vdev ∧ (s.vdev a).smmuIdx = i ∧ (s.vdev a).sid = sid ∧ Enables (s.vdev a) c := by
  have hself : ((s.smmu i).ste sid).v ≠ true := by rw [hoff]; simp
  have htoggle : ∀ a v b, Held s a v → (b = true → Enables v c) →
      (((s.setSmmu v.smmuIdx (toggledTable (s.smmu v.smmuIdx) v.sid b)).smmu i).ste sid).v = true →
      ∃ a, s.granule a = .vdev ∧ (s.vdev a).smmuIdx = i ∧ (s.vdev a).sid = sid ∧ Enables (s.vdev a) c := by
    intro a v b ha hb hnew
    obtain ⟨hvdev,hv⟩ := ho.held ha
    rw [smmu_setSmmu] at hnew
    split at hnew
    next hi =>
      by_cases hsid : sid = v.sid
      · have : (toggledTable (s.smmu v.smmuIdx) v.sid b).ste v.sid = _ := update_self ..
        rw [hsid,this] at hnew
        exact ⟨a,hvdev,by rw [hv,hi],by rw [hv,hsid],by rw [hv]; exact hb hnew⟩
      · have : (toggledTable (s.smmu v.smmuIdx) v.sid b).ste sid = _ := update_of_ne hsid ..
        rw [this,← hi] at hnew
        exact absurd hnew hself
    · exact absurd hnew hself
  have hwrite : ∀ j x y t, t.ste = update (s.smmu j).ste x y → y.v = false →
      (((s.setSmmu j t).smmu i).ste sid).v ≠ true := fun j x y t ht hy hon => by
    rw [smmu_setSmmu] at hon
    split at hon
    next hi =>
      rw [ht,update_apply] at hon
      split at hon
      · cases hy.symm.trans hon
      · rw [← hi] at hon
        exact hself hon
    · exact hself hon
  cases he with
  | psmmu j op =>
    rw [smmu_setSmmu] at hon
    split at hon
    next hi =>
      rcases psmmu_ste op with h | h
      · rw [h,← hi] at hon
        exact absurd hon hself
      · rw [h] at hon
        exact absurd hon (by simp [Ste.zero])
    · exact absurd hon hself
  | toggle a v b ha hq hb | dma a v b ha hb => exact htoggle a v b ha hb hon
  | unlockDma a v ha hv hidle hst =>
    exact htoggle a v false ⟨hv,by rw [← hv]; exact (ho.mapped a ha).1,.inl ha⟩ (fun h => absurd h (by simp)) hon
  | release a v | destroy p a v =>
    exact absurd hon (hwrite v.smmuIdx v.sid .zero (releasedTable (s.smmu v.smmuIdx) v.sid) rfl rfl)
  | create rd p a x j => exact absurd hon (hwrite j x ⟨true,false⟩ (configuredTable (s.smmu j) x) rfl rfl)
  | _ => exact absurd hon hself

theorem dma_initial (h : s.Initial) : Dma s := by
  have hv : ∀ a, s.granule a ≠ .vdev := fun a => (plain_ne (h.granule a)).2
  refine ⟨fun i => ⟨?_,fun k _ => h.l1 i k,fun _ k => h.l1 i k,fun k => ?_⟩,fun a ha => absurd ha (hv a),
    fun a ha => absurd ha (hv a),fun a _ ha => absurd ha (hv a),fun a ha => absurd ha (hv a)⟩
  · rw [h.l1Refcnt,Lib.tally_eq_zero fun k _ => by rw [h.l1]; rfl]
  · rw [h.refcount,Lib.tally_eq_zero fun j _ => by simp [table,h.ste,Ste.zero]]

theorem Dma.destroy_assertion (h : Dma s) {rd p a : Nat} {e : Option Errno} :
    s.vdevDestroy rd p a e ≠ .error .dmaDisabled := fun he => by
  unfold Rmm.vdevDestroy at he
  extract_lets v x at he
  split at he
  · cases he
  next hobj =>
  have ha := (Rmm.objects_iff.mp (Bool.eq_false_of_not_eq_true hobj)).2.2
  split at he
  · cases he
  split at he
  · cases he
  split at he
  · cases he
  next hst =>
  have hst : v.rmiState = .unlocked := not_not.mp (not_or.mp hst).1
  split at he
  · cases he
  split at he
  next hd => rw [h.quiesced a ha (.inr (.inl hst))] at hd; cases hd
  split at he
  · cases he
  split at he
  · cases he
  · split at he <;> cases he

theorem dma_follows_vdev_state (h : (system cfg).ReachableUnder Allowed s) : (∀ a, s.granule a = .vdev →
      ((s.smmu (s.vdev a).smmuIdx).ste (s.vdev a).sid).v = (s.vdev a).dmaEnabled) ∧
    (∀ a, s.granule a = .vdev → (s.vdev a).quiesced → ((s.smmu (s.vdev a).smmuIdx).ste (s.vdev a).sid).v = false) ∧
    (∀ c s' st, s.exec cfg c = .ok (s',st) → ∀ i sid, ((s.smmu i).ste sid).v = false →
      ((s'.smmu i).ste sid).v = true → ∃ a, s.granule a = .vdev ∧ (s.vdev a).smmuIdx = i ∧
        (s.vdev a).sid = sid ∧ Enables (s.vdev a) c) ∧
    ∀ rd p a e, s.vdevDestroy rd p a e ≠ .error .dmaDisabled := by
  obtain ⟨ho,hd⟩ : Objects s ∧ Dma s := by
    refine h.invariant (I := fun s => Objects s ∧ Dma s)
      (fun s hi => ⟨objects_initial hi,dma_initial hi⟩) fun s c t hs hg hst => ?_
    obtain ⟨st,hst⟩ := hst
    exact ⟨hs.1.effect (exec_effect hst),hs.2.effect hs.1 hg (exec_effect hst)⟩
  refine ⟨fun a ha => by rw [hd.stream a ha],fun a ha hq => ?_,fun c s' st hst i sid hoff hon =>
    (exec_effect hst).enables ho hoff hon,fun rd p a e => hd.destroy_assertion⟩
  rw [hd.stream a ha]
  exact hd.quiesced a ha hq

namespace Sample

def started : List Command := locked ++ [.vdevStart 1 2 3,communicate]

def enable : Command := .dmaEnable 1 7 0 ⟨1,0,0⟩ none none

def enabledLate : List Command :=
  started ++ [.vdevUnlock 1 2 3 (fun _ => .unmapped) none,enable,communicate]

end Sample

def Command.enables : Command → Bool
  | .dmaEnable .. => true
  | _ => false

theorem allowed_runs {cs : List Command} (h : (system cfg).ReachableUnder Allowed s)
    (hcs : (cs.all fun c => c.quiet && !c.enables) = true) (hr : s.runs cfg cs = some s') :
    (system cfg).ReachableUnder Allowed s' := by
  induction cs generalizing s with
  | nil => cases hr; exact h
  | cons c cs ih =>
    simp only [List.all_cons,Bool.and_eq_true,Bool.not_eq_true'] at hcs
    simp only [runs] at hr
    split at hr
    · cases hr
    next t st he =>
    refine ih (h.next ⟨hcs.1.1,fun rd id n f e e' hc => ?_⟩ ⟨st,he⟩) hcs.2 hr
    rw [hc] at hcs
    exact absurd hcs.1.2 (by simp [Command.enables])

theorem dma_follows_vdev_state_enabled : ∃ s, (system Sample.platform).ReachableUnder Allowed s ∧
    s.granule 3 = .vdev ∧ (s.vdev 3).dmaEnabled = true ∧
    ((s.smmu (s.vdev 3).smmuIdx).ste (s.vdev 3).sid).v = true := by
  have hrun : (boot.runs platform Sample.started).map (fun s =>
      ((s.rd 1).vdevMap 7,(s.vdev 3).op,(s.runs platform [Sample.enable]).map fun s' =>
        (s'.granule 3,(s'.vdev 3).dmaEnabled))) = some (some 3,.none,some (.vdev,true)) := by
    decide +kernel
  obtain ⟨s,hs,hh⟩ := Option.map_eq_some_iff.mp hrun
  simp only [Prod.mk.injEq] at hh
  obtain ⟨hmap,hop,hlast⟩ := hh
  obtain ⟨s',hs',hh'⟩ := Option.map_eq_some_iff.mp hlast
  simp only [Prod.mk.injEq] at hh'
  have hreach : (system platform).ReachableUnder Allowed s :=
    allowed_runs (.initial boot_initial) (by decide) hs
  have hreach' : (system platform).ReachableUnder Allowed s' := by
    simp only [runs] at hs'
    split at hs'
    · cases hs'
    next t st he =>
    cases hs'
    refine hreach.next ⟨rfl,?_⟩ ⟨st,he⟩
    rintro rd id n f e e' hc a ha ⟨hun,_⟩
    cases hc
    rw [hmap] at ha
    cases ha
    rw [hop] at hun
    cases hun
  exact ⟨s',hreach',hh'.1,hh'.2,((dma_follows_vdev_state hreach').1 3 hh'.1).trans hh'.2⟩

def failedAssertion {α : Type} : Except Assertion α → Option Assertion
  | .error x => some x
  | .ok _ => none

theorem enabled_while_unlocking : ∃ s, (system Sample.platform).Reachable s ∧ s.granule 3 = .vdev ∧
    (s.vdev 3).rmiState = .unlocked ∧ ((s.smmu (s.vdev 3).smmuIdx).ste (s.vdev 3).sid).v = true ∧
    failedAssertion (s.vdevDestroy 1 2 3 none) = some .dmaDisabled := by
  have hrun : (boot.runs platform Sample.enabledLate).map (fun s =>
      (s.granule 3,(s.vdev 3).rmiState,((s.smmu (s.vdev 3).smmuIdx).ste (s.vdev 3).sid).v,
        failedAssertion (s.vdevDestroy 1 2 3 none))) = some (.vdev,.unlocked,true,some .dmaDisabled) := by
    decide +kernel
  obtain ⟨s,hs,hh⟩ := Option.map_eq_some_iff.mp hrun
  simp only [Prod.mk.injEq] at hh
  exact ⟨s,reachable_runs (.initial boot_initial) hs,hh⟩

def InUse (t : StreamTable) (sid : Nat) : Prop :=
  (t.l1 (l1stdIdx sid)).isSome = true ∧ (t.ste sid).config = true

def Rmm.Owner (s : Rmm) (a i sid : Nat) : Prop :=
  s.granule a = .vdev ∧ (s.vdev a).smmuIdx = i ∧ (s.vdev a).sid = sid

structure Streams (s : Rmm) : Prop where
  sound : ∀ i, (s.smmu i).Sound
  stream : ∀ a i sid, s.Owner a i sid → InUse (s.smmu i) sid
  apart : ∀ a b i sid, s.Owner a i sid → s.Owner b i sid → a = b
  owned : ∀ i sid, ((s.smmu i).ste sid).config = true → ∃ a, s.Owner a i sid

theorem Streams.transfer (h : Streams s) (hsmmu : s'.smmu = s.smmu)
    (ho : ∀ a i sid, s'.Owner a i sid ↔ s.Owner a i sid) : Streams s' := by
  refine ⟨fun i => ?_,fun a i sid ha => ?_,fun a b i sid ha hb => ?_,fun i sid hc => ?_⟩
  · rw [hsmmu]
    exact h.sound i
  · rw [hsmmu]
    exact h.stream a i sid ((ho a i sid).mp ha)
  · exact h.apart a b i sid ((ho a i sid).mp ha) ((ho b i sid).mp hb)
  · rw [hsmmu] at hc
    obtain ⟨a,ha⟩ := h.owned i sid hc
    exact ⟨a,(ho a i sid).mpr ha⟩

theorem Streams.setSmmu (h : Streams s) {i : Nat} (hsound : t.Sound) (hkept : ∀ sid, InUse (s.smmu i) sid → InUse t sid)
    (hback : ∀ sid, (t.ste sid).config = true → ((s.smmu i).ste sid).config = true) : Streams (s.setSmmu i t) := by
  refine ⟨fun j => ?_,fun a j sid ha => ?_,h.apart,fun j sid hc => ?_⟩
  · rw [Rmm.smmu_setSmmu]
    split
    · exact hsound
    · exact h.sound j
  · rw [Rmm.smmu_setSmmu]
    split
    next hj =>
      subst hj
      exact hkept sid (h.stream a j sid ha)
    · exact h.stream a j sid ha
  · rw [Rmm.smmu_setSmmu] at hc
    split at hc
    next hj =>
      subst hj
      exact h.owned j sid (hback sid hc)
    · exact h.owned j sid hc

theorem Streams.psmmu (h : Streams s) (i : Nat) (op : PsmmuOp) :
    Streams (s.setSmmu i (StreamTable.psmmu (s.smmu i) op)) := by
  have hk := psmmu_kept (h.sound i) op
  refine h.setSmmu hk.sound (fun sid hu => ?_) fun sid hc => ?_
  · obtain ⟨h1,h2⟩ := hk.stream sid hu.1 hu.2
    exact ⟨h1,by rw [h2]; exact hu.2⟩
  rcases @psmmu_ste (s.smmu i) sid op with he | he
  · rwa [he] at hc
  · rw [he] at hc
    exact absurd hc (by simp [Ste.zero])

theorem toggled_config (sid x : Nat) (b : Bool) : ((toggledTable t sid b).ste x).config = (t.ste x).config := by
  show (update t.ste sid { t.ste sid with v := b } x).config = _
  by_cases hx : x = sid
  · rw [hx,update_self]
  · rw [update_of_ne hx]

theorem Streams.toggle (h : Streams s) (i sid : Nat) (b : Bool) : Streams (s.setSmmu i (toggledTable (s.smmu i) sid b)) :=
  h.setSmmu (toggled_sound (h.sound i) sid b) (fun x hu => ⟨hu.1,by rw [toggled_config]; exact hu.2⟩)
    fun x hc => by rwa [toggled_config] at hc

theorem Streams.setVdev (h : Streams s) {a : Nat} {t : Rmm} (hsmmu : t.smmu = s.smmu) (hv : t.vdev = s.vdev)
    (hgran : t.granule = s.granule) (hs : SameVdev (s.vdev a) v') : Streams (t.setVdev a v') := by
  refine h.transfer hsmmu fun b i sid => ?_
  show t.granule b = .vdev ∧ (update t.vdev a v' b).smmuIdx = i ∧ (update t.vdev a v' b).sid = sid ↔ _
  rw [hgran,hv]
  by_cases hb : b = a
  · rw [hb,update_self,hs.smmuIdx,hs.sid]
    exact Iff.rfl
  · rw [update_of_ne hb]
    exact Iff.rfl

theorem Streams.setGranule (h : Streams s) {t : Rmm} {a : Nat} {x : Rtt.GranuleState}
    (hsmmu : t.smmu = s.smmu) (hv : t.vdev = s.vdev) (hgran : t.granule = s.granule)
    (ha : s.granule a ≠ .vdev) (hx : x ≠ .vdev) : Streams (t.setGranule a x) := by
  refine h.transfer hsmmu fun b i sid => ?_
  show update t.granule a x b = .vdev ∧ _ ↔ _
  rw [hgran,update_apply]
  unfold Rmm.Owner
  rw [show (t.setGranule a x).vdev b = s.vdev b by rw [← hv]; rfl]
  split
  next hb =>
    rw [hb]
    exact ⟨fun hc => absurd hc.1 hx,fun hc => absurd hc.1 ha⟩
  · exact Iff.rfl

theorem Streams.create (h : Streams s) {rd p a sid i slot : Nat} {x : VdevParams}
    (ha : s.granule a ≠ .vdev) (hready : (s.smmu i).ready sid = true) (hz : (s.smmu i).ste sid = .zero) :
    Streams ((s.setSmmu i (configuredTable (s.smmu i) sid)).insertVdev rd p a sid i slot x) := by
  generalize hs' : (s.setSmmu i (configuredTable (s.smmu i) sid)).insertVdev rd p a sid i slot x = s'
  have hsmmu : ∀ j, s'.smmu j = if j = i then configuredTable (s.smmu i) sid else s.smmu j := fun j => by
    rw [← hs']
    exact Rmm.smmu_setSmmu
  have hconfig : ∀ y, ((configuredTable (s.smmu i) sid).ste y).config = true ↔
      y = sid ∨ ((s.smmu i).ste y).config = true := fun y => by
    show (update (s.smmu i).ste sid ⟨true,false⟩ y).config = true ↔ _
    rw [update_apply]
    by_cases hy : y = sid
    · rw [if_pos hy]
      exact ⟨fun _ => .inl hy,fun _ => rfl⟩
    · rw [if_neg hy]
      exact ⟨fun hc => .inr hc,fun hc => hc.resolve_left hy⟩
  have howner : ∀ b j y, s'.Owner b j y ↔ b = a ∧ i = j ∧ sid = y ∨ s.Owner b j y := fun b j y => by
    rw [← hs']
    show update s.granule a .vdev b = .vdev ∧ (update s.vdev a (Rmm.newVdev rd p sid i slot x) b).smmuIdx = j ∧
      (update s.vdev a (Rmm.newVdev rd p sid i slot x) b).sid = y ↔ _
    by_cases hb : b = a
    · rw [hb,update_self,update_self]
      exact ⟨fun hc => .inl ⟨rfl,hc.2⟩,fun hc => hc.elim (fun hc => ⟨rfl,hc.2⟩) fun hc => absurd hc.1 ha⟩
    · rw [update_of_ne hb,update_of_ne hb]
      exact ⟨.inr,fun hc => hc.resolve_left fun hc => hb hc.1⟩
  have hfree : ∀ b, ¬ s.Owner b i sid := fun b hb => by
    have := (h.stream b i sid hb).2
    rw [hz] at this
    exact absurd this (by simp [Ste.zero])
  unfold StreamTable.ready at hready
  simp only [Bool.and_eq_true] at hready
  refine ⟨fun j => ?_,fun b j y hb => ?_,fun b b' j y hb hb' => ?_,fun j y hc => ?_⟩
  · rw [hsmmu]
    split
    · exact (h.sound i).configure hz
    · exact h.sound j
  · rw [hsmmu]
    rcases (howner b j y).mp hb with ⟨_,rfl,rfl⟩ | hb
    · rw [if_pos rfl]
      exact ⟨hready.2,(hconfig sid).mpr (.inl rfl)⟩
    obtain ⟨h1,h2⟩ := h.stream b j y hb
    split
    next hj =>
      subst hj
      exact ⟨h1,(hconfig y).mpr (.inr h2)⟩
    · exact ⟨h1,h2⟩
  · rcases (howner b j y).mp hb with ⟨rfl,rfl,rfl⟩ | hb
    · exact ((howner b' i sid).mp hb').elim (fun hc => hc.1.symm) fun hc => absurd hc (hfree b')
    · rcases (howner b' j y).mp hb' with ⟨rfl,rfl,rfl⟩ | hb'
      · exact absurd hb (hfree b)
      · exact h.apart b b' j y hb hb'
  · rw [hsmmu] at hc
    split at hc
    next hj =>
      subst hj
      rcases (hconfig y).mp hc with rfl | hc
      · exact ⟨a,(howner a j y).mpr (.inl ⟨rfl,rfl,rfl⟩)⟩
      · obtain ⟨b,hb⟩ := h.owned j y hc
        exact ⟨b,(howner b j y).mpr (.inr hb)⟩
    · obtain ⟨b,hb⟩ := h.owned j y hc
      exact ⟨b,(howner b j y).mpr (.inr hb)⟩

theorem Streams.destroy (h : Streams s) {p a : Nat} (ha : s.granule a = .vdev) (hv : s.vdev a = v) :
    Streams ((s.setSmmu v.smmuIdx (releasedTable (s.smmu v.smmuIdx) v.sid)).removeVdev v.rd p a) := by
  generalize hs' : (s.setSmmu v.smmuIdx (releasedTable (s.smmu v.smmuIdx) v.sid)).removeVdev v.rd p a = s'
  have hself : s.Owner a v.smmuIdx v.sid := ⟨ha,by rw [hv],by rw [hv]⟩
  have hsmmu : ∀ j, s'.smmu j = if j = v.smmuIdx then releasedTable (s.smmu v.smmuIdx) v.sid else s.smmu j :=
    fun j => by
      rw [← hs']
      exact Rmm.smmu_setSmmu
  have hconfig : ∀ y, ((releasedTable (s.smmu v.smmuIdx) v.sid).ste y).config = true ↔
      y ≠ v.sid ∧ ((s.smmu v.smmuIdx).ste y).config = true := fun y => by
    show (update (s.smmu v.smmuIdx).ste v.sid .zero y).config = true ↔ _
    rw [update_apply]
    by_cases hy : y = v.sid
    · rw [if_pos hy]
      exact ⟨fun hc => absurd hc (by simp [Ste.zero]),fun hc => absurd hy hc.1⟩
    · rw [if_neg hy]
      exact ⟨fun hc => ⟨hy,hc⟩,fun hc => hc.2⟩
  have howner : ∀ b j y, s'.Owner b j y ↔ b ≠ a ∧ s.Owner b j y := fun b j y => by
    rw [← hs']
    show update s.granule a .delegated b = .vdev ∧ (s.vdev b).smmuIdx = j ∧ (s.vdev b).sid = y ↔ _
    by_cases hb : b = a
    · rw [hb,update_self]
      exact ⟨fun hc => absurd hc.1 (by simp),fun hc => absurd rfl hc.1⟩
    · rw [update_of_ne hb]
      exact ⟨fun hc => ⟨hb,hc⟩,fun hc => hc.2⟩
  refine ⟨fun j => ?_,fun b j y hb => ?_,
    fun b b' j y hb hb' => h.apart b b' j y ((howner b j y).mp hb).2 ((howner b' j y).mp hb').2,
    fun j y hc => ?_⟩
  · rw [hsmmu]
    split
    · exact (h.sound _).release (h.stream a _ _ hself).2
    · exact h.sound j
  · obtain ⟨hba,hb⟩ := (howner b j y).mp hb
    obtain ⟨h1,h2⟩ := h.stream b j y hb
    rw [hsmmu]
    split
    next hj =>
      subst hj
      exact ⟨h1,(hconfig y).mpr ⟨fun hy => hba (h.apart b a _ _ (hy ▸ hb) hself),h2⟩⟩
    · exact ⟨h1,h2⟩
  · have hother : ∃ b, s.Owner b j y ∧ ¬ (j = v.smmuIdx ∧ y = v.sid) := by
      rw [hsmmu] at hc
      split at hc
      next hj =>
        subst hj
        obtain ⟨hy,hc⟩ := (hconfig y).mp hc
        obtain ⟨b,hb⟩ := h.owned _ y hc
        exact ⟨b,hb,fun hn => hy hn.2⟩
      next hj =>
        obtain ⟨b,hb⟩ := h.owned j y hc
        exact ⟨b,hb,fun hn => hj hn.1⟩
    obtain ⟨b,hb,hn⟩ := hother
    refine ⟨b,(howner b j y).mpr ⟨fun hba => hn ?_,hb⟩⟩
    subst hba
    exact ⟨by rw [← hb.2.1,hv],by rw [← hb.2.2,hv]⟩

theorem Streams.effect (h : Streams s) (ho : Objects s) (hg : c.releases = true) (he : Effect s c s') : Streams s' := by
  cases he with
  | same => exact h
  | granule a g ha hg => exact h.setGranule rfl rfl rfl ha.2 hg.2
  | pdev a x => exact h.transfer rfl fun _ _ _ => Iff.rfl
  | pdevCreate a x ha => exact Streams.setGranule h rfl rfl rfl (by rw [ha]; simp) (by simp)
  | realmCreate a m n d ha =>
    have hr := Streams.setGranule h
      (x := .rd) rfl rfl rfl (by rw [ha]; simp) (by simp)
    exact hr.transfer rfl fun _ _ _ => Iff.rfl
  | realmDestroy a ha hv => exact h.setGranule rfl rfl rfl (by rw [ha]; simp) (by simp)
  | psmmu i op => exact h.psmmu i op
  | move a p x v v' ha hv hm => exact Streams.setVdev h rfl rfl rfl (by rw [hv]; exact hm.sameVdev)
  | renew a p x v r f st ha hv hr hcomm hf =>
    have hs : SameVdev (s.vdev a) { v with rmiState := st,commState := .idle,freshness := f,op := .none } := by
      rw [hv]
      exact ⟨rfl,rfl,rfl,rfl⟩
    have hn := Streams.setVdev h rfl rfl rfl hs
    exact hn.transfer rfl fun _ _ _ => Iff.rfl
  | toggle a v b ha hq hb => exact h.toggle v.smmuIdx v.sid b
  | dma a v b ha hb =>
    obtain ⟨_,hv⟩ := ho.held ha
    exact (h.toggle v.smmuIdx v.sid b).setVdev rfl rfl rfl (by
      show SameVdev (s.vdev a) _
      rw [hv]
      exact ⟨rfl,rfl,rfl,rfl⟩)
  | unlockDma a v ha hv hidle hst =>
    exact (h.toggle v.smmuIdx v.sid false).setVdev rfl rfl rfl (by
      show SameVdev (s.vdev a) _
      rw [hv]
      exact ⟨rfl,rfl,rfl,rfl⟩)
  | release a v ha hv hq hc => cases hg.symm.trans hc
  | create rd p a sid i slot x hr ha hi hready hz hid => exact h.create (by rw [ha]; simp) hready hz
  | destroy p a v ha hv hr hst hoff => exact h.destroy ha hv

theorem Effect.vdevs (ho : Objects s) (he : Effect s c s') {a : Nat} (ha : s'.granule a = .vdev) :
    s.granule a = .vdev ∧ SameVdev (s.vdev a) (s'.vdev a) ∨
      ((s.smmu (s'.vdev a).smmuIdx).ste (s'.vdev a).sid).config = false ∧ c.creates = some (s'.vdev a).rd := by
  have hgran : ∀ (b : Nat) (g : Rtt.GranuleState), g ≠ .vdev → update s.granule b g a = .vdev →
      s.granule a = .vdev := fun b g hg h => by
    rw [update_apply] at h
    split at h
    · exact absurd h hg
    · exact h
  have hsame : ∀ (b : Nat) (v' : Vdev), SameVdev (s.vdev b) v' →
      SameVdev (s.vdev a) (update s.vdev b v' a) := fun b v' hs => by
    by_cases hb : a = b
    · rw [hb,update_self]
      exact hs
    · rw [update_of_ne hb]
      exact .refl _
  cases he with
  | same | pdev b x | psmmu i op | toggle b v x hb hq hx | release b v hb hv hq => exact .inl ⟨ha,.refl _⟩
  | granule b g hb hg => exact .inl ⟨hgran b g hg.2 ha,.refl _⟩
  | pdevCreate b x hb => exact .inl ⟨hgran b .pdev (by simp) ha,.refl _⟩
  | realmCreate b m n d hb => exact .inl ⟨hgran b .rd (by simp) ha,.refl _⟩
  | realmDestroy b hb hv | destroy p b v hb hv hr hst hoff => exact .inl ⟨hgran b .delegated (by simp) ha,.refl _⟩
  | move b p x v v' hb hv hm => exact .inl ⟨ha,hsame b v' (by rw [hv]; exact hm.sameVdev)⟩
  | renew b p x v r f st hb hv hr hcomm hf => exact .inl ⟨ha,hsame b _ (by rw [hv]; exact ⟨rfl,rfl,rfl,rfl⟩)⟩
  | dma b v x hb hx => exact .inl ⟨ha,hsame b _ (by rw [(ho.held hb).2]; exact ⟨rfl,rfl,rfl,rfl⟩)⟩
  | unlockDma b v hb hv hidle hst => exact .inl ⟨ha,hsame b _ (by rw [hv]; exact ⟨rfl,rfl,rfl,rfl⟩)⟩
  | create rd p b sid i slot x hr hb hi hready hz hid hc =>
    by_cases hab : a = b
    · have hv : ((s.setSmmu i (configuredTable (s.smmu i) sid)).insertVdev rd p b sid i slot x).vdev a =
          Rmm.newVdev rd p sid i slot x := by
        rw [hab]
        exact update_self ..
      rw [hv]
      refine .inr ⟨?_,hc⟩
      show ((s.smmu i).ste sid).config = false
      rw [hz]
      rfl
    · have hv : ((s.setSmmu i (configuredTable (s.smmu i) sid)).insertVdev rd p b sid i slot x).vdev a =
          s.vdev a := update_of_ne hab ..
      have ha : update s.granule b .vdev a = .vdev := ha
      rw [update_of_ne hab] at ha
      rw [hv]
      exact .inl ⟨ha,.refl _⟩

theorem streams_initial (h : s.Initial) : Streams s := by
  have hnone : ∀ a, s.granule a ≠ .vdev := fun a ha => by
    have := h.granule a
    rw [ha] at this
    exact absurd this (by simp [plain])
  refine ⟨(dma_initial h).sound,fun a i sid ha => absurd ha.1 (hnone a),
    fun a b i sid ha => absurd ha.1 (hnone a),fun i sid hc => ?_⟩
  rw [h.ste i sid] at hc
  exact absurd hc (by simp [Ste.zero])

end TfRmm.Da
