import TfRmm.Da.Objects

namespace TfRmm.Da

open TfRmm.Smmu
open Function (update update_apply update_of_ne update_self)

def Freshness.Lt (f g : Freshness) : Prop :=
  f.lockSeq < g.lockSeq ∨ f.lockSeq = g.lockSeq ∧
    (f.measSeq < g.measSeq ∨ f.measSeq = g.measSeq ∧ f.reportSeq < g.reportSeq)

instance (f g : Freshness) : Decidable (f.Lt g) := inferInstanceAs (Decidable (_ ∨ _))

variable {f : Freshness} {a p j rd id : Nat} {r : Realm} {st : VdevState} {v' : Vdev} {s₀ : Rmm}

theorem Freshness.Lt.trans {g k : Freshness} (h : f.Lt g) (h' : g.Lt k) : f.Lt k := by
  unfold Freshness.Lt at *
  omega

theorem Freshness.Lt.irrefl (f : Freshness) : ¬ f.Lt f := by
  unfold Freshness.Lt
  omega

def Renewal.on (realm id : Nat) (e : Renewal) : Bool := e.realm == realm && e.id == id

def Rmm.renewals (s : Rmm) (realm id : Nat) : List Renewal := s.history.filter (Renewal.on realm id)

variable {s s' : Rmm} {c : Command} {v : Vdev} {cfg : Config} {t : Rmm}

def Later (e e' : Renewal) : Prop :=
  e.realm = e'.realm → e.id = e'.id → e'.freshness.lockSeq ≠ 0 → e.freshness.Lt e'.freshness

def LocksLater (e e' : Renewal) : Prop :=
  e.realm = e'.realm → e.op = .lock → e'.op = .lock → e.freshness.lockSeq < e'.freshness.lockSeq

structure History (s : Rmm) : Prop where
  past : ∀ e ∈ s.history, e.realm < s.realms
  realm : ∀ r, s.granule r = .rd → (s.rd r).incarnation < s.realms
  distinct : ∀ r r', s.granule r = .rd → s.granule r' = .rd →
    (s.rd r).incarnation = (s.rd r').incarnation → r = r'
  last : ∀ r, s.granule r = .rd → ∀ e ∈ s.history, e.realm = (s.rd r).incarnation →
    e.freshness.lockSeq ≤ (s.rd r).lastVdevLockSeq
  vdevLast : ∀ a, s.granule a = .vdev →
    (s.vdev a).freshness.lockSeq ≤ (s.rd (s.vdev a).rd).lastVdevLockSeq
  current : ∀ a, s.granule a = .vdev → (s.vdev a).freshness.lockSeq ≠ 0 →
    ((s.renewals (s.rd (s.vdev a).rd).incarnation (s.vdev a).id).getLast?).map (·.freshness) =
      some (s.vdev a).freshness
  later : s.history.Pairwise Later
  locksLater : s.history.Pairwise LocksLater
  bounded : ∀ e ∈ s.history, e.freshness.lockSeq ≤ seqMax ∧ e.freshness.measSeq ≤ seqMax ∧
    e.freshness.reportSeq ≤ seqMax

structure Carries (s s' : Rmm) : Prop where
  history : s'.history = s.history
  realms : s'.realms = s.realms
  realm : ∀ r, s'.granule r = .rd → s.granule r = .rd ∧ (s'.rd r).incarnation = (s.rd r).incarnation ∧
    (s'.rd r).lastVdevLockSeq = (s.rd r).lastVdevLockSeq
  vdev : ∀ a, s'.granule a = .vdev → (s'.vdev a).freshness = .zero ∨ s.granule a = .vdev ∧
    (s'.vdev a).rd = (s.vdev a).rd ∧ (s'.vdev a).id = (s.vdev a).id ∧
      (s'.vdev a).freshness = (s.vdev a).freshness

theorem History.carry (h : History s) (ho : Objects s') (hc : Carries s s') : History s' := by
  cases s'
  obtain ⟨rfl,rfl,hrealm,hvdev⟩ := hc
  refine ⟨h.past,fun r hr => ?_,fun r r' hr hr' he => ?_,fun r hr => ?_,fun a ha => ?_,fun a ha hl => ?_,h.later,
    h.locksLater,h.bounded⟩
  · rw [(hrealm r hr).2.1]
    exact h.realm r (hrealm r hr).1
  · rw [(hrealm r hr).2.1,(hrealm r' hr').2.1] at he
    exact h.distinct r r' (hrealm r hr).1 (hrealm r' hr').1 he
  · rw [(hrealm r hr).2.1,(hrealm r hr).2.2]
    exact h.last r (hrealm r hr).1
  · rcases hvdev a ha with hz | ⟨h1,h2,h3,h4⟩
    · rw [hz]
      exact Nat.zero_le _
    · rw [(hrealm _ (ho.mapped a ha).1).2.2,h2,h4]
      exact h.vdevLast a h1
  · rcases hvdev a ha with hz | ⟨h1,h2,h3,h4⟩
    · rw [hz] at hl
      exact absurd rfl hl
    · have hinc := (hrealm _ (ho.mapped a ha).1).2.1
      unfold Rmm.renewals
      rw [hinc,h2,h3,h4]
      rw [h4] at hl
      exact h.current a h1 hl

open Renewal (on)
open Rmm (setGranule setPdev setRd setSmmu)

theorem History.renewals_le (h : History s) (ha : s.granule a = .vdev) (hl : (s.vdev a).freshness.lockSeq ≠ 0) :
    ∃ past e, s.renewals (s.rd (s.vdev a).rd).incarnation (s.vdev a).id = past ++ [e] ∧
      e.freshness = (s.vdev a).freshness ∧ ∀ e' ∈ past, e'.freshness.Lt e.freshness := by
  have hcur := h.current a ha hl
  generalize hren : s.renewals (s.rd (s.vdev a).rd).incarnation (s.vdev a).id = l at hcur
  rcases List.eq_nil_or_concat l with rfl | ⟨past,e,rfl⟩
  · cases hcur
  have he : e.freshness = (s.vdev a).freshness := by simpa using hcur
  refine ⟨past,e,by simp,he,fun e' he' => ?_⟩
  have hon : ∀ x ∈ past.concat e, on (s.rd (s.vdev a).rd).incarnation (s.vdev a).id x = true := by
    rw [← hren]
    exact fun x hx => (List.mem_filter.mp hx).2
  have hpair : (past.concat e).Pairwise Later := by
    rw [← hren]
    exact h.later.filter _
  rw [List.concat_eq_append,List.pairwise_append] at hpair
  have h1 := hon e' (by simp [he'])
  have h2 := hon e (by simp)
  simp only [on,Bool.and_eq_true,beq_iff_eq] at h1 h2
  exact hpair.2.2 e' he' e (by simp) (h1.1.trans h2.1.symm) (h1.2.trans h2.2.symm) (by rwa [he])

theorem Renews.lt {r' : Realm} {f' : Freshness} {st' : VdevState} {op : VdevOp}
    (hf : Renews r f st op r' f' st') (hle : f.lockSeq ≤ r.lastVdevLockSeq) :
    f.Lt f' ∧ f'.lockSeq ≤ r'.lastVdevLockSeq ∧
      (r.lastVdevLockSeq < f'.lockSeq ∨ op ≠ .lock ∧ f'.lockSeq = f.lockSeq) := by
  cases hf with
  | lock h => exact ⟨.inl (Nat.lt_succ_of_le hle),le_refl _,.inl (Nat.lt_succ_self _)⟩
  | meas h => exact ⟨.inr ⟨rfl,.inl (Nat.lt_succ_self _)⟩,hle,.inr ⟨by simp,rfl⟩⟩
  | report h => exact ⟨.inr ⟨rfl,.inr ⟨rfl,Nat.lt_succ_self _⟩⟩,hle,.inr ⟨by simp,rfl⟩⟩

theorem History.before (h : History s) (ha : s.granule a = .vdev) (hv : s.vdev a = v) (hr : s.granule v.rd = .rd)
    (hf : Renews (s.rd v.rd) v.freshness v.rmiState v.op r f st) :
    ∀ e ∈ s.history, e.realm = (s.rd v.rd).incarnation → e.id = v.id → f.lockSeq ≠ 0 → e.freshness.Lt f := by
  intro e he hrealm hid hl
  have hle : v.freshness.lockSeq ≤ (s.rd v.rd).lastVdevLockSeq := by rw [← hv]; exact h.vdevLast a ha
  obtain ⟨hlt,_,hlast | ⟨_,hsame⟩⟩ := hf.lt hle
  · exact .inl (lt_of_le_of_lt (h.last _ hr e he hrealm) hlast)
  obtain ⟨past,x,hren,hx,hpast⟩ := h.renewals_le ha (by rw [hv,← hsame]; exact hl)
  have hmem : e ∈ past ++ [x] := by
    rw [← hren,hv]
    exact List.mem_filter.mpr ⟨he,by simp [on,hrealm,hid]⟩
  rw [hv] at hx
  rcases List.mem_append.mp hmem with hp | hp
  · exact (hpast e hp).trans (by rw [hx]; exact hlt)
  · rw [List.mem_singleton.mp hp,hx]
    exact hlt

theorem History.renew (h : History s) (ho : Objects s) {x : Pdev}
    (ha : s.granule a = .vdev) (hv : s.vdev a = v) (hr : s.granule v.rd = .rd)
    (hf : Renews (s.rd v.rd) v.freshness v.rmiState v.op r f st) :
    History ((((s.setPdev p x).setRd v.rd r).setVdev a
      { v with rmiState := st,commState := .idle,freshness := f,op := .none }).record
      ⟨(s.rd v.rd).incarnation,v.id,v.op,f⟩) := by
  have hle : v.freshness.lockSeq ≤ (s.rd v.rd).lastVdevLockSeq := by rw [← hv]; exact h.vdevLast a ha
  obtain ⟨hlt,hnew,hlock⟩ := hf.lt hle
  obtain ⟨_,_,hinc,hgrow,_⟩ := hf.realm
  set e : Renewal := ⟨(s.rd v.rd).incarnation,v.id,v.op,f⟩ with he
  set v' : Vdev := { v with rmiState := st,commState := .idle,freshness := f,op := .none } with hv'
  have hrd : ∀ b, (update s.rd v.rd r b).incarnation = (s.rd b).incarnation ∧
      (s.rd b).lastVdevLockSeq ≤ (update s.rd v.rd r b).lastVdevLockSeq := fun b => by
    rw [update_apply]
    split
    next hb => rw [hb]; exact ⟨hinc,hgrow⟩
    · exact ⟨rfl,le_refl _⟩
  have hvdev : ∀ b, b ≠ a → update s.vdev a v' b = s.vdev b := fun b hb =>
    update_of_ne hb ..
  refine ⟨fun y hy => ?_,fun b hb => ?_,fun b b' hb hb' hbb => ?_,fun b hb y hy hyb => ?_,fun b hb => ?_,
    fun b hb hl => ?_,?_,?_,fun y hy => ?_⟩
  · rcases List.mem_append.mp hy with hy | hy
    · exact h.past y hy
    · rw [List.mem_singleton.mp hy]
      exact h.realm _ hr
  · show (update s.rd v.rd r b).incarnation < s.realms
    rw [(hrd b).1]
    exact h.realm b hb
  · have hbb : (update s.rd v.rd r b).incarnation = (update s.rd v.rd r b').incarnation := hbb
    rw [(hrd b).1,(hrd b').1] at hbb
    exact h.distinct b b' hb hb' hbb
  · have hyb : y.realm = (update s.rd v.rd r b).incarnation := hyb
    rw [(hrd b).1] at hyb
    rcases List.mem_append.mp hy with hy | hy
    · exact (h.last b hb y hy hyb).trans (hrd b).2
    have hy := List.mem_singleton.mp hy
    rw [hy] at hyb ⊢
    have : v.rd = b := h.distinct _ _ hr hb hyb
    subst this
    show f.lockSeq ≤ (update s.rd v.rd r v.rd).lastVdevLockSeq
    rw [update_self]
    exact hnew
  · show (update s.vdev a v' b).freshness.lockSeq ≤ (update s.rd v.rd r (update s.vdev a v' b).rd).lastVdevLockSeq
    by_cases hba : b = a
    · subst hba
      rw [update_self]
      rw [update_self]
      exact hnew
    · rw [hvdev b hba]
      exact (h.vdevLast b hb).trans (hrd _).2
  · have hl : (update s.vdev a v' b).freshness.lockSeq ≠ 0 := hl
    show (((s.history ++ [e]).filter (on (update s.rd v.rd r (update s.vdev a v' b).rd).incarnation
      (update s.vdev a v' b).id)).getLast?).map (·.freshness) =
      some (update s.vdev a v' b).freshness
    rw [(hrd _).1]
    by_cases hba : b = a
    · subst hba
      rw [update_self,List.filter_append]
      have : on (s.rd v'.rd).incarnation v'.id e = true := by simp [on,he,hv']
      rw [List.filter_cons_of_pos this,List.filter_nil,List.getLast?_concat]
      rfl
    · -- Another VDEV: its Realm or its identifier differs.
      rw [hvdev b hba] at hl ⊢
      have : on (s.rd (s.vdev b).rd).incarnation (s.vdev b).id e = false := by
        simp only [on,he,Bool.and_eq_false_imp,beq_iff_eq,beq_eq_false_iff_ne]
        intro hreal hid
        have hb' := ho.mapped b hb
        have : v.rd = (s.vdev b).rd := h.distinct _ _ hr hb'.1 hreal
        rw [← this,← hid] at hb'
        have ha' := (ho.mapped a ha).2
        rw [hv,hb'.2] at ha'
        exact hba (Option.some.inj ha')
      rw [List.filter_append,List.filter_cons_of_neg (by simp [this]),List.filter_nil,List.append_nil]
      exact h.current b hb hl
  · refine List.pairwise_append.mpr ⟨h.later,List.pairwise_singleton ..,fun y hy z hz => ?_⟩
    rw [List.mem_singleton.mp hz]
    exact h.before ha hv hr hf y hy
  · refine List.pairwise_append.mpr ⟨h.locksLater,List.pairwise_singleton ..,fun y hy z hz => ?_⟩
    rw [List.mem_singleton.mp hz]
    intro hreal _ hop
    rcases hlock with hlock | ⟨hop',_⟩
    · exact lt_of_le_of_lt (h.last _ hr y hy hreal) hlock
    · exact absurd hop hop'
  · rcases List.mem_append.mp hy with hy | hy
    · exact h.bounded y hy
    · rw [List.mem_singleton.mp hy]
      exact (hf.sane (by rw [← hv]; exact ho.sane a ha) (ho.lastLock _ hr)).bounded

theorem History.realmCreate (h : History s) (ho : Objects s) {m : VdevCount} {n : Nat} {d : Bool}
    (ha : s.granule a = .delegated) :
    History { (s.setRd a ⟨s.realms,d,m,0,n,0,fun _ => none⟩).setGranule a .rd with
      realms := s.realms+1 } := by
  have hgran : ∀ b, update s.granule a .rd b = .rd → b ≠ a → s.granule b = .rd := fun b hb hba => by
    rwa [update_of_ne hba] at hb
  have hvdev : ∀ b, update s.granule a .rd b = .vdev → s.granule b = .vdev := fun b hb => by
    rw [update_apply] at hb
    split at hb
    · cases hb
    · exact hb
  have hrd : ∀ b, b ≠ a → update s.rd a ⟨s.realms,d,m,0,n,0,fun _ => none⟩ b = s.rd b := fun b hb =>
    update_of_ne hb ..
  have hne : ∀ b, s.granule b = .vdev → (s.vdev b).rd ≠ a := fun b hb hba => by
    have := (ho.mapped b hb).1
    rw [hba,ha] at this
    cases this
  refine ⟨fun y hy => Nat.lt_succ_of_lt (h.past y hy),fun b hb => ?_,fun b b' hb hb' hbb => ?_,
    fun b hb y hy hyb => ?_,fun b hb => ?_,fun b hb hl => ?_,h.later,h.locksLater,h.bounded⟩
  · show (update s.rd a _ b).incarnation < s.realms+1
    by_cases hba : b = a
    · subst hba
      rw [update_self]
      exact Nat.lt_succ_self _
    · rw [hrd b hba]
      exact Nat.lt_succ_of_lt (h.realm b (hgran b hb hba))
  · have hbb : (update s.rd a _ b).incarnation = (update s.rd a _ b').incarnation := hbb
    by_cases hba : b = a
    · by_cases hba' : b' = a
      · rw [hba,hba']
      · rw [hba,update_self,hrd b' hba'] at hbb
        exact absurd hbb (ne_of_gt (h.realm b' (hgran b' hb' hba')))
    · by_cases hba' : b' = a
      · rw [hba',update_self,hrd b hba] at hbb
        exact absurd hbb (ne_of_lt (h.realm b (hgran b hb hba)))
      · rw [hrd b hba,hrd b' hba'] at hbb
        exact h.distinct b b' (hgran b hb hba) (hgran b' hb' hba') hbb
  · have hyb : y.realm = (update s.rd a _ b).incarnation := hyb
    show y.freshness.lockSeq ≤ (update s.rd a _ b).lastVdevLockSeq
    by_cases hba : b = a
    · subst hba
      rw [update_self] at hyb
      exact absurd hyb (ne_of_lt (h.past y hy))
    · rw [hrd b hba] at hyb ⊢
      exact h.last b (hgran b hb hba) y hy hyb
  · have hb := hvdev b hb
    show (s.vdev b).freshness.lockSeq ≤ (update s.rd a _ (s.vdev b).rd).lastVdevLockSeq
    rw [hrd _ (hne b hb)]
    exact h.vdevLast b hb
  · have hb := hvdev b hb
    show ((s.history.filter (on (update s.rd a _ (s.vdev b).rd).incarnation
      (s.vdev b).id)).getLast?).map (·.freshness) = some (s.vdev b).freshness
    rw [hrd _ (hne b hb)]
    exact h.current b hb hl

theorem Carries.of_same (hh : t.history = s.history) (hn : t.realms = s.realms)
    (hg : t.granule = s.granule) (hr : t.rd = s.rd) (hv : t.vdev = s.vdev)
    (ha : v'.rd = (s.vdev a).rd ∧ v'.id = (s.vdev a).id ∧ v'.freshness = (s.vdev a).freshness) :
    Carries s (t.setVdev a v') := by
  cases t
  subst hh hn hg hr hv
  refine ⟨rfl,rfl,fun r hr => ⟨hr,rfl,rfl⟩,fun b hb => .inr ⟨hb,?_⟩⟩
  show (update s.vdev a v' b).rd = _ ∧ (update s.vdev a v' b).id = _ ∧ (update s.vdev a v' b).freshness = _
  by_cases hba : b = a
  · subst hba
    rw [update_self]
    exact ha
  · rw [update_of_ne hba]
    exact ⟨rfl,rfl,rfl⟩

theorem Carries.of_granule (hh : t.history = s.history) (hn : t.realms = s.realms)
    (hg : ∀ b, (t.granule b = .rd ∨ t.granule b = .vdev) → t.granule b = s.granule b) (hr : t.rd = s.rd)
    (hv : t.vdev = s.vdev) : Carries s t := by
  refine ⟨hh,hn,fun r hr' => ?_,fun b hb => .inr ?_⟩
  · rw [hr]
    exact ⟨(hg r (.inl hr')).symm.trans hr',rfl,rfl⟩
  · rw [hv]
    exact ⟨(hg b (.inr hb)).symm.trans hb,rfl,rfl,rfl⟩

theorem carries_setGranule {g : Rtt.GranuleState} (hh : t.history = s.history)
    (hn : t.realms = s.realms) (hgran : t.granule = s.granule) (hr : t.rd = s.rd) (hv : t.vdev = s.vdev)
    (hg : g ≠ .rd ∧ g ≠ .vdev) : Carries s (t.setGranule a g) := by
  refine Carries.of_granule hh hn (fun b hb => ?_) hr hv
  rw [Rmm.granule_setGranule] at hb ⊢
  split at hb
  · rcases hb with hb | hb
    · exact absurd hb hg.1
    · exact absurd hb hg.2
  next hba => rw [if_neg hba,hgran]

theorem Move.freshness (hm : Move v v') : v'.freshness = v.freshness := by
  cases hm <;> rfl

theorem carries_insertVdev {t : StreamTable} {i sid slot : Nat} {x : VdevParams} :
    Carries s ((s.setSmmu j t).insertVdev rd p a sid i slot x) := by
  have hgran : ∀ b, ((s.setSmmu j t).insertVdev rd p a sid i slot x).granule b =
      if b = a then .vdev else s.granule b := fun b => update_apply ..
  have hvdev : ∀ b, ((s.setSmmu j t).insertVdev rd p a sid i slot x).vdev b =
      if b = a then Rmm.newVdev rd p sid i slot x else s.vdev b := fun b => update_apply ..
  refine ⟨rfl,rfl,fun r hr => ?_,fun b hb => ?_⟩
  · rw [hgran] at hr
    split at hr
    · cases hr
    refine ⟨hr,?_⟩
    by_cases hrr : r = rd
    · subst hrr
      simp [Rmm.insertVdev,setGranule,Rmm.setVdev,setPdev,setRd,Realm.mapVdev,setSmmu]
    · simp [Rmm.insertVdev,setGranule,Rmm.setVdev,setPdev,setRd,setSmmu,hrr]
  · rw [hvdev]
    rw [hgran] at hb
    split
    · exact .inl rfl
    next hba => rw [if_neg hba] at hb; exact .inr ⟨hb,rfl,rfl,rfl⟩

theorem carries_removeVdev {t : StreamTable} : Carries s ((s.setSmmu j t).removeVdev rd p a) := by
  have hgran : ∀ b, ((s.setSmmu j t).removeVdev rd p a).granule b =
      if b = a then .delegated else s.granule b := fun b => update_apply ..
  refine ⟨rfl,rfl,fun r hr => ?_,fun b hb => .inr ?_⟩
  · rw [hgran] at hr
    split at hr
    · cases hr
    refine ⟨hr,?_⟩
    by_cases hrr : r = rd
    · subst hrr
      simp [Rmm.removeVdev,setGranule,setPdev,setRd,Realm.mapVdev,setSmmu]
    · simp [Rmm.removeVdev,setGranule,setPdev,setRd,setSmmu,hrr]
  · rw [hgran] at hb
    split at hb
    · cases hb
    · exact ⟨hb,rfl,rfl,rfl⟩

theorem History.effect (h : History s) (ho : Objects s) (he : Effect s c s') : History s' := by
  have ho' := ho.effect he
  cases he with
  | same => exact h
  | granule a g ha hg => exact h.carry ho' (carries_setGranule rfl rfl rfl rfl rfl hg)
  | pdev a x | psmmu i op | toggle a v b ha hq hb | release a v ha hv hq => exact h.carry ho' (.of_granule rfl rfl (fun _ _ => rfl) rfl rfl)
  | pdevCreate a x ha =>
    have hp : Carries s ((s.setPdev a x).setGranule a .pdev) :=
      carries_setGranule rfl rfl rfl rfl rfl (by simp)
    exact h.carry ho' hp
  | realmCreate a m n d ha => exact h.realmCreate ho ha
  | realmDestroy a ha hv => exact h.carry ho' (carries_setGranule rfl rfl rfl rfl rfl (by simp))
  | move a p x v v' ha hv hm =>
    refine h.carry ho' (Carries.of_same rfl rfl rfl rfl rfl ?_)
    rw [hv]
    exact ⟨hm.sameVdev.rd,hm.sameVdev.id,hm.freshness⟩
  | renew a p x v r f st ha hv hr hcomm hf => exact h.renew ho ha hv hr hf
  | dma a v b ha hb =>
    refine h.carry ho' (Carries.of_same rfl rfl rfl rfl rfl ?_)
    rw [ha.1]
    exact ⟨rfl,rfl,rfl⟩
  | unlockDma a v ha hv hidle hst =>
    refine h.carry ho' (Carries.of_same rfl rfl rfl rfl rfl ?_)
    rw [hv]
    exact ⟨rfl,rfl,rfl⟩
  | create rd p a sid i slot x hr ha hi hready hz hid => exact h.carry ho' carries_insertVdev
  | destroy p a v ha hv hr hst hoff => exact h.carry ho' carries_removeVdev

theorem history_initial (h : s.Initial) : History s := by
  have hv : ∀ a, s.granule a ≠ .vdev := fun a => (plain_ne (h.granule a)).2
  have hr : ∀ a, s.granule a ≠ .rd := fun a => (plain_ne (h.granule a)).1
  have hh := h.history
  exact ⟨by rw [hh]; simp,fun r hr' => absurd hr' (hr r),fun r _ hr' => absurd hr' (hr r),
    fun r hr' => absurd hr' (hr r),fun a ha => absurd ha (hv a),fun a ha => absurd ha (hv a),
    by rw [hh]; exact List.Pairwise.nil,by rw [hh]; exact List.Pairwise.nil,by rw [hh]; simp⟩

theorem reachable_history (h : (system cfg).Reachable s) : Objects s ∧ History s := by
  refine Lib.TransitionSystem.Reachable.invariant (I := fun s => Objects s ∧ History s)
    (fun s hi => ⟨objects_initial hi,history_initial hi⟩) (fun s l t hs hst => ?_) h
  obtain ⟨st,hst⟩ := hst
  exact ⟨hs.1.effect (exec_effect hst),hs.2.effect hs.1 (exec_effect hst)⟩

structure Renewed (s s' : Rmm) (a : Nat) : Prop where
  larger : (s.vdev a).freshness.Lt (s'.vdev a).freshness
  recorded : s'.history =
    s.history ++ [⟨(s.rd (s.vdev a).rd).incarnation,(s.vdev a).id,(s.vdev a).op,(s'.vdev a).freshness⟩]

def RenewsOne (s s' : Rmm) : Prop :=
  (s'.history = s.history ∧ ∀ a, s.granule a = .vdev → s'.granule a = .vdev →
    (s'.vdev a).freshness = (s.vdev a).freshness) ∨ ∃ a, s.granule a = .vdev ∧ Renewed s s' a

def Completes (s s' : Rmm) (a : Nat) : Prop :=
  ((s.vdev a).op = .lock ∨ (s.vdev a).op = .getMeas ∨ (s.vdev a).op = .getReport) ∧ (s'.vdev a).op = .none

theorem renewsOne_setVdev (hh : t.history = s.history)
    (hv : t.vdev = s.vdev) (hf : v'.freshness = (s.vdev a).freshness) : RenewsOne s (t.setVdev a v') := by
  refine .inl ⟨hh,fun b _ _ => ?_⟩
  show (update t.vdev a v' b).freshness = _
  rw [hv]
  by_cases hba : b = a
  · subst hba
    rw [update_self]
    exact hf
  · rw [update_of_ne hba]

theorem History.renewed (h : History s) {x : Pdev} (ha : s.granule a = .vdev) (hv : s.vdev a = v)
    (hf : Renews (s.rd v.rd) v.freshness v.rmiState v.op r f st) :
    Renewed s ((((s.setPdev p x).setRd v.rd r).setVdev a
      { v with rmiState := st,commState := .idle,freshness := f,op := .none }).record
      ⟨(s.rd v.rd).incarnation,v.id,v.op,f⟩) a := by
  have hle : v.freshness.lockSeq ≤ (s.rd v.rd).lastVdevLockSeq := by rw [← hv]; exact h.vdevLast a ha
  have hnew : ((((s.setPdev p x).setRd v.rd r).setVdev a
      { v with rmiState := st,commState := .idle,freshness := f,op := .none }).record
      ⟨(s.rd v.rd).incarnation,v.id,v.op,f⟩).vdev a =
      { v with rmiState := st,commState := .idle,freshness := f,op := .none } := update_self ..
  constructor
  · rw [hnew,hv]
    exact (hf.lt hle).1
  · rw [hnew,hv]
    rfl

theorem Effect.renewsOne (h : History s) (he : Effect s c s') : RenewsOne s s' := by
  cases he with
  | move a p x v v' ha hv hm => exact renewsOne_setVdev rfl rfl (by rw [hv]; exact hm.freshness)
  | renew a p x v r f st ha hv hr hcomm hf => exact .inr ⟨a,ha,h.renewed ha hv hf⟩
  | dma a v b ha hb => exact renewsOne_setVdev rfl rfl (by rw [ha.1])
  | unlockDma a v ha hv hidle hst => exact renewsOne_setVdev rfl rfl (by rw [hv])
  | create rd p a sid i slot x hr ha hi hready hz hid =>
    refine .inl ⟨rfl,fun b hb _ => ?_⟩
    have hba : b ≠ a := fun hba => by rw [hba,ha] at hb; cases hb
    show (update s.vdev a _ b).freshness = _
    rw [update_of_ne hba]
  | _ => exact .inl ⟨rfl,fun _ _ _ => rfl⟩

theorem not_completes (h : (s'.vdev a).op = (s.vdev a).op) : ¬ Completes s s' a := by
  rintro ⟨hop,hnone⟩
  rw [h] at hnone
  rw [hnone] at hop
  rcases hop with hop | hop | hop <;> cases hop

theorem completes_setVdev {b : Nat} (hv : t.vdev = s.vdev) (hc : Completes s (t.setVdev b v') a) :
    b = a ∧ v'.op = .none := by
  by_cases hab : a = b
  · subst hab
    refine ⟨rfl,?_⟩
    have hnone := hc.2
    rwa [Rmm.vdev_setVdev] at hnone
  · refine absurd hc (not_completes ?_)
    show (update t.vdev b v' a).op = _
    rw [update_of_ne hab,hv]

theorem Move.completes (hm : Move v v') (hop : v.op = .lock ∨ v.op = .getMeas ∨ v.op = .getReport) : v'.op ≠ .none := by
  cases hm with
  | start op hidle hst =>
    intro hz
    rw [show op = .none from hz] at hst
    cases hst
  | unlock => exact nofun
  | active | fail | abort => rcases hop with hop | hop | hop <;> simp [hop]
  | finish st hcomm hf =>
    rcases hop with hop | hop | hop <;> rw [hop] at hf <;> cases hf

theorem Effect.completes (h : History s) (he : Effect s c s') (ha : s.granule a = .vdev) (hc : Completes s s' a) :
    Renewed s s' a := by
  cases he with
  | move b p x v v' hb hv hm =>
    obtain ⟨rfl,hop⟩ := completes_setVdev rfl hc
    rw [Completes,hv] at hc
    exact absurd hop (hm.completes hc.1)
  | renew b p x v r f st hb hv hr hcomm hf =>
    obtain ⟨rfl,_⟩ := completes_setVdev (t := (s.setPdev p x).setRd v.rd r) rfl hc
    exact h.renewed hb hv hf
  | dma b v on hb hon =>
    obtain ⟨rfl,hop⟩ := completes_setVdev rfl hc
    refine absurd hc (not_completes ?_)
    rw [hc.2,hb.1]
    exact hop.symm
  | unlockDma b v hb hv hidle hst => exact absurd (completes_setVdev rfl hc).2 nofun
  | create rd p b sid i slot x hr hb hi hready hz hid =>
    have hab : a ≠ b := fun hab => by rw [hab,hb] at ha; cases ha
    refine absurd hc (not_completes ?_)
    show (update s.vdev b _ a).op = _
    rw [update_of_ne hab]
  | _ => exact absurd hc (not_completes rfl)

theorem RenewsOne.grows (h : RenewsOne s s') : s.history <+: s'.history := by
  rcases h with ⟨h,_⟩ | ⟨a,_,h⟩
  · exact h ▸ List.prefix_refl _
  · rw [h.recorded]
    exact List.prefix_append _ _

theorem renewals_unchanged (h₀ : History s₀) (h : History s) (hp : s₀.history <+: s.history)
    {a₀ : Nat} (ha₀ : s₀.granule a₀ = .vdev) (ha : s.granule a = .vdev)
    (hl : (s.vdev a).freshness.lockSeq ≠ 0) (hf : (s₀.vdev a₀).freshness = (s.vdev a).freshness)
    (hid : (s₀.vdev a₀).id = (s.vdev a).id)
    (hinc : (s₀.rd (s₀.vdev a₀).rd).incarnation = (s.rd (s.vdev a).rd).incarnation) :
    s.renewals (s.rd (s.vdev a).rd).incarnation (s.vdev a).id =
      s₀.renewals (s.rd (s.vdev a).rd).incarnation (s.vdev a).id := by
  obtain ⟨past₀,e₀,hren₀,he₀,_⟩ := h₀.renewals_le ha₀ (by rw [hf]; exact hl)
  obtain ⟨past,e,hren,he,hpast⟩ := h.renewals_le ha hl
  rw [hinc,hid] at hren₀
  obtain ⟨l,hl⟩ : s₀.renewals (s.rd (s.vdev a).rd).incarnation (s.vdev a).id <+:
      s.renewals (s.rd (s.vdev a).rd).incarnation (s.vdev a).id := hp.filter _
  rcases List.eq_nil_or_concat l with rfl | ⟨l,x,rfl⟩
  · rw [← hl,List.append_nil]
  rw [hren₀,hren,List.concat_eq_append,← List.append_assoc] at hl
  have hmem : e₀ ∈ past := by
    rw [← (List.append_inj' hl rfl).1]
    simp
  have hlt := hpast e₀ hmem
  rw [he₀,he,hf] at hlt
  exact absurd hlt (Freshness.Lt.irrefl _)

def Accepts (s : Rmm) (rd id : Nat) (f : Freshness) : Prop :=
  (∃ n e e', (s.rsiVdevDmaEnable rd id n f e e').2 = .success) ∨ s.devValidate rd id f = .success

theorem Accepts.vdev (h : Accepts s rd id f) : ∃ a, s.claimObjects rd id = .ok a ∧ (s.vdev a).freshness = f ∧
      ((s.vdev a).rmiState = .locked ∨ (s.vdev a).rmiState = .started) := by
  rcases h with ⟨n,e,e',h⟩ | h
  · unfold Rmm.rsiVdevDmaEnable at h
    extract_lets r at h
    split at h
    · cases h
    split at h
    next st hclaim =>
      have : ∀ st, s.claimObjects rd id = .error st → st ≠ .success := fun st hc => by
        unfold Rmm.claimObjects at hc
        split at hc
        · cases hc; simp
        · split at hc <;> cases hc
          simp
      exact absurd h (this st hclaim)
    next a hclaim =>
    extract_lets v at h
    split at h
    · cases h
    split at h
    · cases h
    next hst =>
      simp only [not_or,not_not] at hst
      exact ⟨a,hclaim,hst.2,.inr hst.1⟩
  · unfold Rmm.devValidate at h
    split at h
    · cases h
    next a hclaim =>
    extract_lets v at h
    split at h
    · cases h
    next hst =>
    split at h
    · cases h
    next hf =>
    refine ⟨a,hclaim,not_not.mp hf,?_⟩
    have := (not_or.mp hst).1
    tauto

def Current (s₀ s : Rmm) (rd id : Nat) (f : Freshness) : Prop :=
  ∃ a, s.granule a = .vdev ∧ (s.vdev a).rd = rd ∧ (s.vdev a).id = id ∧ (s.vdev a).freshness = f ∧
    ((s.renewals (s.rd rd).incarnation id).getLast?).map (·.freshness) = some f ∧
    ∀ a₀, s₀.granule a₀ = .vdev → (s₀.vdev a₀).rd = rd → (s₀.vdev a₀).id = id →
      (s₀.vdev a₀).freshness = f → (s₀.rd rd).incarnation = (s.rd rd).incarnation →
      s.renewals (s.rd rd).incarnation id = s₀.renewals (s.rd rd).incarnation id

theorem accepts_current (ho : Objects s) (h₀ : History s₀) (h : History s) (hp : s₀.history <+: s.history)
    (hr : s.granule rd = .rd) (ha : Accepts s rd id f) : Current s₀ s rd id f := by
  obtain ⟨a,hclaim,hf,hst⟩ := ha.vdev
  obtain ⟨hmap,hrd,hid⟩ := claimObjects_ok hclaim
  have hvdev := (ho.back rd id a hr hmap).1
  have hl := (ho.sane a hvdev).locked hst
  refine ⟨a,hvdev,hrd,hid,hf,?_,fun a₀ ha₀ hrd₀ hid₀ hf₀ hinc => ?_⟩
  · have := h.current a hvdev hl
    rwa [hrd,hid,hf] at this
  · have := renewals_unchanged h₀ h hp ha₀ hvdev hl (hf₀.trans hf.symm) (hid₀.trans hid.symm)
      (by rw [hrd₀,hrd]; exact hinc)
    rwa [hrd,hid] at this

theorem vdev_freshness {s₀ : Rmm} (h₀ : (system cfg).Reachable s₀)
    (hrun : Relation.ReflTransGen ((system cfg).GuardedStep fun _ _ => True) s₀ s) :
    (s.history.Pairwise fun e e' => e.realm = e'.realm → e.op = .lock → e'.op = .lock →
      e.freshness.lockSeq ≠ e'.freshness.lockSeq) ∧
    s.history.Pairwise Later ∧
    (∀ c s' st, s.exec cfg c = .ok (s',st) →
      RenewsOne s s' ∧ ∀ a, s.granule a = .vdev → Completes s s' a → Renewed s s' a) ∧
    (∀ e ∈ s.history, e.freshness.lockSeq ≤ seqMax ∧ e.freshness.measSeq ≤ seqMax ∧ e.freshness.reportSeq ≤ seqMax) ∧
    ∀ rd id f, s.granule rd = .rd → Accepts s rd id f → Current s₀ s rd id f := by
  obtain ⟨ho₀,hh₀⟩ := reachable_history h₀
  obtain ⟨ho,hh,hp⟩ : Objects s ∧ History s ∧ s₀.history <+: s.history := by
    induction hrun with
    | refl => exact ⟨ho₀,hh₀,List.prefix_refl _⟩
    | tail _ hst ih =>
      obtain ⟨ho,hh,hp⟩ := ih
      obtain ⟨c,_,st,hst⟩ := hst
      have he := exec_effect hst
      exact ⟨ho.effect he,hh.effect ho he,hp.trans (he.renewsOne hh).grows⟩
  exact ⟨hh.locksLater.imp fun hlt hr ho ho' => ne_of_lt (hlt hr ho ho'),hh.later,
    fun c s' st hst => ⟨(exec_effect hst).renewsOne hh,fun a ha hc => (exec_effect hst).completes hh ha hc⟩,
    hh.bounded,fun rd id f hr ha => accepts_current ho hh₀ hh hp hr ha⟩

def Rmm.runs (cfg : Config) : List Command → Rmm → Option Rmm
  | [], s => some s
  | c :: cs, s =>
    match s.exec cfg c with
    | .error _ => none
    | .ok (s',_) => Rmm.runs cfg cs s'

theorem reachable_runs {cs : List Command} (h : (system cfg).Reachable s)
    (hr : s.runs cfg cs = some s') : (system cfg).Reachable s' := by
  induction cs generalizing s with
  | nil => cases hr; exact h
  | cons c cs ih =>
    simp only [Rmm.runs] at hr
    split at hr
    · cases hr
    next t st he => exact ih (h.next trivial ⟨st,he⟩) hr

namespace Sample

def platform : Config := ⟨fun _ tdi => some (0,tdi)⟩

def device : Pdev where
  endpoint := true
  ready := true
  maxNumVdevs := 2
  numVdevs := 0
  ridBase := 0
  ridTop := 64
  ecamAddr := 0
  ncoh := ⟨true,true,[(0,0x100000)]⟩
  coh := ⟨false,false,[]⟩
  slot := fun _ => none
  yieldOwner := none

def boot : Rmm where
  granule := fun _ => .delegated
  rd := fun _ => ⟨0,false,⟨0,Nat.zero_le _⟩,0,0,0,fun _ => none⟩
  pdev := fun _ => device
  vdev := fun _ => Rmm.newVdev 0 0 0 0 0 ⟨0,0,0,[]⟩
  numSmmus := 1
  smmu := fun _ => ⟨.inactive,6,fun _ => none,0,fun _ => 0,fun _ => .zero⟩
  realms := 0
  history := []

theorem boot_initial : boot.Initial :=
  ⟨fun _ => rfl,fun _ => rfl,fun _ _ => rfl,fun _ => rfl,fun _ _ => rfl,fun _ _ => rfl,rfl⟩

def answered : Rmm.CommEnv := ⟨true,.success,true,true,true⟩

def communicate : Command := .vdevCommunicate 1 2 3 answered

def create : Command := .vdevCreate 1 2 3 (some ⟨0,7,5,[(0x1000,0x2000)]⟩) ⟨none,none⟩

def maxVdevs : VdevCount := ⟨4,Nat.le_of_ble_eq_true rfl⟩

def setup : List Command :=
  [.realmCreate 1 maxVdevs 0 true,.pdevCreate 2 device,.psmmu 0 .activate,.psmmu 0 .activateFinish,
    .psmmu 0 (.createStL2 0 9 none none),create,communicate]

def locked : List Command := setup ++ [.vdevLock 1 2 3,communicate]

def unlock : List Command := [.vdevUnlock 1 2 3 (fun _ => .unmapped) none,communicate]

def measured : List Command :=
  locked ++ unlock ++ [.vdevDestroy 1 2 3 none,create,communicate,.vdevGetMeasurements 1 2 3 true,communicate]

end Sample

theorem measured_before_lock : ∃ s, (system Sample.platform).Reachable s ∧
    ¬ s.history.Pairwise fun e e' => e.realm = e'.realm → e.id = e'.id → e.freshness.Lt e'.freshness := by
  have hrun : (Sample.boot.runs Sample.platform Sample.measured).map (·.history) =
      some [⟨0,7,.lock,⟨1,0,0⟩⟩,⟨0,7,.getMeas,⟨0,1,0⟩⟩] := by rfl
  obtain ⟨s,hs,hh⟩ := Option.map_eq_some_iff.mp hrun
  refine ⟨s,reachable_runs (.initial Sample.boot_initial) hs,?_⟩
  rw [hh]
  decide

theorem vdev_freshness_locked : ∃ s, (system Sample.platform).Reachable s ∧
    Accepts s 1 7 ⟨1,0,0⟩ ∧ Current s s 1 7 ⟨1,0,0⟩ := by
  have hrun : (Sample.boot.runs Sample.platform Sample.locked).map
      (fun s => (s.granule 1,s.devValidate 1 7 ⟨1,0,0⟩)) = some (.rd,.success) := by rfl
  obtain ⟨s,hs,hh⟩ := Option.map_eq_some_iff.mp hrun
  have hreach := reachable_runs (.initial Sample.boot_initial) hs
  have ha : Accepts s 1 7 ⟨1,0,0⟩ := .inr (Prod.mk.inj hh).2
  exact ⟨s,hreach,ha,(vdev_freshness hreach .refl).2.2.2.2 1 7 _ (Prod.mk.inj hh).1 ha⟩

theorem vdev_map_exact (h : (system cfg).Reachable s) :
    (∀ a, s.granule a = .vdev → s.granule (s.vdev a).rd = .rd) ∧ ∀ r, s.granule r = .rd →
    (∀ id a, (s.rd r).vdevMap id = some a ↔ s.granule a = .vdev ∧ (s.vdev a).rd = r ∧ (s.vdev a).id = id) ∧
    ∃ l : List Nat, l.Nodup ∧ l.length = (s.rd r).vdevRefcount ∧
      ∀ a, a ∈ l ↔ s.granule a = .vdev ∧ (s.vdev a).rd = r := by
  have ho := (reachable_history h).1
  refine ⟨fun a ha => (ho.mapped a ha).1,fun r hr => ⟨fun id a => ⟨ho.back r id a hr,?_⟩,ho.counted r hr⟩⟩
  rintro ⟨ha,rfl,rfl⟩
  exact (ho.mapped a ha).2

theorem vdev_map_exact_created : ∃ s, (system Sample.platform).Reachable s ∧ s.granule 3 = .vdev ∧
    (s.rd 1).vdevMap 7 = some 3 := by
  have hrun : (Sample.boot.runs Sample.platform Sample.setup).map
      (fun s => (s.granule 1,s.granule 3,(s.vdev 3).rd,(s.vdev 3).id)) = some (.rd,.vdev,1,7) := by rfl
  obtain ⟨s,hs,hh⟩ := Option.map_eq_some_iff.mp hrun
  simp only [Prod.mk.injEq] at hh
  have hr := reachable_runs (.initial Sample.boot_initial) hs
  exact ⟨s,hr,hh.2.1,(((vdev_map_exact hr).2 1 hh.1).1 7 3).2 hh.2⟩

end TfRmm.Da
