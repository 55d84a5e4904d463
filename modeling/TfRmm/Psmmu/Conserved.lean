import TfRmm.Psmmu.Custody

namespace TfRmm.Psmmu

open TfRmm.Lib TfRmm.Smmu

namespace Rmm

variable {s s' : Rmm} {h : Nat} {c c' : Ctx}

structure Told (s : Rmm) : Prop where
  fresh : ∀ h c, s.sro h = some c → c.serial < s.serial
  distinct : ∀ h h' c c', s.sro h = some c → s.sro h' = some c' → c.serial = c'.serial → h = h'
  untold : ∀ h c, s.sro h = some c → c.serial ∉ s.succeeded ∧ c.serial ∉ s.failed
  removing : ∀ h c, s.sro h = some c → (c.serial ∈ s.effective ↔ c.stage.removing = true)
  effective : ∀ n, n ∈ s.effective → n ∈ s.succeeded ∨ ∃ h c, s.sro h = some c ∧ c.serial = n
  succeeded : ∀ n, n ∈ s.succeeded → n ∈ s.effective
  failed : ∀ n, n ∈ s.failed → n ∉ s.effective
  bound : ∀ n, n ∈ s.effective ∨ n ∈ s.failed → n < s.serial

structure SameHistory (s s' : Rmm) : Prop where
  serial : s'.serial = s.serial
  effective : s'.effective = s.effective
  succeeded : s'.succeeded = s.succeeded
  failed : s'.failed = s.failed

theorem Told.same (ht : s.Told) (hs : SameHistory s s') (hsro : s'.sro = s.sro) : s'.Told := by
  obtain ⟨h1,h2,h3,h4⟩ := hs
  refine ⟨?_,?_,?_,?_,?_,?_,?_,?_⟩ <;> simp only [h1,h2,h3,h4,hsro]
  · exact ht.fresh
  · exact ht.distinct
  · exact ht.untold
  · exact ht.removing
  · exact ht.effective
  · exact ht.succeeded
  · exact ht.failed
  · exact ht.bound

theorem Told.proceed (ht : s.Told) (d : Ctx) (hc : s.sro h = some c) (hserial : d.serial = c.serial)
    (hrem : d.stage.removing = c.stage.removing) : (s.setSro h (some d)).Told := by
  have hback : ∀ h' c', (s.setSro h (some d)).sro h' = some c' →
      ∃ c₁, s.sro h' = some c₁ ∧ c'.serial = c₁.serial ∧ c'.stage.removing = c₁.stage.removing :=
    forall_setSro (fun h' c' _ hc' => ⟨c',hc',rfl,rfl⟩) fun c' hc' => by
      cases hc'
      exact ⟨c,hc,hserial,hrem⟩
  refine ⟨fun h' c' hc' => ?_,fun h₁ h₂ c₁ c₂ hc₁ hc₂ he => ?_,fun h' c' hc' => ?_,fun h' c' hc' => ?_,
    fun n hn => ?_,ht.succeeded,ht.failed,ht.bound⟩
  · obtain ⟨c₁,hc₁,hs,_⟩ := hback h' c' hc'
    exact hs ▸ ht.fresh h' c₁ hc₁
  · obtain ⟨d₁,hd₁,hs₁,_⟩ := hback h₁ c₁ hc₁
    obtain ⟨d₂,hd₂,hs₂,_⟩ := hback h₂ c₂ hc₂
    exact ht.distinct h₁ h₂ d₁ d₂ hd₁ hd₂ (hs₁.symm.trans (he.trans hs₂))
  · obtain ⟨c₁,hc₁,hs,_⟩ := hback h' c' hc'
    exact hs ▸ ht.untold h' c₁ hc₁
  · obtain ⟨c₁,hc₁,hs,hr⟩ := hback h' c' hc'
    rw [hs,hr]
    exact ht.removing h' c₁ hc₁
  · rcases ht.effective n hn with hn | ⟨h',c',hc',hs⟩
    · exact .inl hn
    · refine .inr ?_
      by_cases he : h' = h
      · subst he
        rw [hc] at hc'
        cases hc'
        exact ⟨h',d,by rw [sro_setSro,if_pos rfl],hserial.trans hs⟩
      · exact ⟨h',c',by rw [sro_setSro,if_neg he]; exact hc',hs⟩

theorem mem_of_serial (ht : s.Told) {n : Nat} (hn : s.serial ≤ n) : n ∉ s.effective ∧ n ∉ s.succeeded ∧ n ∉ s.failed := by
  refine ⟨fun h => ?_,fun h => ?_,fun h => ?_⟩
  · have := ht.bound n (.inl h)
    omega
  · have := ht.bound n (.inl (ht.succeeded n h))
    omega
  · have := ht.bound n (.inr h)
    omega

theorem Told.start (ht : s.Told) (d : Ctx) (hh : s.sro h = none) (hserial : d.serial = s.serial)
    (hsro : s'.sro = (s.setSro h (some d)).sro) (hnext : s'.serial = s.serial+1)
    (heff : s'.effective = if d.stage.removing then s.serial :: s.effective else s.effective)
    (hsucc : s'.succeeded = s.succeeded) (hfail : s'.failed = s.failed) : s'.Told := by
  obtain ⟨hn1,hn2,hn3⟩ := mem_of_serial ht (le_refl s.serial)
  have hmem : ∀ n, n ∈ s'.effective ↔ (d.stage.removing = true ∧ n = s.serial) ∨ n ∈ s.effective := fun n => by
    rw [heff]
    split <;> simp [*]
  have hold : ∀ h' c', h' ≠ h → s.sro h' = some c' → c'.serial ≠ s.serial := fun h' c' _ hc' =>
    ne_of_lt (ht.fresh h' c' hc')
  have hcases : ∀ h' c', s'.sro h' = some c' → (h' = h ∧ c' = d) ∨ (h' ≠ h ∧ s.sro h' = some c') := by
    rw [hsro]
    exact forall_setSro (fun h' c' hne hc' => .inr ⟨hne,hc'⟩) fun c' hc' => .inl ⟨rfl,(Option.some.inj hc').symm⟩
  refine ⟨fun h' c' hc' => ?_,fun h₁ h₂ c₁ c₂ hc₁ hc₂ he => ?_,fun h' c' hc' => ?_,fun h' c' hc' => ?_,
    fun n hn => ?_,fun n hn => ?_,fun n hn => ?_,fun n hn => ?_⟩
  · rw [hnext]
    rcases hcases h' c' hc' with ⟨_,rfl⟩ | ⟨_,hc'⟩
    · omega
    · have := ht.fresh h' c' hc'
      omega
  · rcases hcases h₁ c₁ hc₁ with ⟨e1,rfl⟩ | ⟨n1,hc₁⟩ <;> rcases hcases h₂ c₂ hc₂ with ⟨e2,rfl⟩ | ⟨n2,hc₂⟩
    · rw [e1,e2]
    · exact absurd (he.symm.trans hserial) (hold h₂ c₂ n2 hc₂)
    · exact absurd (he.trans hserial) (hold h₁ c₁ n1 hc₁)
    · exact ht.distinct h₁ h₂ c₁ c₂ hc₁ hc₂ he
  · rw [hsucc,hfail]
    rcases hcases h' c' hc' with ⟨_,rfl⟩ | ⟨_,hc'⟩
    · rw [hserial]
      exact ⟨hn2,hn3⟩
    · exact ht.untold h' c' hc'
  · rw [hmem]
    rcases hcases h' c' hc' with ⟨_,rfl⟩ | ⟨hne,hc'⟩
    · simp [hserial,hn1]
    · simp [hold h' c' hne hc',ht.removing h' c' hc']
  · rw [hsucc,hsro]
    rcases (hmem n).mp hn with ⟨_,rfl⟩ | hn
    · exact .inr ⟨h,d,by rw [sro_setSro,if_pos rfl],hserial⟩
    rcases ht.effective n hn with hn | ⟨h',c',hc',hs⟩
    · exact .inl hn
    refine .inr ⟨h',c',?_,hs⟩
    rw [sro_setSro,if_neg ?_]
    · exact hc'
    · rintro rfl
      rw [hh] at hc'
      cases hc'
  · rw [hsucc] at hn
    exact (hmem n).mpr (.inr (ht.succeeded n hn))
  · rw [hfail] at hn
    rw [hmem]
    rintro (⟨_,rfl⟩ | he)
    · exact hn3 hn
    · exact ht.failed n hn he
  · rw [hnext]
    rcases hn with hn | hn
    · rcases (hmem n).mp hn with ⟨_,rfl⟩ | hn
      · omega
      · have := ht.bound n (.inl hn)
        omega
    · rw [hfail] at hn
      have := ht.bound n (.inr hn)
      omega

theorem Told.refuse (ht : s.Told) : (s.nextSerial.report s.serial .errorInput).Told := by
  obtain ⟨hn1,hn2,hn3⟩ := mem_of_serial ht (le_refl s.serial)
  refine ⟨fun h c hc => Nat.lt_succ_of_lt (ht.fresh h c hc),ht.distinct,fun h c hc => ?_,ht.removing,ht.effective,
    ht.succeeded,fun n hn => ?_,fun n hn => ?_⟩
  · have := ht.fresh h c hc
    obtain ⟨h1,h2⟩ := ht.untold h c hc
    refine ⟨h1,?_⟩
    show c.serial ∉ s.serial :: s.failed
    rw [List.mem_cons,not_or]
    exact ⟨by omega,h2⟩
  · rcases List.mem_cons.mp hn with rfl | hn
    · exact hn1
    · exact ht.failed n hn
  · show n < s.serial+1
    rcases hn with hn | hn
    · have := ht.bound n (.inl hn)
      omega
    rcases List.mem_cons.mp hn with rfl | hn
    · omega
    · have := ht.bound n (.inr hn)
      omega

theorem Told.finish (ht : s.Told) (st : Status) (hc : s.sro h = some c) (hsro : s'.sro = (s.setSro h none).sro)
    (hnext : s'.serial = s.serial) (heff : ∀ n, n ∈ s'.effective ↔ (st = .success ∧ n = c.serial) ∨ n ∈ s.effective)
    (hsucc : ∀ n, n ∈ s'.succeeded ↔ (st = .success ∧ n = c.serial) ∨ n ∈ s.succeeded)
    (hfail : ∀ n, n ∈ s'.failed ↔ (st ≠ .success ∧ n = c.serial) ∨ n ∈ s.failed)
    (hrem : c.stage.removing = true → st = .success) : s'.Told := by
  have hcases : ∀ h' c', s'.sro h' = some c' → h' ≠ h ∧ s.sro h' = some c' := by
    rw [hsro]
    exact forall_setSro (fun h' c' hne hc' => ⟨hne,hc'⟩) fun c' hc' => by cases hc'
  have hother : ∀ h' c', s'.sro h' = some c' → c'.serial ≠ c.serial := fun h' c' hc' he =>
    (hcases h' c' hc').1 (ht.distinct h' h c' c (hcases h' c' hc').2 hc he)
  obtain ⟨hu1,hu2⟩ := ht.untold h c hc
  refine ⟨fun h' c' hc' => ?_,fun h₁ h₂ c₁ c₂ hc₁ hc₂ he => ?_,fun h' c' hc' => ?_,fun h' c' hc' => ?_,
    fun n hn => ?_,fun n hn => ?_,fun n hn => ?_,fun n hn => ?_⟩
  · rw [hnext]
    exact ht.fresh h' c' (hcases h' c' hc').2
  · exact ht.distinct h₁ h₂ c₁ c₂ (hcases h₁ c₁ hc₁).2 (hcases h₂ c₂ hc₂).2 he
  · rw [hsucc,hfail]
    have := ht.untold h' c' (hcases h' c' hc').2
    simp [hother h' c' hc',this]
  · rw [heff]
    simp [hother h' c' hc',ht.removing h' c' (hcases h' c' hc').2]
  · rw [hsucc]
    rcases (heff n).mp hn with hn | hn
    · exact .inl (.inl hn)
    rcases ht.effective n hn with hn | ⟨h',c',hc',rfl⟩
    · exact .inl (.inr hn)
    by_cases he : h' = h
    · subst he
      rw [hc] at hc'
      cases hc'
      exact .inl (.inl ⟨hrem ((ht.removing h' c hc).mp hn),rfl⟩)
    · refine .inr ⟨h',c',?_,rfl⟩
      rw [hsro,sro_setSro,if_neg he]
      exact hc'
  · rw [heff]
    rcases (hsucc n).mp hn with hn | hn
    · exact .inl hn
    · exact .inr (ht.succeeded n hn)
  · rw [heff]
    rcases (hfail n).mp hn with ⟨hne,rfl⟩ | hn
    · rintro (⟨he,_⟩ | he)
      · exact hne he
      · exact hne (hrem ((ht.removing h c hc).mp he))
    · rintro (⟨_,rfl⟩ | he)
      · exact hu2 hn
      · exact ht.failed n hn he
  · rw [hnext]
    have := ht.fresh h c hc
    rcases hn with hn | hn
    · rcases (heff n).mp hn with ⟨_,rfl⟩ | hn
      · exact this
      · exact ht.bound n (.inl hn)
    · rcases (hfail n).mp hn with ⟨_,rfl⟩ | hn
      · exact this
      · exact ht.bound n (.inr hn)

end Rmm

open Rmm

variable {s s' : Rmm} {h i : Nat} {c c' : Ctx}

theorem advance_removing (hfid : c.stage.fid = .donate) : c.advance.stage.removing = c.stage.removing := by
  unfold Ctx.advance
  rcases Ctx.fid_donate hfid with hst | hst
  · rw [if_pos hst]
    split
    · rfl
    · rw [hst]
      rfl
  · rw [if_neg (by rw [hst]; simp),hst]
    rfl

theorem reclaimed_removing {st : Stage} (hfid : st.fid = .reclaim) : st.reclaimed.removing = st.removing := by
  cases st <;> simp [Stage.fid] at hfid <;> rfl

theorem advance_serial : c.advance.serial = c.serial := by
  unfold Ctx.advance
  split
  · split <;> rfl
  · rfl

theorem Concludes.history {st : Status} (hcon : Concludes s c s' st) : SameHistory s s' := by
  cases hcon with
  | deactivate | destroyL2 => exact ⟨rfl,rfl,rfl,rfl⟩
  | reclaim => split <;> exact ⟨rfl,rfl,rfl,rfl⟩

theorem Concludes.told {st : Status} (hcon : Concludes s c s' st) (hfit : c.Fits s.size s.bits) :
    (st = .success ∧ c.stage.removing = true) ∨ (st = .errorInput ∧ c.stage.removing = false) := by
  cases hcon with
  | deactivate hst | destroyL2 hst => exact .inl ⟨rfl,by rw [hst]; rfl⟩
  | reclaim hst => exact .inr ⟨hfit.failed (.inr hst),by rw [hst]; rfl⟩

theorem Rmm.Told.effect (ht : s.Told) (hfit : s.Contexts) (he : Effect s s') : s'.Told := by
  cases he with
  | same => exact ht
  | refuse => exact ht.refuse
  | activate i h hst hh | create i sid h hsid hh => exact ht.start _ hh rfl rfl rfl rfl rfl rfl
  | donate h c base n hc hfid =>
    exact (ht.same ⟨rfl,rfl,rfl,rfl⟩ rfl : (s.take base n).Told).proceed _ hc
      (advance_serial) (advance_removing hfid)
  | skip h c hc hfid => exact ht.proceed _ hc advance_serial (advance_removing hfid)
  | abandon h c hc hst | refusedL2 h c hc hst => exact ht.proceed _ hc rfl (by rw [hst]; rfl)
  | reclaim h c c₂ e b hc hfid hc₂ =>
    obtain ⟨g,f,hx⟩ := memoryReclaim_books c s (c.rangeIdx+1) 0 c.total
    rw [hx]
    exact (ht.same ⟨rfl,rfl,rfl,rfl⟩ rfl : (s.withBooks g f).Told).proceed _ hc (by rw [hc₂])
      (by rw [hc₂]; exact reclaimed_removing hfid)
  | copy h c c₂ e b hc hcopy hc₂ => exact ht.proceed _ hc (by rw [hc₂]) (by rw [hc₂])
  | activated h c m hc | createdL2 h c sid hc =>
    refine ht.finish .success hc rfl rfl (fun n => ?_) (fun n => ?_) (fun n => ?_) fun _ => rfl
    all_goals simp [report,setSro,takeEffect,setSmmu,setGranule]
  | undone h c m hc hst hm =>
    exact (ht.same ⟨rfl,rfl,rfl,rfl⟩ rfl : (s.setSmmu c.smmu m).Told).proceed _ hc rfl (by rw [hst]; rfl)
  | conclude h c s₁ st hc hcon =>
    have hs := hcon.history
    have hsro : ((s₁.setSro h none).report c.serial st).sro = (s.setSro h none).sro := by
      rw [report_sro]
      unfold setSro
      rw [hcon.sro]
    rcases hcon.told (hfit h c hc) with ⟨rfl,hr⟩ | ⟨rfl,hr⟩
    · have hin := (ht.removing h c hc).mpr hr
      refine ht.finish .success hc hsro hs.serial (fun n => ?_) (fun n => ?_) (fun n => ?_) fun _ => rfl
      · show n ∈ s₁.effective ↔ _
        rw [hs.effective]
        constructor
        · exact .inr
        · rintro (⟨_,rfl⟩ | hn)
          · exact hin
          · exact hn
      · show n ∈ c.serial :: s₁.succeeded ↔ _
        rw [hs.succeeded]
        simp
      · show n ∈ s₁.failed ↔ _
        rw [hs.failed]
        simp
    · refine ht.finish .errorInput hc hsro hs.serial (fun n => ?_) (fun n => ?_) (fun n => ?_)
        fun hrem => absurd hrem (by rw [hr]; simp)
      · show n ∈ s₁.effective ↔ _
        rw [hs.effective]
        simp
      · show n ∈ s₁.succeeded ↔ _
        rw [hs.succeeded]
        simp
      · show n ∈ c.serial :: s₁.failed ↔ _
        rw [hs.failed]
        simp
  | deactivate i h m c hact hh hz hm hc | destroy i sid h pa c hsid hact hh hl hr hc =>
    subst hc
    exact ht.start _ hh rfl rfl rfl rfl rfl rfl
  | attach | detach | toggle | elsewhere => exact ht.same ⟨rfl,rfl,rfl,rfl⟩ rfl

variable {r q k pa : Nat} {d : Ctx} {m : Smmu} {st : Status} {f : Finish}

theorem range_congr (m m' : Smmu) (hst : m'.tab.state = m.tab.state) (hpa : m'.pa = m.pa)
    (hsize : m'.size = m.size) (r q : Nat) : m'.Range r q ↔ m.Range r q := by
  unfold Smmu.Range
  rw [hst,hpa,hsize]

theorem table_same {t : StreamTable} (hst : t.state = (s.smmu i).tab.state) (hl : t.l1 = (s.smmu i).tab.l1)
    (q : Nat) (x : Holder) : (s.setTable i t).Holds x q ↔ s.Holds x q :=
  holds_smmu_same ((s.smmu i).withTable t) (fun r q => range_congr (s.smmu i) ((s.smmu i).withTable t) hst rfl rfl r q) hl q x

theorem holds_congr (hsmmu : s'.smmu = s.smmu) (hsro : s'.sro = s.sro) {x : Holder} {q : Nat} :
    s'.Holds x q ↔ s.Holds x q := by
  cases x <;> simp only [Holds,hsmmu,hsro]

theorem Concludes.books (hcon : Concludes s c s' st) :
    s'.granule = s.granule ∧ s'.donated = s.donated ∧ s'.returned = s.returned := by
  cases hcon with
  | deactivate | destroyL2 => exact ⟨rfl,rfl,rfl⟩
  | reclaim => split <;> exact ⟨rfl,rfl,rfl⟩

theorem Concludes.done (hcon : Concludes s c s' st) : c.stage.holding = false := by
  cases hcon with
  | deactivate hst | destroyL2 hst | reclaim hst => rw [hst]; rfl

theorem Rmm.balanced_effect (hb : s.ledger.Balanced) (ht : s.Tables) (hfit : s.Contexts)
    (hbusy : ∀ h c, s.sro h = some c → c.sid = none → (s.smmu c.smmu).tab.state = .busy) (he : Effect s s') :
    s'.ledger.Balanced := by
  cases he with
  | same => exact hb
  | refuse => exact balanced_same hb fun _ _ => Iff.rfl
  | activate i h hst hh =>
    refine balanced_same hb fun q x => ?_
    refine Iff.trans (holds_empty (s := s.setSmmu i _) (fun c hc => ?_) (fun c hc => ?_) q x)
      (holds_smmu_same ((s.smmu i).setState .busy) (fun r q => ?_) rfl q x)
    · rw [show (s.setSmmu i _).sro h = s.sro h from rfl,hh] at hc
      cases hc
    · cases hc
      exact fun r q => not_part_empty rfl
    · constructor
      · exact fun hx => absurd hx (not_range (by simp [Smmu.setState]))
      · exact fun hx => absurd hx (not_range (by rw [hst]; simp))
  | create i sid h hsid hh =>
    refine balanced_same hb fun q x => holds_empty (s := s) (fun c hc => ?_) (fun c hc => ?_) q x
    · rw [hh] at hc
      cases hc
    · cases hc
      exact fun r q => not_part_empty rfl
  | donate h c base n hc hfid hd hn => exact balanced_donate hb (hfit h c hc) hc hfid hd hn
  | skip h c hc hfid hz =>
    have hfill := filled_donate (hfit h c hc) hfid
    have hnew := filled_advance hfill c.base
    rw [hz,add_zero] at hnew
    obtain ⟨hbase,hreq,_⟩ := @advance_data c
    refine balanced_same hb fun q x => holds_same _ hc (fun r q => ?_) q x
    rw [hnew.part,hfill.part,hbase,hreq]
    constructor
    · rintro ⟨hr,h1,h2⟩
      refine ⟨?_,h1,h2⟩
      by_contra hn
      obtain rfl : r = c.rangeIdx := by omega
      rw [hz] at h2
      omega
    · rintro ⟨hr,h1,h2⟩
      exact ⟨by omega,h1,h2⟩
  | abandon h c hc hst | refusedL2 h c hc hst =>
    exact balanced_same hb fun q x => holds_same _ hc (part_abandon (by rw [hst]; rfl)) q x
  | reclaim h c c₂ e b hc hfid hc₂ =>
    apply balanced_reclaim hb hc
    · cases hst : c.stage <;> simp [hst,Stage.fid] at hfid <;> rfl
    · rw [hc₂]
      cases hst : c.stage <;> rfl
  | copy h c c₂ e b hc hcopy hc₂ =>
    refine balanced_same hb fun q x => holds_same _ hc (fun r q => ?_) q x
    subst hc₂
    exact part_congr rfl rfl rfl rfl rfl r q
  | activated h c m hc hst hm =>
    exact balanced_activated hb rfl rfl ht (hfit h c hc) hc hst (hbusy h c hc ((hfit h c hc).smmuOp (.inr (.inl hst)))) hm
      (fun _ _ => Iff.rfl) rfl
  | undone h c m hc hst hm =>
    have hb' := hbusy h c hc ((hfit h c hc).smmuOp (.inr (.inl hst)))
    have hn := (ht c.smmu).no_tables (by rw [hb']; simp)
    have hstate : m.tab.state = .busy := by
      rw [← hb']
      rcases hm.tab with h | h <;> rw [h]
    have hl : m.tab.l1 = (s.smmu c.smmu).tab.l1 := by
      rcases hm.tab with h | h <;> rw [h]
      exact (funext hn).symm
    refine balanced_same hb fun q x => ?_
    refine Iff.trans (holds_same (s := s.setSmmu c.smmu m) _ hc (part_abandon (by rw [hst]; rfl)) q x)
      (holds_smmu_same m (fun r q => ?_) hl q x)
    constructor
    · exact fun hx => absurd hx (not_range (by rw [hstate]; simp))
    · exact fun hx => absurd hx (not_range (by rw [hb']; simp))
  | createdL2 h c sid hc hst hsid hact hnone =>
    obtain ⟨hfill,hreq⟩ := (hfit h c hc).created hst
    exact balanced_createdL2 hb rfl rfl hc hfill (by rw [hreq]) hnone (fun _ _ => Iff.rfl) rfl
  | conclude h c s₁ st hc hcon =>
    obtain ⟨hg,hd,hr⟩ := hcon.books
    have hgone : ∀ c₁, s.sro h = some c₁ → ∀ r q, ¬c₁.Part r q := fun c₁ hc₁ => by
      rw [hc] at hc₁
      cases hc₁
      exact fun r q => Ctx.not_part_of_done hcon.done
    refine balanced_same hb (fun q x => ?_) (fun q => ?_) ?_ ?_
    · rw [holds_congr (report_smmu _ _) (report_sro _ _)]
      apply Iff.trans (holds_empty (fun c₁ hc₁ => hgone c₁ (hcon.sro ▸ hc₁)) (fun c₁ hc₁ => by cases hc₁) q x)
      rcases hcon.smmu.2 with hs₁ | ⟨hsid,hs₁⟩
      · exact holds_congr hs₁ hcon.sro
      have hsid : c.sid = none := hsid.elim id fun hst => (hfit h c hc).smmuOp (.inr (.inr (.inr hst)))
      rw [hs₁]
      refine holds_smmu_same ((s.smmu c.smmu).setState .inactive) (fun r q => ?_) rfl q x
      constructor
      · exact fun hx => absurd hx (not_range (by simp [Smmu.setState]))
      · exact fun hx => absurd hx (not_range (by rw [hbusy h c hc hsid]; simp))
    · rw [report_granule]
      show (s₁.granule q).kept = _
      rw [hg]
    · exact (report_counters _ _).1.trans hd
    · exact (report_counters _ _).2.trans hr
  | deactivate i h m c hact hh hz hm hc =>
    refine balanced_deactivate hb rfl rfl hact hh hm ?_ (by rw [hc]) (by rw [hc]; rfl) (fun _ _ => Iff.rfl) rfl
    subst hc
    refine ⟨rfl,?_,le_rfl⟩
    show _ = 0 + m.size 0 + m.size 1 + m.size 2
    rw [zero_add]
    rfl
  | destroy i sid h pa c hsid hact hh hl hr hc =>
    refine balanced_destroy hb rfl rfl hh hl (fun r q => ?_) (fun _ _ => Iff.rfl) rfl
    have hfill : c.Filled 1 := by
      subst hc
      exact ⟨rfl,rfl,le_rfl⟩
    have hbase : c.base 0 = pa := by
      rw [hc]
      rfl
    have hreq : c.requested 0 = 1 := by
      rw [hc]
      rfl
    rw [hfill.part]
    constructor
    · rintro ⟨hr,h1,h2⟩
      obtain rfl : r = 0 := by omega
      exact ⟨rfl,by omega⟩
    · rintro ⟨rfl,rfl⟩
      exact ⟨by omega,by omega,by omega⟩
  | attach i sid | detach i sid | toggle i sid => exact balanced_same hb fun q x => table_same (by rfl) (by rfl) q x
  | elsewhere q g hq hg =>
    refine balanced_same hb (fun _ _ => Iff.rfl) fun q' => ?_
    show (Function.update s.granule q g q').kept = _
    rw [Function.update_apply]
    split
    next he => rw [he,hq,hg]
    next => rfl

structure Rmm.Inv (s : Rmm) : Prop where
  ledger : s.ledger.Balanced
  tables : s.Tables
  contexts : s.Contexts
  busy : s.Busy
  told : s.Told

theorem Rmm.Inv.works (hi : s.Inv) (hc : s.sro h = some c) (hsid : c.sid = none) :
    (s.smmu c.smmu).tab.state = .busy := (hi.busy.works c.smmu).mpr ⟨h,c,hc,hsid,rfl⟩

theorem Rmm.Inv.effect (hi : s.Inv) (he : Effect s s') : s'.Inv where
  ledger := balanced_effect hi.ledger hi.tables hi.contexts (fun _ _ => hi.works) he
  tables := hi.tables.effect hi.contexts (fun _ _ => hi.works) he
  contexts := hi.contexts.effect he
  busy := hi.busy.effect hi.contexts he
  told := hi.told.effect hi.contexts he

theorem Rmm.Inv.exec (hi : s.Inv) {cmd : Command} (hg : Allowed s cmd) : (s.exec cmd).1.Inv :=
  hi.effect (exec_effect (fun h c hc => (hi.contexts h c hc).due) hg)

theorem ok_initial (hs : Initial s) (i : Nat) : (s.smmu i).Ok (s.attached i) where
  sound := by
    refine ⟨?_,fun k _ => hs.l1 i k,fun _ => hs.l1 i,fun k => ?_⟩
    · rw [hs.l1Refcnt,tally_eq_zero]
      intro k _
      rw [hs.l1]
      rfl
    · rw [hs.refcount,tally_eq_zero]
      intro j _
      show ((s.smmu i).tab.ste _).config = false
      rw [hs.ste]
      rfl
  cached := fun k q hc => by
    rw [hs.cached] at hc
    cases hc
  off := fun _ => ⟨hs.cr0 i,hs.ack i⟩
  attached := fun sid => by
    rw [hs.attached,hs.ste]
    rfl
  backed := fun sid hc => by
    rw [hs.ste] at hc
    cases hc

theorem inv_initial (hs : Initial s) : s.Inv := by
  have hnone : ∀ h c, s.sro h ≠ some c := fun h c hc => by
    rw [hs.sro] at hc
    cases hc
  have hempty : ∀ x q, ¬s.Holds x q := fun x q hx => by
    cases x with
    | range i r => exact absurd hx.1 (by rw [hs.state]; simp)
    | table i k =>
      have hx : (s.smmu i).tab.l1 k = some q := hx
      rw [hs.l1] at hx
      cases hx
    | ctx h r =>
      obtain ⟨c,hc,_⟩ := hx
      exact hnone h c hc
  refine ⟨⟨fun q => ?_,fun x y q hx => absurd hx (hempty x q),fun q => ?_⟩,ok_initial hs,
    fun h c hc => absurd hc (hnone h c),⟨fun i => ?_,?_⟩,?_⟩
  · constructor
    · intro hk
      rw [show s.ledger.kept q = (s.granule q).kept from rfl,hs.granule] at hk
      cases hk
    · rintro ⟨x,hx⟩
      exact absurd hx (hempty x q)
  · show s.donated q = s.returned q + (s.granule q).kept.toNat
    rw [(hs.counters q).1,(hs.counters q).2,hs.granule]
    rfl
  · constructor
    · intro hb
      unfold Rmm.busy at hb
      rw [hs.state] at hb
      cases hb
    · rintro ⟨h,c,hc,_⟩
      exact absurd hc (hnone h c)
  · rintro i h h' ⟨c,hc,_⟩
    exact absurd hc (hnone h c)
  · obtain ⟨h1,h2,h3⟩ := hs.history
    refine ⟨fun h c hc => absurd hc (hnone h c),fun h h' c c' hc => absurd hc (hnone h c),
      fun h c hc => absurd hc (hnone h c),fun h c hc => absurd hc (hnone h c),?_,?_,?_,?_⟩ <;>
      simp [h1,h2,h3]

theorem returned_effect (he : Effect s s') (hr : s'.returned q ≠ s.returned q) : ∃ h r, s.Holds (.ctx h r) q := by
  cases he with
  | reclaim h c c₂ e b hc hfid =>
    by_contra hno
    apply hr
    have hh : c.stage.holding = true := by
      cases hst : c.stage <;> simp [hst,Stage.fid] at hfid <;> rfl
    have := (memoryReclaim_spec (s := s) hh (r := 0) rfl).1
      fun j _ hp => hno ⟨h,j,c,hc,hp⟩
    exact this.2
  | activated | createdL2 => exact absurd rfl hr
  | conclude h c s₁ st hc hcon =>
    refine absurd ?_ hr
    rw [(report_counters _ _).2]
    exact congrFun hcon.books.2.2 q
  | _ => exact absurd rfl hr

theorem Rmm.Inv.unused (hi : s.Inv) (hx : s.Holds (.ctx h r) q) (i : Nat) : ¬(s.smmu i).Uses q := by
  have hne : ∀ x, s.Holds x q → x = .ctx h r := fun x hy => holds_alone hi.ledger hy hx
  rintro (⟨j,hj,hon,h1,h2⟩ | ⟨k,hl | hl⟩)
  · by_cases hact : (s.smmu i).tab.state = .active
    · cases hne (.range i j) ⟨hact,hj,h1,h2⟩
    · obtain ⟨hcr0,hack⟩ := (hi.tables i).off hact
      rw [hcr0,hack] at hon
      unfold rangeBit allOff at hon
      split at hon
      · cases hon
      · split at hon <;> cases hon
  · cases hne (.table i k) hl
  · cases hne (.table i k) ((hi.tables i).cached k q hl)

theorem proceed_expected (hi : s.Inv) (hc : s.sro h = some c) (hh : c.stage.holding = true)
    (hfid : c.stage.fid = .proceed) : c.expected = .proceed :=
  ((hi.contexts h c hc).due.expected (plain_of_holding hi.contexts hc hh)).trans hfid

theorem activation_told (hi : s.Inv) (hg : Allowed s (.proceed h f)) (hc : s.sro h = some c)
    (hst : c.stage = .activateFinish) :
    (s.opContinue h f).2 = .success ↔ ((s.opContinue h f).1.smmu c.smmu).tab.state = .active := by
  have he := proceed_expected hi hc (by rw [hst]; rfl) (by rw [hst]; rfl)
  have hb := hi.works hc ((hi.contexts h c hc).smmuOp (.inr (.inl hst)))
  have hback : s.continueCallback c f = s.activateFinish c f := by
    unfold continueCallback
    rw [hst]
  unfold opContinue
  rw [hc]
  simp only [he,ne_eq,not_true_eq_false,if_false,hback]
  rcases activateFinish_effect ((hg c hc).1 hst) with ⟨m,hm,hx⟩ | ⟨m,hm,hx⟩ <;> rw [hx]
  · have hstate : m.tab.state = .busy := by
      rw [← hb]
      rcases hm.tab with h | h <;> rw [h]
    simp [Reply.status,sealCtx,setSro,setSmmu,hstate]
  · simp [setSro,takeEffect,setSmmu,hm.tab]

theorem creation_told (hi : s.Inv) (hg : Allowed s (.proceed h f)) (hc : s.sro h = some c)
    (hst : c.stage = .createL2Finish) {sid : Nat} (hsid : c.sid = some sid) :
    (s.opContinue h f).2 = .success ↔ ((s.opContinue h f).1.smmu c.smmu).tab.l1 (l1stdIdx sid) = some (c.base 0) := by
  have he := proceed_expected hi hc (by rw [hst]; rfl) (by rw [hst]; rfl)
  obtain ⟨hfill,hreq⟩ := (hi.contexts h c hc).created hst
  have hheld : s.Holds (.ctx h 0) (c.base 0) :=
    ⟨c,hc,hfill.part.mpr ⟨by omega,le_rfl,by rw [hreq]; exact Nat.lt_succ_self _⟩⟩
  have hback : s.continueCallback c f = s.createL2Finish c sid f := by
    unfold continueCallback
    rw [hst,hsid]
  unfold opContinue
  rw [hc]
  simp only [he,ne_eq,not_true_eq_false,if_false,hback,createL2Finish]
  rw [(hg c hc).2 hst]
  rcases @Smmu.registerStL2_cases (s.smmu c.smmu) sid (c.base 0) f.l2 with ⟨x,hx⟩ | ⟨hx,hact,hnone⟩ <;> rw [hx]
  · have hother : (s.smmu c.smmu).tab.l1 (l1stdIdx sid) ≠ some (c.base 0) := fun hl =>
      absurd (holds_alone hi.ledger (x := .table c.smmu (l1stdIdx sid)) hl hheld) (by simp)
    simp [Reply.status,sealCtx,setSro,setSmmu,hother]
  · simp [setSro,takeEffect,setSmmu,setGranule,Smmu.withDescriptor,createdTable,StreamTable.setL1,StreamTable.setRefcount]

structure Conserved (s : Rmm) : Prop where
  inUse : ∀ q, (s.granule q).kept = true ↔ ∃ x, s.Holds x q
  alone : ∀ x y q, s.Holds x q → s.Holds y q → x = y
  counted : ∀ q, s.donated q = s.returned q + (s.granule q).kept.toNat
  unreachable : ∀ cmd q, Allowed s cmd → (s.exec cmd).1.returned q ≠ s.returned q → ∀ i, ¬(s.smmu i).Uses q
  tables : ∀ i, (s.smmu i).tab.l1Refcnt = tally Option.isSome (s.smmu i).tab.l1 (2 ^ (s.smmu i).tab.sidBits) ∧
    ∀ k, 2 ^ (s.smmu i).tab.sidBits ≤ k → (s.smmu i).tab.l1 k = none
  entries : ∀ i k, (s.smmu i).tab.refcount k = tally Ste.config ((s.smmu i).tab.table k) strtabL1SteMax
  activation : ∀ h c f, Allowed s (.proceed h f) → s.sro h = some c → c.stage = .activateFinish →
    ((s.opContinue h f).2 = .success ↔ ((s.opContinue h f).1.smmu c.smmu).tab.state = .active)
  creation : ∀ h c f sid, Allowed s (.proceed h f) → s.sro h = some c → c.stage = .createL2Finish →
    c.sid = some sid → ((s.opContinue h f).2 = .success ↔
      ((s.opContinue h f).1.smmu c.smmu).tab.l1 (l1stdIdx sid) = some (c.base 0))
  succeeded : ∀ n, n ∈ s.succeeded → n ∈ s.effective
  failed : ∀ n, n ∈ s.failed → n ∉ s.effective
  pending : ∀ n, n ∈ s.effective → n ∈ s.succeeded ∨ ∃ h c, s.sro h = some c ∧ c.serial = n
  closed : ∀ h c, s.sro h = some c → c.serial ∉ s.succeeded ∧ c.serial ∉ s.failed
  busy : ∀ i, (s.smmu i).tab.state = .busy ↔ ∃ h c, s.sro h = some c ∧ c.sid = none ∧ c.smmu = i

theorem Rmm.Inv.conserved (hi : s.Inv) : Conserved s where
  inUse := hi.ledger.held
  alone := hi.ledger.alone
  counted := hi.ledger.counted
  unreachable := fun cmd q hg hr i => by
    obtain ⟨h,r,hx⟩ := returned_effect (exec_effect (fun h c hc => (hi.contexts h c hc).due) hg) hr
    exact hi.unused hx i
  tables := fun i => ⟨(hi.tables i).sound.l1Refcnt,(hi.tables i).sound.outside⟩
  entries := fun i => (hi.tables i).sound.refcount
  activation := fun _ _ _ hg hc hst => activation_told hi hg hc hst
  creation := fun _ _ _ _ hg hc hst hsid => creation_told hi hg hc hst hsid
  succeeded := hi.told.succeeded
  failed := hi.told.failed
  pending := hi.told.effective
  closed := hi.told.untold
  busy := hi.busy.works

theorem psmmu_memory_conserved (hs : system.ReachableUnder Allowed s) : Conserved s :=
  (hs.invariant (I := Rmm.Inv) (fun _ => inv_initial) fun s cmd t hi hg (hst : (s.exec cmd).1 = t) =>
    hst ▸ hi.exec hg).conserved

namespace Rmm

def runs (s : Rmm) : List Command → Rmm
  | [] => s
  | cmd :: rest => (s.exec cmd).1.runs rest

def Along (guard : Rmm → Command → Prop) (s : Rmm) : List Command → Prop
  | [] => True
  | cmd :: rest => guard s cmd ∧ Along guard (s.exec cmd).1 rest

theorem reachable_runs {guard : Rmm → Command → Prop} {cmds : List Command}
    (hs : system.ReachableUnder guard s) (hg : s.Along guard cmds) : system.ReachableUnder guard (s.runs cmds) := by
  induction cmds generalizing s with
  | nil => exact hs
  | cons cmd rest ih => exact ih (hs.next hg.1 rfl) hg.2

end Rmm

theorem allowed_donate {d : Donation} (hst : (s.sro h).map Ctx.stage ≠ some .createL2Start) :
    Allowed s (.memDonate h d) := fun c base n hc hs => by
  rw [hc,Option.map_some,hs] at hst
  exact absurd rfl hst

namespace Sample

def table : StreamTable where
  state := .inactive
  sidBits := 8
  l1 := fun _ => none
  l1Refcnt := 0
  refcount := fun _ => 0
  ste := fun _ => .zero

def smmu : Smmu where
  tab := table
  cr0 := allOff
  ack := allOff
  size := fun _ => 1
  pa := fun _ => 0
  mapped := fun _ => false
  cached := fun _ => none

def boot : Rmm where
  num := 1
  granule := fun q => if q < 8 then .delegated else .undelegated
  smmu := fun _ => smmu
  sro := fun _ => none
  attached := fun _ _ => false
  donated := fun _ => 0
  returned := fun _ => 0
  serial := 0
  effective := []
  succeeded := []
  failed := []

theorem boot_initial : Initial boot where
  granule := fun q => by
    show (if q < 8 then GranuleState.delegated else .undelegated).kept = false
    split <;> rfl
  state := fun _ => rfl
  l1 := fun _ _ => rfl
  l1Refcnt := fun _ => rfl
  refcount := fun _ _ => rfl
  ste := fun _ _ => rfl
  cached := fun _ _ => rfl
  cr0 := fun _ => rfl
  ack := fun _ => rfl
  sro := fun _ => rfl
  attached := fun _ _ => rfl
  counters := fun _ => ⟨rfl,rfl⟩
  history := ⟨rfl,rfl,rfl⟩

def answers : Handshake := ⟨allOn,allOn,allOn,none⟩

def finish : Finish := ⟨none,none,answers,none,none⟩

def activation : List Command :=
  [.activate 0 true (some 0),.memDonate 0 (.block 1 1),.memDonate 0 (.block 2 1),.memDonate 0 (.block 3 1),
    .proceed 0 finish]

def active : Rmm := boot.runs activation

theorem activation_allowed : boot.Along Allowed activation :=
  ⟨trivial,allowed_donate (by decide),allowed_donate (by decide),allowed_donate (by decide),
    fun _ _ => ⟨fun _ _ _ => ⟨rfl,rfl,rfl,rfl⟩,fun _ => rfl⟩,trivial⟩

def filling : List Command := [.stL2Create 0 0 (some 0),.memDonate 0 (.block 4 1),.proceed 0 finish,.attach 0 5 none]

def attached : Rmm := active.runs filling

theorem filling_allowed : active.Along Allowed filling :=
  ⟨trivial,by
    rintro c base n - - ⟨⟩
    decide,fun _ _ => ⟨fun _ _ _ => ⟨rfl,rfl,rfl,rfl⟩,fun _ => rfl⟩,trivial,trivial⟩

def emptying : List Command :=
  [.detach 0 5 none,.stL2Destroy 0 0 (some 0) none,.memReclaim 0 true .all,.proceed 0 finish]

def emptied : Rmm := attached.runs emptying

theorem emptying_allowed : attached.Along Allowed emptying :=
  ⟨rfl,rfl,trivial,fun _ _ => ⟨fun _ _ _ => ⟨rfl,rfl,rfl,rfl⟩,fun _ => rfl⟩,trivial⟩

def creating : Rmm := active.runs [.stL2Create 0 0 (some 0)]

def refused : Rmm := (creating.exec (.memDonate 0 (.block 9 1))).1

end Sample

theorem psmmu_memory_conserved_active : (Sample.active.smmu 0).tab.state = .active ∧ Conserved Sample.active ∧
    (Sample.attached.smmu 0).tab.l1 0 = some 4 ∧ (Sample.attached.smmu 0).tab.refcount 0 = 1 ∧ Conserved Sample.attached ∧
    Sample.emptied.returned 4 = 1 ∧ Sample.emptied.granule 4 = .delegated ∧ Conserved Sample.emptied := by
  have hactive := reachable_runs (.initial Sample.boot_initial) Sample.activation_allowed
  have hattached := reachable_runs hactive Sample.filling_allowed
  have hemptied := reachable_runs hattached Sample.emptying_allowed
  exact ⟨rfl,psmmu_memory_conserved hactive,rfl,rfl,psmmu_memory_conserved hattached,rfl,rfl,
    psmmu_memory_conserved hemptied⟩

theorem table_creation_misreported :
    system.Reachable Sample.creating ∧ (Sample.creating.exec (.memDonate 0 (.block 9 1))).2 = .success ∧
      (Sample.refused.smmu 0).tab.l1 0 = none ∧ (Sample.refused.sro 0).isSome = true ∧ ¬Conserved Sample.refused := by
  refine ⟨?_,rfl,rfl,rfl,fun hc => ?_⟩
  · exact reachable_runs (reachable_runs (.initial Sample.boot_initial) ⟨trivial,trivial,trivial,trivial,trivial,trivial⟩)
      ⟨trivial,trivial⟩
  · exact absurd (hc.succeeded 1 (by decide)) (by decide)

end TfRmm.Psmmu
