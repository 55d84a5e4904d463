import TfRmm.Rtt.SetRipas

namespace TfRmm.Rtt

open TfRmm.S2tt

section Skip

variable {geo : Geometry} {s : Rmm} {wi : Walk} {start addr : Nat}

def entriesAt (geo : Geometry) (level : Int) : Nat :=
  if level = geo.startLevel then min s2ttesPerS2tt (geo.ipaSize / mapSize level) else s2ttesPerS2tt

def tableEnd (geo : Geometry) (wi : Walk) (start : Nat) : Nat := start + entriesAt geo wi.lastLevel * mapSize wi.lastLevel

structure Skipped (geo : Geometry) (s : Rmm) (wi : Walk) (start addr found : Nat) : Prop where
  above : addr ≤ found
  within : found ≤ tableEnd geo wi start
  dead : ∀ a,addr ≤ a → a < found → (s.entry wi.llt ((a-start) / mapSize wi.lastLevel)).isLive = false
  live : found < tableEnd geo wi start → (s.entry wi.llt ((found-start) / mapSize wi.lastLevel)).isLive = true

theorem nonLiveRun_spec (s : Rmm) (t i n : Nat) : s.nonLiveRun t i n ≤ n ∧
    (∀ j < s.nonLiveRun t i n,(s.entry t (i+j)).isLive = false) ∧
    (s.nonLiveRun t i n < n → (s.entry t (i + s.nonLiveRun t i n)).isLive = true) := by
  induction n generalizing i with
  | zero => exact ⟨le_rfl,nofun,nofun⟩
  | succ n ih =>
    unfold Rmm.nonLiveRun
    split
    next hl => exact ⟨Nat.zero_le _,nofun,fun _ => hl⟩
    next hl =>
      obtain ⟨hle,hdead,hlive⟩ := ih (i+1)
      simp only [Nat.succ_add_eq_add_succ] at hdead hlive
      refine ⟨Nat.succ_le_succ hle,fun j hj => ?_,fun hlt => hlive (Nat.lt_of_succ_lt_succ hlt)⟩
      cases j with
      | zero => exact eq_false_of_ne_true hl
      | succ j => exact hdead j (Nat.lt_of_succ_lt_succ hj)

theorem entriesAt_le (geo : Geometry) (level : Int) : entriesAt geo level ≤ s2ttesPerS2tt := by
  unfold entriesAt
  split
  · exact Nat.min_le_left ..
  · exact le_rfl

def StopsInside (geo : Geometry) (s : Rmm) (wi : Walk) : Prop :=
  entriesAt geo wi.lastLevel = s2ttesPerS2tt ∨
    ∃ i,wi.index ≤ i ∧ i ≤ entriesAt geo wi.lastLevel ∧ (s.entry wi.llt i).isLive = true

theorem skip_non_live_sound (hstart : start % mapSize wi.lastLevel = 0) (hindex : wi.index < entriesAt geo wi.lastLevel)
    (haddr : (addr-start) / mapSize wi.lastLevel = wi.index) (hlo : start ≤ addr) :
    Skipped geo s wi start addr (s.skipNonLiveEntries addr wi) ↔ StopsInside geo s wi := by
  have hm := mapSize_pos wi.lastLevel
  have hentries := entriesAt_le geo wi.lastLevel
  obtain ⟨k,rfl⟩ := Nat.exists_eq_add_of_le hlo
  rw [Nat.add_sub_cancel_left] at haddr
  have hk : k < entriesAt geo wi.lastLevel * mapSize wi.lastLevel := by
    rwa [← Nat.div_lt_iff_lt_mul hm,haddr]
  unfold Rmm.skipNonLiveEntries Rmm.walkEntry
  split
  next hlive₀ =>
    refine ⟨fun _ => .inr ⟨wi.index,le_rfl,hindex.le,hlive₀⟩,fun _ => ?_⟩
    refine ⟨le_rfl,Nat.add_le_add_left hk.le _,fun a ha hlt => absurd hlt (Nat.not_lt.2 ha),fun _ => ?_⟩
    rwa [Nat.add_sub_cancel_left,haddr]
  next hdead₀ =>
    obtain ⟨hle,hdead,hlive⟩ := nonLiveRun_spec s wi.llt (wi.index+1) (s2ttesPerS2tt-(wi.index+1))
    generalize s.nonLiveRun wi.llt (wi.index+1) (s2ttesPerS2tt-(wi.index+1)) = run at *
    have hfound : roundDown (start+k) (mapSize wi.lastLevel) + (run+1) * mapSize wi.lastLevel =
        start + (wi.index+1+run) * mapSize wi.lastLevel := by
      have hk := Nat.div_add_mod' k (mapSize wi.lastLevel)
      rw [roundDown,← Nat.mod_add_mod,hstart,Nat.zero_add]
      rw [haddr] at hk
      rw [Nat.add_right_comm,Nat.add_assoc,Nat.add_mul _ (run+1)]
      omega
    rw [hfound]
    constructor
    · intro hs
      have hend := hs.within
      rw [tableEnd,Nat.add_le_add_iff_left,Nat.mul_le_mul_right_iff hm] at hend
      by_cases hfull : entriesAt geo wi.lastLevel = s2ttesPerS2tt
      · exact .inl hfull
      · exact .inr ⟨wi.index+1+run,by omega,hend,hlive (by omega)⟩
    · intro hstop
      have hend : wi.index+1+run ≤ entriesAt geo wi.lastLevel := by
        rcases hstop with hfull | ⟨i,hi,hlt,hl⟩
        · omega
        · by_contra hover
          have hne : i ≠ wi.index := fun h => hdead₀ (h ▸ hl)
          have := hdead (i-(wi.index+1)) (by omega)
          rw [Nat.add_sub_cancel' (by omega),hl] at this
          cases this
      refine ⟨?_,Nat.add_le_add_left (Nat.mul_le_mul_right _ hend) _,fun a ha hlt => ?_,fun hlt => ?_⟩
      · rw [Nat.add_le_add_iff_left]
        exact ((Nat.div_lt_iff_lt_mul hm).1 (by omega)).le
      · obtain ⟨x,rfl⟩ := Nat.exists_eq_add_of_le (hlo.trans ha)
        rw [Nat.add_sub_cancel_left]
        rw [Nat.add_lt_add_iff_left,← Nat.div_lt_iff_lt_mul hm] at hlt
        have hge := Nat.div_le_div_right (c := mapSize wi.lastLevel) (Nat.le_of_add_le_add_left ha)
        rcases (haddr ▸ hge).eq_or_lt with heq | hgt
        · rw [← heq]
          exact eq_false_of_ne_true hdead₀
        · have := hdead (x / mapSize wi.lastLevel - (wi.index+1)) (by omega)
          rwa [Nat.add_sub_cancel' hgt] at this
      · rw [tableEnd,Nat.add_lt_add_iff_left,Nat.mul_lt_mul_right hm] at hlt
        rw [Nat.add_sub_cancel_left,Nat.mul_div_cancel _ hm]
        exact hlive (by omega)

def lpa2Geometry : Geometry := ⟨52,-1,Geometry.valid_lpa2⟩

def smallGeometry : Geometry := ⟨32,1,Geometry.valid_narrow_root⟩

def lpa2Rmm : Rmm := { plainRmm with entry := fun _ i => if i = 0 then .table 0x2000 else .unassigned .empty ⟨3,0⟩ none }

theorem skip_non_live_sound_root :
    Skipped lpa2Geometry lpa2Rmm ⟨0x1000,0,-1⟩ 0 0x1000 (lpa2Rmm.skipNonLiveEntries 0x1000 ⟨0x1000,0,-1⟩) :=
  (skip_non_live_sound rfl (by decide) (by decide) (by decide)).2 (.inr ⟨0,by decide⟩)

theorem skip_non_live_beyond_root : plainRmm.skipNonLiveEntries 0 ⟨0x1000,0,-1⟩ = 2 ^ 57 ∧
    tableEnd lpa2Geometry ⟨0x1000,0,-1⟩ 0 = 2 ^ 52 ∧ plainRmm.skipNonLiveEntries 0 ⟨0x1000,0,1⟩ = 2 ^ 39 ∧
    tableEnd smallGeometry ⟨0x1000,0,1⟩ 0 = 2 ^ 32 := by
  decide +kernel

end Skip

def Rd.defaultProtectedAp (rd : Rd) (k : Nat) : Ap := (rd.protectedAp k).get rd.indirectS2ap false

inductive HostCommand where
  | unmap (flavor : Flavor) (base top : Nat) (out : OutAddr) (sch : Schedule)
  | unmapContinue (handle : Nat) (ctx : UnmapCtx) (sch : Schedule)
  | rttDestroy (map : Nat) (level : Int) (index : Nat) (aux : Bool)

def HostCommand.exec (cfg : Config) (s : Rmm) (rdAddr : Nat) : HostCommand → Option (Rmm × Result)
  | .unmap flavor base top out sch => some (s.rttUnmap cfg flavor rdAddr base top out sch)
  | .unmapContinue h c sch => s.unmapContinue h c sch
  | .rttDestroy map level index aux => some (s.rttDestroy cfg rdAddr map level index aux)

def HostCommand.tree : HostCommand → Nat
  | .rttDestroy _ _ index true => index
  | _ => 0

def HostCommand.Resets (rd : Rd) (e : S2tte) : HostCommand → Prop
  | .rttDestroy _ _ _ _ => True
  | _ => e.isAssignedRam = true ∨ e.ap.get rd.indirectS2ap false = rd.defaultProtectedAp 0

def Rmm.entryOf (s : Rmm) (rd : Rd) (k ipa : Nat) : S2tte := s.walkEntry (s.walk rd k ipa pageLevel)

def tableAt : S2tte → Option Nat
  | .table pa => some pa
  | _ => none

section Marks

variable {s s' s₁ : Rmm} {h n t i : Nat} {c : UnmapCtx} {sch : Schedule} {irqs : Irqs} {qs : List Nat} {e : S2tte}

def Remarked (s s' : Rmm) : Prop := s'.rd = s.rd ∧ ∀ t i, ∃ m, s'.entry t i = (s.entry t i).setMark m

theorem setMark_mark (e : S2tte) : e.setMark e.mark = e := by
  cases e <;> rfl

theorem setMark_setMark (m m' : Option Mark) (e : S2tte) : (e.setMark m).setMark m' = e.setMark m' := by
  cases e <;> rfl

theorem setMark_fields (m : Option Mark) (e : S2tte) : (e.setMark m).ap = e.ap ∧ (e.setMark m).getRipas = e.getRipas ∧
    tableAt (e.setMark m) = tableAt e := by
  cases e <;> exact ⟨rfl,rfl,rfl⟩

theorem Remarked.refl : Remarked s s := ⟨rfl,fun t i => ⟨(s.entry t i).mark,(setMark_mark _).symm⟩⟩

theorem Remarked.of_eq (hr : s'.rd = s.rd) (he : s'.entry = s.entry) : Remarked s s' :=
  ⟨hr,fun t i => ⟨(s.entry t i).mark,by rw [he,setMark_mark]⟩⟩

theorem Remarked.trans (h : Remarked s s₁) (h' : Remarked s₁ s') : Remarked s s' := by
  refine ⟨h'.1.trans h.1,fun t i => ?_⟩
  obtain ⟨m,hm⟩ := h.2 t i
  obtain ⟨m',hm'⟩ := h'.2 t i
  exact ⟨m',by rw [hm',hm,setMark_setMark]⟩

theorem Remarked.setEntry (m : Option Mark) : Remarked s (s.setEntry t i ((s.entry t i).setMark m)) := by
  refine ⟨rfl,fun t' i' => ?_⟩
  rw [Rmm.setEntry_entry]
  split
  next hx => exact ⟨m,by rw [hx.1,hx.2]⟩
  next => exact Remarked.refl.2 t' i'

theorem tlbiSweep_remarked : Remarked s (Rmm.tlbiSweep h c n i sch s).1 := by
  induction n generalizing i sch s with
  | zero => exact .of_eq rfl rfl
  | succ n ih =>
    simp only [Rmm.tlbiSweep]
    split
    · exact .refl
    split
    · have hi : Remarked s (s.invalidatePending h i { sch with irqs := sch.irqs.sample.2 } c).1 := by
        unfold Rmm.invalidatePending
        dsimp only
        split
        · exact (Remarked.of_eq rfl rfl).trans (.setEntry _)
        split
        · exact .of_eq rfl rfl
        · exact (Remarked.of_eq rfl rfl).trans (.setEntry _)
      split <;> rename_i hx <;> rw [hx] at hi
      · exact hi
      · exact hi.trans ih
    · exact ih

theorem drainFine_remarked : Remarked s (Rmm.drainFine h c qs irqs s).1 := by
  induction qs generalizing irqs s with
  | nil => exact .of_eq rfl rfl
  | cons q qs ih =>
    simp only [Rmm.drainFine]
    split
    · exact .of_eq rfl rfl
    · exact (Remarked.of_eq rfl rfl).trans ih

theorem drainCoarse_remarked : Remarked s (Rmm.drainCoarse h c qs irqs s).1 := by
  induction qs generalizing irqs with
  | nil => exact .of_eq rfl rfl
  | cons q qs ih =>
    simp only [Rmm.drainCoarse]
    split
    · exact .of_eq rfl rfl
    · exact ih

theorem clearMarksAndDrop_remarked : Remarked s (Rmm.clearMarksAndDrop h t n i s) := by
  induction n generalizing i s with
  | zero => exact .refl
  | succ n ih =>
    simp only [Rmm.clearMarksAndDrop]
    split
    · exact ((Remarked.setEntry none).trans (.of_eq rfl rfl)).trans ih
    · exact ih

theorem unmapDrainAndClear_remarked : Remarked s (s.unmapDrainAndClear h sch c).1 := by
  have htlbi : Remarked s (s.unmapTlbiPending h sch c).1 := by
    unfold Rmm.unmapTlbiPending
    split
    · exact .refl
    split
    · exact tlbiSweep_remarked
    split
    · exact .refl
    · exact ((Remarked.of_eq rfl rfl).trans (.setEntry _)).trans ((Remarked.of_eq rfl rfl).trans tlbiSweep_remarked)
  unfold Rmm.unmapDrainAndClear
  split <;> rename_i hx <;> rw [hx] at htlbi
  · exact htlbi
  rename_i s₁ sch₁
  have hdrain : Remarked s₁ (s₁.unmapDrainPending h sch₁.irqs { c with tlbiDone := true,smmuTlbiPending := none }).1 := by
    unfold Rmm.unmapDrainPending
    split
    · exact .refl
    split
    · exact drainFine_remarked
    split
    · exact .of_eq rfl rfl
    · exact drainCoarse_remarked
  dsimp only
  split <;> rename_i hy <;> rw [hy] at hdrain
  · exact htlbi.trans hdrain
  · exact (htlbi.trans hdrain).trans clearMarksAndDrop_remarked

end Marks

section Sweep

variable {cfg : Config} {rd : Rd} {s s' : Rmm} {c c' : UnmapCtx} {h top start n i addr pa k ipa : Nat} {prev : Option Nat}
  {coarse first : Bool} {e : S2tte} {rs : List TfRmm.Sro.Desc}

structure Swept (rd : Rd) (h : Nat) (c : UnmapCtx) (i : Nat) (s s' : Rmm) : Prop where
  realms : s'.rd = s.rd
  before : ∀ t j, t ≠ c.llt ∨ j < i → s'.entry t j = s.entry t j
  entry : ∀ t j, s'.entry t j = s.entry t j ∨
    c.flavor.admits (s.entry t j) = true ∧ s'.entry t j = Rmm.stampedEntry rd h (s.entry t j)

theorem Swept.refl (hr : s'.rd = s.rd) (he : s'.entry = s.entry) : Swept rd h c i s s' :=
  ⟨hr,fun _ _ _ => by rw [he],fun _ _ => .inl (by rw [he])⟩

theorem sweepEntry_admits (hx : s.sweepEntry cfg c prev top addr first e = .take pa coarse rs) :
    c.flavor.admits e = true := by
  unfold Rmm.sweepEntry at hx
  dsimp only at hx
  split at hx
  · split at hx
    · split at hx <;> cases hx
    · cases hx
  split at hx
  · split at hx <;> cases hx
  split at hx
  · split at hx <;> cases hx
  split at hx
  · split at hx <;> cases hx
  next hadm => simpa using hadm

theorem stampUnmap_frame : (s.stampUnmap rd h i pa coarse c c').rd = s.rd ∧ (s.stampUnmap rd h i pa coarse c c').entry =
    (s.setEntry c.llt i (Rmm.stampedEntry rd h (s.entry c.llt i))).entry := by
  unfold Rmm.stampUnmap
  dsimp only
  split <;> split <;> exact ⟨rfl,rfl⟩

theorem unmapOneTable_swept (hx : Rmm.unmapOneTable cfg rd h top start n i addr prev c s = .ok (s',c')) :
    Swept rd h c i s s' := by
  induction n generalizing i addr prev c s with
  | zero =>
    cases hx
    exact .refl rfl rfl
  | succ n ih =>
    simp only [Rmm.unmapOneTable] at hx
    split at hx
    · obtain ⟨hr,hb,he⟩ := ih hx
      exact ⟨hr,fun t j hj => hb t j (hj.imp_right fun hlt => by omega),he⟩
    · cases hx
      exact .refl rfl rfl
    · cases hx
    next pa coarse rs htake =>
    have hadm := sweepEntry_admits htake
    obtain ⟨hr,he⟩ := @stampUnmap_frame rd s c (Rmm.UnmapCtx.taken c pa (addr + mapSize c.leafLevel) coarse rs) h i pa coarse
    have hone : Swept rd h c i s (s.stampUnmap rd h i pa coarse c
        (Rmm.UnmapCtx.taken c pa (addr + mapSize c.leafLevel) coarse rs)) := by
      refine ⟨hr,fun t j hj => ?_,fun t j => ?_⟩
      · rw [he,Rmm.setEntry_entry,if_neg (by omega)]
      · rw [he,Rmm.setEntry_entry]
        split
        next heq => exact .inr (by rw [heq.1,heq.2]; exact ⟨hadm,rfl⟩)
        next => exact .inl rfl
    split at hx
    · cases hx
      exact hone
    · obtain ⟨hr',hb',he'⟩ := ih hx
      refine ⟨hr'.trans hone.realms,fun t j hj => (hb' t j (hj.imp_right fun hlt => by omega)).trans (hone.before t j hj),
        fun t j => ?_⟩
      by_cases hj : t ≠ c.llt ∨ j < i+1
      · rw [hb' t j hj]
        exact hone.entry t j
      · have hold : (s.stampUnmap rd h i pa coarse c
            (Rmm.UnmapCtx.taken c pa (addr + mapSize c.leafLevel) coarse rs)).entry t j = s.entry t j := by
          rw [he,Rmm.setEntry_entry,if_neg (by omega)]
        rw [← hold]
        exact he' t j

inductive Written (rd : Rd) (flavor : Flavor) (e : S2tte) : S2tte → Prop
  | marked (m : Option Mark) : Written rd flavor e (e.setMark m)
  | unmapped (m : Option Mark) (ha : flavor.admits e = true) : Written rd flavor e ((unmapMakeNewEntry rd e).1.setMark m)

theorem stampedEntry_eq (rd : Rd) (h : Nat) (e : S2tte) :
    ∃ m, Rmm.stampedEntry rd h e = (unmapMakeNewEntry rd e).1.setMark m := by
  unfold Rmm.stampedEntry
  dsimp only
  split
  · exact ⟨_,setMark_setMark ..⟩
  · exact ⟨_,rfl⟩

theorem Written.tableAt_eq {flavor : Flavor} {e' : S2tte} (hw : Written rd flavor e e') : tableAt e' = tableAt e := by
  cases hw with
  | marked m => exact (setMark_fields m e).2.2
  | unmapped m ha =>
    rw [(setMark_fields m _).2.2]
    cases e with
    | assigned r | assignedDev r => cases r <;> rfl
    | table => cases flavor <;> cases ha
    | _ => rfl

theorem rttUnmap_written {flavor : Flavor} {rdAddr base : Nat} {out : OutAddr} {sch : Schedule} {res : Result}
    (hx : s.rttUnmap cfg flavor rdAddr base top out sch = (s',res)) :
    s'.rd = s.rd ∧ ∀ t j, Written (s.rd rdAddr) flavor (s.entry t j) (s'.entry t j) := by
  have hsame : s.rd = s.rd ∧ ∀ t j, Written (s.rd rdAddr) flavor (s.entry t j) (s.entry t j) :=
    ⟨rfl,fun t j => by
      have hm : Written (s.rd rdAddr) flavor (s.entry t j) ((s.entry t j).setMark (s.entry t j).mark) := .marked _
      rwa [setMark_mark] at hm⟩
  unfold Rmm.rttUnmap at hx
  split at hx
  · cases hx
    exact hsame
  rename_i h _
  dsimp only at hx
  iterate 3
    split at hx
    · cases hx
      exact hsame
  split at hx
  · cases hx
    exact hsame
  rename_i s₁ c₁ hsweep
  obtain ⟨hr,-,he⟩ := unmapOneTable_swept hsweep
  have hdrain := @unmapDrainAndClear_remarked (s₁.putUnmap h (Rmm.sorted c₁)) h (Rmm.sorted c₁) sch
  have hfinal : ∀ s₂ : Rmm, Remarked (s₁.putUnmap h (Rmm.sorted c₁)) s₂ →
      s₂.rd = s.rd ∧ ∀ t j, Written (s.rd rdAddr) flavor (s.entry t j) (s₂.entry t j) := fun s₂ hm => by
    refine ⟨hm.1.trans hr,fun t j => ?_⟩
    obtain ⟨m,hm⟩ := hm.2 t j
    rw [hm]
    rcases he t j with hsame | ⟨hadm,hst⟩
    · rw [show (s₁.putUnmap h (Rmm.sorted c₁)).entry t j = s₁.entry t j from rfl,hsame]
      exact .marked m
    · obtain ⟨m',hst'⟩ := stampedEntry_eq (s.rd rdAddr) h (s.entry t j)
      rw [show (s₁.putUnmap h (Rmm.sorted c₁)).entry t j = s₁.entry t j from rfl,hst,
        show (s.putUnmap h _).entry t j = s.entry t j from rfl,hst',setMark_setMark]
      exact .unmapped m hadm
  split at hx <;> rename_i hy <;> rw [hy] at hdrain <;> cases hx <;> exact hfinal _ hdrain

theorem walkFrom_congr (ht : ∀ t j, tableAt (s'.entry t j) = tableAt (s.entry t j)) (t : Nat) (l : Int) :
    s'.walkFrom ipa n t l = s.walkFrom ipa n t l := by
  induction n generalizing t l with
  | zero => rfl
  | succ n ih =>
    have h := ht t (addrToIdx ipa l)
    simp only [Rmm.walkFrom]
    cases hs : s.entry t (addrToIdx ipa l) <;> cases hs' : s'.entry t (addrToIdx ipa l) <;>
      rw [hs,hs'] at h <;> first | rfl | cases h
    exact ih _ _

theorem walkFrom_cut {p : Nat} (hne : ∀ t j, t ≠ p ∨ j ≠ i → s'.entry t j = s.entry t j)
    (hcut : tableAt (s'.entry p i) = none) (t : Nat) (l : Int) : s'.walkFrom ipa n t l = s.walkFrom ipa n t l ∨
      (s'.walkFrom ipa n t l).1 = p ∧ addrToIdx ipa (s'.walkFrom ipa n t l).2 = i := by
  induction n generalizing t l with
  | zero => exact .inl rfl
  | succ n ih =>
    by_cases hat : t = p ∧ addrToIdx ipa l = i
    · refine .inr ?_
      obtain ⟨rfl,rfl⟩ := hat
      simp only [Rmm.walkFrom]
      split
      next c hc =>
        rw [hc] at hcut
        cases hcut
      next => exact ⟨rfl,rfl⟩
    · simp only [Rmm.walkFrom,hne t (addrToIdx ipa l) (by omega)]
      split
      · exact ih _ _
      · exact .inl rfl

theorem walk_congr (ht : ∀ t j, tableAt (s'.entry t j) = tableAt (s.entry t j)) :
    s'.walk rd k ipa pageLevel = s.walk rd k ipa pageLevel := by
  simp only [Rmm.walk,walkFrom_congr ht]

theorem entryOf_cut {p : Nat} (hne : ∀ t j, t ≠ p ∨ j ≠ i → s'.entry t j = s.entry t j)
    (hcut : tableAt (s'.entry p i) = none) :
    s'.entryOf rd k ipa = s.entryOf rd k ipa ∨ s'.entryOf rd k ipa = s'.entry p i := by
  simp only [Rmm.entryOf,Rmm.walkEntry,Rmm.walk]
  rcases walkFrom_cut hne hcut (rd.slTable k ipa) rd.geo.startLevel with heq | ⟨hp,hi⟩
  · rw [heq]
    generalize s.walkFrom ipa _ (rd.slTable k ipa) rd.geo.startLevel = r
    by_cases hat : r.1 = p ∧ addrToIdx ipa r.2 = i
    · exact .inr (by rw [hat.1,hat.2])
    · exact .inl (hne _ _ (by omega))
  · exact .inr (by rw [hp,hi])

end Sweep

theorem rttDestroy_cut {cfg : Config} {s s' : Rmm} {rdAddr mapAddr index : Nat} {level : Int} {aux : Bool} {res : Result}
    (hx : s.rttDestroy cfg rdAddr mapAddr level index aux = (s',res)) : s' = s ∨ ∃ p i,
      (∀ t j, t ≠ p ∨ j ≠ i → s'.entry t j = s.entry t j) ∧
        s'.entry p i = Rmm.destroyedEntry (s.rd rdAddr) (if aux then index else 0) mapAddr := by
  unfold Rmm.rttDestroy at hx
  dsimp only at hx
  generalize (if aux then index else 0) = k at hx ⊢
  iterate 6
    split at hx
    · cases hx
      exact .inl rfl
  cases hx
  refine .inr ⟨(s.walk (s.rd rdAddr) k mapAddr (level-1)).llt,(s.walk (s.rd rdAddr) k mapAddr (level-1)).index,
    fun t j hne => ?_,?_⟩
  · exact (Rmm.setEntry_entry ..).trans (if_neg (by omega))
  · exact (Rmm.setEntry_entry ..).trans (if_pos ⟨rfl,rfl⟩)

theorem Written.resets {rd : Rd} {flavor : Flavor} {e e' : S2tte} (hw : Written rd flavor e e')
    (hwas : e.getRipas ≠ .destroyed) (hnow : e'.getRipas = .destroyed) : e'.ap = rd.defaultProtectedAp 0 ↔
      e.isAssignedRam = true ∨ e.ap.get rd.indirectS2ap false = rd.defaultProtectedAp 0 := by
  cases hw with
  | marked m =>
    rw [(setMark_fields m e).2.1] at hnow
    exact absurd hnow hwas
  | unmapped m ha =>
    rw [(setMark_fields m _).2.1] at hnow
    rw [(setMark_fields m _).1]
    cases e with
    | assigned r pa ap =>
      cases r with
      | ram => exact ⟨fun _ => .inl rfl,fun _ => rfl⟩
      | empty => cases hnow
      | destroyed => exact absurd rfl hwas
      | dev => exact ⟨.inr,fun h => h.resolve_left nofun⟩
    | assignedDev r pa attr ap =>
      cases r with
      | empty => cases hnow
      | destroyed => exact absurd rfl hwas
      | ram => exact ⟨.inr,fun h => h.resolve_left nofun⟩
      | dev => exact ⟨.inr,fun h => h.resolve_left nofun⟩
    | _ => cases hnow

theorem destroyed_permissions_reset {cfg : Config} {s s' : Rmm} {rdAddr ipa : Nat} {cmd : HostCommand} {res : Result}
    (hx : cmd.exec cfg s rdAddr = some (s',res))
    (hwas : (s.entryOf (s.rd rdAddr) cmd.tree ipa).getRipas ≠ .destroyed)
    (hnow : (s'.entryOf (s.rd rdAddr) cmd.tree ipa).getRipas = .destroyed) :
    (s'.entryOf (s.rd rdAddr) cmd.tree ipa).ap = (s.rd rdAddr).defaultProtectedAp cmd.tree ↔
      cmd.Resets (s.rd rdAddr) (s.entryOf (s.rd rdAddr) cmd.tree ipa) := by
  cases cmd with
  | unmap flavor base top out sch =>
    obtain ⟨hr,hw⟩ := rttUnmap_written (Option.some.inj hx)
    unfold Rmm.entryOf Rmm.walkEntry at *
    rw [walk_congr fun t j => (hw t j).tableAt_eq] at *
    exact (hw _ _).resets hwas hnow
  | unmapContinue h c sch =>
    simp only [HostCommand.exec,Rmm.unmapContinue] at hx
    split at hx
    · cases hx
    have hm := @unmapDrainAndClear_remarked (s.putUnmap h c) h c sch
    have hfinal : ∀ s₂ : Rmm, Remarked (s.putUnmap h c) s₂ →
        (s₂.entryOf (s.rd rdAddr) 0 ipa).getRipas = (s.entryOf (s.rd rdAddr) 0 ipa).getRipas := fun s₂ hm => by
      unfold Rmm.entryOf Rmm.walkEntry
      rw [walk_congr fun t j => ?_]
      · obtain ⟨m,hm⟩ := hm.2 (s.walk (s.rd rdAddr) 0 ipa pageLevel).llt (s.walk (s.rd rdAddr) 0 ipa pageLevel).index
        rw [hm]
        exact (setMark_fields m _).2.1
      · obtain ⟨m,hm⟩ := hm.2 t j
        rw [hm]
        exact (setMark_fields m _).2.2
    split at hx <;> rename_i hy <;> rw [hy] at hm <;> cases hx <;>
      refine absurd ((hfinal _ ?_).symm.trans hnow) hwas <;> exact hm.trans (.of_eq rfl rfl)
  | rttDestroy map level index aux =>
    obtain rfl | ⟨p,i,hne,hat⟩ := rttDestroy_cut (Option.some.inj hx)
    · exact absurd hnow hwas
    have htree : (HostCommand.rttDestroy map level index aux).tree = if aux then index else 0 := by cases aux <;> rfl
    rw [← htree] at hat
    have hnone : tableAt (s'.entry p i) = none := by
      rw [hat]
      unfold Rmm.destroyedEntry
      split <;> rfl
    refine ⟨fun _ => trivial,fun _ => ?_⟩
    rcases entryOf_cut hne hnone with heq | heq
    · exact absurd (heq ▸ hnow) hwas
    · rw [heq,hat] at hnow ⊢
      unfold Rmm.destroyedEntry at hnow ⊢
      split
      · rfl
      next hpar =>
        rw [if_neg hpar] at hnow
        cases hnow

def devRmm : Rmm :=
  { plainRmm with
    granule := fun q => ⟨if q = 0x5000 then .rd else .mapped,0⟩
    sro := fun _ => ⟨.free,.idle⟩
    entry := fun _ _ => .assignedDev .dev 0x200000 1 ⟨1,2⟩
    rd := fun _ => { plainRd with geo := (planesRmm.rd 0).geo } }

def ramRmm : Rmm :=
  { devRmm with
    granule := fun q => ⟨if q = 0x5000 then .rd else .data,0⟩
    entry := fun _ _ => .assigned .ram 0x200000 ⟨1,1⟩ }

def ramUnmapped : Rmm × Result := ramRmm.rttUnmap (plainConfig .conventional) .data 0x5000 0 0x1000 .single ⟨[],[]⟩

theorem destroyed_permissions_reset_ram :
    (ramUnmapped.1.entryOf (ramRmm.rd 0x5000) 0 0).ap = (ramRmm.rd 0x5000).defaultProtectedAp 0 := by
  have hx : (HostCommand.unmap .data 0 0x1000 .single ⟨[],[]⟩).exec (plainConfig .conventional) ramRmm 0x5000 =
    some (ramUnmapped.1,ramUnmapped.2) := congrArg some (Prod.eta ramUnmapped).symm
  exact (destroyed_permissions_reset hx (by decide +kernel) (by decide +kernel)).2 (.inl (by decide +kernel))

def devUnmapped : Rmm × Result :=
  devRmm.rttUnmap { plainConfig .conventional with bank := fun q => some (if q = 0x5000 then .conventional else .devCoherent) }
    .dev 0x5000 0 0x1000 .single ⟨[],[true]⟩

theorem dev_unmap_keeps_permissions : devUnmapped.2.status = .success ∧
    devUnmapped.1.entry 0x1000 0 = .unassigned .destroyed ⟨1,2⟩ none ∧ plainRd.defaultProtectedAp 0 = ⟨3,0⟩ := by
  decide +kernel

end TfRmm.Rtt
