import TfRmm.Rtt.BlockRuns

namespace TfRmm.Rtt

open TfRmm.S2tt

variable {cfg : Config} {rd : Rd} {s s' : Rmm} {t i j k n addr base top last : Nat} {level : Int} {req : RipasRequest}
  {e : S2tte} {off : Option Nat} {rdAddr recAddr owner : Nat} {running : Bool} {res : Result}

structure Rmm.AuxStopsAt (cfg : Config) (s : Rmm) (rd : Rd) (t : Nat) (level : Int) (req : RipasRequest)
    (top i addr j : Nat) : Prop where
  fits : addr + (j+1) * mapSize level ≤ top
  held : (s.auxMapped cfg rd level req (s.entry t (i+j))).isSome = true
  swept : ∀ k < j, s.auxMapped cfg rd level req (s.entry t (i+k)) = none ∧
    (updateRipas rd.indirectS2ap level req (s.entry t (i+k))).isSome = true

def Rmm.SweptClean (cfg : Config) (s : Rmm) (rd : Rd) (t : Nat) (level : Int) (req : RipasRequest)
    (top n i addr : Nat) : Prop :=
  ∀ j < n, s.AuxStopsAt cfg rd t level req top i addr j → ∀ k < j,
    updateRipas rd.indirectS2ap level req (s.entry t (i+k)) = some (s.entry t (i+k))

theorem writeRipas_frame : (s.writeRipas rd req t i addr e).granule = s.granule ∧
    (s.writeRipas rd req t i addr e).tracking = s.tracking ∧ (s.writeRipas rd req t i addr e).moving = s.moving ∧
    (s.writeRipas rd req t i addr e).entry = (s.setEntry t i e).entry := by
  unfold Rmm.writeRipas Rmm.invalidatePageBlock
  split
  · dsimp only
    split <;> exact ⟨rfl,rfl,rfl,rfl⟩
  · exact ⟨rfl,rfl,rfl,rfl⟩

theorem writeRipas_entry_ne (hne : k ≠ i) : (s.writeRipas rd req t i addr e).entry t k = s.entry t k := by
  rw [writeRipas_frame.2.2.2,Rmm.setEntry_entry,if_neg fun h => hne h.2]

theorem findActive_congr {mem : Mem} {a : Nat} {st : GranuleState} (hg : s'.granule = s.granule)
    (ht : s'.tracking = s.tracking) (hm : s'.moving = s.moving) : s'.findActive cfg mem a st = s.findActive cfg mem a st := by
  unfold Rmm.findActive
  rw [hg,ht,hm]

theorem notAuxMappings_congr {a size o : Nat} (hg : s'.granule = s.granule) (ht : s'.tracking = s.tracking)
    (hm : s'.moving = s.moving) : s'.notAuxMappings cfg a size n o = s.notAuxMappings cfg a size n o := by
  induction n generalizing o with
  | zero => rfl
  | succ n ih => simp only [Rmm.notAuxMappings,findActive_congr hg ht hm,hg,ih]

theorem writeRipas_auxMapped {e' : S2tte} : (s.writeRipas rd req t i addr e).auxMapped cfg rd level req e' =
    s.auxMapped cfg rd level req e' := by
  obtain ⟨hg,ht,hm,_⟩ := @writeRipas_frame rd s t i addr req e
  unfold Rmm.auxMapped
  rw [notAuxMappings_congr hg ht hm]

section Shift

variable (hn : s.auxMapped cfg rd level req (s.entry t i) = none)
  (hu : updateRipas rd.indirectS2ap level req (s.entry t i) = some e)

include hn

theorem auxStopsAt_pos (h : s.AuxStopsAt cfg rd t level req top i addr j) : 0 < j := by
  refine Nat.pos_of_ne_zero fun h0 => ?_
  have := h.held
  rw [h0,Nat.add_zero,hn] at this
  cases this

include hu

theorem auxStopsAt_succ : s.AuxStopsAt cfg rd t level req top i addr (j+1) ↔
    (s.writeRipas rd req t i addr e).AuxStopsAt cfg rd t level req top (i+1) (addr + mapSize level) j := by
  have hentry : ∀ k, (s.writeRipas rd req t i addr e).entry t (i+1+k) = s.entry t (i+(k+1)) := fun k => by
    rw [writeRipas_entry_ne (by omega),Nat.add_right_comm,Nat.add_assoc]
  have hfit : addr + (j+1+1) * mapSize level = addr + mapSize level + (j+1) * mapSize level := by
    rw [Nat.succ_mul (j+1),Nat.add_comm (_*_),Nat.add_assoc]
  constructor
  · intro h
    refine ⟨hfit ▸ h.fits,?_,fun k hk => ?_⟩
    · rw [writeRipas_auxMapped,hentry]
      exact h.held
    · rw [writeRipas_auxMapped,hentry]
      exact h.swept (k+1) (by omega)
  · intro h
    have hheld := h.held
    rw [writeRipas_auxMapped,hentry] at hheld
    refine ⟨hfit ▸ h.fits,hheld,fun k hk => ?_⟩
    cases k with
    | zero => exact ⟨hn,by rw [Nat.add_zero,hu]; rfl⟩
    | succ k =>
      have := h.swept k (by omega)
      rwa [writeRipas_auxMapped,hentry] at this

theorem sweptClean_succ (hex : ∃ j < n, (s.writeRipas rd req t i addr e).AuxStopsAt cfg rd t level req top (i+1)
    (addr + mapSize level) j) : s.SweptClean cfg rd t level req top (n+1) i addr ↔ e = s.entry t i ∧
      (s.writeRipas rd req t i addr e).SweptClean cfg rd t level req top n (i+1) (addr + mapSize level) := by
  have hentry : ∀ k, (s.writeRipas rd req t i addr e).entry t (i+1+k) = s.entry t (i+(k+1)) := fun k => by
    rw [writeRipas_entry_ne (by omega),Nat.add_right_comm,Nat.add_assoc]
  constructor
  · intro h
    obtain ⟨j,hj,hstop⟩ := hex
    have hfirst := h (j+1) (by omega) ((auxStopsAt_succ hn hu).2 hstop) 0 (by omega)
    rw [Nat.add_zero,hu] at hfirst
    refine ⟨Option.some.inj hfirst,fun j hj hstop k hk => ?_⟩
    rw [hentry]
    exact h (j+1) (by omega) ((auxStopsAt_succ hn hu).2 hstop) (k+1) (by omega)
  · rintro ⟨he,h⟩ j hj hstop k hk
    have hpos := auxStopsAt_pos hn hstop
    obtain ⟨j,rfl⟩ := Nat.exists_eq_succ_of_ne_zero hpos.ne'
    cases k with
    | zero => rw [Nat.add_zero,hu,he]
    | succ k =>
      have := h j (by omega) ((auxStopsAt_succ hn hu).1 hstop) k (by omega)
      rwa [hentry] at this

end Shift

theorem setRipasRange_frame (h : Rmm.setRipasRange cfg rd t level req top n i addr s = (s',last,off)) :
    s'.granule = s.granule ∧ ∀ t' k, t' ≠ t ∨ k < i → s'.entry t' k = s.entry t' k := by
  induction n generalizing i addr s with
  | zero =>
    cases h
    exact ⟨rfl,fun _ _ _ => rfl⟩
  | succ n ih =>
    simp only [Rmm.setRipasRange] at h
    split at h
    · cases h
      exact ⟨rfl,fun _ _ _ => rfl⟩
    split at h
    · cases h
      exact ⟨rfl,fun _ _ _ => rfl⟩
    split at h
    · obtain ⟨hg,he⟩ := ih h
      refine ⟨hg.trans writeRipas_frame.1,fun t' k hk => ?_⟩
      rw [he t' k (hk.imp_right fun hlt => by omega),writeRipas_frame.2.2.2,Rmm.setEntry_entry,if_neg (by omega)]
    · cases h
      exact ⟨rfl,fun _ _ _ => rfl⟩

structure Ended (cfg : Config) (s : Rmm) (rd : Rd) (t : Nat) (level : Int) (req : RipasRequest) (top n i addr : Nat)
    (s' : Rmm) (last : Nat) (off : Option Nat) : Prop where
  stops : off.isSome = true ↔ ∃ j < n, s.AuxStopsAt cfg rd t level req top i addr j
  clean : off.isSome = true → (s'.entry = s.entry ↔ s.SweptClean cfg rd t level req top n i addr)
  kept : off = none → addr ≤ last ∧ (s' = s ∨ addr < last)

theorem setRipasRange_ended (hle : addr ≤ top)
    (h : Rmm.setRipasRange cfg rd t level req top n i addr s = (s',last,off)) :
    Ended cfg s rd t level req top n i addr s' last off := by
  induction n generalizing i addr s with
  | zero =>
    cases h
    exact ⟨⟨nofun,fun ⟨_,hj,_⟩ => absurd hj (Nat.not_lt_zero _)⟩,nofun,fun _ => ⟨le_rfl,.inl rfl⟩⟩
  | succ n ih =>
    have hpos := mapSize_pos level
    simp only [Rmm.setRipasRange] at h
    split at h
    next hshort =>
      cases h
      refine ⟨⟨nofun,fun ⟨j,_,hj⟩ => ?_⟩,nofun,fun _ => ⟨?_,.inl rfl⟩⟩
      · have := hj.fits
        rw [Nat.succ_mul] at this
        omega
      · split
        · exact hle
        · exact le_rfl
    next hfit =>
    split at h
    next o ho =>
      have hstop : s.AuxStopsAt cfg rd t level req top i addr 0 :=
        ⟨by omega,by rw [Nat.add_zero,ho]; rfl,fun k hk => absurd hk (Nat.not_lt_zero _)⟩
      cases h
      refine ⟨⟨fun _ => ⟨0,Nat.succ_pos _,hstop⟩,fun _ => rfl⟩,fun _ => ⟨fun _ j _ hj k hk => ?_,fun _ => rfl⟩,nofun⟩
      have := (hj.swept 0 (by omega)).1
      rw [Nat.add_zero,ho] at this
      cases this
    next hn =>
    split at h
    next e hu =>
      have hend := ih (Nat.not_lt.1 hfit) h
      have hstops : off.isSome = true ↔ ∃ j < n+1, s.AuxStopsAt cfg rd t level req top i addr j := by
        rw [hend.stops]
        constructor
        · rintro ⟨j,hj,hs⟩
          exact ⟨j+1,by omega,(auxStopsAt_succ hn hu).2 hs⟩
        · rintro ⟨j,hj,hs⟩
          obtain ⟨j,rfl⟩ := Nat.exists_eq_succ_of_ne_zero (auxStopsAt_pos hn hs).ne'
          exact ⟨j,by omega,(auxStopsAt_succ hn hu).1 hs⟩
      refine ⟨hstops,fun hsome => ?_,fun hnone => ?_⟩
      · rw [sweptClean_succ hn hu (hend.stops.1 hsome),← hend.clean hsome]
        have hat : s'.entry t i = e := by
          rw [(setRipasRange_frame h).2 t i (.inr (Nat.lt_succ_self i)),writeRipas_frame.2.2.2,Rmm.setEntry_entry,
            if_pos ⟨rfl,rfl⟩]
        have hsame : e = s.entry t i → (s.writeRipas rd req t i addr e).entry = s.entry := fun he => by
          rw [writeRipas_frame.2.2.2,he]
          funext t' k
          rw [Rmm.setEntry_entry]
          split
          next hk => rw [hk.1,hk.2]
          next => rfl
        constructor
        · intro heq
          have he : e = s.entry t i := by rw [← hat,heq]
          exact ⟨he,heq.trans (hsame he).symm⟩
        · rintro ⟨he,heq⟩
          exact heq.trans (hsame he)
      · have := (hend.kept hnone).1
        exact ⟨by omega,.inr (by omega)⟩
    next hu =>
      cases h
      refine ⟨⟨nofun,fun ⟨j,_,hj⟩ => ?_⟩,nofun,fun _ => ⟨le_rfl,.inl rfl⟩⟩
      by_cases h0 : j = 0
      · have := hj.held
        rw [h0,Nat.add_zero,hn] at this
        cases this
      · have := (hj.swept 0 (by omega)).2
        rw [Nat.add_zero,hu] at this
        cases this

theorem setRipasWalk_lt {wi : Walk} (h : s.setRipasWalk cfg rdAddr recAddr base top owner running req = .ok wi) :
    base < top := by
  unfold Rmm.setRipasWalk at h
  dsimp only at h
  split at h
  · cases h
  · omega

theorem set_ripas_failure_clean (hr : s.rttSetRipas cfg rdAddr recAddr base top owner running req = (s',res)) :
    (res.status ≠ .success → s'.entry = s.entry ∧ s'.granule = s.granule ∧ req.advance res = req) ↔
      ∀ wi, s.setRipasWalk cfg rdAddr recAddr base top owner running req = .ok wi →
        s.SweptClean cfg (s.rd rdAddr) wi.llt wi.lastLevel req top (s2ttesPerS2tt-wi.index) wi.index base := by
  unfold Rmm.rttSetRipas at hr
  cases hw : s.setRipasWalk cfg rdAddr recAddr base top owner running req with
  | error res' =>
    rw [hw] at hr
    cases hr
    exact ⟨fun _ _ hx => (by cases hx),fun _ hne => ⟨rfl,rfl,if_neg hne⟩⟩
  | ok wi =>
    rw [hw] at hr
    dsimp only at hr
    simp only [Except.ok.injEq,forall_eq']
    generalize hx : Rmm.setRipasRange cfg (s.rd rdAddr) wi.llt wi.lastLevel req top (s2ttesPerS2tt-wi.index) wi.index base s = x at hr
    obtain ⟨s₁,last,off⟩ := x
    have hend := setRipasRange_ended (setRipasWalk_lt hw).le hx
    have hgran := (setRipasRange_frame hx).1
    cases off with
    | some o =>
      cases hr
      rw [← hend.clean rfl]
      exact ⟨fun h => (h nofun).1,fun h _ => ⟨h,hgran,rfl⟩⟩
    | none =>
      have hclean : s.SweptClean cfg (s.rd rdAddr) wi.llt wi.lastLevel req top (s2ttesPerS2tt-wi.index) wi.index base :=
        fun j hj hs => absurd (hend.stops.2 ⟨j,hj,hs⟩) nofun
      refine ⟨fun _ => hclean,fun _ hne => ?_⟩
      dsimp only at hr
      split at hr
      · cases hr
        exact absurd rfl hne
      next hlast =>
        cases hr
        have hs := (hend.kept rfl).2.resolve_right hlast
        exact ⟨by rw [hs],hgran,if_neg hne⟩

def planesRmm : Rmm :=
  { plainRmm with
    granule := fun q => ⟨if q = 0x5000 then .rd else if q = 0x6000 then .recObject else .data,if q = 0x201000 then 1 else 0⟩
    entry := fun _ i => .assigned .ram (0x200000 + i * 4096) ⟨3,0⟩
    rd := fun _ => { plainRd with geo := ⟨21,3,Geometry.valid_one_table⟩,rttTreePp := true,numAuxPlanes := 1 } }

def planesSetRipas (base : Nat) : Rmm × Result :=
  planesRmm.rttSetRipas (plainConfig .conventional) 0x5000 0x6000 base 0x2000 0x5000 false ⟨.empty,false,base,0x2000⟩

theorem set_ripas_failure_clean_first :
    (planesSetRipas 0x1000).2 = ⟨.errorRttAux 0,0x1000,0,0,0⟩ ∧ (planesSetRipas 0x1000).1.entry = planesRmm.entry := by
  have h : (planesSetRipas 0x1000).2 = ⟨.errorRttAux 0,0x1000,0,0,0⟩ := by decide +kernel
  have hiff := set_ripas_failure_clean (Prod.eta (planesSetRipas 0x1000)).symm
  refine ⟨h,(hiff.2 fun wi hw j hj hstop k hk => ?_) (by rw [h]; decide) |>.1⟩
  obtain rfl : Walk.mk 0x1000 1 3 = wi := Except.ok.inj hw
  have hheld : planesRmm.auxMapped (plainConfig .conventional) (planesRmm.rd 0x5000) 3 ⟨.empty,false,0x1000,0x2000⟩
      (planesRmm.entry 0x1000 1) = some 0 := by decide +kernel
  exact absurd (hheld.symm.trans (hstop.swept 0 (by omega)).1) nofun

theorem set_ripas_failure_changes : (planesSetRipas 0).2 = ⟨.errorRttAux 0,0x1000,0,0,0⟩ ∧
    planesRmm.entry 0x1000 0 = .assigned .ram 0x200000 ⟨3,0⟩ ∧
    (planesSetRipas 0).1.entry 0x1000 0 = .assigned .empty 0x200000 ⟨3,0⟩ := by
  decide +kernel

end TfRmm.Rtt
