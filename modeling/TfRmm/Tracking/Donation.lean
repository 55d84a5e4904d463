import Mathlib.Data.List.Nodup
import TfRmm.Tracking.Filling

namespace TfRmm.Tracking

open Function
open Sys

variable {size : Nat} {s t u : Sys} {k r : Nat} {c d : Ctx}

attribute [local simp] Ctx.inFlight Ctx.failures donationAbort

theorem sameFor_setOp (s : Sys) (k r : Nat) (d : Option Ctx) : s.SameFor size (s.setOp k d) r :=
  ⟨rfl,rfl,rfl,rfl,fun _ _ _ => ⟨rfl,fun _ => rfl⟩,id⟩

theorem setRegion_self (s : Sys) (r : Nat) : s.setRegion r (s.regions r) = s := by
  simp [setRegion]

variable {p : Nat} {x : Sys × Ctx}

namespace Loaded

theorem last (h : Loaded size s c) (hg : c.gpi = some p) : c.accepted[c.transferred-1]? = some p ∧ 0 < c.transferred := by
  obtain ⟨hlast,-⟩ := h.pending p hg
  rw [← h.length,← List.getLast?_eq_getElem?]
  exact ⟨hlast,List.length_pos_of_mem (List.mem_of_getLast? hlast)⟩

theorem next (h : Loaded size s c) : Filling size s (donationNext c) := by
  refine ⟨⟨h.target,h.source,h.count,h.bound,h.length,h.unreported,h.mapped,h.pending⟩,?_⟩
  simp only [donationNext]
  rcases hg : c.gpi with _ | p
  · by_cases hlt : c.transferred < c.requested
    · simp [hlt]
    · have := h.bound
      simp [hlt]
      omega
  · simp

theorem nodup (h : Loaded size s c) (hi : Inv size s) (hc : s.ops k = some c) (ha : c.active) : c.accepted.Nodup := by
  have hlive := live_of_op hc ha
  rw [List.nodup_iff_getElem?_ne_getElem?]
  intro i j hij hj heq
  rw [h.length] at hj
  obtain ⟨p,hp⟩ : ∃ p, c.accepted[j]? = some p := by
    rw [List.getElem?_eq_getElem (by rw [h.length]; exact hj)]
    exact ⟨_,rfl⟩
  have hmi := h.mapped i
  have hmj := h.mapped j
  rcases hg : c.gpi with _ | g
  · have hzero : c.inFlight = 0 := by simp [hg]
    rw [hzero,if_pos (by omega),heq,hp] at hmi
    rw [hzero,if_pos (by omega),hp] at hmj
    exact absurd (hi.stored.inj _ i _ j p hmi hmj).2 (by omega)
  · have hone : c.inFlight = 1 := by simp [hg]
    rw [hone,if_pos (by omega),heq,hp] at hmi
    by_cases hlast : j = c.transferred-1
    · have hl := (h.last hg).1
      rw [← hlast,hp] at hl
      exact (h.pending g hg).2.unmapped i (hmi.trans hl)
    · rw [hone,if_pos (by omega),hp] at hmj
      exact absurd (hi.stored.inj _ i _ j p hmi hmj).2 (by omega)

theorem fail (h : Loaded size s c) (hn : c.accepted.Nodup) (status : Status) :
    Draining size s (donationAbort { c with failedDonor := c.gpi,gpi := none } status) := by
  obtain ⟨hrep,hdel,hlist,-,-⟩ := h.unreported
  refine ⟨?_,h.source,h.bound.trans h.count.le,h.length,?_,fun i => ?_,nofun,fun q hq => ?_,hn,?_⟩
  · by_cases h0 : c.transferred = 0 <;> simp [h0]
  · cases hg : c.gpi with
    | none => simp
    | some p =>
      have := (h.last hg).2
      simp
      omega
  · show (s.regions c.region).backing i = _
    rw [h.mapped i]
    cases hg : c.gpi <;> simp [hg]
  · exact ⟨rfl,(h.last hq).1,(h.pending q hq).2⟩
  · simp [hrep,hdel,hlist,Sro.AddrList.pages]

theorem abort (h : Loaded size s c) (hg : c.gpi = none) (hn : c.accepted.Nodup) (status : Status) :
    Draining size s (donationAbort c status) := by
  have hsame : { c with failedDonor := c.gpi,gpi := none } = c := by
    have hf := h.unreported.2.2.2.2
    cases c
    cases hg
    cases hf
    rfl
  exact hsame ▸ h.fail hn status

end Loaded

namespace Filling

theorem ready (h : Filling size s c) (hcb : c.callback = .continueSet) :
    c.gpi = none ∧ c.transferred = c.requested ∧ c.run = .idle := by
  rcases h.stage with h | h | h
  · cases hcb.symm.trans h.1
  · cases hcb.symm.trans h.1
  · exact h.2

theorem reject (h : Filling size s c) (hcb : c.callback = .continueSet) (hn : c.accepted.Nodup) (status : Status) :
    Draining size s { c with retStatus := status,reclaimPage := 0,callback := .reclaim } := by
  obtain ⟨hrep,hdel,hlist,-,hfail⟩ := h.unreported
  obtain ⟨hg,hall,hrun⟩ := h.ready hcb
  have hf : c.inFlight = 0 := by simp [hg]
  refine ⟨.inl ⟨rfl,.inl hrun⟩,h.source,h.count.le,h.length.trans hall,?_,fun i => ?_,fun p hp => ?_,fun p hp => ?_,hn,?_⟩
  · simp [hg,hfail]
  · rw [h.mapped i,hf,hall]
    simp [hg,hfail]
  · cases hg.symm.trans hp
  · cases hfail.symm.trans hp
  · simp [hrep,hdel,hlist,Sro.AddrList.pages]

theorem takePending (h : Filling size s c) (hg : c.gpi = none) (hlt : c.transferred < c.requested)
    (rest : List (Nat × MemState)) (hp : Apart size s c.region p .ns) :
    Filling size s (donationNext { c.take p rest with gpi := some p }) := by
  have hf : c.inFlight = 0 := by simp [hg]
  refine ⟨⟨h.target,h.source,h.count,hlt,?_,h.unreported,fun i => ?_,fun q hq => ?_⟩,
    .inr (.inl ⟨by simp [donationNext],rfl,rfl⟩)⟩
  · simp [donationNext,Ctx.take,h.length]
  · have hmi := h.mapped i
    rw [hf] at hmi
    show (s.regions c.region).backing i = _
    rw [hmi]
    simp only [donationNext,Ctx.take,Ctx.inFlight,Option.isSome_some,if_true,Nat.sub_zero,Nat.add_sub_cancel]
    split
    · rw [List.getElem?_append_left (by rw [h.length]; assumption)]
    · rfl
  · cases hq
    exact ⟨by simp [donationNext,Ctx.take],hp⟩

section

variable (h : Filling size s c) (hsame : (t.regions c.region).state = (s.regions c.region).state ∧
  (t.regions c.region).metadataPages = (s.regions c.region).metadataPages)

include h hsame

theorem unfine : (t.regions c.region).Unfine := by
  rw [Region.Unfine,hsame.1]
  exact h.source

theorem take (hcb : c.callback = .donate) (hg : c.gpi = none) (hlt : c.transferred < c.requested)
    (rest : List (Nat × MemState))
    (hb : (t.regions c.region).backing = update (s.regions c.region).backing c.transferred (some p)) : Filling size t
    (c.take p rest) := by
  have hf : c.inFlight = 0 := by simp [hg]
  refine ⟨⟨h.target,h.unfine hsame,?_,?_,?_,h.unreported,fun i => ?_,fun q hq => ?_⟩,.inl ⟨hcb,hg,.inr ⟨rest,rfl⟩⟩⟩
  · exact h.count.trans hsame.2.symm
  · exact hlt
  · simp [Ctx.take,h.length]
  · show (t.regions c.region).backing i = _
    rw [hb]
    have hmi := h.mapped i
    simp only [Ctx.take,Ctx.inFlight,hg,Option.isSome_none,Bool.false_eq_true,if_false,Nat.sub_zero]
    rcases Nat.lt_trichotomy i c.transferred with hi | rfl | hi
    · rw [update_of_ne (by omega),hmi,if_pos (by omega),if_pos (by omega),
        List.getElem?_append_left (by rw [h.length]; exact hi)]
    · rw [update_self,if_pos (by omega),List.getElem?_append_right (by rw [h.length]),h.length]
      simp
    · rw [update_of_ne (by omega),hmi,if_neg (by omega),if_neg (by omega)]
  · cases hg.symm.trans hq

theorem settle (hg : c.gpi = some p) (hb : (t.regions c.region).backing =
    update (s.regions c.region).backing (c.transferred-1) (some p)) :
    Loaded size t { c with gpi := none } := by
  obtain ⟨hlast,hpos⟩ := h.last hg
  have hf : c.inFlight = 1 := by simp [hg]
  have hbound := h.bound
  refine ⟨h.target,h.unfine hsame,h.count.trans hsame.2.symm,h.bound,h.length,h.unreported,fun i => ?_,nofun⟩
  have hmi := h.mapped i
  rw [hb]
  simp only [Ctx.inFlight,Option.isSome_none,Bool.false_eq_true,if_false,Nat.sub_zero]
  rcases Nat.lt_trichotomy i (c.transferred-1) with hi | hi | hi
  · rw [update_of_ne (by omega),hmi,if_pos (by omega),if_pos (by omega)]
  · rw [hi,update_self,if_pos (by omega),hlast]
  · rw [update_of_ne (by omega),hmi,if_neg (by omega),if_neg (by omega)]

end

end Filling

theorem selfDescribingState_delegated {v : Region} (h : selfDescribingState v = some .delegated) :
    v.state = .coarse ∧ v.coarse.state = .delegated := by
  unfold selfDescribingState at h
  split at h
  · cases h
  next hs =>
    split at h
    · cases h
    next hd => exact ⟨hs,hd⟩
    · cases h
  · cases h

theorem marked_pas (hi : Stored size s) (hl : s.Live r) (hconv : s.conventional size p)
    (hin : p / size = r) (hns : s.pas p = .ns) : Marked size s (s.setPas p .realm) r p := by
  refine ⟨rfl,rfl,rfl,fun _ => ⟨rfl,rfl,rfl,rfl,rfl,rfl⟩,fun _ _ => rfl,fun p' hp' => ?_,?_,hconv,
    fun _ => rfl,fun hout => absurd hin hout,fun q j hb => ?_⟩
  · simp [setPas,hp']
  · simp [setPas]
  · cases hns.symm.trans ((hi.held q j p hb).realm fun hq => hq.symm.trans hin ▸ hl)

theorem marked_coarse (hi : Inv size s) (hconv : s.conventional size p)
    (hin : p / size = r) (hself : selfDescribingState (s.regions r) = some .delegated)
    (hfresh : ∀ j, (s.regions r).backing j ≠ some p) : Marked size s s r p := by
  obtain ⟨hs,hg⟩ := selfDescribingState_delegated hself
  refine ⟨rfl,rfl,rfl,fun _ => ⟨rfl,rfl,rfl,rfl,rfl,rfl⟩,fun _ _ => rfl,fun _ _ => rfl,?_,hconv,
    fun _ => rfl,fun hout => absurd hin hout,fun q j hb => ?_⟩
  · rw [← hin] at hs hg
    exact hi.agree.coarse p hs hconv hg
  by_cases hq : q = r
  · subst hq
    exact hfresh j hb
  · cases hs.symm.trans (hi.stored.outside_fine hq hb hin)

theorem setGranule_granule (s : Sys) (p p' : Nat) (g : GranuleState) (hp : p' ≠ p) :
    (s.setGranule size p g).granule size p' = s.granule size p' := by
  by_cases hq : p' / size = p / size
  · have hmod : p' % size ≠ p % size := fun hmod => by
      apply hp
      rw [← Nat.div_add_mod p' size,← Nat.div_add_mod p size,hq,hmod]
    simp only [Sys.granule,setGranule,setRegion,hq,update_self]
    rw [update_of_ne (by simp [hmod])]
  · simp only [Sys.granule,setGranule,setRegion,update_of_ne hq]

theorem setGranule_self (s : Sys) (p : Nat) (g : GranuleState) : (s.setGranule size p g).granule size p = g := by
  simp [Sys.granule,setGranule,setRegion]

theorem setGranule_same (s : Sys) (p q : Nat) (g : GranuleState) : ((s.setGranule size p g).regions q).state =
    (s.regions q).state ∧ ((s.setGranule size p g).regions q).coarse = (s.regions q).coarse ∧
    ((s.setGranule size p g).regions q).backing = (s.regions q).backing ∧ ((s.setGranule size p g).regions q).layout =
    (s.regions q).layout ∧ ((s.setGranule size p g).regions q).base = (s.regions q).base ∧
    ((s.setGranule size p g).regions q).metadataPages = (s.regions q).metadataPages := by
  by_cases hq : q = p / size
  · subst hq
    simp [setGranule,setRegion]
  · simp [setGranule,setRegion,hq]

theorem Inv.completing_pending (hi : Inv size s) {q : Nat} (h : s.Completing q) : (s.regions q).pending = true := by
  obtain ⟨k,c,hc,ha,hr,-⟩ := h
  exact (hi.marker.marked q).2 ⟨.op k,c,hc,ha,hr⟩

theorem marked_granule (hi : Inv size s) (hout : p / size ≠ r)
    (hl : s.lookupDelegated size p) : Marked size s (s.setGranule size p .internal) r p := by
  simp only [Sys.lookupDelegated,Bool.and_eq_true,Bool.not_eq_true',decide_eq_true_eq] at hl
  obtain ⟨⟨⟨hp,hf⟩,hconv⟩,hg⟩ := hl
  refine ⟨rfl,rfl,rfl,fun q => setGranule_same s p q _,fun p' hp' => setGranule_granule s p p' _ hp',
    fun _ _ => rfl,hi.agree.fine p hf hconv hg,hconv,fun hin => absurd hin hout,
    fun _ => ⟨hf,setGranule_self s p _,rfl⟩,fun q j hb => ?_⟩
  have hheld := hi.stored.held q j p hb
  by_cases hq : p / size = q
  · subst hq
    have hnc : ¬ s.Completing (p / size) := fun hc => by
      rw [hi.completing_pending hc] at hp
      cases hp
    cases hg.symm.trans (hheld.inside rfl hf hnc)
  · cases hg.symm.trans (hheld.outside hq).2

section Steps

variable {e : El3}

section

variable (hi : Inv size s) (hc : s.ops k = some c) (ha : c.active)

include hi hc ha

theorem Inv.ctxStep (hu : (s.regions c.region).Unfine) (hd : d.region = c.region) (hda : d.active)
    (hm : MarkerInv (s.setOp k (some d))) (hop : OpInv size s d) : Inv size (s.setOp k (some d)) :=
  hi.quietStep hc ha hu hd hda hm (fun _ _ _ => rfl) (hop.frame (sameFor_setOp s k _ _))

theorem Inv.pageAdd {st : MemState} {rest : List (Nat × MemState)} (hf : Filling size s c) (hcb : c.callback = .donate)
    (hg : c.gpi = none) (hlt : c.transferred < c.requested)
    (hel3 : (e = .incomplete ∨ ∃ b, e = .complete b) → st = .undelegated → s.pas p = .ns)
    (hfresh : st = .delegated → p / size = c.region → p ∉ c.accepted) (hx : pageAdd size s c p st rest e = x)
    (hm : MarkerInv (x.1.setOp k (some x.2))) : Inv size (x.1.setOp k (some x.2)) := by
  have hn := hf.nodup hi hc ha
  have hmeta : c.transferred < (s.regions c.region).metadataPages := by
    rw [← hf.count]
    exact hlt
  have habort : ∀ status, MarkerInv (s.setOp k (some (donationAbort c status))) →
      Inv size (s.setOp k (some (donationAbort c status))) := fun status hm =>
    hi.ctxStep hc ha hf.source rfl ha hm (.inr (.inl (hf.abort hg hn status)))
  have hmapped : ∀ w, Marked size s w c.region p →
      MarkerInv ((populate w c c.transferred p).setOp k (some (c.take p rest))) →
      Inv size ((populate w c c.transferred p).setOp k (some (c.take p rest))) := fun w hw hm => by
    refine hi.acceptStep hc ha hf.source hw hmeta rfl ha hm (.inl (hf.take ?_ hcb hg hlt rest ?_))
    · exact ⟨(populate_same w c _ p _).1.trans (hw.same _).1,
        (populate_same w c _ p _).2.2.2.2.1.trans (hw.same _).2.2.2.2.2⟩
    · show ((populate w c c.transferred p).regions c.region).backing = _
      rw [populate_backing,(hw.same _).2.2.1]
  unfold Tracking.pageAdd at hx
  split at hx
  next hin =>
    have hin : p / size = c.region := by simpa [Ctx.selfDescribing] using hin
    split at hx
    · subst hx
      exact habort _ hm
    rename_i hconv
    have hconv : s.conventional size p := not_not.1 hconv
    split at hx
    · subst hx
      exact habort _ hm
    rename_i hself
    have hself := not_not.1 hself
    split at hx
    next hst =>
      cases e with
      | incomplete =>
        subst hx
        have hns := hel3 (.inl rfl) hst
        refine hi.ctxStep hc ha hf.source rfl ha hm (.inl (hf.takePending hg hlt rest ?_))
        refine ⟨hin,hconv,hns,fun i hb => ?_,hst ▸ hself⟩
        cases hns.symm.trans ((hi.stored.held _ i p hb).realm fun _ => live_of_op hc ha)
      | complete b =>
        subst hx
        exact hmapped _ (marked_pas hi.stored (live_of_op hc ha) hconv hin (hel3 (.inr ⟨b,rfl⟩) hst)) hm
      | busy =>
        subst hx
        exact hi.ctxStep hc ha hf.source rfl ha hm (.inl hf.next)
      | conflict | rejected =>
        subst hx
        exact habort _ hm
    next hst =>
      have hst : st = .delegated := by
        cases st
        · rfl
        · exact absurd rfl hst
      subst hx
      refine hmapped s (marked_coarse hi hconv hin (hst ▸ hself) fun j hb => ?_) hm
      rw [hf.mapped j] at hb
      split at hb
      · exact hfresh hst hin (List.mem_of_getElem? hb)
      · cases hb
  next hout =>
    have hout : p / size ≠ c.region := by simpa [Ctx.selfDescribing] using hout
    split at hx
    next hl =>
      subst hx
      exact hmapped _ (marked_granule hi hout hl.2) hm
    · subst hx
      exact habort _ hm

theorem Inv.donatePage (hel3 : El3.Meets s (.page k e)) (hfresh : Fresh size s (.page k e))
    (hx : donatePage size s c e = some x) (hm : MarkerInv (x.1.setOp k (some x.2))) :
    Inv size (x.1.setOp k (some x.2)) := by
  have hfill : ∀ rest, c.run = .donating rest → Filling size s c ∧ c.callback = .donate ∧ c.gpi = none := by
    intro rest hrun
    rcases hi.op k c hc ha with hf | hd | hd | hd
    · refine ⟨hf,?_⟩
      rcases hf.stage with h | h | h
      · exact ⟨h.1,h.2.1⟩
      · cases hrun.symm.trans h.2.2
      · cases hrun.symm.trans h.2.2.2
    · rcases hd.stage with ⟨-,h | ⟨n,h⟩⟩ | ⟨-,h,-⟩ <;> cases hrun.symm.trans h
    · cases hrun.symm.trans hd.run
    · cases hrun.symm.trans hd.run
  unfold Tracking.donatePage at hx
  split at hx
  next hrun =>
    obtain ⟨hf,-⟩ := hfill _ hrun
    cases hx
    exact hi.ctxStep hc ha hf.source rfl ha hm (.inl hf.next)
  next p st rest hrun =>
    obtain ⟨hf,hcb,hg⟩ := hfill _ hrun
    split at hx
    next hlt =>
      cases hx
      refine hi.pageAdd hc ha hf hcb hg hlt (fun he hst => ?_) (fun hst hin => ?_) rfl hm
      · subst hst
        exact hel3 he c p rest hc hrun
      · subst hst
        exact hfresh c p rest hc hrun hin
    · cases hx
      exact hi.ctxStep hc ha hf.source rfl ha hm (.inl hf.next)
  · cases hx

theorem Inv.filling (hrun : c.run = .idle) (hcb : c.callback ≠ .reclaim ∧ c.callback ≠ .finish) : Filling size s c := by
  rcases hi.op k c hc ha with hf | hd | hd | hd
  · exact hf
  · rcases hd.stage with h | h
    · exact absurd h.1 hcb.1
    · exact absurd h.1 hcb.2
  · cases hrun.symm.trans hd.run
  · cases hrun.symm.trans hd.run

theorem Inv.delegateContinue (hf : Filling size s c) (hx : delegateContinue s c e = some x)
    (hm : MarkerInv (x.1.setOp k (some x.2))) : Inv size (x.1.setOp k (some x.2)) := by
  have hn := hf.nodup hi hc ha
  unfold Tracking.delegateContinue at hx
  split at hx
  · cases hx
  rename_i p hg
  obtain ⟨-,hapart⟩ := hf.pending p hg
  cases e with
  | incomplete | busy =>
    cases hx
    exact hi.ctxStep hc ha hf.source rfl ha hm (.inl hf.next)
  | conflict | rejected =>
    cases hx
    exact hi.ctxStep hc ha hf.source rfl ha hm (.inr (.inl (hg ▸ hf.fail hn _)))
  | complete conflict =>
    cases hx
    have hw := marked_pas hi.stored (live_of_op hc ha) hapart.conv hapart.inside hapart.pas
    have hmeta : c.transferred-1 < (s.regions c.region).metadataPages := by
      have := (hf.last hg).2
      have := hf.bound
      have := hf.count
      omega
    have hload : ∀ d, Loaded size
        ((populate (s.setPas p .realm) c (c.transferred-1) p).setOp k d) { c with gpi := none } := by
      refine fun d => hf.settle ?_ hg (populate_backing _ c _ p)
      exact ⟨(populate_same _ c _ p _).1,(populate_same _ c _ p _).2.2.2.2.1⟩
    cases conflict with
    | false => exact hi.acceptStep hc ha hf.source hw hmeta rfl ha hm (.inl (hload _).next)
    | true => exact hi.acceptStep hc ha hf.source hw hmeta rfl ha hm (.inr (.inl ((hload _).abort rfl hn _)))

end

theorem Region.Installs.kept {v v' : Region} {target : TrState} (h : v.Installs target v') :
    v'.layout = v.layout ∧ v'.base = v.base ∧ v'.metadataPages = v.metadataPages ∧
      v'.backing = v.backing ∧ v'.state = target := by
  cases h <;> exact ⟨rfl,rfl,rfl,rfl,rfl⟩

theorem conventional_mem (h : s.conventional size p) : (.conv,p % size) ∈ (s.regions (p / size)).layout.granules := by
  simp only [Sys.conventional,decide_eq_true_eq] at h
  exact List.mem_append_left _ (List.mem_map_of_mem h)

theorem Filling.congr (h : Filling size s c) (hr : t.regions = s.regions) (hp : t.pas = s.pas) : Filling size t c := by
  cases t
  subst hr hp
  refine ⟨⟨h.target,h.source,h.count,h.bound,h.length,h.unreported,h.mapped,fun p hg => ?_⟩,h.stage⟩
  obtain ⟨hl,ha⟩ := h.pending p hg
  exact ⟨hl,ha.inside,ha.conv,ha.pas,ha.unmapped,ha.self⟩

section

variable (hi : Inv size s) (hp : p / size ≠ c.region) (hne : (s.regions (p / size)).state ≠ .fine)

include hi hp hne

theorem Inv.not_backing (i : Nat) : (s.regions c.region).backing i ≠ some p := fun hb =>
  hne ((hi.stored.held _ i p hb).outside hp).1

theorem pagesClear_zeroed : (pagesClear s c).zeroed p = s.zeroed p := by
  have hnone : ((List.range c.requested).any fun i => (s.regions c.region).backing i = some p) = false := by
    rw [List.any_eq_false]
    intro i _ hb
    exact hi.not_backing hp hne i (by simpa using hb)
  simp [pagesClear,hnone]

end

structure Replaced (size : Nat) (s u : Sys) (r : Nat) (v : Region) : Prop where
  ops : u.ops = s.ops
  calls : u.calls = s.calls
  pas : u.pas = s.pas
  self : u.regions r = v
  ne : ∀ q, q ≠ r → u.regions q = s.regions q
  layout : v.layout = (s.regions r).layout
  base : v.base = (s.regions r).base
  pages : v.metadataPages = (s.regions r).metadataPages
  zeroed : ∀ p, p / size ≠ r → (s.regions (p / size)).state ≠ .fine → u.zeroed p = s.zeroed p

namespace Replaced

variable {v : Region} (h : Replaced size s u r v)

include h

theorem shape (q : Nat) : (u.regions q).layout = (s.regions q).layout ∧ (u.regions q).base = (s.regions q).base ∧
    (u.regions q).metadataPages = (s.regions q).metadataPages := by
  by_cases hq : q = r
  · rw [hq,h.self]
    exact ⟨h.layout,h.base,h.pages⟩
  · rw [h.ne q hq]
    exact ⟨rfl,rfl,rfl⟩

theorem granule (hp : p / size ≠ r) : u.granule size p = s.granule size p := by
  simp only [Sys.granule,h.ne _ hp]

theorem granule_self (hp : p / size = r) : u.granule size p = (v.fine (.conv,p % size)).state := by
  simp only [Sys.granule,hp,h.self]

theorem conventional (p : Nat) : u.conventional size p = s.conventional size p := by
  simp only [Sys.conventional,(h.shape _).1]

theorem localTo (hpast : t.pas = u.pas) (hregions : t.regions = u.regions) (hz : t.zeroed = u.zeroed)
    (hgran : ∀ q i p, q ≠ r → (s.regions q).backing i = some p → p / size = r →
      s.granule size p = .internal → (v.fine (.conv,p % size)).state = .internal)
    (hleave : ∀ q i p, q ≠ r → (s.regions q).backing i = some p → p / size = r →
      v.state = .fine) : LocalTo size s t r := by
  cases t
  subst hpast hregions hz
  refine ⟨fun q hq => ?_,h.shape,fun p _ => congrFun h.pas p,h.zeroed,fun q i p hq hb hg => ?_,
    fun q i p hq hb hp => (congrArg Region.state h.self).trans (hleave q i p hq hb hp)⟩
  · dsimp only
    rw [h.ne q hq]
    exact ⟨rfl,rfl,rfl⟩
  · by_cases hp : p / size = r
    · exact (h.granule_self hp).trans (hgran q i p hq hb hp hg)
    · exact (h.granule hp).trans hg

end Replaced

theorem replaced_setRegion {v : Region} (hlayout : v.layout = (s.regions r).layout) (hbase : v.base = (s.regions r).base)
    (hpages : v.metadataPages = (s.regions r).metadataPages) : Replaced size s (s.setRegion r v) r v := by
  refine ⟨rfl,rfl,rfl,?_,fun q hq => ?_,hlayout,hbase,hpages,fun _ _ _ => rfl⟩
  · simp [setRegion]
  · simp [setRegion,hq]

section

variable (hi : Inv size s) (hc : s.ops k = some c) (ha : c.active)

include hi hc ha

theorem Inv.install {v : Region} (hf : Filling size s c) (hcb : c.callback = .continueSet)
    (hv : (s.regions c.region).Installs .fine v) (hu : Replaced size s u c.region v)
    (hm : MarkerInv (u.setOp k (some { c with run := .completing }))) :
    Inv size (u.setOp k (some { c with run := .completing })) := by
  obtain ⟨-,-,-,hback,hstate⟩ := hv.kept
  have hlive := live_of_op hc ha
  obtain ⟨hg,hall,-⟩ := hf.ready hcb
  have hflight : c.inFlight = 0 := by simp [hg]
  have hnot : ∀ q i p, q ≠ c.region → (s.regions q).backing i = some p → p / size ≠ c.region := fun q i p hq hb hp =>
    hf.source.not_fine (hi.stored.outside_fine hq hb hp)
  have hcompl : Sys.Completing (u.setOp k (some { c with run := .completing })) c.region :=
    ⟨k,{ c with run := .completing },by simp [Sys.setOp],ha,rfl,rfl⟩
  have hself : (u.setOp k (some { c with run := .completing })).regions c.region = v := hu.self
  have hpas : (u.setOp k (some { c with run := .completing })).pas = s.pas := hu.pas
  have hvback : ∀ i, v.backing i = c.accepted[i]? := fun i => by
    rw [hback,hf.mapped i,hflight]
    split
    · rfl
    · rw [List.getElem?_eq_none (by rw [hf.length]; omega)]
  have hvpages : v.metadataPages = c.accepted.length := by
    rw [hu.pages,← hf.count,← hall,hf.length]
  refine hi.opStep hc ha hu.ops hu.calls rfl hm ?_ ?_
  · exact hu.localTo rfl rfl rfl (fun q i p hq hb hp _ => absurd hp (hnot q i p hq hb))
      fun q i p hq hb hp => absurd hp (hnot q i p hq hb)
  refine ⟨fun p hp _ hcv hgd => ?_,fun p _ hco => ?_,fun p hp hgd => .inl ((hu.granule hp).symm.trans hgd),fun i p hb => ?_,
    op_unique hi hc ha hu.ops fun _ => .inr (.inr (.inl ?_)),fun i hle => ?_,fun _ i hlt => ?_,fun hnf => ?_⟩
  · have hcv : s.conventional size p := (hu.conventional p).symm.trans hcv
    have hmem := conventional_mem hcv
    have hgv := (hu.granule_self hp).symm.trans hgd
    rw [hp] at hmem
    rw [hpas]
    obtain ⟨-,⟨-,hns⟩ | ⟨hs,-,hst⟩⟩ := hv.fine_of_unfine hf.source.not_fine
    · cases hgv.symm.trans (hns _ hmem)
    have hco := (hst _ hmem).symm.trans hgv
    rw [← hp] at hs hco
    exact hi.agree.coarse p hs hcv hco
  · rw [hself] at hco
    cases hstate.symm.trans hco
  · rw [hself,hback] at hb
    obtain ⟨hheld,huniq,hdisj⟩ := hi.stored.own hb
    refine ⟨hheld.mono (fun _ => ?_) (hu.shape _).1 (fun hp => ?_) fun _ _ hnc => absurd hcompl hnc,
      fun j hj => huniq j ?_,hdisj⟩
    · rw [hpas]
      exact hheld.realm fun _ => hlive
    · exact ⟨congrArg Region.state (hu.ne _ hp),hu.granule hp⟩
    · rwa [hself,hback] at hj
  · obtain ⟨hrep,hdel,hlist,hrec,-⟩ := hf.unreported
    exact ⟨rfl,hself ▸ hstate,hself ▸ hvpages.symm,hself ▸ hvback,hrep,hdel,hlist,hrec⟩
  · rw [hself] at hle ⊢
    rw [hvback]
    exact List.getElem?_eq_none (hvpages ▸ hle)
  · rw [hself] at hlt ⊢
    rw [hvback]
    exact ⟨_,List.getElem?_eq_getElem (hvpages ▸ hlt)⟩
  · rw [hself] at hnf
    exact absurd hstate hnf

theorem Inv.resume (hf : Filling size s c) (hcb : c.callback = .continueSet) (hx : continueSet s c = x)
    (hm : MarkerInv (x.1.setOp k (some x.2))) : Inv size (x.1.setOp k (some x.2)) := by
  have hn := hf.nodup hi hc ha
  have hz : ∀ p, p / size ≠ c.region → (s.regions (p / size)).state ≠ .fine →
      (pagesClear s c).zeroed p = s.zeroed p := fun p hp hne => pagesClear_zeroed hi hp hne
  have hsame : ∀ v, v = s.regions c.region → (pagesClear s c).setRegion c.region v = pagesClear s c := by
    rintro v rfl
    exact setRegion_self (pagesClear s c) c.region
  unfold continueSet at hx
  simp only at hx
  split at hx
  next v hv =>
    subst hx
    have hins := (Region.transition_cases hv).resolve_right fun h => h.1 rfl
    rw [hf.target] at hins
    obtain ⟨hlayout,hbase,hpages,hback,hstate⟩ := hins.2.kept
    refine hi.install hc ha hf hcb hins.2 ⟨rfl,rfl,rfl,?_,fun q hq => ?_,hlayout,hbase,hpages,fun p hp hne => ?_⟩ hm
    · simp [setRegion]
    · simp [setRegion,hq,pagesClear]
    have hall : ((List.range c.requested).all fun i => v.backing i ≠ some p) = true := by
      rw [List.all_eq_true]
      intro i _
      rw [hback,decide_eq_true_eq]
      exact hi.not_backing hp hne i
    show ((pagesClear s c).zeroed p && _) = _
    rw [hall,Bool.and_true,hz p hp hne]
  next v hv =>
    subst hx
    have hv := (Region.transition_cases hv).resolve_left fun h => absurd h.1 (by simp)
    simp only [hsame v hv.2] at hm ⊢
    exact hi.quietStep hc ha hf.source rfl ha hm hz (.inl (hf.congr rfl rfl))
  next status v hns hnb hv =>
    subst hx
    have hv := (Region.transition_cases hv).resolve_left fun h => hns h.1
    simp only [hsame v hv.2] at hm ⊢
    refine hi.quietStep hc ha hf.source rfl ha hm hz (.inr (.inl ?_))
    refine Filling.reject ?_ hcb hn status
    exact hf.congr rfl rfl

theorem Inv.endFine {v : Region} (hu : Replaced size s u c.region v) (hs : (s.regions c.region).state = .fine)
    (hstate : v.state = .fine) (hback : v.backing = (s.regions c.region).backing)
    (hdel : ∀ p, p / size = c.region → (v.fine (.conv,p % size)).state = .delegated → s.granule size p = .delegated)
    (hint : ∀ p, p / size = c.region → s.granule size p = .internal → (v.fine (.conv,p % size)).state = .internal)
    (hown : ∀ i p, (s.regions c.region).backing i = some p → p / size = c.region → s.conventional size p →
      (v.fine (.conv,p % size)).state = .internal)
    (hd : d.region = c.region) (hend : d.active = false) (hm : MarkerInv (u.setOp k (some d))) :
    Inv size (u.setOp k (some d)) := by
  have hself : (u.setOp k (some d)).regions c.region = v := hu.self
  have hpas : (u.setOp k (some d)).pas = s.pas := hu.pas
  refine hi.opStep hc ha hu.ops hu.calls hd hm (hu.localTo rfl rfl rfl (fun q i p _ _ => hint p)
    fun _ _ _ _ _ _ => hstate) ?_
  refine ⟨fun p hp _ hcv hg => ?_,fun p _ hco => ?_,fun p hp hg => .inl ((hu.granule hp).symm.trans hg),
    fun i p hb => ?_,op_unique hi hc ha hu.ops fun h => ?_,fun i hle => ?_,fun _ i hlt => ?_,fun hnf => ?_⟩
  · rw [← hp] at hs
    rw [hpas]
    exact hi.agree.fine p hs ((hu.conventional p).symm.trans hcv) (hdel p hp ((hu.granule_self hp).symm.trans hg))
  · rw [hself] at hco
    cases hstate.symm.trans hco
  · rw [hself,hback] at hb
    obtain ⟨hheld,huniq,hdisj⟩ := hi.stored.own hb
    refine ⟨hheld.mono (fun _ => ?_) (hu.shape _).1 (fun hp => ⟨?_,hu.granule hp⟩) fun hp _ _ => ?_,
      fun j hj => huniq j ?_,hdisj⟩
    · rw [hpas]
      exact hheld.realm fun _ => live_of_op hc ha
    · show (u.regions (p / size)).state = _
      rw [hu.ne _ hp]
    · exact (hu.granule_self hp).trans (hown i p hb hp hheld.conv)
    · rwa [hself,hback] at hj
  · rw [hend] at h
    cases h
  · rw [hself] at hle ⊢
    rw [hback]
    exact hi.within _ i (hu.pages ▸ hle)
  · rw [hself] at hlt ⊢
    rw [hback]
    exact hi.full _ hs i (hu.pages ▸ hlt)
  · rw [hself] at hnf
    exact absurd hstate hnf

theorem Inv.complete (hin : Installed s c)
    (hm : MarkerInv ((s.setRegion c.region (s.regions c.region).fineTransitionComplete).setOp k
      (some { c with run := .idle,ended := some .success }))) :
    Inv size ((s.setRegion c.region (s.regions c.region).fineTransitionComplete).setOp k
      (some { c with run := .idle,ended := some .success })) := by
  have hcases := fun p => (s.regions c.region).fineTransitionComplete_cases (.conv,p % size)
  refine hi.endFine hc ha (replaced_setRegion rfl rfl rfl) hin.state hin.state rfl (fun p hp hg => ?_)
    (fun p hp hg => ?_) (fun i p hb hp hcv => ?_) rfl rfl hm
  · obtain h | h := hcases p
    · cases hg.symm.trans h
    · rw [h,← hp] at hg
      exact hg
  · obtain h | h := hcases p
    · exact h
    · rw [h,← hp]
      exact hg
  · have hlt : i < (s.regions c.region).metadataPages := by
      by_contra hge
      rw [hi.within _ i (Nat.le_of_not_lt hge)] at hb
      cases hb
    have hpb : (s.regions c.region).base + p % size = p := by
      rw [hi.base,← hp,mul_comm]
      exact Nat.div_add_mod p size
    have hmem := conventional_mem hcv
    rw [hp] at hmem
    rw [Region.fineTransitionComplete_metadata hmem]
    simp only [Region.metadata,Region.isSelfDescribing,decide_true,Bool.true_and,List.any_eq_true,
      List.mem_range,decide_eq_true_eq]
    exact ⟨i,hlt,by rw [hb,hpb]⟩

end

end Steps

end TfRmm.Tracking
