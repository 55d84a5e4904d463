import TfRmm.Tracking.Donation

namespace TfRmm.Tracking

open Function
open Sro.AddrList (addBlock pages)
open Tracking (publish undelegatePage)
open Sys

variable {size : Nat} {s t u : Sys} {k r : Nat} {c d : Ctx}

structure Returned (size : Nat) (s u : Sys) (r p : Nat) : Prop where
  ops : u.ops = s.ops
  calls : u.calls = s.calls
  same : ∀ q, (u.regions q).state = (s.regions q).state ∧
    (u.regions q).coarse = (s.regions q).coarse ∧ (u.regions q).layout = (s.regions q).layout ∧
    (u.regions q).base = (s.regions q).base ∧
    (u.regions q).metadataPages = (s.regions q).metadataPages
  others : ∀ q, q ≠ r → (u.regions q).backing = (s.regions q).backing
  own : ∀ i, (u.regions r).backing i = none ∨ (u.regions r).backing i = (s.regions r).backing i
  removed : ∀ i, (u.regions r).backing i ≠ some p
  granule : ∀ p', p' ≠ p → u.granule size p' = s.granule size p'
  pas : ∀ p', p' ≠ p → u.pas p' = s.pas p'
  zeroed : ∀ p', p' ≠ p → u.zeroed p' = s.zeroed p'
  outside : p / size ≠ r → (s.regions (p / size)).state = .fine ∧ u.pas p = s.pas p ∧
    u.pas p = .realm
  coarse : p / size = r → (s.regions r).state = .coarse → (s.regions r).coarse.state = .delegated →
    u.pas p = .realm
  elsewhere : ∀ q j, q ≠ r → (s.regions q).backing j ≠ some p

variable {p q i n count : Nat} {st : MemState} {l : List Desc}

theorem Returned.conventional (hw : Returned size s u r p) (p' : Nat) :
    u.conventional size p' = s.conventional size p' := by
  simp only [Sys.conventional,(hw.same _).2.2.1]

theorem Returned.unfine (hw : Returned size s u r p) (hu : (s.regions r).Unfine) : (u.regions r).Unfine := by
  rw [Region.Unfine,(hw.same _).1]
  exact hu

theorem Inv.returnStep (hi : Inv size s) (hc : s.ops k = some c) (ha : c.active) (hu : (s.regions c.region).Unfine)
    (hw : Returned size s u c.region p) (hd : d.region = c.region) (hda : d.active) (hm : MarkerInv (u.setOp k (some d)))
    (hop : OpInv size (u.setOp k (some d)) d) : Inv size (u.setOp k (some d)) := by
  have hlive := live_of_op hc ha
  apply hi.opStep hc ha hw.ops hw.calls hd hm
  · refine .ofUnfine hi.stored hu (fun q hq => ⟨(hw.same q).1,(hw.same q).2.1,hw.others q hq⟩)
      (fun q => (hw.same q).2.2) (fun p' hp' => ?_) (fun p' hp' hne => ?_) fun q j p' hq hb _ => ?_
    · by_cases hpp : p' = p
      · subst hpp
        exact (hw.outside hp').2.1
      · exact hw.pas p' hpp
    · apply hw.zeroed p'
      rintro rfl
      exact hne (hw.outside hp').1
    · apply hw.granule p'
      rintro rfl
      exact hw.elsewhere q j hq hb
  · refine .ofUnfine hi hc ha hw.ops hd hda (hw.unfine hu) (fun p' hp' hco hcv hg => ?_) (fun p' hp' hg => ?_)
      (fun j p' hb => ?_) (fun j hj => ?_) hop
    · rw [(hw.same _).1] at hco
      rw [(hw.same _).2.1] at hg
      by_cases hpp : p' = p
      · subst hpp
        exact hw.coarse hp' hco hg
      · rw [hw.pas p' hpp]
        rw [← hp'] at hco hg
        exact hi.agree.coarse p' hco ((hw.conventional p').symm.trans hcv) hg
    · by_cases hpp : p' = p
      · subst hpp
        exact .inr (hw.outside hp').2.2
      · exact .inl ((hw.granule p' hpp).symm.trans hg)
    · have hpp : p' ≠ p := by
        rintro rfl
        exact hw.removed j hb
      have hsub : ∀ i q, (u.regions c.region).backing i = some q → (s.regions c.region).backing i = some q := by
        intro i q hq
        obtain h | h := hw.own i
        · cases hq.symm.trans h
        · exact h.symm.trans hq
      obtain ⟨hheld,huniq,hdisj⟩ := hi.stored.own (hsub j p' hb)
      have hrealm := hheld.realm fun _ => hlive
      refine ⟨⟨(hw.pas p' hpp).trans hrealm,(hw.conventional p').trans hheld.conv,fun hp => ?_⟩,
        fun j' hb' => huniq j' (hsub j' p' hb'),hdisj⟩
      rw [(hw.same _).1,hw.granule p' hpp]
      exact hheld.outside hp
    · rw [(hw.same _).2.2.2.2] at hj
      obtain h | h := hw.own j
      · exact h
      · exact h.trans (hi.within _ j hj)

def unmap (s : Sys) (r i p : Nat) : Sys := (s.setZeroed p true).setBacking r i none

theorem unmap_same (s : Sys) (r i p q : Nat) : ((unmap s r i p).regions q).state = (s.regions q).state ∧
    ((unmap s r i p).regions q).coarse = (s.regions q).coarse ∧ ((unmap s r i p).regions q).layout = (s.regions q).layout ∧
    ((unmap s r i p).regions q).base = (s.regions q).base ∧ ((unmap s r i p).regions q).metadataPages =
    (s.regions q).metadataPages := by
  by_cases hq : q = r
  · subst hq
    simp [unmap,setZeroed,setBacking,setRegion]
  · simp [unmap,setZeroed,setBacking,setRegion,hq]

theorem unmap_others (s : Sys) (i p : Nat) {r : Nat} (hq : q ≠ r) : (unmap s r i p).regions q = s.regions q := by
  simp [unmap,setZeroed,setBacking,setRegion,hq]

theorem unmap_backing (s : Sys) (r i p : Nat) :
    ((unmap s r i p).regions r).backing = update (s.regions r).backing i none := by
  simp [unmap,setZeroed,setBacking,setRegion]

theorem unmap_granule (s : Sys) (r i p p' : Nat) : (unmap s r i p).granule size p' = s.granule size p' := by
  by_cases hq : p' / size = r
  · simp [Sys.granule,unmap,setZeroed,setBacking,setRegion,hq]
  · simp only [Sys.granule,unmap_others s i p hq]

theorem returned_unmap (hi : Inv size s) (hlive : s.Live r)
    (hb : (s.regions r).backing i = some p) : Returned size s (unmap s r i p) r p := by
  obtain ⟨hheld,huniq,hdisj⟩ := hi.stored.own hb
  have hrealm := hheld.realm fun _ => hlive
  refine ⟨rfl,rfl,unmap_same s r i p,fun q hq => by rw [unmap_others s i p hq],fun j => ?_,
    fun j hj => ?_,fun p' _ => unmap_granule s r i p p',fun _ _ => rfl,fun p' hp' => ?_,
    fun hp => ⟨(hheld.outside hp).1,rfl,hrealm⟩,fun _ _ _ => hrealm,hdisj⟩
  · rw [unmap_backing]
    by_cases hj : j = i
    · rw [hj,update_self]
      exact .inl rfl
    · rw [update_of_ne hj]
      exact .inr rfl
  · rw [unmap_backing] at hj
    by_cases hji : j = i
    · rw [hji,update_self] at hj
      cases hj
    · rw [update_of_ne hji] at hj
      exact hji (huniq j hj)
  · simp [unmap,setZeroed,setBacking,setRegion,hp']

theorem returned_outside (hi : Inv size s) (hlive : s.Live r) (hb : (s.regions r).backing i = some p) :
    Returned size s ((unmap s r i p).setGranule size p .delegated) r p := by
  obtain ⟨hops,hcalls,hsame,hothers,hown,hremoved,hgran,hpas,hzero,hout',hcoarse,helse⟩ :=
    returned_unmap hi hlive hb
  have hset := fun q => @setGranule_same size (unmap s r i p) p q .delegated
  refine ⟨hops,hcalls,fun q => ?_,fun q hq => (hset q).2.2.1.trans (hothers q hq),fun j => ?_,fun j => ?_,
    fun p' hp' => (setGranule_granule _ p p' _ hp').trans (hgran p' hp'),hpas,hzero,hout',hcoarse,helse⟩
  · exact ⟨(hset q).1.trans (hsame q).1,(hset q).2.1.trans (hsame q).2.1,
      (hset q).2.2.2.1.trans (hsame q).2.2.1,(hset q).2.2.2.2.1.trans (hsame q).2.2.2.1,
      (hset q).2.2.2.2.2.trans (hsame q).2.2.2.2⟩
  · rw [(hset r).2.2.1]
    exact hown j
  · rw [(hset r).2.2.1]
    exact hremoved j

theorem returned_pas (hi : Stored size s) (hu : (s.regions r).Unfine) (hp : Apart size s r p .realm) :
    Returned size s (s.setPas p .ns) r p := by
  refine ⟨rfl,rfl,fun _ => ⟨rfl,rfl,rfl,rfl,rfl⟩,fun _ _ => rfl,fun _ => .inr rfl,hp.unmapped,
    fun _ _ => rfl,fun p' hp' => ?_,fun _ _ => rfl,fun hout => absurd hp.inside hout,
    fun _ hs hg => ?_,fun q j hq hb => hu.not_fine (hi.outside_fine hq hb hp.inside)⟩
  · simp [setPas,hp']
  · have hself := hp.self
    simp [selfDescribingState,hs,hg] at hself

namespace Draining

section

variable (h : Draining size s c)

include h

theorem congr (hr : t.regions = s.regions) (hp : t.pas = s.pas) (hz : t.zeroed = s.zeroed) : Draining size t c := by
  cases t
  subst hr hp hz
  refine ⟨h.stage,h.source,h.count,h.length,h.bound,h.mapped,fun p hg => ?_,fun p hf => ?_,h.distinct,h.ledger⟩
  · obtain ⟨h₁,h₂,h₃⟩ := h.pending p hg
    exact ⟨h₁,⟨h₂.inside,h₂.conv,h₂.pas,h₂.unmapped,h₂.self⟩,h₃⟩
  · obtain ⟨h₁,h₂,h₃⟩ := h.failed p hf
    exact ⟨h₁,h₂,⟨h₃.inside,h₃.conv,h₃.pas,h₃.unmapped,h₃.self⟩⟩

theorem callback_of_run (hrun : c.run = .reclaiming n) : c.callback = .reclaim := by
  rcases h.stage with h | ⟨-,h,-⟩
  · exact h.1
  · cases hrun.symm.trans h

theorem ledger_publish (hp : c.accepted[c.reclaimPage]? = some p) (hl : addBlock c.list p st = some l) :
    (c.reported ++ [(p,st)]).map Prod.fst = c.accepted.take (c.reclaimPage+1) ∧
      (pages (c.delivered ++ l)).Perm (c.reported ++ [(p,st)]) := by
  obtain ⟨hmap,hperm⟩ := h.ledger
  constructor
  · rw [List.map_append,hmap,List.take_add_one,hp]
    rfl
  have hl := Sro.AddrList.addBlock_pages hl
  simp only [pages,List.flatMap_append] at hperm hl ⊢
  have hmoved := (hl.append_left (c.delivered.flatMap (·.pages))).trans List.perm_middle
  exact (hmoved.trans (hperm.cons _)).trans (List.perm_append_singleton _ _).symm

theorem publishFailed (hrun : c.run = .reclaiming n)
    (hfd : c.failedDonor = some p) (hlast : c.reclaimPage+1 = c.transferred)
    (hl : addBlock c.list p .undelegated = some l) :
    Draining size s { c with
      failedDonor := none
      list := l
      reclaimPage := c.reclaimPage+1
      reported := c.reported ++ [(p,.undelegated)]
      run := .reclaiming count } := by
  obtain ⟨hreq,hacc,-⟩ := h.failed p hfd
  have hfail : c.failures = 1 := by simp [Ctx.failures,hfd]
  have hbound := h.bound
  have hflight : c.inFlight = 0 := by omega
  have hgpi : c.gpi = none := by
    rcases hg : c.gpi with _ | g
    · rfl
    · simp [Ctx.inFlight,hg] at hflight
  have hp : c.accepted[c.reclaimPage]? = some p := by
    rw [← hacc]
    congr 1
    omega
  refine ⟨.inl ⟨h.callback_of_run hrun,.inr ⟨count,rfl⟩⟩,h.source,h.count,h.length,?_,fun i => ?_,fun q hq => ?_,
    nofun,h.distinct,h.ledger_publish hp hl⟩
  · show c.reclaimPage + 1 + c.inFlight + 0 ≤ c.requested
    omega
  · have hmi := h.mapped i
    rw [if_neg (by omega)] at hmi
    show (s.regions c.region).backing i = if c.reclaimPage + 1 + c.inFlight ≤ i ∧ i < c.requested-0
      then c.accepted[i]? else none
    rw [hmi,if_neg (by omega)]
  · cases hgpi.symm.trans hq

theorem cursor (hg : c.gpi = none) (hb : (s.regions c.region).backing c.reclaimPage = some p) :
    c.accepted[c.reclaimPage]? = some p ∧ c.reclaimPage + 1 + c.failures ≤ c.requested ∧
      ∀ i, update (s.regions c.region).backing c.reclaimPage none i =
        if c.reclaimPage+1 ≤ i ∧ i < c.requested-c.failures then c.accepted[i]? else none := by
  have hflight : c.inFlight = 0 := by simp [Ctx.inFlight,hg]
  have hcur := h.mapped c.reclaimPage
  rw [hb,hflight] at hcur
  split at hcur
  swap
  · cases hcur
  refine ⟨hcur.symm,by omega,fun i => ?_⟩
  have hmi := h.mapped i
  rw [hflight] at hmi
  by_cases hic : i = c.reclaimPage
  · rw [hic,update_self,if_neg (by omega)]
  rw [update_of_ne hic,hmi]
  by_cases hin : c.reclaimPage+0 ≤ i ∧ i < c.requested-c.failures
  · rw [if_pos hin,if_pos (by omega)]
  · rw [if_neg hin,if_neg (by omega)]

section

variable (hu : (u.regions c.region).Unfine)
  (hpages : (u.regions c.region).metadataPages = (s.regions c.region).metadataPages)
  (hfailed : ∀ q, c.failedDonor = some q → c.requested = c.transferred ∧
    c.accepted[c.requested-1]? = some q ∧ Apart size u c.region q .ns)

include hu hpages hfailed

theorem publish (hrun : c.run = .reclaiming n) (hp : c.accepted[c.reclaimPage]? = some p)
    (hl : addBlock c.list p st = some l)
    (hbound : c.reclaimPage + 1 + c.failures ≤ c.requested)
    (hmapped : ∀ i, (u.regions c.region).backing i =
    if c.reclaimPage+1 ≤ i ∧ i < c.requested-c.failures then c.accepted[i]? else none) :
    Draining size u { c with
      gpi := none
      list := l
      reclaimPage := c.reclaimPage+1
      reported := c.reported ++ [(p,st)]
      run := .reclaiming count } := by
  refine ⟨.inl ⟨h.callback_of_run hrun,.inr ⟨count,rfl⟩⟩,hu,hpages ▸ h.count,h.length,hbound,hmapped,nofun,
    hfailed,h.distinct,h.ledger_publish hp hl⟩

theorem unmapped (hg : c.gpi = none) (hb : (s.regions c.region).backing c.reclaimPage = some p)
    (hub : (u.regions c.region).backing = update (s.regions c.region).backing c.reclaimPage none)
    (hpend : Apart size u c.region p .realm ∧ u.zeroed p) :
    Draining size u { c with gpi := some p } := by
  obtain ⟨hacc,hbound,hmapped⟩ := h.cursor hg hb
  refine ⟨h.stage,hu,hpages ▸ h.count,h.length,hbound,fun i => ?_,fun q hq => ?_,hfailed,h.distinct,h.ledger⟩
  · rw [hub]
    exact hmapped i
  · cases hq
    exact ⟨hacc,hpend⟩

theorem remapped (hcb : c.callback = .reclaim) (hg : c.gpi = some p)
    (hub : (u.regions c.region).backing =
    update (s.regions c.region).backing c.reclaimPage (some p)) :
    Draining size u { c with gpi := none,run := .idle } := by
  have hflight : c.inFlight = 1 := by simp [Ctx.inFlight,hg]
  have hbound := h.bound
  obtain ⟨hacc,-⟩ := h.pending p hg
  refine ⟨.inl ⟨hcb,.inl rfl⟩,hu,hpages ▸ h.count,h.length,?_,fun i => ?_,nofun,hfailed,h.distinct,h.ledger⟩
  · show c.reclaimPage + 0 + c.failures ≤ c.requested
    omega
  · show (u.regions c.region).backing i = if c.reclaimPage+0 ≤ i ∧ i < c.requested-c.failures
      then c.accepted[i]? else none
    have hmi := h.mapped i
    rw [hflight] at hmi
    rw [hub]
    by_cases hic : i = c.reclaimPage
    · rw [hic,update_self,if_pos (by omega),hacc]
    rw [update_of_ne hic,hmi]
    by_cases hin : c.reclaimPage+1 ≤ i ∧ i < c.requested-c.failures
    · rw [if_pos hin,if_pos (by omega)]
    · rw [if_neg hin,if_neg (by omega)]

end

theorem idle (hcb : c.callback = .reclaim) : Draining size s c.stop :=
  ⟨.inl ⟨hcb,.inl rfl⟩,h.source,h.count,h.length,h.bound,h.mapped,h.pending,h.failed,h.distinct,h.ledger⟩

theorem next : Draining size s c.next := by
  refine ⟨?_,h.source,h.count,h.length,h.bound,h.mapped,h.pending,h.failed,h.distinct,h.ledger⟩
  by_cases heq : c.reclaimPage = c.requested
  · exact .inr ⟨by simp [Ctx.next,heq],rfl,heq⟩
  · exact .inl ⟨by simp [Ctx.next,heq],.inl rfl⟩

end

end Draining

structure Released (size : Nat) (t : Sys) (c : Ctx) (p : Nat) (st : MemState) : Prop where
  unmapped : ∀ i, (t.regions c.region).backing i ≠ some p
  clean : t.zeroed p ∨ c.failedDonor = some p
  undelegated : st = .undelegated → t.pas p = .ns ∧ t.stateOf size p = .ns
  delegated : st = .delegated → t.pas p = .realm ∧ t.stateOf size p = .delegated

def Handed (size : Nat) (c : Ctx) (x : Sys × Ctx) : Prop :=
  x.2.reported = c.reported ∨ ∃ p st, x.2.reported = c.reported ++ [(p,st)] ∧
    c.accepted[c.reclaimPage]? = some p ∧ Released size x.1 c p st

theorem Apart.stateOf {v : Pas} (hap : Apart size s r p v) : s.stateOf size p = .ns := by
  have h := hap.self
  unfold selfDescribingState at h
  simp only [Sys.stateOf,hap.inside]
  split at h
  next hs => simp [hs]
  next hs =>
    split at h
    next hg => simp [hs,hg]
    · cases h
    · cases h
  · cases h

theorem Apart.returned (h : Apart size s r q .ns) (hw : Returned size s u r p) (hne : q ≠ p) : Apart size u r q .ns := by
  refine ⟨h.inside,(hw.conventional q).trans h.conv,(hw.pas q hne).trans h.pas,fun i hb => ?_,?_⟩
  swap
  · have := h.self
    simpa only [selfDescribingState,(hw.same _).1,(hw.same _).2.1] using this
  obtain hn | hn := hw.own i
  · cases hb.symm.trans hn
  · exact h.unmapped i (hn.symm.trans hb)

section Steps

variable {e : El3} {x : Sys × Ctx}

theorem Draining.failed_apart (hd : Draining size s c) (hw : Returned size s u c.region p)
    (hp : s.pas p = .realm) (q : Nat) (hq : c.failedDonor = some q) : c.requested = c.transferred ∧
      c.accepted[c.requested-1]? = some q ∧ Apart size u c.region q .ns := by
  obtain ⟨h₁,h₂,hap⟩ := hd.failed q hq
  refine ⟨h₁,h₂,hap.returned hw ?_⟩
  rintro rfl
  cases hp.symm.trans hap.pas

theorem Inv.undelegatePage (hi : Inv size s) (hc : s.ops k = some c) (ha : c.active) (hd : Draining size s c)
    (hrun : c.run = .reclaiming n) (hg : c.gpi = some p) (hx : undelegatePage s c p count e = some x)
    (hm : MarkerInv (x.1.setOp k (some x.2))) : Inv size (x.1.setOp k (some x.2)) ∧ Handed size c x := by
  have hcb := hd.callback_of_run hrun
  obtain ⟨hacc,hap,hz⟩ := hd.pending p hg
  have hflight : c.inFlight = 1 := by simp [Ctx.inFlight,hg]
  have hsame : { c with gpi := some p } = c := by rw [← hg]
  cases e with
  | incomplete =>
    simp only [undelegatePage,hsame] at hx
    cases hx
    exact ⟨hi.ctxStep hc ha hd.source rfl ha hm (.inr (.inl (hd.idle hcb))),.inl rfl⟩
  | complete b =>
    simp only [undelegatePage,publish] at hx
    split at hx
    · cases hx
    rename_i l hl
    cases hx
    have hw := returned_pas hi.stored hd.source hap
    have hbound := hd.bound
    refine ⟨hi.returnStep hc ha hd.source hw rfl ha hm (.inr (.inl ?_)),
      .inr ⟨p,.undelegated,rfl,hacc,hap.unmapped,.inl hz,fun _ => ⟨?_,?_⟩,by simp⟩⟩
    · refine Draining.congr (s := s.setPas p .ns) ?_ rfl rfl rfl
      refine hd.publish hd.source rfl (hd.failed_apart hw hap.pas) hrun hacc hl (by omega) fun i => ?_
      have := hd.mapped i
      rwa [hflight] at this
    · simp [setPas]
    · exact hap.stateOf
  | busy =>
    simp only [undelegatePage] at hx
    cases hx
    have hbound := hd.bound
    have hw : Marked size s s c.region p := by
      refine ⟨rfl,rfl,rfl,fun _ => ⟨rfl,rfl,rfl,rfl,rfl,rfl⟩,fun _ _ => rfl,fun _ _ => rfl,hap.pas,
        hap.conv,fun _ => rfl,fun hout => absurd hap.inside hout,fun q j hb => ?_⟩
      by_cases hq : q = c.region
      · subst hq
        exact hap.unmapped j hb
      · exact hd.source.not_fine (hi.stored.outside_fine hq hb hap.inside)
    have hlt : c.reclaimPage < (s.regions c.region).metadataPages := by
      have := hd.count
      omega
    refine ⟨hi.acceptStep hc ha hd.source hw hlt rfl ha hm (.inr (.inl ?_)),.inl rfl⟩
    refine hd.remapped ?_ (populate_same s c _ p _).2.2.2.2.1 (fun q hq => ?_) hcb hg (populate_backing s c _ p)
    · show ((populate s c c.reclaimPage p).regions c.region).Unfine
      rw [Region.Unfine,(populate_same s c _ p _).1]
      exact hd.source
    obtain ⟨h₁,h₂,hap'⟩ := hd.failed q hq
    have hne : q ≠ p := by
      rintro rfl
      cases hap.pas.symm.trans hap'.pas
    refine ⟨h₁,h₂,hap'.inside,?_,hap'.pas,fun i hb => ?_,?_⟩
    rotate_right
    · have := hap'.self
      simpa only [selfDescribingState,setOp,(populate_same s c _ p _).1,(populate_same s c _ p _).2.1] using this
    · show (populate s c c.reclaimPage p).conventional size q
      rw [Sys.conventional,(populate_same s c _ p _).2.2.1]
      exact hap'.conv
    · have hb : ((populate s c c.reclaimPage p).regions c.region).backing i = some q := hb
      rw [populate_backing] at hb
      by_cases hic : i = c.reclaimPage
      · rw [hic,update_self] at hb
        exact hne (Option.some.inj hb).symm
      · rw [update_of_ne hic] at hb
        exact hap'.unmapped i hb
  | conflict | rejected => cases hx

theorem undelegatePage_setOp (w : Sys) (k p count : Nat) (c : Ctx) (e : El3) :
    undelegatePage (w.setOp k (some { c with gpi := some p })) { c with gpi := some p } p count e =
      (undelegatePage w c p count e).map fun x => (x.1.setOp k (some { c with gpi := some p }),x.2) := by
  cases e with
  | complete b =>
    simp only [undelegatePage,publish]
    split <;> rfl
  | incomplete => rfl
  | busy => rfl
  | conflict => rfl
  | rejected => rfl

theorem setOp_setOp (w : Sys) (k : Nat) (d d' : Option Ctx) : (w.setOp k d).setOp k d' = w.setOp k d' := by
  simp [setOp]

section

variable (hi : Inv size s) (hc : s.ops k = some c) (ha : c.active)

include hi hc ha

theorem Inv.reclaiming (hrun : c.run = .reclaiming n) : Draining size s c := by
  rcases hi.op k c hc ha with h | h | h | h
  · rcases h.stage with ⟨-,-,h | ⟨_,h⟩⟩ | ⟨-,-,h⟩ | ⟨-,-,-,h⟩ <;> cases hrun.symm.trans h
  · exact h
  · cases hrun.symm.trans h.run
  · cases hrun.symm.trans h.run

theorem Inv.handBack (hd : Draining size s c) (hrun : c.run = .reclaiming n) (hg : c.gpi = none)
    (hb : (s.regions c.region).backing c.reclaimPage = some p)
    (hx : handBack size (unmap s c.region c.reclaimPage p) c p count e = some x) (hm : MarkerInv (x.1.setOp k (some x.2))) :
    Inv size (x.1.setOp k (some x.2)) ∧ Handed size c x := by
  have hlive := live_of_op hc ha
  have hheld := hi.stored.held _ _ p hb
  have hrealm := hheld.realm fun _ => hlive
  obtain ⟨hacc,hbound,hmapped⟩ := hd.cursor hg hb
  have hw := returned_unmap hi hlive hb
  have hzero : (unmap s c.region c.reclaimPage p).zeroed p = true := by
    simp [unmap,setZeroed,setBacking,setRegion]
  have hsame : { c with gpi := none } = c := by rw [← hg]
  have hpub : ∀ w st l, (w.regions c.region).backing = update (s.regions c.region).backing c.reclaimPage none →
      Returned size s w c.region p → addBlock c.list p st = some l →
      ∀ t : Sys, t.regions = w.regions → t.pas = w.pas → t.zeroed = w.zeroed →
      OpInv size t { c with
        list := l
        reclaimPage := c.reclaimPage+1
        reported := c.reported ++ [(p,st)]
        run := .reclaiming count } := fun w st l hwb hw hl t hr hp hz => by
    refine .inr (.inl (Draining.congr ?_ hr hp hz))
    rw [hg]
    refine hd.publish (hw.unfine hd.source) (hw.same _).2.2.2.2 (hd.failed_apart hw hrealm) hrun hacc hl hbound
      fun i => ?_
    rw [hwb]
    exact hmapped i
  unfold Tracking.handBack at hx
  split at hx
  next hin =>
    have hin : p / size = c.region := by simpa [Ctx.selfDescribing] using hin
    have hself : selfDescribingState ((unmap s c.region c.reclaimPage p).regions c.region) =
        selfDescribingState (s.regions c.region) := by
      simp only [selfDescribingState,(unmap_same s _ _ p _).1,(unmap_same s _ _ p _).2.1]
    split at hx
    · cases hx
    next hst =>
      have hstep : Inv size ((unmap s c.region c.reclaimPage p).setOp k (some { c with gpi := some p })) := by
        refine hi.returnStep hc ha hd.source hw rfl ha ?_ (.inr (.inl ?_))
        · have hq : Quiet s c (unmap s c.region c.reclaimPage p,{ c with gpi := some p }) :=
            ⟨.unmap s p _ _,⟨rfl,rfl⟩⟩
          have hmove : MarkerMove False s _ := hq.move hc ha
          exact hi.marker.move hmove
        · refine Draining.congr (s := unmap s c.region c.reclaimPage p) ?_ rfl rfl rfl
          refine hd.unmapped (hw.unfine hd.source) (hw.same _).2.2.2.2 (hd.failed_apart hw hrealm) hg hb
            (unmap_backing s _ _ p) ⟨⟨hin,?_,hrealm,hw.removed,hst⟩,hzero⟩
          exact (hw.conventional p).trans hheld.conv
      have hc₁ : ((unmap s c.region c.reclaimPage p).setOp k (some { c with gpi := some p })).ops k =
          some { c with gpi := some p } := by simp [setOp]
      have hx₁ := undelegatePage_setOp (unmap s c.region c.reclaimPage p) k p count c e
      rw [hx] at hx₁
      obtain ⟨hinv,hhand⟩ := hstep.undelegatePage hc₁ ha (hstep.reclaiming hc₁ ha hrun) hrun rfl hx₁ (by rwa [setOp_setOp])
      rw [setOp_setOp] at hinv
      refine ⟨hinv,?_⟩
      obtain h | ⟨q,st,hrep,hq,hrel⟩ := hhand
      · exact .inl h
      · exact .inr ⟨q,st,hrep,hq,hrel.unmapped,hrel.clean,hrel.undelegated,hrel.delegated⟩
    next hst =>
      obtain ⟨hco,hgd⟩ := selfDescribingState_delegated (hself ▸ hst)
      unfold publish at hx
      split at hx
      · cases hx
      rename_i l hl
      cases hx
      refine ⟨hi.returnStep hc ha hd.source hw rfl ha hm (hpub _ _ l (unmap_backing s _ _ p) hw hl _ rfl rfl rfl),
        .inr ⟨p,.delegated,rfl,hacc,hw.removed,.inl hzero,by simp,fun _ => ⟨hrealm,?_⟩⟩⟩
      simp only [Sys.stateOf,hin,(unmap_same s _ _ p _).1,(unmap_same s _ _ p _).2.1,hco,hgd]
  next hout =>
    have hout : p / size ≠ c.region := by simpa [Ctx.selfDescribing] using hout
    have hw := returned_outside hi hlive hb
    have hset := fun q => @setGranule_same size (unmap s c.region c.reclaimPage p) p q .delegated
    split at hx
    · cases hx
    unfold publish at hx
    split at hx
    · cases hx
    rename_i l hl
    cases hx
    refine ⟨hi.returnStep hc ha hd.source hw rfl ha hm
      (hpub _ _ l ((hset _).2.2.1.trans (unmap_backing s _ _ p)) hw hl _ rfl rfl rfl),
      .inr ⟨p,.delegated,rfl,hacc,hw.removed,.inl hzero,by simp,fun _ => ⟨hrealm,?_⟩⟩⟩
    have hfine : (((unmap s c.region c.reclaimPage p).setGranule size p .delegated).regions
        (p / size)).state = .fine := by
      rw [(hw.same _).1]
      exact (hheld.outside hout).1
    simp only [Sys.stateOf,hfine]
    exact setGranule_self _ p _

theorem Inv.reclaimPage (hd : Draining size s c) (hrun : c.run = .reclaiming n) (hx : reclaimPage size s c count e = some x)
    (hm : MarkerInv (x.1.setOp k (some x.2))) : Inv size (x.1.setOp k (some x.2)) ∧ Handed size c x := by
  have hpend : ∀ p, c.gpi = some p → Tracking.handBack size s c p count e = some x →
      Inv size (x.1.setOp k (some x.2)) ∧ Handed size c x := fun p hg hx => by
    obtain ⟨-,hap,-⟩ := hd.pending p hg
    have hin : c.selfDescribing size p = true := by simp [Ctx.selfDescribing,hap.inside]
    simp only [Tracking.handBack,hin,hap.self,if_true] at hx
    exact hi.undelegatePage hc ha hd hrun hg hx hm
  have hmapped : ∀ p, c.gpi = none → (s.regions c.region).backing c.reclaimPage = some p →
      Tracking.handBack size ((s.setZeroed p true).setBacking c.region c.reclaimPage none) c p count e = some x →
      Inv size (x.1.setOp k (some x.2)) ∧ Handed size c x := fun p hg hb hx =>
    hi.handBack hc ha hd hrun hg hb hx hm
  unfold Tracking.reclaimPage at hx
  split at hx
  next p hfd =>
    split at hx
    next hlast =>
      unfold publish at hx
      split at hx
      · cases hx
      rename_i l hl
      cases hx
      obtain ⟨hreq,hacc,hap⟩ := hd.failed p hfd
      refine ⟨hi.ctxStep hc ha hd.source rfl ha hm (.inr (.inl (hd.publishFailed hrun hfd hlast hl))),
        .inr ⟨p,.undelegated,rfl,?_,hap.unmapped,.inr hfd,fun _ => ⟨hap.pas,?_⟩,by simp⟩⟩
      · rw [← hacc]
        congr 1
        omega
      · exact hap.stateOf
    split at hx
    · exact hpend _ ‹_› hx
    · split at hx
      · cases hx
      · exact hmapped _ ‹_› ‹_› hx
  · exact hpend _ ‹_› hx
  · split at hx
    · cases hx
    · exact hmapped _ ‹_› ‹_› hx

theorem Inv.returnPage (hx : returnPage size s c e = some x) (hm : MarkerInv (x.1.setOp k (some x.2))) :
    Inv size (x.1.setOp k (some x.2)) ∧ Handed size c x := by
  unfold Tracking.returnPage at hx
  split at hx
  · have hd := hi.reclaiming hc ha ‹_›
    cases hx
    exact ⟨hi.ctxStep hc ha hd.source rfl ha hm (.inr (.inl hd.next)),.inl rfl⟩
  · have hd := hi.reclaiming hc ha ‹_›
    split at hx
    · cases hx
      exact ⟨hi.ctxStep hc ha hd.source rfl ha hm (.inr (.inl hd.next)),.inl rfl⟩
    · exact hi.reclaimPage hc ha hd ‹_› hx hm
  · cases hx

end

end Steps

end TfRmm.Tracking
