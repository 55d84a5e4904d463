import TfRmm.Tracking.Preserved

namespace TfRmm.Tracking

open TfRmm.Lib
open TfRmm.Sro (MemState)

variable {size : Nat} {s t : Sys} {k r : Nat} {c : Ctx} {p : Nat} {l : Label}

def Ctx.held (c : Ctx) : List Nat := c.accepted.drop c.reclaimPage

theorem nodup_of_backing {l : List Nat} {f : Nat → Option Nat} (hf : ∀ i, f i = l[i]?)
    (hinj : ∀ i j p, f i = some p → f j = some p → i = j) : l.Nodup := by
  rw [List.nodup_iff_getElem?_ne_getElem?]
  intro i j hij hj heq
  rw [List.getElem?_eq_getElem hj] at heq
  have := hinj i j l[j] ((hf i).trans heq) ((hf j).trans (List.getElem?_eq_getElem hj))
  omega

theorem Inv.accepted_nodup (hi : Inv size s) (hc : s.ops k = some c) (ha : c.active) : c.accepted.Nodup := by
  rcases hi.op k c hc ha with h | h | h | h
  · exact h.nodup hi hc ha
  · exact h.distinct
  · exact nodup_of_backing h.mapped fun i j p hp hq => (hi.stored.inj _ i _ j p hp hq).2
  · rw [h.fresh]
    exact List.nodup_nil

theorem Inv.held_cases (hi : Inv size s) (hc : s.ops k = some c) (ha : c.active) (hp : p ∈ c.held) :
    (∃ i, (s.regions c.region).backing i = some p) ∨ ∃ v, Apart size s c.region p v := by
  obtain ⟨j,hj⟩ := List.mem_iff_getElem?.1 hp
  rw [Ctx.held,List.getElem?_drop] at hj
  rcases hi.op k c hc ha with h | h | h | h
  · have hz : c.reclaimPage = 0 := h.unreported.2.2.2.1
    rw [hz,zero_add] at hj
    obtain ⟨hlt,hget⟩ := List.getElem?_eq_some_iff.1 hj
    have hlen := h.length
    by_cases hin : j < c.transferred-c.inFlight
    · exact .inl ⟨j,by rw [h.mapped j,if_pos hin,hj]⟩
    rcases hg : c.gpi with _ | q
    · simp only [Ctx.inFlight,hg,Option.isSome_none,Bool.false_eq_true,if_false] at hin
      omega
    obtain ⟨hlast,hapart⟩ := h.pending q hg
    simp only [Ctx.inFlight,hg,Option.isSome_some,if_true] at hin
    have hjl : j = c.accepted.length-1 := by omega
    rw [List.getLast?_eq_getElem?,← hjl,hj,Option.some.injEq] at hlast
    rw [← hlast] at hapart
    exact .inr ⟨_,hapart⟩
  · obtain ⟨hlt,hget⟩ := List.getElem?_eq_some_iff.1 hj
    have hlen := h.length
    by_cases hin : c.reclaimPage+c.inFlight ≤ c.reclaimPage+j ∧ c.reclaimPage+j < c.requested-c.failures
    · exact .inl ⟨c.reclaimPage+j,by rw [h.mapped,if_pos hin,hj]⟩
    by_cases hfirst : c.inFlight ≤ j
    · rcases hfd : c.failedDonor with _ | q
      · simp only [Ctx.failures,hfd,Option.isSome_none,Bool.false_eq_true,if_false] at hin
        omega
      · obtain ⟨-,hlast,hapart⟩ := h.failed q hfd
        simp only [Ctx.failures,hfd,Option.isSome_some,if_true] at hin
        have hjl : c.reclaimPage+j = c.requested-1 := by omega
        rw [← hjl,hj,Option.some.injEq] at hlast
        rw [← hlast] at hapart
        exact .inr ⟨_,hapart⟩
    · rcases hg : c.gpi with _ | q
      · simp only [Ctx.inFlight,hg,Option.isSome_none,Bool.false_eq_true,if_false] at hfirst
        omega
      · obtain ⟨hfst,hapart,-⟩ := h.pending q hg
        simp only [Ctx.inFlight,hg,Option.isSome_some,if_true] at hfirst
        have hj0 : j = 0 := by omega
        subst hj0
        rw [add_zero,hfst,Option.some.injEq] at hj
        rw [hj] at hapart
        exact .inr ⟨_,hapart⟩
  · have hz := List.mem_of_mem_drop hp
    obtain ⟨i,hi'⟩ := List.mem_iff_getElem?.1 hz
    exact .inl ⟨i,by rw [h.mapped,hi']⟩
  · rw [Ctx.held,h.fresh] at hp
    simp [reclaimCtx] at hp

theorem Apart.unfine {v : Pas} (h : Apart size s r p v) : (s.regions r).state ≠ .fine := fun hf => by
  have hself := h.self
  simp [selfDescribingState,hf] at hself

theorem Inv.held_disjoint (hi : Inv size s) {k' : Nat} {c' : Ctx} (hc : s.ops k = some c) (ha : c.active)
    (hc' : s.ops k' = some c') (ha' : c'.active) (hk : k ≠ k') : c.held.Disjoint c'.held := by
  have hne : c.region ≠ c'.region := fun hr => by
    have := hi.marker.unique (.op k) (.op k') c.region ⟨c,hc,ha,rfl⟩ ⟨c',hc',ha',hr.symm⟩
    cases this
    exact hk rfl
  intro p hp hp'
  obtain ⟨i,hb⟩ | ⟨v,hap⟩ := hi.held_cases hc ha hp <;>
    obtain ⟨j,hb'⟩ | ⟨v',hap'⟩ := hi.held_cases hc' ha' hp'
  · exact hne (hi.stored.inj _ i _ j p hb hb').1
  · exact hap'.unfine (hi.stored.outside_fine hne hb hap'.inside)
  · exact hap.unfine (hi.stored.outside_fine hne.symm hb' hap.inside)
  · exact hne (hap.inside.symm.trans hap'.inside)

structure Backed (size : Nat) (s : Sys) (r : Nat) : Prop where
  complete : ∀ i, i < (s.regions r).metadataPages → ∃ p, (s.regions r).backing i = some p
  distinct : ∀ i j p, (s.regions r).backing i = some p → (s.regions r).backing j = some p → i = j
  apart : ∀ q j i p, q ≠ r → (s.regions r).backing i = some p →
    (s.regions q).backing j ≠ some p
  kept : ∀ i p, (s.regions r).backing i = some p → s.pas p = .realm ∧
    s.lookupDelegated size p = false

theorem Inv.backed (hi : Inv size s) (hf : (s.regions r).state = .fine) : Backed size s r := by
  have hl : s.Live r := .inl hf
  refine ⟨hi.full r hf,fun i j p hb hb' => (hi.stored.inj r i r j p hb hb').2,
    fun q j i p hq hb hb' => hq (hi.stored.inj q j r i p hb' hb).1,fun i p hb => ?_⟩
  have hheld := hi.stored.held r i p hb
  refine ⟨hheld.realm fun _ => hl,?_⟩
  by_cases hp : p / size = r
  · by_cases hcomp : s.Completing r
    · simp [Sys.lookupDelegated,hp,hi.completing_pending hcomp]
    · simp [Sys.lookupDelegated,hheld.inside hp hf hcomp]
  · simp [Sys.lookupDelegated,(hheld.outside hp).2]

theorem donated_distinct (size : Nat) (s : Sys) (hs : (transferSystem size).ReachableUnder (Fresh size) s) :
    (∀ k c, s.ops k = some c → c.active → c.accepted.Nodup) ∧
    (∀ k k' c c', s.ops k = some c → c.active → s.ops k' = some c' → c'.active → k ≠ k' → c.held.Disjoint c'.held) ∧
    ∀ r, (s.regions r).state = .fine → Backed size s r := by
  have hi := inv_reachable hs
  exact ⟨fun k c hc ha => hi.accepted_nodup hc ha,
    fun k k' c c' hc ha hc' ha' hk => hi.held_disjoint hc ha hc' ha' hk,fun r hf => hi.backed hf⟩

theorem transfer_next {guard : Sys → Label → Prop} (h : (transferSystem size).ReachableUnder guard s) (l : Label)
    (hg : guard s l) (hm : El3.Meets s l) (hx : exec size s l = some t) : (transferSystem size).ReachableUnder guard t :=
  h.next hg (.inl ⟨hm,hx⟩)

def flatSys (state : TrState) (g : Rtt.GranuleState) (pages : Nat) (v : Pas) : Sys :=
  { quietSys with
    regions := fun r =>
      { plainRegion state with base := r*4,coarse := ⟨g,0,false⟩,metadataPages := pages }
    pas := fun _ => v }

theorem flatSys_init {n : Nat} : (transferSystem 4).init (flatSys .none .ns n .ns) := by
  refine ⟨⟨fun _ => rfl,fun _ => rfl,fun _ => rfl⟩,fun _ => rfl,⟨?_,?_⟩,fun _ => ⟨nofun,fun _ => rfl⟩⟩
  all_goals
    intro p hf
    cases hf

theorem delegatedSys_init : (transferSystem 4).init (flatSys .coarse .delegated 2 .realm) :=
  ⟨⟨fun _ => rfl,fun _ => rfl,fun _ => rfl⟩,fun _ => rfl,⟨fun _ _ _ _ => rfl,fun _ _ _ _ => rfl⟩,
    fun _ => ⟨nofun,fun _ => rfl⟩⟩

theorem donated_distinct_one : ∃ s, (s.regions 0).state = .fine ∧ (s.regions 0).backing 0 = some 1 ∧
    (s.regions 0).backing 1 = some 2 ∧ Backed 4 s 0 := by
  have hbusy : ∀ s, El3.Meets s (.page 0 .busy) := by
    rintro s (h | ⟨b,h⟩) <;> cases h
  have h0 : (transferSystem 4).ReachableUnder (Fresh 4) (flatSys .coarse .delegated 2 .realm) := .initial delegatedSys_init
  have h1 := transfer_next h0 (.begin 0 0 .fine) trivial trivial rfl
  have h2 := transfer_next h1 (.claim 0) trivial trivial rfl
  have h3 := transfer_next h2 (.reserve 0 (some 0)) trivial trivial rfl
  have h4 := transfer_next h3 (.donate 0 [(1,.delegated),(2,.delegated)]) trivial trivial rfl
  have h5 := transfer_next h4 (.page 0 .busy) (by
      rintro c p rest ⟨⟩ ⟨⟩ -
      decide) (hbusy _) rfl
  have h6 := transfer_next h5 (.page 0 .busy) (by
      rintro c p rest ⟨⟩ ⟨⟩ -
      decide) (hbusy _) rfl
  have h7 := transfer_next h6 (.page 0 .busy) (by
      rintro c p rest ⟨⟩ ⟨⟩) (hbusy _) rfl
  have h8 := transfer_next h7 (.resume 0) trivial trivial rfl
  exact ⟨_,rfl,rfl,rfl,(donated_distinct 4 _ h8).2.2 0 rfl⟩

theorem donated_distinct_fails : ∃ s, (transferSystem 4).Reachable s ∧ (s.regions 0).state = .fine ∧
    (s.regions 0).backing 0 = some 1 ∧ (s.regions 0).backing 1 = some 1 := by
  have h0 : (transferSystem 4).Reachable (flatSys .coarse .delegated 2 .realm) :=
    .initial delegatedSys_init
  have hbusy : ∀ s, El3.Meets s (.page 0 .busy) := by
    rintro s (h | ⟨b,h⟩) <;> cases h
  have h1 := transfer_next h0 (.begin 0 0 .fine) trivial trivial rfl
  have h2 := transfer_next h1 (.claim 0) trivial trivial rfl
  have h3 := transfer_next h2 (.reserve 0 (some 0)) trivial trivial rfl
  have h4 := transfer_next h3 (.donate 0 [(1,.delegated),(1,.delegated)]) trivial trivial rfl
  have h5 := transfer_next h4 (.page 0 .busy) trivial (hbusy _) rfl
  have h6 := transfer_next h5 (.page 0 .busy) trivial (hbusy _) rfl
  have h7 := transfer_next h6 (.page 0 .busy) trivial (hbusy _) rfl
  have h8 := transfer_next h7 (.resume 0) trivial trivial rfl
  exact ⟨_,h8,rfl,rfl,rfl⟩

def Distinct (s : Sys) : Label → Prop
  | .page h _ => ∀ c p st rest, s.ops h = some c → c.run = .donating ((p,st) :: rest) →
      p ∉ c.accepted
  | _ => True

theorem Distinct.fresh (h : Distinct s l) : Fresh size s l := by
  cases l with
  | page k e => exact fun c p rest hc hrun _ => h c p .delegated rest hc hrun
  | _ => exact trivial

section Ledger

variable {e : El3} {x : Sys × Ctx}

theorem pageAdd_reported {p : Nat} {st : MemState} {rest : List (Nat × MemState)} :
    (pageAdd size s c p st rest e).2.reported = c.reported := by
  unfold pageAdd delegatePage
  repeat' split
  all_goals rfl

theorem donatePage_reported (h : donatePage size s c e = some x) : x.2.reported = c.reported := by
  unfold donatePage at h
  split at h
  · cases h
    rfl
  · split at h
    · cases h
      exact pageAdd_reported
    · cases h
      rfl
  · cases h

theorem delegateContinue_reported (h : delegateContinue s c e = some x) : x.2.reported = c.reported := by
  unfold delegateContinue at h
  split at h
  · cases h
  split at h
  all_goals
    cases h
    try split
    all_goals rfl

theorem continueSet_reported : (continueSet s c).2.reported = c.reported := by
  simp only [continueSet]
  split <;> rfl

end Ledger

inductive OpStep (size : Nat) (s t : Sys) (k : Nat) (c d : Ctx) : Prop where
  | keep (reported : d.reported = c.reported) (active : d.active = true)
  | hand (e : El3) (u : Sys) (step : returnPage size s c e = some (u,d))
      (next : t = u.setOp k (some d)) (active : d.active = true)
  | complete (run : c.run = .completing) (ended : d = { c with run := .idle,ended := some .success })
      (next : t = (s.setRegion c.region (s.regions c.region).fineTransitionComplete).setOp k (some d))
  | finish (run : c.run = .idle) (callback : c.callback = .finish) (list : c.list = [])
      (ended : d = { c with ended := some c.retStatus })
      (next : t = (s.setPending c.region false).setOp k (some d))
  | startFail (run : c.run = .starting) (status : Status)
      (ended : d = { c with run := .idle,ended := some status })

theorem OpRun.ops {x : Sys × Ctx} (hx : OpRun size s k c l x) : x.1.ops = s.ops := by
  cases hx with
  | start =>
    unfold startReclaim
    split <;> rfl
  | page hx => exact (donatePage_quiet hx).1.ops
  | delegateContinue _ _ hx => exact (delegateContinue_quiet hx).1.ops
  | resume => exact (continueSet_quiet s c).1.ops
  | returnPage hx => exact (returnPage_quiet hx).1.ops
  | donate | complete | reclaim | deliver | finish => rfl

theorem OpRun.opStep {x : Sys × Ctx} (hx : OpRun size s k c l x) (ha : c.active) :
    OpStep size s (x.1.setOp k (some x.2)) k c x.2 := by
  cases hx with
  | start hrun =>
    unfold startReclaim
    split
    · exact .keep rfl ha
    · exact .startFail hrun _ rfl
  | donate | reclaim | deliver => exact .keep rfl ha
  | page hx => exact .keep (donatePage_reported hx) ((donatePage_quiet hx).active ha)
  | delegateContinue _ _ hx => exact .keep (delegateContinue_reported hx) ((delegateContinue_quiet hx).active ha)
  | resume => exact .keep continueSet_reported ((continueSet_quiet s c).active ha)
  | complete hrun => exact .complete hrun rfl rfl
  | @returnPage e _ hx => exact .hand e _ hx rfl ((returnPage_quiet hx).active ha)
  | finish hrun hcb hl => exact .finish hrun hcb hl rfl rfl

theorem exec_opStep {d : Ctx} (h : exec size s l = some t) (hc : s.ops k = some c)
    (ha : c.active) (hd : t.ops k = some d) : OpStep size s t k c d := by
  have hkeep : t.ops k = s.ops k → OpStep size s t k c d := fun hk => by
    obtain rfl := Option.some.inj (hc.symm.trans (hk.symm.trans hd))
    exact .keep rfl ha
  cases exec_executed h with
  | begin h =>
    simp only [beginSet] at h
    apply hkeep
    repeat' split at h
    all_goals
      cases h
      try rfl
  | sync | unclaim => exact hkeep rfl
  | claim =>
    apply hkeep
    unfold claimStep
    split <;> rfl
  | @reserve _ _ _ slot _ _ hx =>
    simp only [reserveStep] at hx
    split at hx
    · cases hx
    cases slot with
    | none =>
      cases hx
      exact hkeep rfl
    | some k' =>
      simp only at hx
      split at hx
      · cases hx
      rename_i hfree
      cases hx
      apply hkeep
      have hne : k ≠ k' := by
        rintro rfl
        rw [hc] at hfree
        exact hfree rfl
      simp [Sys.setOp,Sys.setCall,hne]
  | @op k' c' _ x hc' ha' hx =>
    by_cases hk : k' = k
    · subst hk
      obtain rfl := Option.some.inj (hc.symm.trans hc')
      have hxd : x.2 = d := by simpa [Sys.setOp] using hd
      subst hxd
      exact hx.opStep ha
    · apply hkeep
      rw [← hx.ops]
      simp [Sys.setOp,Ne.symm hk]
  | @release k' c' hc' ha' =>
    apply hkeep
    have hne : k ≠ k' := by
      rintro rfl
      rw [hc] at hc'
      cases hc'
      rw [ha] at ha'
      cases ha'
    simp [Sys.setOp,hne]

structure Ledger (c : Ctx) : Prop where
  once : c.accepted.Nodup
  split : c.accepted = c.reported.map Prod.fst ++ c.held
  listed : (Sro.AddrList.pages (c.delivered ++ c.list)).Perm c.reported

theorem Inv.ledger (hi : Inv size s) (hc : s.ops k = some c) (ha : c.active) : Ledger c := by
  have hn := hi.accepted_nodup hc ha
  rcases hi.op k c hc ha with h | h | h | h
  · obtain ⟨hr,hd,hl,hp,-⟩ := h.unreported
    exact ⟨hn,by simp [hr,Ctx.held,hp],by simp [hr,hd,hl,Sro.AddrList.pages]⟩
  · refine ⟨hn,?_,h.ledger.2⟩
    rw [h.ledger.1,Ctx.held,List.take_append_drop]
  · obtain ⟨hr,hd,hl,hp⟩ := h.unreported
    exact ⟨hn,by simp [hr,Ctx.held,hp],by simp [hr,hd,hl,Sro.AddrList.pages]⟩
  · rw [h.fresh]
    exact ⟨List.nodup_nil,rfl,List.Perm.nil⟩

inductive Ended (size : Nat) (t : Sys) (d : Ctx) : Prop where
  | backs (unreported : d.reported = []) (state : (t.regions d.region).state = .fine)
      (backing : ∀ i, (t.regions d.region).backing i = d.accepted[i]?)
      (taken : ∀ p ∈ d.accepted, t.granule size p = .internal ∧ t.pas p = .realm)
  | returned (reported : d.reported.map Prod.fst = d.accepted)
      (delivered : (Sro.AddrList.pages d.delivered).Perm d.reported)
      (unmapped : ∀ i, (t.regions d.region).backing i = none)
  | refused (accepted : d.accepted = []) (reported : d.reported = [])

theorem Inv.ended {d : Ctx} (hi : Inv size s) (hi' : Inv size t) (h : OpStep size s t k c d) (hc : s.ops k = some c)
    (ha : c.active) (hd : d.active = false) : Ended size t d := by
  cases h with
  | keep _ h | hand _ _ _ _ h => cases h.symm.trans hd
  | complete hrun hdc ht =>
    have hin := hi.installed hc ha hrun
    subst hdc
    have hreg : t.regions c.region = (s.regions c.region).fineTransitionComplete := by
      rw [ht]
      simp [Sys.setOp,Sys.setRegion]
    have hf : (t.regions c.region).state = .fine := by
      rw [hreg]
      exact hin.state
    have hback : ∀ i, (t.regions c.region).backing i = c.accepted[i]? := fun i => by
      rw [hreg]
      exact hin.mapped i
    have hnc : ¬ t.Completing c.region := fun hcomp => by
      have := hi'.completing_pending hcomp
      rw [hreg] at this
      cases this
    refine .backs hin.unreported.1 hf hback fun p hp => ?_
    obtain ⟨i,hp⟩ := List.mem_iff_getElem?.1 hp
    have hheld := hi'.stored.held c.region i p ((hback i).trans hp)
    refine ⟨?_,hheld.realm fun _ => .inl hf⟩
    by_cases hpr : p / size = c.region
    · exact hheld.inside hpr hf hnc
    · exact (hheld.outside hpr).2
  | finish hrun hcb hl hdc ht =>
    have hdr := hi.draining hc ha hrun (.inr (.inr hcb))
    subst hdc
    have hall : c.reclaimPage = c.requested := by
      rcases hdr.stage with h | h
      · cases hcb.symm.trans h.1
      · exact h.2.2
    obtain ⟨hfst,hperm⟩ := hdr.ledger
    refine .returned ?_ ?_ fun i => ?_
    · rw [hfst,hall,← hdr.length,List.take_length]
    · rw [hl,List.append_nil] at hperm
      exact hperm
    rw [ht]
    have hreg : (((s.setPending c.region false).setOp k
        (some { c with ended := some c.retStatus })).regions c.region).backing = (s.regions c.region).backing := by
      simp [Sys.setOp,Sys.setPending,Sys.setRegion]
    rw [hreg]
    exact (hdr.mapped i).trans (if_neg (by omega))
  | startFail hrun status hdc =>
    have hst := hi.starting hc ha hrun
    subst hdc
    rw [hst.fresh]
    exact .refused rfl rfl

theorem metadata_conserved (size : Nat) (s : Sys) (hs : (transferSystem size).ReachableUnder Distinct s) :
    (∀ k c, s.ops k = some c → c.active → Ledger c) ∧
    ∀ l t, Distinct s l → (transferSystem size).step s l t → ∀ k c d, s.ops k = some c → c.active → t.ops k = some d →
        (d.reported = c.reported ∨ ∃ p st, d.reported = c.reported ++ [(p,st)] ∧ p ∈ c.held ∧
          Released size t c p st) ∧
        (d.active = false → Ended size t d) := by
  have hi := inv_reachable (hs.mono fun _ _ h => h.fresh)
  refine ⟨fun k c hc ha => hi.ledger hc ha,fun l t hdist hst k c d hc ha hd => ?_⟩
  have hi' := inv_step hi hdist.fresh hst
  have hop : OpStep size s t k c d := by
    obtain ⟨-,h⟩ | ⟨-,h⟩ := hst
    · exact exec_opStep h hc ha hd
    · rw [h.others.ops] at hd
      obtain rfl := Option.some.inj (hc.symm.trans hd)
      exact .keep rfl ha
  refine ⟨?_,fun hda => hi.ended hi' hop hc ha hda⟩
  cases hop with
  | keep h _ => exact .inl h
  | hand e u hx ht _ =>
    subst ht
    obtain h | ⟨p,st,hrep,hacc,hrel⟩ := (hi.returnPage hc ha hx hi'.marker).2
    · exact .inl h
    refine .inr ⟨p,st,hrep,?_,⟨hrel.unmapped,hrel.clean,hrel.undelegated,hrel.delegated⟩⟩
    apply List.mem_of_getElem? (i := 0)
    rw [Ctx.held,List.getElem?_drop]
    exact hacc
  | complete _ h _ | finish _ _ _ h _ | startFail _ _ h =>
    subst h
    exact .inl rfl

theorem metadata_conserved_refusal : ∃ (s t : Sys) (c : Ctx),
    (transferSystem 4).ReachableUnder Distinct s ∧ (s.regions 0).backing 0 = some 1 ∧
    (t.regions 0).backing 0 = none ∧ Released 4 t c 1 .undelegated := by
  have h0 : (transferSystem 4).ReachableUnder Distinct (flatSys .none .ns 2 .ns) := .initial flatSys_init
  have h1 := transfer_next h0 (.begin 0 0 .fine) trivial trivial rfl
  have h2 := transfer_next h1 (.claim 0) trivial trivial rfl
  have h3 := transfer_next h2 (.reserve 0 (some 0)) trivial trivial rfl
  have h4 := transfer_next h3 (.donate 0 [(1,.undelegated),(2,.undelegated)]) trivial trivial rfl
  have h5 := transfer_next h4 (.page 0 (.complete false)) (by
      rintro c p st rest ⟨⟩ ⟨⟩
      exact List.not_mem_nil) (fun _ _ _ _ _ _ => rfl) rfl
  have h6 := transfer_next h5 (.page 0 .rejected) (by
      rintro c p st rest ⟨⟩ ⟨⟩
      change 2 ∉ [1]
      decide) (by
      rintro (h | ⟨b,h⟩) <;> cases h) rfl
  have h7 := transfer_next h6 (.reclaim 0 1) trivial trivial rfl
  have hstep := ((metadata_conserved 4 _ h7).2 (.returnPage 0 (.complete false)) _ trivial
    (.inl ⟨trivial,rfl⟩) 0 _ _ rfl rfl rfl).1
  obtain h | ⟨p,st,h,-,hrel⟩ := hstep
  · cases h
  · cases h
    exact ⟨_,_,_,h7,rfl,rfl,hrel⟩

end TfRmm.Tracking
