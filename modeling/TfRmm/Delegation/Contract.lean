import TfRmm.Delegation.Steps

namespace TfRmm.Delegation

open TfRmm.Lib

variable {l : Layout} {s : State}

variable {ok : Nat → Bool} {p addr top size trackingSize cursor h : Nat} {source target : GranuleState}
    {slot : Slot} {irq : Option Nat} {e : Response} {cmd : Cmd}

theorem runLength_ok : ∀ {n a p : Nat}, Within a (runLength ok a n) p → ok p := by
  intro n
  induction n with
  | zero =>
    intro a p hp
    simp only [runLength] at hp
    omega
  | succ n ih =>
    intro a p hp
    simp only [runLength] at hp
    split at hp
    next ha =>
      rcases eq_or_ne p a with rfl | hne
      · exact ha
      · have hp' : Within (a+1) (runLength ok (a+1) n) p := by omega
        exact ih hp'
    · omega

theorem runLength_le : ∀ {n a : Nat}, runLength ok a n ≤ n := by
  intro n
  induction n with
  | zero => exact le_rfl
  | succ n ih =>
    intro a
    simp only [runLength]
    split
    · exact Nat.succ_le_succ ih
    · exact Nat.zero_le _

theorem runLength_pos {a n : Nat} (hn : 0 < n) (ha : ok a) : 0 < runLength ok a n := by
  obtain ⟨n,rfl⟩ := Nat.exists_eq_succ_of_ne_zero hn.ne'
  simp only [runLength,if_pos ha]
  omega

theorem Layout.fineAt.unit_eq (h : l.fineAt p) : l.unit p = p := by
  refine if_neg fun hc => ?_
  have hc : l.tracking (l.region p) = .coarse := hc
  rw [h.1] at hc
  cases hc

structure Ready (l : Layout) (s : State) (source : GranuleState) (addr size trackingSize : Nat) :
    Prop where
  shape : l.Shape addr size trackingSize
  pos : 0 < size
  view : ∀ p, Within addr size p → s.view l p = source

def Found.Sound (l : Layout) (s : State) (source target : GranuleState) (addr top : Nat) : Found → Prop
  | .failed status => status ≠ .success ∧ status ≠ .incomplete
  | .inTarget n => 0 < n ∧ addr+n ≤ top ∧ ∀ p, Within addr n p → s.view l p = target
  | .source size trackingSize => addr+size ≤ top ∧ Ready l s source addr size trackingSize

theorem Layout.Unit.view_eq (hu : l.Unit addr size) (hp : Within addr size p) : s.view l p = s.view l addr := by
  have hreg := hu.within_iff.1 hp
  have hc : l.coarseAt p := by
    unfold Layout.coarseAt
    rw [hreg]
    exact hu.1
  unfold State.view Layout.unit Layout.regionBase
  rw [if_pos hc,if_pos hu.1,hreg]

theorem rangeLock_sound (l : Layout) (s : State) (source target : GranuleState) (ht : addr < top) :
    (rangeLock l s source target addr top).Sound l s source target addr top := by
  unfold rangeLock
  split
  next hf =>
    split
    next hs =>
      have hok : ∀ p, Within addr (fineRun l s source addr top) p → l.fineAt p ∧ s.granules p = source := by
        intro p hp
        have := runLength_ok hp
        simp only [Bool.and_eq_true,decide_eq_true_eq] at this
        exact ⟨this.1.1,this.2⟩
      have hle : fineRun l s source addr top ≤ top-addr := runLength_le
      refine ⟨by omega,.inl ⟨rfl,fun p hp => (hok p hp).1⟩,runLength_pos (by omega) (by simp [hf,hs]),?_⟩
      intro p hp
      unfold State.view
      rw [(hok p hp).1.unit_eq]
      exact (hok p hp).2
    split
    · refine ⟨Nat.one_pos,ht,fun p hp => ?_⟩
      obtain rfl : p = addr := by omega
      unfold State.view
      rwa [hf.unit_eq]
    · exact ⟨nofun,nofun⟩
  split
  next hc =>
    simp only
    split
    · exact ⟨nofun,nofun⟩
    rename_i hstate
    split
    · exact ⟨nofun,nofun⟩
    rename_i hfit
    have hunit : l.Unit addr l.regionSize := ⟨hc,not_not.1 fun h1 => hfit (.inl h1),rfl⟩
    have hpos : 0 < l.regionSize := lt_trans Nat.zero_lt_one l.large
    have hend : addr+l.regionSize ≤ top := not_lt.1 fun h1 => hfit (.inr h1)
    split
    next htarget => exact ⟨hpos,hend,fun p hp => (hunit.view_eq hp).trans htarget⟩
    next htarget =>
      refine ⟨hend,.inr ⟨l.large,rfl,hunit⟩,hpos,fun p hp => (hunit.view_eq hp).trans ?_⟩
      by_contra hne
      exact hstate ⟨hne,htarget⟩
  split <;> exact ⟨nofun,nofun⟩

theorem skip_ready : ∀ {fuel addr : Nat}, addr < top →
      skip l s source target top fuel addr = (cursor,.source size trackingSize) →
      Ready l s source cursor size trackingSize := by
  intro fuel
  induction fuel with
  | zero =>
    intro addr _ h
    cases (Prod.mk.inj h).2
  | succ fuel ih =>
    intro addr ht h
    simp only [skip] at h
    split at h
    · split at h
      next hlt => exact ih hlt h
      · cases (Prod.mk.inj h).2
    · obtain ⟨rfl,hf⟩ := Prod.mk.inj h
      have hs := rangeLock_sound l s source target ht
      rw [hf] at hs
      exact hs.2

theorem start_ready (h : start l s source target addr top = (cursor,.source size trackingSize)) :
    Ready l s source cursor size trackingSize := by
  unfold start at h
  rcases lt_or_ge addr (regionTop l addr top) with hlt | hge
  · exact skip_ready hlt h
  · rw [Nat.sub_eq_zero_of_le hge] at h
    cases (Prod.mk.inj h).2

theorem report_state (addr cursor : Nat) (r : Result × State) : (report addr cursor r).2 = r.2 := by
  unfold report
  split <;> rfl

theorem Layout.Shape.tracked (hs : l.Shape addr size trackingSize) (hp : Within addr size p) : l.tracked p := by
  obtain ⟨-,hf⟩ | ⟨-,-,hu⟩ := hs
  · exact .inl (hf p hp)
  · right
    unfold Layout.coarseAt
    rw [hu.within_iff.1 hp]
    exact hu.1

theorem delegateStart_local (hi : Inv l s) (hm : Meets l s (.delegate addr top slot e)) :
    (delegateStart l s addr top slot e).2 = s ∨ ∃ h a n, Local l s (delegateStart l s addr top slot e).2 h a n := by
  unfold delegateStart
  generalize hst : start l s .ns .delegated addr top = x
  obtain ⟨cursor,found⟩ := x
  simp only [report_state]
  cases found with
  | failed status => exact .inl rfl
  | inTarget n => exact .inl rfl
  | source size trackingSize =>
    cases slot with
    | busy => exact .inl rfl
    | blocked => exact .inl rfl
    | reserved h =>
      obtain ⟨hnone,he⟩ := hm h rfl
      have hready := start_ready hst
      exact .inr ⟨h,cursor,size,delegateRange_local hi hready.shape hready.view
        (fun p hp => hi.ns p (hready.shape.tracked hp) (hready.view p hp)) hnone (he size trackingSize (by rw [hst]))⟩

theorem undelegateResume_claim (hi : Inv l s) (hready : Ready l s .delegated cursor size trackingSize)
    (hnone : s.ops h = none) (he : e.Allowed false false size) (device : Bool) :
    ∃ a n, Local l s (undelegateResume (s.setGranules cursor size .partialUnit) h
      ⟨addr,cursor,size,trackingSize,0,0,false,device⟩ true irq e).2 h a n := by
  have hclosed : l.Closed cursor size := hready.shape.closed le_rfl le_rfl fun _ => ⟨rfl,rfl⟩
  have hclaim : Claimed l s (s.setGranules cursor size .partialUnit) h cursor size := by
    refine ⟨mine_of_free hi hnone ?_,rfl,?_,?_⟩
    · intro p hp hv
      rw [hready.view p hp] at hv
      cases hv
    · intro p hp
      rw [view_setGranules hclosed,if_neg hp]
      exact ⟨rfl,rfl⟩
    · intro p hp
      rw [view_setGranules hclosed,if_pos hp]
  have hrealm : ∀ p, Within cursor size p → s.pas p = .realm := fun p hp => by
    refine hi.held p ?_ ?_ <;> rw [hready.view p hp] <;> exact nofun
  exact ⟨_,_,undelegateResume_local hready.shape (fun _ => rfl) (fun _ => rfl) hready.pos hclaim
    (fun p hp hlt => absurd hlt (Nat.not_lt.2 hp.1)) (fun p hp _ => hrealm p hp) he⟩

theorem undelegateStart_local (hi : Inv l s) (hm : Meets l s (.undelegate addr top slot irq e)) :
    (undelegateStart l s addr top slot irq e).2 = s ∨
      ∃ h a n, Local l s (undelegateStart l s addr top slot irq e).2 h a n := by
  unfold undelegateStart
  generalize hst : start l s .delegated .ns addr top = x
  obtain ⟨cursor,found⟩ := x
  simp only [report_state]
  cases found with
  | failed status => exact .inl rfl
  | inTarget n => exact .inl rfl
  | source size trackingSize =>
    cases slot with
    | busy => exact .inl rfl
    | blocked => exact .inl rfl
    | reserved h =>
      obtain ⟨hnone,he⟩ := hm h rfl
      exact .inr ⟨h,undelegateResume_claim hi (start_ready hst) hnone (he size trackingSize (by rw [hst])) _⟩

theorem opContinue_local (hi : Inv l s) (hm : Meets l s (.opContinue h irq e)) :
    (opContinue s h irq e).2 = s ∨ ∃ h' a n, Local l s (opContinue s h irq e).2 h' a n := by
  obtain ⟨hd,hu⟩ := hm
  unfold opContinue
  split
  next c ho =>
    right
    have he := hd c ho
    unfold delegateContinue
    split
    next f hf =>
      rw [if_pos (by rw [hf]; rfl)] at he
      exact ⟨h,_,_,delegateResumeRollback_local hi ho hf he⟩
    rename_i hf
    rw [if_neg (by rw [hf]; exact Bool.false_ne_true)] at he
    exact ⟨h,delegateResumeRealm_local hi ho hf he⟩
  next c ho =>
    obtain ⟨a,n,hl⟩ : ∃ a n, Local l s (undelegateResume s h c false irq e).2 h a n :=
      UndelegateCtx.Wf.resume hi ho (hu c ho)
    exact .inr ⟨h,a,n,hl⟩
  · exact .inl rfl

theorem Inv.reuse (hi : Inv l s) {v : GranuleState} (hm : Meets l s (.reuse p v)) : Inv l (exec l s (.reuse p v)) := by
  obtain ⟨hns,hpart,hvns,hvpart⟩ := hm
  have hview : ∀ q, (exec l s (.reuse p v)).view l q = if l.unit q = l.unit p then v else s.view l q := fun q => by
    exact Function.update_apply ..
  refine ⟨?_,?_,?_,hi.unique,hi.wf⟩
  · intro q hq h
    rw [hview] at h
    split at h
    · exact absurd h hvns
    · exact hi.ns q hq h
  · intro q h h'
    rw [hview] at h h'
    split at h
    next hu =>
      apply hi.held q
      all_goals
        unfold State.view
        rw [hu]
        assumption
    next hu =>
      rw [if_neg hu] at h'
      exact hi.held q h h'
  · intro q
    rw [hview]
    split
    next hu =>
      apply iff_of_false hvpart
      intro hown
      have := (hi.owned q).2 hown
      unfold State.view at this
      rw [hu] at this
      exact hpart this
    · exact hi.owned q

theorem step_cases (hi : Inv l s) (hm : Meets l s cmd) :
    exec l s cmd = s ∨ (∃ h a n, Local l s (exec l s cmd) h a n) ∨
      (exec l s cmd).ops = s.ops ∧ Inv l (exec l s cmd) := by
  cases cmd with
  | delegate addr top slot e => exact (delegateStart_local hi hm).imp_right .inl
  | undelegate addr top slot irq e => exact (undelegateStart_local hi hm).imp_right .inl
  | opContinue h irq e => exact (opContinue_local hi hm).imp_right .inl
  | reuse p v => exact .inr (.inr ⟨rfl,hi.reuse hm⟩)

theorem Inv.step (hi : Inv l s) (hm : Meets l s cmd) : Inv l (exec l s cmd) := by
  obtain h | ⟨h,a,n,hl⟩ | ⟨-,h⟩ := step_cases hi hm
  · rwa [h]
  · exact hl.inv hi
  · exact h

theorem Inv.init (h : Initial l s) : Inv l s := by
  have hview : ∀ p, s.view l p = .ns := fun p => h.granules _
  refine ⟨fun p hp _ => h.pas p hp,?_,?_,?_,?_⟩
  · intro p hv
    exact absurd (hview p) hv
  · intro p
    rw [hview]
    apply iff_of_false nofun
    rintro ⟨h',op,ho,-⟩
    rw [h.ops] at ho
    cases ho
  · intro p h₁ h₂ op₁ op₂ ho
    rw [h.ops] at ho
    cases ho
  · intro h' op ho
    rw [h.ops] at ho
    cases ho

theorem inv_of_reachable (h : (system l).Reachable s) : Inv l s := by
  refine TransitionSystem.Reachable.invariant (fun s (h0 : Initial l s) => Inv.init h0) ?_ h
  rintro s cmd t hi ⟨hm,rfl⟩
  exact hi.step hm

theorem ended_not_partial (hi : Inv l s) (hm : Meets l s cmd) {op : Op} (ho : s.ops h = some op)
    (hend : (exec l s cmd).ops h = none) (hp : op.owns p) : (exec l s cmd).view l p ≠ .partialUnit := by
  obtain hs | ⟨h',a,n,hl⟩ | ⟨hops,-⟩ := step_cases hi hm
  · rw [hs,ho] at hend
    cases hend
  · rcases eq_or_ne h h' with rfl | hne
    · have hag := hl.free p (hl.mine.before op ho p hp) fun op' ho' => by
        rw [hend] at ho'
        cases ho'
      intro hv
      rw [hv] at hag
      obtain ⟨h1,-⟩ | ⟨h1,-⟩ := hag <;> cases h1
    · rw [hl.ops h hne,ho] at hend
      cases hend
  · rw [hops,ho] at hend
    cases hend

theorem pas_agrees (l : Layout) {s : State} (hs : (system l).Reachable s) :
    (∀ p, l.tracked p → s.view l p = .ns → s.pas p = .ns) ∧
    (∀ p, s.view l p = .delegated → s.pas p = .realm) ∧
    (∀ p, s.view l p = .partialUnit → ∃! h, ∃ op, s.ops h = some op ∧ op.owns p) ∧
    ∀ cmd t h op, (system l).step s cmd t → s.ops h = some op → t.ops h = none →
      ∀ p, op.owns p → t.view l p ≠ .partialUnit := by
  have hi := inv_of_reachable hs
  refine ⟨hi.ns,?_,?_,?_⟩
  · intro p hv
    refine hi.held p ?_ ?_ <;> rw [hv] <;> exact nofun
  · intro p hv
    obtain ⟨h,op,ho,hp⟩ := (hi.owned p).1 hv
    refine ⟨h,⟨op,ho,hp⟩,?_⟩
    rintro h' ⟨op',ho',hp'⟩
    exact hi.unique p h' h op' op ho' hp' ho hp
  · rintro cmd t h op ⟨hm,rfl⟩ ho hend p hp
    exact ended_not_partial hi hm ho hend hp

def coarsePair : Layout where
  regionSize := 2
  large := by decide
  tracking := fun _ => .coarse
  bank := fun _ => some (0,.conv)

def untouched : State where
  granules := fun _ => .ns
  pas := fun _ => .ns
  ops := fun _ => none

def halfDelegated : State := exec coarsePair untouched (.delegate 0 2 (.reserved 7) ⟨.inProgress,1⟩)

theorem pas_agrees_half : halfDelegated.pas 0 = .realm ∧ halfDelegated.pas 1 = .ns ∧
      ∃! h, ∃ op, halfDelegated.ops h = some op ∧ op.owns 1 := by
  have hfound : (start coarsePair untouched .ns .delegated 0 2).2 = .source 2 2 := by decide
  have hreach : (system coarsePair).Reachable halfDelegated := by
    refine TransitionSystem.ReachableUnder.next
      (l := .delegate 0 2 (.reserved 7) ⟨.inProgress,1⟩) (.initial ⟨fun _ => rfl,fun _ _ => rfl,
        fun _ => rfl⟩) trivial ⟨fun h _ => ⟨rfl,fun size trackingSize hf => ?_⟩,rfl⟩
    cases hfound.symm.trans hf
    exact ⟨by decide,nofun,fun _ => by decide,nofun,nofun⟩
  exact ⟨by decide,by decide,(pas_agrees coarsePair hreach).2.2.1 1 (by decide)⟩

section Calls

variable (l : Layout) (s : State) (addr top : Nat) (slot : Slot) (irq : Option Nat) (e : Response)

def undelegateLoop : Nat → Nat → Option (Result × State)
  | 0, _ => none
  | fuel+1, cursor =>
    match rangeLock l s .delegated .ns cursor top with
    | .inTarget n =>
      if cursor < cursor+n ∧ cursor+n ≤ top then
        if cursor+n < top then undelegateLoop fuel (cursor+n) else some (⟨.success,cursor+n⟩,s)
      else none
    | found =>
      let r := undelegateOne l s addr slot irq e cursor found
      if r.1.status ≠ .success ∨ cursor < r.1.top ∧ r.1.top ≤ top then some (report addr cursor r) else none

def Requests (cursor size : Nat) : Prop := isDevice l cursor = true ∨ irq.filter (· < size) = none

def BusyAfterPrefix (x : Nat × Found) : Prop :=
  x.1 ≠ addr ∧ e.ret = .busy ∧ ∃ size h, x.2 = .source size 1 ∧ slot = .reserved h ∧ Requests l irq x.1 size

structure Undelegated (r : Result × State) : Prop where
  success : r.1.status = .success →
    addr < r.1.top ∧ r.1.top ≤ top ∧ ∀ p, addr ≤ p → p < r.1.top → r.2.view l p = .ns
  failed : r.1.status ≠ .success → r.1.status ≠ .incomplete → ∀ p, r.2.view l p = s.view l p

end Calls

variable {r : Result × State}

theorem undelegateResume_entry (hr : Ready l s .delegated cursor size trackingSize)
    (he : e.Allowed false false size)
    (hbusy : cursor ≠ addr → trackingSize = 1 → Requests l irq cursor size → e.ret ≠ .busy)
    (h : undelegateResume (s.setGranules cursor size .partialUnit) h
      ⟨addr,cursor,size,trackingSize,0,0,false,isDevice l cursor⟩ true irq e = r) :
    r.1.status = .incomplete ∨ r.1.status = .busy ∧ (∀ p, r.2.view l p = s.view l p) ∨
      r.1.status = .success ∧ cursor < r.1.top ∧ r.1.top ≤ cursor+size ∧
        ∀ p, r.2.view l p = if Within cursor (r.1.top-cursor) p then .ns else s.view l p := by
  have hc := hr.shape.closed le_rfl le_rfl fun _ => ⟨rfl,rfl⟩
  have hw := he.within
  have hview := hr.view
  have hpub := view_advance (s := s.setGranules cursor size .partialUnit) (v := .ns) hr.shape
    (n := e.progress) le_rfl (by omega) .ns
  simp only [view_setGranules hc] at hpub
  subst h
  simp only [undelegateResume,fold_advance,add_zero,zero_add]
  split
  · exact .inl rfl
  next hirq =>
  have hreq : Requests l irq cursor size := by
    by_cases hd : isDevice l cursor = true
    · exact .inl hd
    · rw [if_neg hd] at hirq
      exact .inr hirq
  split
  · exact .inl rfl
  split
  next hts =>
    have hc' := hr.shape.closed (a := cursor+e.progress) (n := size-e.progress) (by omega) (by omega)
      fun h1 => absurd hts h1
    rw [if_neg (by simp)]
    refine .inr ?_
    rcases Nat.eq_zero_or_pos e.progress with h0 | hpos
    · have hb : e.ret = .busy := by
        have h1 := he.ok
        have h2 := he.rest
        cases hret : e.ret <;> simp_all [Response.stays]
      have hcur : cursor = addr := not_not.1 fun hne => hbusy hne hts hreq hb
      refine .inl ⟨by simp [h0,hcur,hb],fun p => (view_setGranules hc' p).trans ?_⟩
      rw [hpub]
      grind
    · refine .inr ⟨if_neg fun h1 => hpos.ne' h1.1,Nat.lt_add_of_pos_right hpos,Nat.add_le_add_left hw _,
        fun p => (view_setGranules hc' p).trans ?_⟩
      rw [hpub]
      grind
  split
  · exact .inl rfl
  · refine .inr (.inr ⟨rfl,Nat.lt_add_of_pos_right hr.pos,le_rfl,fun p => (view_setGranules hc p).trans ?_⟩)
    rw [hpub]
    grind

theorem undelegateResume_stuck (hne : cursor ≠ addr) (hb : e.ret = .busy) (h0 : e.progress = 0)
    (hreq : Requests l irq cursor size) :
    (undelegateResume s h ⟨addr,cursor,size,1,0,0,false,isDevice l cursor⟩ true irq e).1 = ⟨.success,cursor⟩ := by
  have hgo : (if isDevice l cursor = true then none else irq.filter (0+· < size)) = none := by
    split
    · rfl
    next hd => simpa only [zero_add] using hreq.resolve_left hd
  simp only [undelegateResume,hgo]
  simp [Response.stays,hb,h0,hne]

theorem undelegateLoop_stuck (he : e.ret = .busy → e.progress = 0) : ∀ {fuel cursor : Nat},
    BusyAfterPrefix l addr slot irq e (skip l s .delegated .ns top fuel cursor) →
    undelegateLoop l s addr top slot irq e fuel cursor = none := by
  intro fuel
  induction fuel with
  | zero => exact fun _ => rfl
  | succ fuel ih =>
    intro cursor hx
    simp only [skip] at hx
    simp only [undelegateLoop]
    generalize rangeLock l s .delegated .ns cursor top = found at *
    cases found with
    | failed status =>
      obtain ⟨-,-,size,h,hf,-⟩ := hx
      cases hf
    | inTarget n =>
      dsimp only at hx ⊢
      split at hx
      next hmore =>
        split
        · exact ih hx
        · rfl
      · obtain ⟨-,-,size,h,hf,-⟩ := hx
        cases hf
    | source size trackingSize =>
      obtain ⟨hne,hb,size,h,hf,rfl,hreq⟩ := hx
      cases hf
      have hr : (undelegateOne l s addr (.reserved h) irq e cursor (.source size 1)).1 = ⟨.success,cursor⟩ :=
        undelegateResume_stuck hne hb (he hb) hreq
      dsimp only
      rw [if_neg]
      rw [hr]
      simp

theorem undelegateLoop_spec (slot : Slot) (irq : Option Nat) :
    ∀ {fuel cursor : Nat}, addr ≤ cursor → cursor < top → top-cursor ≤ fuel →
      (∀ p, addr ≤ p → p < cursor → s.view l p = .ns) →
      ∀ {x}, skip l s .delegated .ns top fuel cursor = x →
      (∀ size trackingSize, x.2 = .source size trackingSize → e.Allowed false false size) →
      ¬ BusyAfterPrefix l addr slot irq e x →
      undelegateLoop l s addr top slot irq e fuel cursor =
          some (report addr x.1 (undelegateOne l s addr slot irq e x.1 x.2)) ∧
        Undelegated l s addr top (report addr x.1 (undelegateOne l s addr slot irq e x.1 x.2)) := by
  intro fuel
  induction fuel with
  | zero =>
    intro cursor _ hlt hf
    omega
  | succ fuel ih =>
    intro cursor hle hlt hf hns x hx he hbusy
    have hfound := rangeLock_sound l s .delegated .ns hlt
    have hstop : ∀ {r : Result × State}, r.1.status ≠ .success → r.1.status ≠ .incomplete →
        (∀ p, r.2.view l p = s.view l p) → Undelegated l s addr top (report addr cursor r) := by
      intro r hr hi hv
      unfold report
      split
      next hcond =>
        exact ⟨fun _ => ⟨Nat.lt_of_le_of_ne hle hcond.2.2.symm,hlt.le,fun p h1 h2 => (hv p).trans (hns p h1 h2)⟩,fun h1 => absurd rfl h1⟩
      · exact ⟨fun h1 => absurd h1 hr,fun _ _ => hv⟩
    simp only [skip,undelegateLoop] at hx ⊢
    generalize rangeLock l s .delegated .ns cursor top = found at *
    cases found with
    | failed status =>
      cases hx
      exact ⟨if_pos (.inl hfound.1),hstop hfound.1 hfound.2 fun _ => rfl⟩
    | inTarget n =>
      obtain ⟨hpos,hend,hview⟩ := hfound
      have hns' : ∀ p, addr ≤ p → p < cursor+n → s.view l p = .ns := fun p h1 h2 =>
        (lt_or_ge p cursor).elim (hns p h1) fun h3 => hview p ⟨h3,h2⟩
      dsimp only at hx ⊢
      rw [if_pos ⟨Nat.lt_add_of_pos_right hpos,hend⟩]
      split at hx
      next hmore =>
        rw [if_pos hmore]
        exact ih (by omega) hmore (by omega) hns' hx he hbusy
      next hmore =>
        cases hx
        rw [if_neg hmore]
        exact ⟨rfl,fun _ => ⟨lt_of_le_of_lt hle (Nat.lt_add_of_pos_right hpos),hend,hns'⟩,fun h1 => absurd rfl h1⟩
    | source size trackingSize =>
      cases hx
      cases slot with
      | busy | blocked => refine ⟨if_pos (.inl ?_),hstop ?_ ?_ fun _ => rfl⟩ <;> rintro ⟨⟩
      | reserved h =>
        dsimp only
        generalize hx : undelegateOne l s addr (.reserved h) irq e cursor (.source size trackingSize) = r
        obtain hi | ⟨hb,hv⟩ | ⟨hs,hgt,hle',hv⟩ := undelegateResume_entry hfound.2 (he size trackingSize rfl)
          (fun hne hts hreq hb => hbusy ⟨hne,hb,size,h,by rw [hts],rfl,hreq⟩) hx
        · refine ⟨if_pos (Or.inl (by rw [hi]; simp)),?_⟩
          rw [report,if_neg fun h1 => h1.2.1 hi]
          exact ⟨fun h1 => absurd (hi.symm.trans h1) (by simp),fun _ h1 => absurd hi h1⟩
        · exact ⟨if_pos (Or.inl (by rw [hb]; simp)),hstop (by rw [hb]; simp) (by rw [hb]; simp) hv⟩
        · have hend := hfound.1
          refine ⟨if_pos (Or.inr ⟨hgt,by omega⟩),?_⟩
          rw [report,if_neg fun h1 => h1.1 hs]
          refine ⟨fun _ => ⟨by omega,by omega,fun p h1 h2 => ?_⟩,fun h1 => absurd hs h1⟩
          rw [hv]
          split
          · rfl
          · exact hns p h1 (by omega)

theorem undelegate_makes_progress (hlt : addr < top) (he : ∀ size trackingSize,
      (start l s .delegated .ns addr top).2 = .source size trackingSize → e.Allowed false false size) :
    (undelegateLoop l s addr (regionTop l addr top) slot irq e (regionTop l addr top - addr) addr =
        some (undelegateStart l s addr top slot irq e) ∧
      Undelegated l s addr top (undelegateStart l s addr top slot irq e)) ↔
    ¬ BusyAfterPrefix l addr slot irq e (start l s .delegated .ns addr top) := by
  have hpos : 0 < l.regionSize := lt_trans Nat.zero_lt_one l.large
  have hreg : addr < l.regionBase addr + l.regionSize := Nat.lt_div_mul_add hpos
  have hin : addr < regionTop l addr top := Nat.lt_min.2 ⟨hlt,hreg⟩
  constructor
  · rintro ⟨hr,-⟩ hstuck
    have hstuck' := hstuck
    obtain ⟨-,-,size,h,hf,-⟩ := hstuck'
    rw [undelegateLoop_stuck (he size 1 hf).busy hstuck] at hr
    cases hr
  · intro hbusy
    obtain ⟨hr,hu⟩ := undelegateLoop_spec slot irq le_rfl hin le_rfl
      (fun p h1 h2 => absurd h2 (Nat.not_lt.2 h1)) rfl he hbusy
    exact ⟨hr,fun h1 => (hu.success h1).imp_right (.imp_left (·.trans (min_le_left ..))),hu.failed⟩

def finePair : Layout := { coarsePair with tracking := fun _ => .fine }

def nsFirst : State := { untouched with granules := fun p => if p = 0 then .ns else .delegated }

theorem undelegate_makes_progress_second : Undelegated finePair nsFirst 0 2
    (undelegateStart finePair nsFirst 0 2 (.reserved 7) none ⟨.ok,1⟩) := by
  have hfound : (start finePair nsFirst .delegated .ns 0 2).2 = .source 1 1 := by decide
  refine ((undelegate_makes_progress (by decide) fun size trackingSize hf => ?_).mpr ?_).2
  · cases hfound.symm.trans hf
    exact ⟨by decide,fun _ => by decide,nofun,nofun,nofun⟩
  · rintro ⟨-,hb,-⟩
    cases hb

theorem undelegate_busy_asserts : (start finePair nsFirst .delegated .ns 0 2) = (1,.source 1 1) ∧
    Response.Allowed ⟨.busy,0⟩ false false 1 ∧ regionTop finePair 0 2 = 2 ∧
      undelegateLoop finePair nsFirst 0 2 (.reserved 7) none ⟨.busy,0⟩ 2 0 = none :=
  ⟨by decide,⟨by decide,nofun,nofun,fun _ => rfl,nofun⟩,rfl,rfl⟩

end TfRmm.Delegation
