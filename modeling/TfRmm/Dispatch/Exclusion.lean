import TfRmm.Dispatch.Steps

namespace TfRmm.Dispatch

open TfRmm

variable {s s' t : Sys} {c i : Nat} {a : Act} {p q : Pc} {f : Fid} {st : Status} {l : Rwlock.Lock}

section

variable (h : Inv s)

include h

theorem Knows.here (hp : s.pc c = p) : Knows s p := hp ▸ h.knows c

theorem Inv.others_of_claimed (hc : (s.pc c).claimed = true) (hi : i ≠ c) : Knows t (s.pc i) := by
  refine .inactive (fun hq => absurd (h.one i c hq hc) hi) ?_
  refine Bool.eq_false_iff.2 fun hq => ?_
  have hst := (h.knows i).active hq
  rw [((h.knows c).claimed hc).1] at hst
  cases hst

theorem Inv.claims (hq : s.pc c = q) (hg : Goes s c p s') (hst : s.state = .init) (hst' : s'.state = .intermediate)
    (hctxs : s'.ctx = s.ctx) (hb : s'.building = s.building) (hi : s'.initialized = s.initialized)
    (hl : s'.layoutLock = s.layoutLock) (hp : p.claimed = true) (hbuilt : p.built = false) (ha : p.active = false)
    (hlocked : p.locked = q.locked) (hbuilds : p.builds = q.builds) : Inv s' := by
  subst hq
  have hfresh := h.fresh hst
  refine h.next hg (.inactive (fun _ => ⟨hst',by rw [hi,hbuilt]; exact hfresh⟩) ha)
    (fun i _ hk => Knows.quiet ?_ ?_) (fun _ => .inr (by rw [hst]; simp)) (fun _ => .inl hp) (fun x hx => ?_)
    (h.hands (.inl ⟨hl,hlocked⟩)) (fun hq => Inv.elsewhere hbuilds (h.building (hb ▸ hq)))
    (fun hq => by rw [hst'] at hq; cases hq) fun hq => by rw [hst'] at hq; cases hq
  · refine Bool.eq_false_iff.2 fun hq => ?_
    cases hst.symm.trans ((hk.claimed hq).1)
  · refine Bool.eq_false_iff.2 fun hq => ?_
    cases hst.symm.trans (hk.active hq)
  · rw [hctxs] at hx
    cases hst.symm.trans ((h.ctx x hx).2)

theorem Inv.rebuilds (hq : s.pc c = q) (hg : Goes s c p s') (hc : q.claimed = true) (hp : p.claimed = true)
    (ha : p.active = false) (hst : s'.state = s.state) (hctx : s'.ctx = s.ctx) (hl : s'.layoutLock = s.layoutLock)
    (hlocked : p.locked = q.locked) (hb : s'.building = p.builds) (hi : s'.initialized = p.built) : Inv s' := by
  subst hq
  have hmid := ((h.knows c).claimed hc).1
  refine h.next hg (.inactive (fun _ => ⟨hst.trans hmid,hi⟩) ha) (fun i hic _ => h.others_of_claimed hc hic)
    (fun _ => .inl hc) (fun _ => .inl hp) (fun x hx => ?_) (h.hands (.inl ⟨hl,hlocked⟩)) (fun hq => .inl (hb ▸ hq))
    (fun hq => by rw [hst,hmid] at hq; cases hq) fun hq => by rw [hst,hmid] at hq; cases hq
  · rw [hctx] at hx
    cases hmid.symm.trans ((h.ctx x hx).2)

theorem Inv.publishes {v : RmmState} (hq : s.pc c = q) (hrun : q.runs = true)
    (hf : q.deactivates = decide (f = .deactivate)) (hc : q.claimed = true) (hbuilds : q.builds = false)
    (hlocked : q.locked = false) (hv : v = if q.built then .active else .init)
    (hs : ({ s with state := s.transitionRmmState .intermediate v }).toLeave c f st = some s') : Inv s' := by
  obtain ⟨hg,hsame,hl,_⟩ :=
    Goes.leaving (t := { s with state := s.transitionRmmState .intermediate v }) h hq hrun hf rfl rfl hs
  subst hq
  obtain ⟨hmid,hbuilt⟩ := (h.knows c).claimed hc
  have hst : s'.state = if (s.pc c).built then .active else .init := by
    rw [hsame.state,← hv]
    exact if_pos hmid
  refine h.next hg (Knows.quiet rfl rfl) (fun i hic _ => h.others_of_claimed hc hic) nofun (fun hq => ?_)
    (fun x hx => ?_) (h.hands (.inl ⟨hl,hlocked.symm⟩))
    (fun hq => Inv.elsewhere hbuilds.symm (h.building (hsame.building ▸ hq))) (fun hq => ?_) fun hq => ?_
  · rw [hst] at hq
    split at hq <;> cases hq
  · rw [hsame.ctx] at hx
    cases hmid.symm.trans ((h.ctx x hx).2)
  · rw [hst] at hq
    split at hq
    · cases hq
    next hn => rw [hsame.initialized]; exact hbuilt.trans (by simpa using hn)
  · rw [hst] at hq
    split at hq
    next hn => exact .inl (by rw [hsame.initialized]; exact hbuilt.trans hn)
    · cases hq

theorem Inv.locks (hq : s.pc c = q) (hs : s.lockLayout c p = some s') (hself : Knows s p)
    (hf : p.Follows q := by constructor <;> rfl) (hlocked : p.locked = true := by rfl) : Inv s' := by
  subst hq
  unfold Sys.lockLayout at hs
  split at hs
  next hn =>
    cases hs
    exact h.move (.inside h rfl rfl rfl hf.source hf.runs hf.deactivates) ⟨rfl,rfl,rfl,rfl,rfl⟩ hself
      (.inr (.inl ⟨hn,rfl,hlocked⟩)) hf.claimed hf.builds hf.wiped
  · cases hs
    exact h

theorem Inv.unlocks (hq : s.pc c = q) (hself : Knows s p) (hf : p.Follows q := by constructor <;> rfl)
    (hc : q.locked = true := by rfl) (hlocked : p.locked = false := by rfl) : Inv (s.unlockLayout c p) := by
  subst hq
  exact h.move (.inside h rfl rfl rfl hf.source hf.runs hf.deactivates) ⟨rfl,rfl,rfl,rfl,rfl⟩ hself
    (.inr (.inr ⟨hc,rfl,hlocked⟩)) hf.claimed hf.builds hf.wiped

theorem Inv.unlocks_returns (hq : s.pc c = q) (hrun : q.runs = true)
    (hf : q.deactivates = decide (f = .deactivate)) (hc : q.claimed = false) (hlocked : q.locked = true)
    (hbuilds : q.builds = false) (hwiped : q.wiped = false)
    (hs : ({ s with layoutLock := none }).toLeave c f st = some s') : Inv s' := by
  subst hq
  obtain ⟨hg,hsame,hl,_⟩ := Goes.leaving (t := { s with layoutLock := none }) h rfl hrun hf rfl rfl hs
  exact h.move hg ⟨hsame.state,hsame.ctxs,hsame.ctx,hsame.building,hsame.initialized⟩ (Knows.quiet rfl rfl)
    (.inr (.inr ⟨hlocked,hl,rfl⟩)) hc.symm hbuilds.symm hwiped.symm

theorem Inv.query (hp : s.pc c = p) (hs : s.query c a p = some s') : Inv s' := by
  unfold Sys.query at hs
  split at hs
  · exact h.locks hp hs (Knows.quiet rfl rfl)
  · cases hs
    exact h.goes hp (Knows.quiet rfl rfl)
  · split at hs
    · cases hs
      exact h.unlocks hp (Knows.quiet rfl rfl)
    · exact h.unlocks_returns hp rfl rfl rfl rfl rfl rfl hs
  · cases hs

theorem Inv.contexts (hq : s.pc c = q) (hrun : q.runs = true) (hact : s.state = .active) (hf : q.deactivates = false)
    (hne : f ≠ .deactivate) (hlocked : q.locked = false) (hbuilds : q.builds = false) (hwiped : q.wiped = false)
    {x : Nat} {b : Bool} (hx : b = true → x < s.ctxs) (hs : (s.setCtx x b).toLeave c f st = some s') : Inv s' := by
  subst hq
  obtain ⟨hg,hsame,hl,_⟩ := Goes.leaving (t := s.setCtx x b) h rfl hrun (hf.trans (decide_eq_false hne).symm) rfl rfl hs
  have hst : s'.state = s.state := hsame.state
  refine h.next hg (Knows.quiet rfl rfl) (fun i hic hk => ?_) nofun (fun hq => ?_) (fun y hy => ?_)
    (h.hands (.inl ⟨hl,hlocked.symm⟩)) (fun hq => ?_) (fun hq => ?_) fun hq => ?_
  · refine ⟨fun hq => ?_,fun hq => ?_,fun hq => ?_,fun hq => ?_⟩
    · rw [hst,hsame.initialized]; exact hk.claimed hq
    · rw [hst]; exact hk.active hq
    · cases hrun.symm.trans (h.exclusion (Pc.deactivates_of_idled hq) (Ne.symm hic))
    · rw [hsame.initialized]; exact hk.wiped hq
  · rw [hst,hact] at hq
    cases hq
  · rw [hst,hsame.ctxs]
    refine ⟨?_,hact⟩
    rw [hsame.ctx] at hy
    by_cases hyx : y = x
    · rw [hyx]
      apply hx
      rw [hyx] at hy
      exact (Function.update_self ..).symm.trans hy
    · exact (h.ctx y ((Function.update_of_ne hyx ..).symm.trans hy)).1
  · rw [hsame.building] at hq
    exact Inv.elsewhere hbuilds.symm (h.building hq)
  · rw [hst,hact] at hq
    cases hq
  · rw [hsame.initialized]
    exact (h.ready hact).imp_right (Inv.elsewhere hwiped.symm)

theorem Inv.sro (hp : s.pc c = p) (hs : s.sro c a p = some s') : Inv s' := by
  unfold Sys.sro at hs
  split at hs
  · split at hs
    next x hx =>
      rw [Bool.and_eq_true] at hx
      have hact := (h.ctx x hx.2).2
      cases hs
      exact h.goes hp (Knows.runs hact rfl nofun nofun)
    · exact h.returns hp hs
  · have hact : s.state = .active := (Knows.here h hp).active rfl
    split at hs
    · cases hs
      exact h
    · exact h.contexts hp rfl hact rfl (by simp) rfl rfl rfl (by simp) hs
    · exact h.returns hp hs
    · cases hs
  · cases hs

theorem Inv.work (hp : s.pc c = .work) (hs : s.work c a = some s') : Inv s' := by
  have hact : s.state = .active := (Knows.here h hp).active rfl
  unfold Sys.work at hs
  split at hs
  · cases hs
    exact h
  · exact h.returns hp hs
  · split at hs
    next hx => exact h.contexts hp rfl hact rfl (by simp) rfl rfl rfl (fun _ => hx.1) hs
    · cases hs
  · cases hs

end

theorem Knows.claim (hk : Knows s p) (hc : p.claimed = true) {q : Pc} (ha : q.active = false)
    (hb : q.built = p.built) : Knows s q :=
  .inactive (fun _ => ⟨(hk.claimed hc).1,(hk.claimed hc).2.trans hb.symm⟩) ha

theorem Inv.config (h : Inv s) (hp : s.pc c = p) (hs : s.config c a p = some s') : Inv s' := by
  have hk := Knows.here h hp
  unfold Sys.config at hs
  split at hs
  · split at hs
    · exact h.returns hp hs
    · split at hs
      next hst =>
        cases hs
        exact h.claims hp (.inside h hp rfl) hst rfl rfl rfl rfl rfl rfl rfl rfl rfl rfl
      · exact h.returns hp hs
  · exact h.locks hp hs (hk.claim rfl rfl rfl)
  · split at hs
    · cases hs
      exact h.goes hp (hk.claim rfl rfl rfl)
    · split at hs
      · cases hs
        exact h.goes hp (hk.claim rfl rfl rfl)
      · cases hs
        exact h.rebuilds hp (.inside h hp rfl) rfl rfl rfl rfl rfl rfl rfl rfl (hk.claimed rfl).2
  · split at hs
    · cases hs
      exact h.rebuilds hp (.inside h hp rfl) rfl rfl rfl rfl rfl rfl rfl rfl (hk.claimed rfl).2
    · cases hs
      exact h
  · cases hs
    exact h.unlocks hp (hk.claim rfl rfl rfl)
  · exact h.publishes hp rfl rfl rfl rfl rfl rfl hs
  · cases hs

theorem Inv.activate (h : Inv s) (hp : s.pc c = p) (hs : s.activate c a p = some s') : Inv s' := by
  have hk := Knows.here h hp
  unfold Sys.activate at hs
  split at hs
  · split at hs
    next hst =>
      cases hs
      exact h.claims hp (.inside h hp rfl) hst rfl rfl rfl rfl rfl rfl rfl rfl rfl rfl
    · exact h.returns hp hs
  · exact h.locks hp hs (hk.claim rfl rfl rfl)
  · cases hs
    exact h.rebuilds hp (.inside h hp rfl) rfl rfl rfl rfl rfl rfl rfl rfl (hk.claimed rfl).2
  · split at hs
    · cases hs
      exact h.rebuilds hp (.inside h hp rfl) rfl rfl rfl rfl rfl rfl rfl rfl rfl
    · cases hs
      exact h
  · cases hs
    exact h.unlocks hp (hk.claim rfl rfl rfl)
  · exact h.publishes hp rfl rfl rfl rfl rfl rfl hs
  · cases hs

theorem Inv.ctx_idle (h : Inv s) : s.sroIsIdle = true ↔ ∀ x, s.ctx x = false := by
  refine ⟨fun hs x => ?_,fun hs => List.all_eq_true.mpr fun x _ => by rw [hs x]; rfl⟩
  refine Bool.eq_false_iff.2 fun hx => ?_
  have := List.all_eq_true.mp hs x (List.mem_range.mpr (h.ctx x hx).1)
  rw [hx] at this
  cases this

theorem Inv.wipes (h : Inv s) (hq : s.pc c = q) (hg : Goes s c p s') (hact : s.state = .active) (hself : Knows s' p)
    (hc : p.claimed = false) (hst : s'.state = s.state) (hctxs : s'.ctxs = s.ctxs) (hctx : s'.ctx = s.ctx)
    (hb : s'.building = s.building) (hi : s'.initialized = false) (hl : s'.layoutLock = s.layoutLock)
    (hlocked : p.locked = q.locked) (hbuilds : p.builds = q.builds) (hwiped : p.wiped = true) : Inv s' := by
  subst hq
  refine h.next hg hself (fun i hic hk => ⟨fun hq => ?_,fun hq => ?_,fun hq => ?_,fun _ => hi⟩)
    (fun hq => by rw [hc] at hq; cases hq) (fun hq => by rw [hst,hact] at hq; cases hq) (fun x hx => ?_)
    (h.hands (.inl ⟨hl,hlocked⟩)) (fun hq => Inv.elsewhere hbuilds (h.building (hb ▸ hq))) (fun _ => hi)
    fun _ => .inr (.inl hwiped)
  · cases hact.symm.trans ((hk.claimed hq).1)
  · rw [hst]; exact hk.active hq
  · rw [hctx]; exact hk.idled hq
  · rw [hst,hctxs]
    rw [hctx] at hx
    exact h.ctx x hx

theorem Inv.resets (h : Inv s) (hq : s.pc c = q) (hrun : q.runs = true) (hd : q.deactivates = true)
    (hact : s.state = .active) (hidle : ∀ x, s.ctx x = false) (hwiped : s.initialized = false)
    (hlocked : q.locked = false) (hbuilds : q.builds = false)
    (hs : ({ s with state := s.transitionRmmState .active .init }).toLeave c .deactivate st = some s') : Inv s' := by
  obtain ⟨hg,hsame,hl,_⟩ :=
    Goes.leaving (t := { s with state := s.transitionRmmState .active .init }) h hq hrun (f := .deactivate) hd rfl rfl hs
  subst hq
  have hst : s'.state = .init := hsame.state.trans (if_pos hact)
  refine h.next hg (Knows.quiet rfl rfl) (fun i hic hk => Knows.quiet ?_ ?_) nofun
    (fun hq => by rw [hst] at hq; cases hq) (fun x hx => ?_) (h.hands (.inl ⟨hl,hlocked.symm⟩))
    (fun hq => Inv.elsewhere hbuilds.symm (h.building (hsame.building ▸ hq))) (fun _ => hsame.initialized.trans hwiped)
    fun hq => by rw [hst] at hq; cases hq
  · refine Bool.eq_false_iff.2 fun hq => ?_
    cases hact.symm.trans ((hk.claimed hq).1)
  · refine Bool.eq_false_iff.2 fun hq => ?_
    have := h.exclusion hd hic
    rw [Pc.runs_of_active hq] at this
    cases this
  · rw [hsame.ctx] at hx
    cases (hidle x).symm.trans hx

theorem Inv.deactivate (h : Inv s) (hp : s.pc c = p) (hs : s.deactivate c a p = some s') : Inv s' := by
  have hk := Knows.here h hp
  unfold Sys.deactivate at hs
  split at hs
  · split at hs
    · exact h.returns hp hs
    next hst =>
    cases hs
    exact h.goes hp (Knows.runs (by simpa using hst) rfl nofun nofun)
  · split at hs
    next hidle =>
      cases hs
      exact h.goes hp (Knows.runs (hk.active rfl) rfl (fun _ => h.ctx_idle.mp hidle) nofun)
    · exact h.returns hp hs
  · cases hs
    exact h.goes hp (Knows.runs (hk.active rfl) rfl (fun _ => hk.idled rfl) nofun)
  · exact h.locks hp hs (Knows.runs (hk.active rfl) rfl (fun _ => hk.idled rfl) nofun)
  · cases hs
    split <;> exact h.goes hp (Knows.runs (hk.active rfl) rfl (fun _ => hk.idled rfl) nofun)
  · cases hs
    exact h.wipes hp (.inside h hp rfl) (hk.active rfl)
      (Knows.runs (hk.active rfl) rfl (fun _ => hk.idled rfl) fun _ => rfl) rfl rfl rfl rfl rfl rfl rfl rfl rfl rfl
  next ok =>
    cases ok with
    | true =>
      cases hs
      exact h.unlocks hp (Knows.runs (hk.active rfl) rfl (fun _ => hk.idled rfl) fun _ => hk.wiped rfl)
    | false => exact h.unlocks_returns hp rfl rfl rfl rfl rfl rfl hs
  · exact h.resets hp rfl rfl (hk.active rfl) (hk.idled rfl) (hk.wiped rfl) rfl rfl hs
  · cases hs

theorem or_eq_some {α : Type} {x y : Option α} {z : α} (h : x.or y = some z) : x = some z ∨ y = some z := by
  cases x with
  | none => exact .inr h
  | some w => exact .inl h

theorem Inv.step (h : Inv s) (hs : s.step c a = some s') : Inv s' := by
  unfold Sys.step at hs
  split at hs
  next hp =>
    split at hs
    · exact h.call hp hs
    · cases hs
  next hp => exact h.enter hp hs
  next hp => exact h.check hp hs
  next hp => exact h.leave hp hs
  next hp => exact h.work hp hs
  · rcases or_eq_some hs with hs | hs
    · exact h.query rfl hs
    rcases or_eq_some hs with hs | hs
    · exact h.sro rfl hs
    rcases or_eq_some hs with hs | hs
    · exact h.config rfl hs
    rcases or_eq_some hs with hs | hs
    · exact h.activate rfl hs
    · exact h.deactivate rfl hs

theorem Inv.initial (h : s.Initial) : Inv s := by
  have hidle : ∀ q : Pc → Bool, q .idle = false → ∀ i, ¬ q (s.pc i) = true := fun q hq i hi => by
    rw [h.pc i,hq] at hi
    cases hi
  refine ⟨Rwlock.Inv.initial h.lock,h.depthMax,fun i => ?_,fun i => ?_,fun i j hi => absurd hi (hidle _ rfl i),
    fun hq => ?_,fun x hx => ?_,fun i => ?_,fun hq => ?_,fun _ => h.initialized,fun hq => ?_⟩
  · rw [h.pc i]
    exact ⟨h.lock.phase i,h.lock.depth i⟩
  · rw [h.pc i]
    exact Knows.quiet rfl rfl
  · rw [h.state] at hq
    cases hq
  · rw [h.ctx x] at hx
    cases hx
  · rw [h.layoutLock]
    exact ⟨fun hi => absurd hi (hidle _ rfl i),nofun⟩
  · rw [h.building] at hq
    cases hq
  · rw [h.state] at hq
    cases hq

theorem Inv.reachable (h : system.Reachable s) : Inv s :=
  h.invariant (fun _ => Inv.initial) fun _ _ _ hi hs => hi.step hs

def Sys.TurnedAway (s : Sys) (c : Nat) (s' : Sys) : Prop :=
  match s.lock.phase c with
  | .tryGate _ => s'.pc c = .idle ∧ s'.res c = .busy ∨
      s'.pc c = .enter .deactivate ∧ s'.lock.phase c = .tryReaders false
  | .tryReaders _ => s'.pc c = .enter .deactivate ∧ s'.lock.phase c = .tryOpen false
  | .tryOpen _ => s'.pc c = .idle ∧ s'.res c = .busy
  | _ => False

def Sys.HeldUp (s : Sys) (c : Nat) (s' : Sys) : Prop :=
  match s.pc c with
  | .check _ => s'.pc c = .deactivateState
  | .deactivateState => s'.pc c = .deactivateSro
  | .deactivateSro => s'.pc c = .leave .deactivate ∧ s'.res c = .blocked
  | _ => False

def Sys.Untouched (s s' : Sys) : Prop := Same s s' ∧ s'.layoutLock = s.layoutLock

inductive RmmState.Move : RmmState → RmmState → Prop where
  | stay {x : RmmState} : Move x x
  | claim : Move .init .intermediate
  | configured : Move .intermediate .init
  | activated : Move .intermediate .active
  | deactivated : Move .active .init

structure Sys.Exclusive (s : Sys) : Prop where
  alone : ∀ c i, (s.pc c).deactivates = true → i ≠ c → (s.pc i).runs = false
  busy : ∀ c a s', s.pc c = .enter .deactivate → s.step c a = some s' →
    (∃ i, i ≠ c ∧ (s.pc i).runs = true) ∨ s.lock.phase c = .tryOpen false → s.Untouched s' ∧ s.TurnedAway c s'
  blocked : ∀ c a s' h, (s.pc c).deactivates = true → s.ctx h = true → s.step c a = some s' →
    s.Untouched s' ∧ s.HeldUp c s'
  returned : ∀ c a s', s.pc c = .leave .deactivate → s.step c a = some s' → s.Untouched s' ∧ s'.res c = s.res c
  moves : ∀ c a s', s.step c a = some s' → s.state.Move s'.state
  active : ∀ c, s.pc c = .work ∨ (∃ h, s.pc c = .sroWork h) → s.state = .active
  layout : ∀ c, (s.pc c).uses = true → s.building = false
  assertions : ∀ c, s.asserts c = false

theorem step_enter (hp : s.pc c = .enter f) (hs : s.step c a = some s') : s.enter c f = some s' := by
  unfold Sys.step at hs
  rw [hp] at hs
  exact hs

theorem step_leave (hp : s.pc c = .leave f) (hs : s.step c a = some s') : s.leave c = some s' := by
  unfold Sys.step at hs
  rw [hp] at hs
  exact hs

theorem enter_untouched (hs : s.enter c f = some s') : s.Untouched s' := by
  obtain ⟨l,_,he⟩ := Option.map_eq_some_iff.mp hs
  subst he
  by_cases hd : f = .deactivate
  · rw [if_pos hd]
    split
    · exact ⟨⟨rfl,rfl,rfl,rfl,rfl⟩,rfl⟩
    · split <;> exact ⟨⟨rfl,rfl,rfl,rfl,rfl⟩,rfl⟩
  · rw [if_neg hd]
    split <;> exact ⟨⟨rfl,rfl,rfl,rfl,rfl⟩,rfl⟩

theorem leave_untouched (hs : s.leave c = some s') : s.Untouched s' ∧ s'.res = s.res := by
  obtain ⟨l,_,he⟩ := Option.map_eq_some_iff.mp hs
  subst he
  split <;> exact ⟨⟨⟨rfl,rfl,rfl,rfl,rfl⟩,rfl⟩,rfl⟩

theorem Inv.counted (h : Inv s) (hg : (s.lock.phase c).gated = true) (hic : i ≠ c) (hr : (s.pc i).runs = true) :
    Rwlock.readers s.lock.word ≠ 0 := by
  have hfit := (fits_runs hr).mp (h.fits i)
  split at hfit
  · exact absurd (h.lock.gate i c (by rw [hfit.1]; rfl) hg) hic
  intro hz
  cases hfit.2.symm.trans (h.lock.no_readers hz i)

theorem Inv.turned_away (h : Inv s) (hp : s.pc c = .enter .deactivate) (hs : s.step c a = some s')
    (hm : (∃ i, i ≠ c ∧ (s.pc i).runs = true) ∨ s.lock.phase c = .tryOpen false) : s.TurnedAway c s' := by
  obtain ⟨l,hstep,he⟩ := Option.map_eq_some_iff.mp (step_enter hp hs)
  have hgo := go_step hstep
  have hfit := h.fits c
  rw [hp] at hfit
  have hout : l.phase c = .out → s'.pc c = .idle ∧ s'.res c = .busy := fun ho => by
    rw [← he]
    rw [if_pos rfl,if_neg (by rw [ho]; simp),if_pos ho]
    exact ⟨Function.update_self ..,Function.update_self ..⟩
  have hon : ∀ {q : Rwlock.Phase}, l.phase c = q → q ≠ .out → q ≠ .writing →
      s'.pc c = .enter .deactivate ∧ s'.lock.phase c = q := fun hq h1 h2 => by
    rw [← he]
    rw [if_pos rfl,if_neg (by rw [hq]; exact h2),if_neg (by rw [hq]; exact h1)]
    exact ⟨hp,hq⟩
  unfold Rwlock.Lock.go at hgo
  unfold Sys.TurnedAway
  obtain ⟨_,hq | hq | hq | hq | hq⟩ := hfit <;> rw [hq] at hgo ⊢ <;> dsimp only at hgo ⊢
  · split at hgo
    · cases hgo
      exact .inl (hout setPhase_self)
    · cases hgo
      exact .inr (hon setPhase_self (by simp) (by simp))
  · rcases hm with ⟨i,hic,hr⟩ | hm
    · have hne := h.counted (by rw [hq]; rfl) hic hr
      rw [if_neg hne] at hgo
      cases hgo
      exact hon setPhase_self (by simp) (by simp)
    · rw [hq] at hm
      cases hm
  · cases hgo
    exact hout setPhase_self
  all_goals
    rcases hm with ⟨i,hic,hr⟩ | hm
    · have := h.not_exclusive hic hr
      rw [hq] at this
      cases this
    · rw [hq] at hm
      cases hm

theorem Inv.held_up (h : Inv s) (hd : (s.pc c).deactivates = true) {x : Nat} (hx : s.ctx x = true)
    (hs : s.step c a = some s') : s.Untouched s' ∧ s.HeldUp c s' := by
  have hact := (h.ctx x hx).2
  have hno : (s.pc c).idled = false := by
    refine Bool.eq_false_iff.2 fun hi => ?_
    cases hx.symm.trans ((h.knows c).idled hi x)
  unfold Sys.step at hs
  unfold Sys.HeldUp
  cases hp : s.pc c <;> rw [hp] at hd hno hs <;> first | (cases hd; done) | (cases hno; done) | skip
  case check f =>
    cases f <;> first | (cases hd; done) | skip
    simp only [Sys.check] at hs
    rw [if_neg (by rw [hact]; simp)] at hs
    cases hs
    exact ⟨⟨⟨rfl,rfl,rfl,rfl,rfl⟩,rfl⟩,Function.update_self ..⟩
  case deactivateState =>
    simp only [Sys.query,Sys.sro,Sys.config,Sys.activate,Sys.deactivate,Option.none_or] at hs
    rw [if_neg (by rw [hact]; simp)] at hs
    cases hs
    exact ⟨⟨⟨rfl,rfl,rfl,rfl,rfl⟩,rfl⟩,Function.update_self ..⟩
  case deactivateSro =>
    simp only [Sys.query,Sys.sro,Sys.config,Sys.activate,Sys.deactivate,Option.none_or] at hs
    have hbusy : ¬ s.sroIsIdle = true := fun hi => by
      rw [h.ctx_idle.mp hi x] at hx
      cases hx
    rw [if_neg hbusy] at hs
    obtain ⟨hg,hsame,hl,hres⟩ := Goes.leaving h hp rfl rfl rfl rfl hs
    exact ⟨⟨hsame,hl⟩,by rw [hg.at,if_pos rfl],hres⟩

theorem toLeave_state (hs : s.toLeave c f st = some s') : s'.state = s.state := by
  obtain ⟨l,_,he⟩ := Option.map_eq_some_iff.mp hs
  subst he
  rfl

theorem RmmState.Move.of_eq {x y : RmmState} (h : y = x) : x.Move y := h ▸ .stay

theorem toLeave_move (hs : s.toLeave c f st = some s') : s.state.Move s'.state := .of_eq (toLeave_state hs)

theorem transition_move {x y : RmmState} (h : x.Move y) : s.state.Move (s.transitionRmmState x y) := by
  unfold Sys.transitionRmmState
  split
  next he => rw [he]; exact h
  · exact .stay

theorem query_move (hs : s.query c a p = some s') : s.state.Move s'.state := by
  unfold Sys.query Sys.lockLayout at hs
  split at hs
  · split at hs <;> cases hs <;> exact .stay
  · cases hs; exact .stay
  · split at hs
    · cases hs; exact .stay
    · exact (toLeave_move hs :)
  · cases hs

theorem sro_move (hs : s.sro c a p = some s') : s.state.Move s'.state := by
  unfold Sys.sro at hs
  split at hs
  · split at hs
    · cases hs; exact .stay
    · exact (toLeave_move hs :)
  · split at hs
    · cases hs; exact .stay
    · exact (toLeave_move hs :)
    · exact (toLeave_move hs :)
    · cases hs
  · cases hs

theorem work_move (hs : s.work c a = some s') : s.state.Move s'.state := by
  unfold Sys.work at hs
  split at hs
  · cases hs; exact .stay
  · exact toLeave_move hs
  · split at hs
    · exact (toLeave_move hs :)
    · cases hs
  · cases hs

theorem config_move (hs : s.config c a p = some s') : s.state.Move s'.state := by
  unfold Sys.config Sys.lockLayout at hs
  split at hs
  · split at hs
    · exact (toLeave_move hs :)
    · split at hs
      next hst =>
        cases hs
        rw [hst]
        exact .claim
      · exact toLeave_move hs
  · split at hs <;> cases hs <;> exact .stay
  · split at hs
    · cases hs; exact .stay
    · split at hs <;> cases hs <;> exact .stay
  · split at hs <;> cases hs <;> exact .stay
  · cases hs; exact .stay
  · rw [toLeave_state hs]
    exact transition_move .configured
  · cases hs

theorem activate_move (hs : s.activate c a p = some s') : s.state.Move s'.state := by
  unfold Sys.activate Sys.lockLayout at hs
  split at hs
  · split at hs
    next hst =>
      cases hs
      rw [hst]
      exact .claim
    · exact (toLeave_move hs :)
  · split at hs <;> cases hs <;> exact .stay
  · cases hs; exact .stay
  · split at hs <;> cases hs <;> exact .stay
  · cases hs; exact .stay
  · rw [toLeave_state hs]
    exact transition_move .activated
  · cases hs

theorem deactivate_move (hs : s.deactivate c a p = some s') : s.state.Move s'.state := by
  unfold Sys.deactivate Sys.lockLayout at hs
  split at hs
  · split at hs
    · exact (toLeave_move hs :)
    · cases hs; exact .stay
  · split at hs
    · cases hs; exact .stay
    · exact (toLeave_move hs :)
  · cases hs; exact .stay
  · split at hs <;> cases hs <;> exact .stay
  · cases hs; exact .stay
  · cases hs; exact .stay
  · split at hs
    · cases hs; exact .stay
    · exact (toLeave_move hs :)
  · rw [toLeave_state hs]
    exact transition_move .deactivated
  · cases hs

theorem check_move (hs : s.check c f = some s') : s.state.Move s'.state := by
  cases f <;> simp only [Sys.check] at hs
  case info => exact toLeave_move hs
  case query | sroOp => cases hs; exact .stay
  all_goals
    split at hs
    · exact toLeave_move hs
    · cases hs; exact .stay

theorem step_move (hs : s.step c a = some s') : s.state.Move s'.state := by
  unfold Sys.step at hs
  split at hs
  · split at hs
    · obtain ⟨l,_,he⟩ := Option.map_eq_some_iff.mp hs
      subst he
      exact .stay
    · cases hs
  · exact .of_eq (enter_untouched hs).1.state
  · exact check_move hs
  · exact .of_eq (leave_untouched hs).1.1.state
  · exact work_move hs
  · rcases or_eq_some hs with hs | hs
    · exact query_move hs
    rcases or_eq_some hs with hs | hs
    · exact sro_move hs
    rcases or_eq_some hs with hs | hs
    · exact config_move hs
    rcases or_eq_some hs with hs | hs
    · exact activate_move hs
    · exact deactivate_move hs

theorem Pc.claimed_of_builds (h : p.builds = true) : p.claimed = true := by
  cases p <;> first | rfl | cases h

theorem Pc.uses_cases (h : p.uses = true) : p.builds = false ∧ (p.locked = true ∨ p.active = true) := by
  cases p <;> first | (cases h; done) | exact ⟨rfl,.inl rfl⟩ | exact ⟨rfl,.inr rfl⟩

theorem Inv.layout_built (h : Inv s) (hu : (s.pc c).uses = true) : s.building = false := by
  refine Bool.eq_false_iff.2 fun hb => ?_
  obtain ⟨i,hi⟩ := h.building hb
  obtain ⟨hno,hl | ha⟩ := Pc.uses_cases hu
  · have hlock := (h.layout i).mp (Pc.locked_of_builds hi)
    rw [(h.layout c).mp hl] at hlock
    cases hlock
    rw [hi] at hno
    cases hno
  · have hst := ((h.knows i).claimed (Pc.claimed_of_builds hi)).1
    rw [(h.knows c).active ha] at hst
    cases hst

theorem Inv.initialized (h : Inv s) (hp : s.pc c = .deactivateInitialized) : s.initialized = true := by
  rcases h.ready ((Knows.here h hp).active rfl) with hi | ⟨i,hi⟩
  · exact hi
  have hic : i ≠ c := fun he => by
    rw [he,hp] at hi
    cases hi
  have := h.exclusion (by rw [hp]; rfl) hic
  rw [Pc.runs_of_active (Pc.active_of_wiped hi)] at this
  cases this

theorem Inv.no_assertion (h : Inv s) (c : Nat) : s.asserts c = false := by
  unfold Sys.asserts
  rw [h.lock.no_assertion c,Bool.false_or]
  split
  next hp => rw [((Knows.here h hp).claimed rfl).1]; rfl
  next hp => exact ((Knows.here h hp).claimed rfl).2
  next hp => rw [((Knows.here h hp).claimed rfl).1]; rfl
  next hp => rw [h.initialized hp]; rfl
  next hp => rw [(Knows.here h hp).active rfl]; rfl
  · rfl

theorem Inv.exclusive (h : Inv s) : s.Exclusive where
  alone := fun _ _ hc hi => h.exclusion hc hi
  busy := fun _ _ _ hp hs hm => ⟨enter_untouched (step_enter hp hs),h.turned_away hp hs hm⟩
  blocked := fun _ _ _ _ hd hx hs => h.held_up hd hx hs
  returned := fun c _ _ hp hs => ⟨(leave_untouched (step_leave hp hs)).1,by rw [(leave_untouched (step_leave hp hs)).2]⟩
  moves := fun _ _ _ hs => step_move hs
  active := fun c hp => by
    rcases hp with hp | ⟨x,hp⟩ <;> exact (Knows.here h hp).active rfl
  layout := fun _ hu => h.layout_built hu
  assertions := h.no_assertion

def Sys.run : Sys → List (Nat × Act) → Option Sys
  | s, [] => some s
  | s, x :: xs => (s.step x.1 x.2).bind fun s' => s'.run xs

theorem reachable_run {xs : List (Nat × Act)} (h : system.Reachable s) (hs : s.run xs = some s') : system.Reachable s' := by
  induction xs generalizing s with
  | nil => cases hs; exact h
  | cons x xs ih =>
    obtain ⟨s₁,h1,h2⟩ := Option.bind_eq_some_iff.mp hs
    exact ih (Lib.TransitionSystem.ReachableUnder.next h trivial h1) h2

theorem lifecycle_exclusion : (∀ s, system.Reachable s → s.Exclusive) ∧
      ∀ l, Rwlock.system.Reachable l → l.Reentrant ∧ ∀ c, l.asserts c = false := by
  refine ⟨fun s h => (Inv.reachable h).exclusive,fun l h => ?_⟩
  have hinv : Rwlock.Inv l := h.invariant (fun _ => Rwlock.Inv.initial) fun _ _ _ hi hs => hi.step hs
  exact ⟨hinv.reentrant,hinv.no_assertion⟩

def boot : Sys where
  lock := { cpus := 4,depthMax := 1,word := 0,phase := fun _ => .out,depth := fun _ => 0 }
  pc := fun _ => .idle
  state := .init
  ctxs := 2
  ctx := fun _ => false
  layoutLock := none
  building := false
  initialized := false
  res := fun _ => .success

theorem boot_initial : boot.Initial :=
  ⟨⟨rfl,fun _ => rfl,fun _ => rfl,by decide⟩,rfl,fun _ => rfl,rfl,fun _ => rfl,rfl,rfl,rfl⟩

def contended : List (Nat × Act) :=
  (0,.call .activate) :: List.replicate 10 (0,.go) ++ (0,.finish) :: List.replicate 4 (0,.go) ++
    (0,.call .other) :: List.replicate 6 (0,.go) ++ [(1,.call .deactivate),(1,.go)]

theorem lifecycle_exclusion_contended :
    ∃ s : Sys, s.Exclusive ∧ s.state = .active ∧ s.pc 0 = .work ∧ s.pc 1 = .enter .deactivate ∧
      s.lock.phase 1 = .tryReaders false := by
  have hrun : (boot.run contended).map (fun s => (s.state,s.pc 0,s.pc 1,s.lock.phase 1)) =
      some (.active,.work,.enter .deactivate,.tryReaders false) := by decide +kernel
  obtain ⟨s,hs,he⟩ := Option.map_eq_some_iff.mp hrun
  simp only [Prod.mk.injEq] at he
  exact ⟨s,lifecycle_exclusion.1 s (reachable_run (.initial boot_initial) hs),he⟩

end TfRmm.Dispatch
