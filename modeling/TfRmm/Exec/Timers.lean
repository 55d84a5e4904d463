import TfRmm.Arch.Syndrome

namespace TfRmm.Exec.Timers

open TfRmm.Arch

inductive Kind where
  | phys
  | virt
  deriving DecidableEq

structure Timer where
  ctl : Word
  cval : Word
  deriving DecidableEq

structure PlaneTimers where
  el1 : Kind → Timer
  off : Kind → Word

structure State where
  el2 : Kind → Timer
  el1 : Kind → Timer
  off : Kind → Word
  ns : Kind → Timer
  planes : Nat → PlaneTimers
  active : Nat

def isTimerEnabled (ctl : Word) : Bool := ctl &&& (bit 0 ||| bit 1) == bit 0

def hypTimerSaveState (s : State) : State := { s with ns := s.el2 }

def hypTimerRestoreState (s : State) : State := { s with el2 := s.ns }

def saveRealmState (s : State) : State :=
  { s with planes := Function.update s.planes s.active ⟨s.el1,s.off⟩ }

def restoreRealmState (s : State) : State :=
  { s with el1 := (s.planes s.active).el1,off := (s.planes s.active).off }

def multiplexEl2Timer (s : State) : State :=
  { s with el2 := fun k =>
      let p0 := (s.planes 0).el1 k
      let ppCntCval := p0.cval - s.off k
      if isTimerEnabled p0.ctl && (ppCntCval < (s.ns k).cval || !isTimerEnabled (s.ns k).ctl) then
        { s.el2 k with cval := ppCntCval }
      else s.el2 k }

inductive Report where
  | p0
  | pn
  deriving DecidableEq

def planeReport (p0Active pnActive pnEarliest : Bool) : Report :=
  match p0Active,pnActive,pnEarliest with
  | false,false,_ => .p0
  | false,true,_ => .pn
  | true,false,_ => .p0
  | true,true,false => .p0
  | true,true,true => .pn

def pnReal (s : State) (k : Kind) : Word := (s.el1 k).cval - s.off k

def p0Real (s : State) (k : Kind) : Word := ((s.planes 0).el1 k).cval - (s.planes 0).off k

def reported (s : State) (k : Kind) : Report :=
  planeReport (isTimerEnabled ((s.planes 0).el1 k).ctl) (isTimerEnabled (s.el1 k).ctl)
    (pnReal s k < p0Real s k)

def reportTimerStateToNs (s : State) (k : Kind) : Timer :=
  if s.active ≠ 0 ∧ reported s k = .p0 then ⟨((s.planes 0).el1 k).ctl,p0Real s k⟩
  else ⟨(s.el1 k).ctl,pnReal s k⟩

inductive Event where
  | realmRuns (el1 : Kind → Timer)
  | planeEnter (planeIdx : Nat)
  | planeNExit (walkSuccess : Bool)

def enterPlane (n : Nat) (s : State) : State :=
  restoreRealmState { multiplexEl2Timer (saveRealmState s) with active := n }

def handlePlaneNExit (walkSuccess : Bool) (s : State) : State :=
  let s := if walkSuccess then saveRealmState s else s
  hypTimerRestoreState (restoreRealmState { s with active := 0 })

def step (s : State) : Event → State
  | .realmRuns el1 => { s with el1 := el1 }
  | .planeEnter n => if s.active = 0 ∧ n ≠ 0 then enterPlane n s else s
  | .planeNExit w => if s.active ≠ 0 then handlePlaneNExit w s else s

structure Visit where
  start : State
  events : List Event
  switched : Option Bool

variable (v : Visit) {host : Kind → Timer}

def loaded : State := restoreRealmState (hypTimerSaveState v.start)

def loopStart : State :=
  if (loaded v).active ≠ 0 then multiplexEl2Timer (loaded v) else loaded v

def loopEnd : State := v.events.foldl step (loopStart v)

def leave : State :=
  let s := match v.switched with
    | some w => if (loopEnd v).active ≠ 0 then handlePlaneNExit w (loopEnd v) else loopEnd v
    | none => loopEnd v
  hypTimerRestoreState (saveRealmState s)

def callsFrom : State → List Event → List State
  | _,[] => []
  | s,.planeEnter n :: es =>
    (if s.active = 0 ∧ n ≠ 0 then [saveRealmState s] else []) ++ callsFrom (step s (.planeEnter n)) es
  | s,e :: es => callsFrom (step s e) es

def multiplexCalls : List State :=
  (if (loaded v).active ≠ 0 then [loaded v] else []) ++ callsFrom (loopStart v) v.events

def expiry (t : Timer) (off : Word) : Nat := t.cval.toNat+off.toNat

def p0Expiry (s : State) (k : Kind) : Nat := expiry ((s.planes 0).el1 k) ((s.planes 0).off k)

def pnExpiry (s : State) (k : Kind) : Nat := expiry (s.el1 k) (s.off k)

def FiresFirst (s t : State) (k : Kind) : Prop :=
  isTimerEnabled (t.el2 k).ctl ∧
  (isTimerEnabled (s.ns k).ctl → (t.el2 k).cval.toNat ≤ (s.ns k).cval.toNat) ∧
  (isTimerEnabled ((s.planes 0).el1 k).ctl → (t.el2 k).cval.toNat ≤ p0Expiry s k)

def ReportsFirst (s : State) (k : Kind) : Prop :=
  s.active ≠ 0 →
    (isTimerEnabled ((s.planes 0).el1 k).ctl ∨ isTimerEnabled (s.el1 k).ctl →
      isTimerEnabled (reportTimerStateToNs s k).ctl) ∧
    (isTimerEnabled ((s.planes 0).el1 k).ctl → isTimerEnabled (s.el1 k).ctl →
      match reported s k with
      | .p0 => p0Expiry s k ≤ pnExpiry s k
      | .pn => pnExpiry s k ≤ p0Expiry s k)

def EarliestTimerWins : Prop :=
  (∀ s ∈ multiplexCalls v,∀ k,FiresFirst s (multiplexEl2Timer s) k) ∧
  (∀ k,ReportsFirst (loopEnd v) k) ∧
  (leave v).el2 = v.start.el2

structure State.Unshifted (s : State) : Prop where
  off : ∀ k,s.off k = 0
  planes : ∀ n k,(s.planes n).off k = 0

def RunsPlaneN : Prop := v.start.active ≠ 0 ∨ ∃ n,n ≠ 0 ∧ .planeEnter n ∈ v.events

theorem multiplex_el2_ctl (s : State) (k : Kind) : ((multiplexEl2Timer s).el2 k).ctl = (s.el2 k).ctl := by
  unfold multiplexEl2Timer
  dsimp only
  split <;> rfl

theorem multiplex_cval {s : State} (h : s.el2 = s.ns) (k : Kind) (hns : isTimerEnabled (s.ns k).ctl = true) :
    ((multiplexEl2Timer s).el2 k).cval =
      if isTimerEnabled ((s.planes 0).el1 k).ctl = true ∧ ((s.planes 0).el1 k).cval - s.off k < (s.ns k).cval then
        ((s.planes 0).el1 k).cval - s.off k
      else (s.ns k).cval := by
  simp only [multiplexEl2Timer,h,hns,Bool.not_true,Bool.or_false,Bool.and_eq_true,decide_eq_true_eq]
  split <;> rfl

section Unshifted

variable {s : State} (hz : s.Unshifted)

include hz

theorem p0Expiry_eq (k : Kind) : p0Expiry s k = ((s.planes 0).el1 k).cval.toNat := by
  simp [p0Expiry,expiry,hz.planes]

theorem pnExpiry_eq (k : Kind) : pnExpiry s k = (s.el1 k).cval.toNat := by
  simp [pnExpiry,expiry,hz.off]

theorem p0Real_eq (k : Kind) : p0Real s k = ((s.planes 0).el1 k).cval := by
  simp [p0Real,hz.planes]

theorem pnReal_eq (k : Kind) : pnReal s k = (s.el1 k).cval := by
  simp [pnReal,hz.off]

theorem firesFirst_iff (h : s.el2 = s.ns) (k : Kind) :
    FiresFirst s (multiplexEl2Timer s) k ↔ isTimerEnabled (s.ns k).ctl = true := by
  unfold FiresFirst
  rw [multiplex_el2_ctl,h,p0Expiry_eq hz]
  refine and_iff_left_of_imp fun hns => ?_
  have hoff : ((s.planes 0).el1 k).cval - s.off k = ((s.planes 0).el1 k).cval := by simp [hz.off]
  rw [multiplex_cval h k hns,hoff]
  refine ⟨fun _ => ?_,fun hp => ?_⟩
  · split
    next hlt => exact Nat.le_of_lt (BitVec.lt_def.mp hlt.2)
    · exact Nat.le_refl _
  · split
    · exact Nat.le_refl _
    next hlt =>
    have hle := BitVec.not_lt.mp (not_and.mp hlt hp)
    rwa [BitVec.le_def] at hle

theorem reportsFirst (k : Kind) : ReportsFirst s k := by
  intro hactive
  unfold reportTimerStateToNs reported
  rw [p0Expiry_eq hz,pnExpiry_eq hz,p0Real_eq hz,pnReal_eq hz]
  by_cases h0 : isTimerEnabled ((s.planes 0).el1 k).ctl = true <;>
    by_cases hn : isTimerEnabled (s.el1 k).ctl = true <;>
      by_cases hlt : (s.el1 k).cval < ((s.planes 0).el1 k).cval <;> simp [h0,hn,hlt,hactive,planeReport]
  · exact Nat.le_of_lt (BitVec.lt_def.mp hlt)
  · rw [BitVec.not_lt,BitVec.le_def] at hlt
    exact hlt

theorem unshifted_save : (saveRealmState s).Unshifted := by
  refine ⟨hz.off,fun n k => ?_⟩
  unfold saveRealmState
  by_cases hn : n = s.active
  · simp [hn,hz.off]
  · simp [hn,hz.planes]

theorem unshifted_restore (n : Nat) (el2 : Kind → Timer) :
    (restoreRealmState { s with active := n,el2 := el2 }).Unshifted := ⟨hz.planes n,hz.planes⟩

theorem unshifted_exit (w : Bool) : (handlePlaneNExit w s).Unshifted := by
  cases w with
  | false => exact ⟨hz.planes 0,hz.planes⟩
  | true =>
    have hs := unshifted_save hz
    exact ⟨hs.planes 0,hs.planes⟩

theorem unshifted_step (e : Event) : (step s e).Unshifted := by
  cases e with
  | realmRuns el1 => exact ⟨hz.off,hz.planes⟩
  | planeEnter n =>
    simp only [step]
    split
    · exact unshifted_restore (unshifted_save hz) n _
    · exact hz
  | planeNExit w =>
    simp only [step]
    split
    · exact unshifted_exit hz w
    · exact hz

end Unshifted

theorem unshifted_run (es : List Event) {s : State} (hz : s.Unshifted) : (es.foldl step s).Unshifted := by
  induction es generalizing s with
  | nil => exact hz
  | cons e es ih => exact ih (unshifted_step hz e)

theorem unshifted_loopStart {v : Visit} (hz : v.start.Unshifted) : (loopStart v).Unshifted := by
  unfold loopStart
  split <;> exact ⟨hz.planes _,hz.planes⟩

structure Kept (host : Kind → Timer) (s : State) : Prop where
  ns : s.ns = host
  el2 : s.active = 0 → s.el2 = host

theorem kept_step {s : State} (h : Kept host s) (e : Event) : Kept host (step s e) := by
  cases e with
  | realmRuns el1 => exact ⟨h.ns,h.el2⟩
  | planeEnter n =>
    simp only [step]
    split
    · next hn => exact ⟨h.ns,fun h0 => absurd h0 hn.2⟩
    · exact h
  | planeNExit w =>
    simp only [step]
    split
    · cases w <;> exact ⟨h.ns,fun _ => h.ns⟩
    · exact h

theorem kept_run (es : List Event) {s : State} (h : Kept host s) : Kept host (es.foldl step s) := by
  induction es generalizing s with
  | nil => exact h
  | cons e es ih => exact ih (kept_step h e)

structure Called (host : Kind → Timer) (s : State) : Prop where
  el2 : s.el2 = s.ns
  ns : s.ns = host
  unshifted : s.Unshifted

theorem callsFrom_called (es : List Event) {s : State} (h : Kept host s) (hz : s.Unshifted) :
    ∀ t ∈ callsFrom s es,Called host t := by
  induction es generalizing s with
  | nil => simp [callsFrom]
  | cons e es ih =>
    have htail := ih (kept_step h e) (unshifted_step hz e)
    cases e with
    | realmRuns el1 | planeNExit w => exact htail
    | planeEnter n =>
      intro t ht
      rw [callsFrom,List.mem_append] at ht
      rcases ht with ht | ht
      · split at ht
        · next hn =>
            rw [List.mem_singleton] at ht
            subst ht
            exact ⟨(h.el2 hn.1).trans h.ns.symm,h.ns,unshifted_save hz⟩
        · simp at ht
      · exact htail t ht

theorem callsFrom_nil (es : List Event) {s : State} (h0 : s.active = 0) :
    callsFrom s es = [] ↔ ∀ n,.planeEnter n ∈ es → n = 0 := by
  induction es generalizing s with
  | nil => simp [callsFrom]
  | cons e es ih =>
    cases e with
    | realmRuns el1 =>
      have hs : (step s (.realmRuns el1)).active = 0 := h0
      simp [callsFrom,ih hs]
    | planeNExit w =>
      have hs : (step s (.planeNExit w)).active = 0 := by simp [step,h0]
      simp [callsFrom,ih hs]
    | planeEnter n =>
      by_cases hn : n = 0
      · subst hn
        have hs : (step s (.planeEnter 0)).active = 0 := by simp [step,h0]
        simp [callsFrom,ih hs]
      · simp [callsFrom,h0,hn]

theorem kept_loopStart (v : Visit) : Kept v.start.el2 (loopStart v) := by
  unfold loopStart
  split
  · next hn => exact ⟨rfl,fun h0 => absurd h0 hn⟩
  · exact ⟨rfl,fun _ => rfl⟩

theorem multiplexCalls_called {v : Visit} (hz : v.start.Unshifted) : ∀ s ∈ multiplexCalls v,Called v.start.el2 s := by
  intro s hs
  rw [multiplexCalls,List.mem_append] at hs
  rcases hs with hs | hs
  · split at hs
    · rw [List.mem_singleton] at hs
      subst hs
      exact ⟨rfl,rfl,hz.planes _,hz.planes⟩
    · simp at hs
  · exact callsFrom_called v.events (kept_loopStart v) (unshifted_loopStart hz) s hs

theorem multiplexCalls_nil (v : Visit) : multiplexCalls v = [] ↔ ¬ RunsPlaneN v := by
  by_cases h0 : v.start.active = 0
  · have hl : (loaded v).active = 0 := h0
    have hs : loopStart v = loaded v := by simp [loopStart,hl]
    rw [multiplexCalls,hs,RunsPlaneN]
    simp only [hl,ne_eq,not_true_eq_false,if_false,List.nil_append,callsFrom_nil v.events hl,h0,false_or]
    exact ⟨fun h ⟨n,hn,hmem⟩ => hn (h n hmem),fun h n hmem => not_not.mp fun hn => h ⟨n,hn,hmem⟩⟩
  · have hl : (loaded v).active ≠ 0 := h0
    simp [multiplexCalls,hl,RunsPlaneN,h0]

theorem leave_el2 (v : Visit) : (leave v).el2 = v.start.el2 := by
  have hns : (loopEnd v).ns = v.start.el2 := (kept_run v.events (kept_loopStart v)).ns
  unfold leave
  cases v.switched with
  | none => exact hns
  | some w =>
    dsimp only
    split
    · cases w <;> exact hns
    · exact hns

def idleTimers : Kind → Timer := fun _ => ⟨0,0⟩

def armedVisit (host : Kind → Timer) : Visit where
  start := ⟨host,idleTimers,fun _ => 0,idleTimers,fun _ => ⟨idleTimers,fun _ => 0⟩,0⟩
  events := [.realmRuns fun _ => ⟨1,100⟩,.planeEnter 1]
  switched := none

end TfRmm.Exec.Timers
