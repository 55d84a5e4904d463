import Mathlib.Data.List.FinRange
import TfRmm.Arch.Syndrome
import TfRmm.Lib.Transition

namespace TfRmm.Vgic

open TfRmm.Arch

structure Regs (lrs aprs : Nat) where
  lr : Fin lrs → Word
  ap0r : Fin aprs → Word
  ap1r : Fin aprs → Word
  vmcr : Word
  hcr : Word

structure CpuState (lrs aprs : Nat) extends Regs lrs aprs where
  misr : Word

structure Gic where
  lrs : Nat
  aprs : Nat
  misr : Regs lrs aprs → Word

variable (lr : Word)

def lrState : Word := lr >>> 62

def lrHw : Bool := lr.getLsbD 61

def lrVintid : Word := lr &&& 0xffffffff#64

def hcrEn : Word := 1#64

def hcrForced : Word := (1#64 <<< 8) ||| (1#64 <<< 15)

def misrMask : Word := 0xff#64

variable (g : Gic)

abbrev Gic.Live := Regs g.lrs g.aprs

abbrev Gic.Saved := CpuState g.lrs g.aprs

namespace Gic

variable {g} (x : g.Live)

def validateLrs {n : Nat} (lr : Fin n → Word) : Bool :=
  (List.finRange n).all fun i => lrState (lr i) == 0#64 || (!lrHw (lr i) &&
    ((List.finRange n).filter (i < ·)).all fun j =>
      lrState (lr j) == 0#64 || lrVintid (lr i) != lrVintid (lr j))

def isInterruptPending : Bool :=
  (List.finRange g.lrs).any fun i => lrState (x.lr i) == 1#64 || lrState (x.lr i) == 3#64

def isMaintInterruptPending (x : g.Saved) : Bool := x.misr &&& misrMask != 0#64

def saveState : g.Saved := ⟨x,g.misr x⟩

def disableVirtualCpuif : g.Live := { x with hcr := x.hcr &&& ~~~hcrEn }

def initVgicState (x : g.Saved) (lr : Fin g.lrs → Word) (hcr : Word) : g.Saved :=
  { x with lr := lr,hcr := hcr ||| hcrForced }

end Gic

structure ExitRecord (lrs : Nat) where
  plane : Nat
  lr : Fin lrs → Word
  hcr : Word
  misr : Word
  vmcr : Word

def Gic.copyStateToPlaneExit {g : Gic} (p : Nat) (x : g.Saved) : ExitRecord g.lrs :=
  ⟨p,x.lr,x.hcr,x.misr,x.vmcr⟩

inductive RunPage where
  | mapped
  | notRam
  | fail
  deriving DecidableEq

structure World where
  live : g.Live
  ns : g.Saved
  numPlanes : Nat
  active : Nat
  owner : Nat
  sysregs : Nat → g.Saved
  running : Bool
  own : Nat → g.Live
  host : g.Live

namespace World

variable {g} (s : World g)

def setSysregs (p : Nat) (x : g.Saved) : World g := { s with sysregs := Function.update s.sysregs p x }

def setOwn (p : Nat) (x : g.Live) : World g := { s with own := Function.update s.own p x }

def returnToPlane0 (save : Bool) : World g :=
  let s' := { s with owner := 0,active := 0 }
  if save && s.owner == 0 then { s' with live := s.ns.toRegs } else s'

def handlePlaneNExit (page : RunPage) (save : Bool) : World g × Option (ExitRecord g.lrs) × Bool :=
  match page with
  | .notRam => (s.returnToPlane0 save,none,true)
  | .fail => (s,none,false)
  | .mapped =>
    let s' := if save then s.setSysregs s.active (Gic.saveState s.live) else s
    (s'.returnToPlane0 save,some (Gic.copyStateToPlaneExit s.active (s'.sysregs s.active)),true)

def enterRunLoop : World g :=
  let s' := { s with running := true }
  if s.active ≠ s.owner then
    { s' with ns := Gic.saveState s.live,live := (s.sysregs s.active).toRegs }
  else s'.setOwn s.active s.host

def leaveRunLoop : World g :=
  let s' := if s.active ≠ s.owner then
      { s.setSysregs s.active (Gic.saveState s.live) with live := s.ns.toRegs }
    else s
  { s' with live := Gic.disableVirtualCpuif s'.live,running := false,host := Gic.disableVirtualCpuif s.host }

end World

structure Entry where
  accepted : Bool
  completed : Bool
  injectSea : Bool
  forceP0 : Bool
  page : RunPage
  deriving DecidableEq

inductive Command where
  | program (live : g.Live) (ns : g.Saved)
  | recEnter (e : Entry)
  | execute (f : g.Live → g.Live)
  | planeEnter (p : Nat) (ownGic : Bool) (lr : Fin g.lrs → Word) (hcr : Word)
  | planeExit (page : RunPage)
  | pendingTimer (page : RunPage)
  | recExit

namespace World

variable {g} (s : World g) (e : Entry) (page : RunPage)

def program (x : g.Live) (y : g.Saved) : World g := { s with live := x,ns := y,host := x }

def exitsPlane : Bool :=
  s.active != 0 && (e.injectSea || (s.active != s.owner &&
    (Gic.isInterruptPending s.live || Gic.isMaintInterruptPending (s.sysregs s.active))) || e.forceP0)

def turnedAway : Bool :=
  !e.accepted || !Gic.validateLrs s.live.lr || !e.completed || (s.exitsPlane e && e.page == .fail)

def recEnter : World g × Option (ExitRecord g.lrs) :=
  if s.turnedAway e then (s,none)
  else if s.exitsPlane e then
    let (s',r,_) := s.handlePlaneNExit e.page false
    (s'.enterRunLoop,r)
  else (s.enterRunLoop,none)

def execute (f : g.Live → g.Live) : World g :=
  if s.active = s.owner then
    { s.setOwn s.active (f s.host) with live := f s.live,host := f s.host }
  else { s.setOwn s.active (f (s.own s.active)) with live := f s.live }

def planeEnter (p : Nat) (ownGic : Bool) (lr : Fin g.lrs → Word) (hcr : Word) : World g :=
  if p = 0 ∨ s.numPlanes ≤ p ∨ (!ownGic && !Gic.validateLrs lr) then s
  else if ownGic then { s.setOwn p s.host with active := p,owner := p }
  else
    let x := Gic.initVgicState (s.sysregs p) lr hcr
    { (s.setSysregs p x).setOwn p { s.own p with lr := lr,hcr := hcr ||| hcrForced } with
      active := p,ns := Gic.saveState s.live,live := x.toRegs }

def planeExit : World g × Option (ExitRecord g.lrs) :=
  let (s',r,ok) := s.handlePlaneNExit page true
  if ok then (s',r) else (s'.leaveRunLoop,r)

def pendingTimer : World g × Option (ExitRecord g.lrs) :=
  if s.owner ≠ s.active then
    let (s',r,_) := s.handlePlaneNExit page true
    (s'.leaveRunLoop,r)
  else (s.leaveRunLoop,none)

def exec : Command g → Option (World g × Option (ExitRecord g.lrs))
  | .program x y => if s.running then none else some (s.program x y,none)
  | .recEnter e => if s.running then none else some (s.recEnter e)
  | .execute f => if s.running then some (s.execute f,none) else none
  | .planeEnter p b lr hcr => if s.running && s.active == 0 then some (s.planeEnter p b lr hcr,none) else none
  | .planeExit page => if s.running && s.active != 0 then some (s.planeExit page) else none
  | .pendingTimer page => if s.running then some (s.pendingTimer page) else none
  | .recExit => if s.running then some (s.leaveRunLoop,none) else none

structure Initial : Prop where
  running : s.running = false
  active : s.active = 0
  owner : s.owner = 0
  own : ∀ p, s.own p = (s.sysregs p).toRegs
  host : s.host = s.live

end World

def system : Lib.TransitionSystem (World g) (Command g) where
  init := World.Initial
  step := fun s c s' => ∃ r, s.exec c = some (s',r)

open Function
open Gic

variable {g : Gic} {s s' : World g} {c : Command g} {r : Option (ExitRecord g.lrs)} {save : Bool} {page : RunPage}

def Allowed (s : World g) : Command g → Prop
  | .recEnter e => (s.turnedAway e = true → disableVirtualCpuif s.live = s.live) ∧
      (s.turnedAway e = false → s.exitsPlane e = true → s.active ≠ s.owner)
  | .planeExit page => page ≠ .notRam
  | .pendingTimer page => s.owner ≠ s.active → page ≠ .notRam
  | _ => True

structure Kept (x : g.Saved) (y : g.Live) : Prop where
  ap0r : x.ap0r = y.ap0r
  ap1r : x.ap1r = y.ap1r
  vmcr : x.vmcr = y.vmcr

theorem Kept.saveState (y : g.Live) : Kept (saveState y) y := ⟨rfl,rfl,rfl⟩

structure Running (s : World g) : Prop where
  owner : s.active = s.owner → s.live = s.host ∧ (s.active ≠ 0 → s.own s.active = s.host)
  other : s.active ≠ s.owner → s.live = s.own s.active ∧ s.ns.toRegs = s.host

structure Idle (s : World g) : Prop where
  live : s.live = s.host
  saved : s.active ≠ s.owner → s.sysregs s.active = saveState (s.own s.active)

structure Inv (s : World g) : Prop where
  plane0 : s.active = 0 → s.owner = 0
  owner : s.owner = 0 ∨ s.owner = s.active
  parked : ∀ p, p ≠ 0 → p ≠ s.active → Kept (s.sysregs p) (s.own p)
  running : s.running = true → Running s
  idle : s.running = false → Idle s

theorem Inv.initial (h : s.Initial) : Inv s := by
  refine ⟨fun _ => h.owner,.inl h.owner,fun p _ _ => ?_,fun hr => ?_,fun _ => ⟨h.host.symm,fun ha => ?_⟩⟩
  · rw [h.own p]
    exact ⟨rfl,rfl,rfl⟩
  · rw [h.running] at hr
    cases hr
  · rw [h.active,h.owner] at ha
    exact absurd rfl ha

theorem Inv.parked_sysregs (h : Inv s) (x : g.Saved) :
    ∀ p, p ≠ 0 → p ≠ s.active → Kept (update s.sysregs s.active x p) (s.own p) := fun p hp hpa => by
  rw [update_of_ne hpa]
  exact h.parked p hp hpa

theorem Inv.parked_own (h : Inv s) (x : g.Live) :
    ∀ p, p ≠ 0 → p ≠ s.active → Kept (s.sysregs p) (update s.own s.active x p) := fun p hp hpa => by
  rw [update_of_ne hpa]
  exact h.parked p hp hpa

theorem Inv.program (h : Inv s) (hr : s.running = false) (x : g.Live) (y : g.Saved) : Inv (s.program x y) :=
  ⟨h.plane0,h.owner,h.parked,fun hn => absurd (hr.symm.trans hn) (by simp),fun _ => ⟨rfl,(h.idle hr).saved⟩⟩

theorem Running.live_own (h : Running s) (ha : s.active ≠ 0) : s.live = s.own s.active := by
  by_cases ho : s.active = s.owner
  · obtain ⟨h1,h2⟩ := h.owner ho
    rw [h1,h2 ha]
  · exact (h.other ho).1

theorem Inv.enterRunLoop (h : Inv s) (hr : s.running = false) : Inv s.enterRunLoop := by
  obtain ⟨hlive,hsaved⟩ := h.idle hr
  unfold World.enterRunLoop
  extract_lets s₁
  split
  next ha =>
    refine ⟨h.plane0,h.owner,h.parked,fun _ => ⟨fun ho => absurd ho ha,fun _ => ⟨?_,hlive⟩⟩,
      fun hn => absurd hn (by simp [s₁])⟩
    rw [hsaved ha]
    rfl
  next ha =>
  exact ⟨h.plane0,h.owner,h.parked_own s.host,fun _ => ⟨fun _ => ⟨hlive,fun _ => update_self ..⟩,fun ho => absurd ho ha⟩,
    fun hn => absurd hn (by simp [s₁,World.setOwn])⟩

theorem leaveRunLoop_owner (ha : s.active = s.owner) : s.leaveRunLoop =
    { s with live := disableVirtualCpuif s.live,running := false,host := disableVirtualCpuif s.host } := by
  unfold World.leaveRunLoop
  rw [if_neg (not_not.mpr ha)]

theorem leaveRunLoop_other (ha : s.active ≠ s.owner) : s.leaveRunLoop =
    { s.setSysregs s.active (saveState s.live) with
      live := disableVirtualCpuif s.ns.toRegs,running := false,host := disableVirtualCpuif s.host } := by
  unfold World.leaveRunLoop
  rw [if_pos ha]

theorem Inv.leaveRunLoop (h : Inv s) (hr : s.running = true) :
    Inv s.leaveRunLoop ∧ s.leaveRunLoop.live = disableVirtualCpuif s.host := by
  have hrun := h.running hr
  by_cases ha : s.active = s.owner
  · have hlive : disableVirtualCpuif s.live = disableVirtualCpuif s.host := by
      rw [(hrun.owner ha).1]
    rw [leaveRunLoop_owner ha]
    exact ⟨⟨h.plane0,h.owner,h.parked,fun hn => absurd hn (by simp),fun _ => ⟨hlive,fun ho => absurd ha ho⟩⟩,hlive⟩
  · obtain ⟨hown,hns⟩ := hrun.other ha
    have hlive : disableVirtualCpuif s.ns.toRegs = disableVirtualCpuif s.host := by rw [hns]
    rw [leaveRunLoop_other ha]
    refine ⟨⟨h.plane0,h.owner,h.parked_sysregs _,fun hn => absurd hn (by simp),fun _ => ⟨hlive,fun _ => ?_⟩⟩,hlive⟩
    show update s.sysregs s.active (saveState s.live) s.active = saveState (s.own s.active)
    rw [update_self,hown]

theorem Inv.returnToPlane0 (h : Inv s) (hsaved : Kept (s.sysregs s.active) (s.own s.active))
    (hlive : (s.returnToPlane0 save).live = s.host) : Inv (s.returnToPlane0 save) := by
  have hrest : (s.returnToPlane0 save).active = 0 ∧ (s.returnToPlane0 save).owner = 0 ∧
      (s.returnToPlane0 save).sysregs = s.sysregs ∧ (s.returnToPlane0 save).own = s.own ∧
      (s.returnToPlane0 save).host = s.host := by
    unfold World.returnToPlane0
    extract_lets s₁
    split <;> exact ⟨rfl,rfl,rfl,rfl,rfl⟩
  obtain ⟨hactive,howner,hsys,hown,hhost⟩ := hrest
  refine ⟨fun _ => howner,.inl howner,fun p hp _ => ?_,
    fun _ => ⟨fun _ => ⟨hlive.trans hhost.symm,fun ha => absurd hactive ha⟩,
      fun ha => absurd (hactive.trans howner.symm) ha⟩,
    fun _ => ⟨hlive.trans hhost.symm,fun ha => absurd (hactive.trans howner.symm) ha⟩⟩
  rw [hsys,hown]
  by_cases hpa : p = s.active
  · rw [hpa]
    exact hsaved
  · exact h.parked p hp hpa

theorem returnToPlane0_running : (s.returnToPlane0 save).running = s.running := by
  unfold World.returnToPlane0
  extract_lets s₁
  split <;> rfl

theorem returnToPlane0_host : (s.returnToPlane0 save).host = s.host := by
  unfold World.returnToPlane0
  extract_lets s₁
  split <;> rfl

theorem Inv.exitAtEntry (h : Inv s) (hr : s.running = false) (ha : s.active ≠ s.owner) : Inv (s.returnToPlane0 false) := by
  obtain ⟨hlive,hsaved⟩ := h.idle hr
  refine h.returnToPlane0 ?_ hlive
  rw [hsaved ha]
  exact .saveState _

theorem Inv.saved (h : Inv s) (hr : s.running = true) : Inv (s.setSysregs s.active (saveState s.live)) :=
  ⟨h.plane0,h.owner,h.parked_sysregs _,fun _ => ⟨(h.running hr).owner,(h.running hr).other⟩,
    fun hn => absurd (hr.symm.trans hn) (by simp)⟩

theorem Inv.exitInLoop (h : Inv s) (hr : s.running = true) (ha : s.active ≠ 0) :
    Inv ((s.setSysregs s.active (saveState s.live)).returnToPlane0 true) := by
  have hrun := h.running hr
  apply (h.saved hr).returnToPlane0
  · show Kept (update s.sysregs s.active _ s.active) (s.own s.active)
    rw [update_self,hrun.live_own ha]
    exact .saveState _
  show (if (true && s.owner == 0) = true then _ else _ : World g).live = s.host
  rcases h.owner with ho | ho
  · rw [if_pos (by simp [ho])]
    exact (hrun.other (by rw [ho]; exact ha)).2
  · rw [if_neg (by simp [ho,ha])]
    exact (hrun.owner ho.symm).1

theorem Inv.execute (h : Inv s) (hr : s.running = true) (f : g.Live → g.Live) : Inv (s.execute f) := by
  have hrun := h.running hr
  unfold World.execute
  split
  next ha =>
    obtain ⟨hlive,_⟩ := hrun.owner ha
    exact ⟨h.plane0,h.owner,h.parked_own _,
      fun _ => ⟨fun _ => ⟨by rw [hlive],fun _ => update_self ..⟩,fun ho => absurd ha ho⟩,
      fun hn => absurd (hr.symm.trans hn) (by simp)⟩
  next ha =>
  obtain ⟨hown,hns⟩ := hrun.other ha
  refine ⟨h.plane0,h.owner,h.parked_own _,fun _ => ⟨fun ho => absurd ho ha,fun _ => ⟨?_,hns⟩⟩,
    fun hn => absurd (hr.symm.trans hn) (by simp)⟩
  show f s.live = update s.own s.active _ s.active
  rw [update_self,hown]

theorem Inv.planeEnter (h : Inv s) (hr : s.running = true) (ha : s.active = 0) (p : Nat) (ownGic : Bool)
    (lr : Fin g.lrs → Word) (hcr : Word) : Inv (s.planeEnter p ownGic lr hcr) := by
  obtain ⟨hlive,_⟩ := (h.running hr).owner (ha.trans (h.plane0 ha).symm)
  have hz := h.plane0 ha
  unfold World.planeEnter
  split
  · exact h
  next hok =>
  have hp : p ≠ 0 := fun hp => hok (.inl hp)
  have hold : ∀ q, q ≠ 0 → Kept (s.sysregs q) (s.own q) := fun q hq => h.parked q hq (by rw [ha]; exact hq)
  split
  · refine ⟨fun hp' => absurd hp' hp,.inr rfl,fun q hq hqp => ?_,
      fun _ => ⟨fun _ => ⟨hlive,fun _ => update_self ..⟩,fun ho => absurd rfl ho⟩,
      fun hn => absurd (hr.symm.trans hn) (by simp)⟩
    show Kept (s.sysregs q) (update s.own p s.host q)
    rw [update_of_ne hqp]
    exact hold q hq
  · refine ⟨fun hp' => absurd hp' hp,.inl hz,fun q hq hqp => ?_,
      fun _ => ⟨fun ho => absurd (ho.trans hz) hp,fun _ => ⟨?_,hlive⟩⟩,
      fun hn => absurd (hr.symm.trans hn) (by simp)⟩
    · show Kept (update s.sysregs p _ q) (update s.own p _ q)
      rw [update_of_ne hqp,update_of_ne hqp]
      exact hold q hq
    · obtain ⟨h1,h2,h3⟩ := hold p hp
      show Regs.mk lr (s.sysregs p).ap0r (s.sysregs p).ap1r (s.sysregs p).vmcr (hcr ||| hcrForced) =
        update s.own p _ p
      rw [update_self,h1,h2,h3]

structure Outcome (s : World g) (c : Command g) (s' : World g) (r : Option (ExitRecord g.lrs)) : Prop where
  inv : Inv s'
  returned : (s.running = true ∨ ∃ e, c = .recEnter e) → s'.running = false →
    s'.live = disableVirtualCpuif s.host
  record : ∀ x, r = some x → x = Gic.copyStateToPlaneExit s.active (saveState (s.own s.active))

theorem Inv.recEnter (h : Inv s) (hr : s.running = false) {e : Entry} (hg : Allowed s (.recEnter e)) :
    Outcome s (.recEnter e) (s.recEnter e).1 (s.recEnter e).2 := by
  have hidle := h.idle hr
  unfold World.recEnter
  cases hturned : s.turnedAway e with
  | true =>
    rw [if_pos rfl]
    refine ⟨h,fun _ _ => ?_,fun _ hx => absurd hx (by simp)⟩
    rw [← hidle.live]
    exact (hg.1 hturned).symm
  | false =>
    have hrun : ∀ t : World g, t.enterRunLoop.running = true := fun t => by
      unfold World.enterRunLoop
      extract_lets t₁
      split <;> rfl
    have hnot : ∀ t : World g, t.enterRunLoop.running = false → False := fun t ht => by
      rw [hrun t] at ht
      cases ht
    rw [if_neg (by simp)]
    cases hexit : s.exitsPlane e with
    | false =>
      rw [if_neg (by simp)]
      exact ⟨h.enterRunLoop hr,fun _ hn => (hnot _ hn).elim,fun _ hx => absurd hx (by simp)⟩
    | true =>
      have ha := hg.2 hturned hexit
      have hout := (h.exitAtEntry hr ha).enterRunLoop (returnToPlane0_running.trans hr)
      rw [if_pos rfl]
      cases hpage : e.page with
      | notRam => exact ⟨hout,fun _ hn => (hnot _ hn).elim,fun _ hx => absurd hx (by simp [World.handlePlaneNExit])⟩
      | mapped =>
        refine ⟨hout,fun _ hn => (hnot _ hn).elim,fun x hx => ?_⟩
        cases hx
        show Gic.copyStateToPlaneExit s.active (s.sysregs s.active) = _
        rw [hidle.saved ha]
      | fail =>
        unfold World.turnedAway at hturned
        simp [hexit,hpage] at hturned

theorem Inv.handlePlaneNExit (h : Inv s) (hr : s.running = true) (ha : s.active ≠ 0) (hpage : page ≠ .notRam) :
    Inv (s.handlePlaneNExit page true).1 ∧ (s.handlePlaneNExit page true).1.running = true ∧
      (s.handlePlaneNExit page true).1.host = s.host ∧
      ∀ x, (s.handlePlaneNExit page true).2.1 = some x →
        x = Gic.copyStateToPlaneExit s.active (saveState (s.own s.active)) := by
  cases page with
  | notRam => exact absurd rfl hpage
  | fail => exact ⟨h,hr,rfl,fun _ hx => absurd hx (by simp [World.handlePlaneNExit])⟩
  | mapped =>
    refine ⟨h.exitInLoop hr ha,returnToPlane0_running.trans hr,returnToPlane0_host,fun x hx => ?_⟩
    cases hx
    show Gic.copyStateToPlaneExit s.active (update s.sysregs s.active _ s.active) = _
    rw [update_self,(h.running hr).live_own ha]

theorem Inv.planeExit (h : Inv s) (hr : s.running = true) (ha : s.active ≠ 0) (hpage : page ≠ .notRam) :
    Outcome s (.planeExit page) (s.planeExit page).1 (s.planeExit page).2 := by
  obtain ⟨hinv,hrun,hhost,hrecord⟩ := h.handlePlaneNExit hr ha hpage
  unfold World.planeExit
  generalize s.handlePlaneNExit page true = out at hinv hrun hhost hrecord ⊢
  obtain ⟨t,x,ok⟩ := out
  cases ok with
  | true => exact ⟨hinv,fun _ hn => absurd (hrun.symm.trans hn) (by simp),hrecord⟩
  | false =>
    obtain ⟨h1,h2⟩ := hinv.leaveRunLoop hrun
    exact ⟨h1,fun _ _ => h2.trans (by rw [hhost]),hrecord⟩

theorem Inv.pendingTimer (h : Inv s) (hr : s.running = true) (hpage : s.owner ≠ s.active → page ≠ .notRam) :
    Outcome s (.pendingTimer page) (s.pendingTimer page).1 (s.pendingTimer page).2 := by
  unfold World.pendingTimer
  split
  next ho =>
    have ha : s.active ≠ 0 := fun ha => ho ((h.plane0 ha).trans ha.symm)
    obtain ⟨hinv,hrun,hhost,hrecord⟩ := h.handlePlaneNExit hr ha (hpage ho)
    obtain ⟨h1,h2⟩ := hinv.leaveRunLoop hrun
    exact ⟨h1,fun _ _ => h2.trans (by rw [hhost]),hrecord⟩
  · obtain ⟨h1,h2⟩ := h.leaveRunLoop hr
    exact ⟨h1,fun _ _ => h2,fun _ hx => absurd hx (by simp)⟩

theorem Inv.exec (h : Inv s) (hg : Allowed s c) (he : s.exec c = some (s',r)) : Outcome s c s' r := by
  cases c with
  | program x y =>
    simp only [World.exec] at he
    split at he
    · cases he
    next hr =>
    cases he
    have hr := Bool.eq_false_iff.mpr hr
    refine ⟨h.program hr x y,fun hc => ?_,fun _ hx => absurd hx (by simp)⟩
    rcases hc with hc | ⟨_,hc⟩
    · rw [hr] at hc
      cases hc
    · cases hc
  | recEnter e =>
    simp only [World.exec] at he
    split at he
    · cases he
    next hr =>
    have := h.recEnter (Bool.eq_false_iff.mpr hr) hg
    generalize s.recEnter e = out at he this
    cases he
    exact this
  | execute f =>
    simp only [World.exec] at he
    split at he
    next hr =>
      cases he
      refine ⟨h.execute hr f,fun _ hn => ?_,fun _ hx => absurd hx (by simp)⟩
      have : (s.execute f).running = s.running := by
        unfold World.execute
        split <;> rfl
      rw [this,hr] at hn
      cases hn
    · cases he
  | planeEnter p b lr hcr =>
    simp only [World.exec] at he
    split at he
    next hr =>
      cases he
      simp only [Bool.and_eq_true,beq_iff_eq] at hr
      refine ⟨h.planeEnter hr.1 hr.2 p b lr hcr,fun _ hn => ?_,fun _ hx => absurd hx (by simp)⟩
      have : (s.planeEnter p b lr hcr).running = s.running := by
        unfold World.planeEnter
        split
        · rfl
        · split <;> rfl
      rw [this,hr.1] at hn
      cases hn
    · cases he
  | planeExit page =>
    simp only [World.exec] at he
    split at he
    next hr =>
      simp only [Bool.and_eq_true,bne_iff_ne] at hr
      have := h.planeExit hr.1 hr.2 hg
      generalize s.planeExit page = out at he this
      cases he
      exact this
    · cases he
  | pendingTimer page =>
    simp only [World.exec] at he
    split at he
    next hr =>
      have := h.pendingTimer hr hg
      generalize s.pendingTimer page = out at he this
      cases he
      exact this
    · cases he
  | recExit =>
    simp only [World.exec] at he
    split at he
    next hr =>
      cases he
      obtain ⟨h1,h2⟩ := h.leaveRunLoop hr
      exact ⟨h1,fun _ _ => h2,fun _ hx => absurd hx (by simp)⟩
    · cases he

theorem inv_of_reachable (h : (system g).ReachableUnder Allowed s) : Inv s :=
  h.invariant (fun _ => Inv.initial) fun _ _ _ hi hg ⟨_,he⟩ => (hi.exec hg he).inv

theorem vgic_follows_ownership (h : (system g).ReachableUnder Allowed s) :
    (s.running = true → s.active ≠ s.owner → s.live = s.own s.active) ∧
    (s.running = true → s.active = s.owner → s.live = s.host) ∧
    ∀ c s' r, Allowed s c → s.exec c = some (s',r) → ((s.running = true ∨ ∃ e, c = .recEnter e) → s'.running = false →
        s'.live = disableVirtualCpuif s.host) ∧
      ∀ x, r = some x → x = Gic.copyStateToPlaneExit s.active (saveState (s.own s.active)) := by
  have hinv := inv_of_reachable h
  refine ⟨fun hr ha => ((hinv.running hr).other ha).1,fun hr ha => ((hinv.running hr).owner ha).1,
    fun c s' r hg he => ?_⟩
  have hout := hinv.exec hg he
  exact ⟨hout.returned,hout.record⟩

namespace Sample

def gic : Gic := ⟨1,1,fun _ => 0#64⟩

def zero : gic.Live := ⟨fun _ => 0#64,fun _ => 0#64,fun _ => 0#64,0#64,0#64⟩

def boot : World gic := ⟨zero,⟨zero,0#64⟩,2,0,0,fun _ => ⟨zero,0#64⟩,false,fun _ => zero,zero⟩

def entry (forceP0 : Bool) : Command gic := .recEnter ⟨true,true,false,forceP0,.mapped⟩

def enter (ownGic : Bool) : Command gic := .planeEnter 1 ownGic (fun _ => 0#64) 1#64

def writeVmcr : Command gic := .execute fun x => { x with vmcr := 5#64 }

def runs : World gic → List (Command gic) → Option (World gic)
  | s, [] => some s
  | s, c :: cs => (s.exec c).bind fun x => runs x.1 cs

theorem boot_initial : boot.Initial := ⟨rfl,rfl,rfl,fun _ => rfl,rfl⟩

def ownerStopped : List (Command gic) := [entry false,enter true,writeVmcr,.recExit]

theorem reachable_runs {cs : List (Command gic)} {s s' : World gic} (h : (system gic).Reachable s)
    (hr : runs s cs = some s') : (system gic).Reachable s' := by
  induction cs generalizing s with
  | nil => cases hr; exact h
  | cons c cs ih =>
    obtain ⟨⟨t,x⟩,he,ht⟩ := Option.bind_eq_some_iff.mp hr
    exact ih (h.next trivial ⟨x,he⟩) ht

end Sample

theorem vgic_follows_ownership_plane1 : ∃ s, (system Sample.gic).ReachableUnder Allowed s ∧
    s.running = true ∧ s.active = 1 ∧ s.owner = 0 ∧ s.live = s.own 1 := by
  have hentered : (system Sample.gic).ReachableUnder Allowed Sample.boot.enterRunLoop :=
    .next (l := Sample.entry false) (.initial Sample.boot_initial) ⟨fun h => absurd h (by decide),fun _ h =>
      absurd h (by decide)⟩ ⟨none,rfl⟩
  have hplane : (system Sample.gic).ReachableUnder Allowed
      (Sample.boot.enterRunLoop.planeEnter 1 false (fun _ => 0#64) 1#64) :=
    hentered.next (l := Sample.enter false) trivial ⟨none,rfl⟩
  exact ⟨_,hplane,rfl,rfl,rfl,(vgic_follows_ownership hplane).1 rfl (by decide)⟩

theorem owner_exit_record_stale : ∃ s s' x, (system Sample.gic).Reachable s ∧
    s.exec (Sample.entry true) = some (s',some x) ∧ x.plane = 1 ∧ (s.own 1).vmcr = 5#64 ∧ x.vmcr = 0#64 := by
  have hr : (Sample.runs Sample.boot Sample.ownerStopped).isSome = true := by decide
  obtain ⟨s,hs⟩ := Option.isSome_iff_exists.mp hr
  have hreach := Sample.reachable_runs (.initial Sample.boot_initial) hs
  cases hs
  exact ⟨_,_,_,hreach,rfl,rfl,rfl,rfl⟩

end TfRmm.Vgic
