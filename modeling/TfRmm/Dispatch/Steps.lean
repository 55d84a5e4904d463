import TfRmm.Rwlock.Lock

namespace TfRmm.Dispatch

open TfRmm

inductive RmmState where
  | init
  | intermediate
  | active
  deriving DecidableEq

inductive Fid where
  | info
  | query
  | sroOp (h : Nat)
  | configSet
  | activate
  | deactivate
  | other
  deriving DecidableEq

inductive Status where
  | success
  | incomplete
  | errorInput
  | errorGlobal
  | busy
  | blocked
  deriving DecidableEq

inductive Pc where
  | idle
  | enter (f : Fid)
  | check (f : Fid)
  | queryLock
  | queryRead
  | queryUnlock
  | sroFind (h : Nat)
  | sroWork (h : Nat)
  | work
  | configClaim
  | configLock
  | configCheck
  | configBuild
  | configUnlock (st : Status)
  | configPublish (st : Status)
  | activateClaim
  | activateLock
  | activateCheck
  | activateBuild
  | activateUnlock
  | activatePublish
  | deactivateState
  | deactivateSro
  | deactivateInitialized
  | deactivateLock
  | deactivateScan
  | deactivateClear
  | deactivateUnlock (ok : Bool)
  | deactivatePublish
  | leave (f : Fid)
  deriving DecidableEq

inductive Act where
  | call (f : Fid)
  | go
  | fail
  | again
  | finish
  | openSro (h : Nat)
  deriving DecidableEq

structure Sys where
  lock : Rwlock.Lock
  pc : Nat → Pc
  state : RmmState
  ctxs : Nat
  ctx : Nat → Bool
  layoutLock : Option Nat
  building : Bool
  initialized : Bool
  res : Nat → Status

namespace Sys

variable (s : Sys) (c : Nat)

def setPc (p : Pc) : Sys := { s with pc := Function.update s.pc c p }

def setCtx (h : Nat) (b : Bool) : Sys := { s with ctx := Function.update s.ctx h b }

def transitionRmmState (expected new : RmmState) : RmmState := if s.state = expected then new else s.state

def toLeave (f : Fid) (st : Status) : Option Sys :=
  (s.lock.step c (if f = .deactivate then .unwrite else .unread)).map fun l =>
    { s.setPc c (.leave f) with lock := l,res := Function.update s.res c st }

def call (f : Fid) : Option Sys :=
  (s.lock.step c (if f = .deactivate then .write false else .read)).map fun l =>
    { s.setPc c (.enter f) with lock := l }

def enter (f : Fid) : Option Sys :=
  (s.lock.step c .go).map fun l =>
    let s' := { s with lock := l }
    if f = .deactivate then
      if l.phase c = .writing then s'.setPc c (.check f)
      else if l.phase c = .out then { s'.setPc c .idle with res := Function.update s.res c .busy }
      else s'
    else if l.phase c = .out then s'.setPc c (.check f) else s'

def leave : Option Sys :=
  (s.lock.step c .go).map fun l =>
    let s' := { s with lock := l }
    if l.phase c = .out then s'.setPc c .idle else s'

def check : Fid → Option Sys
  | .info => s.toLeave c .info .success
  | .query => some (s.setPc c .queryLock)
  | .sroOp h => some (s.setPc c (.sroFind h))
  | .configSet => if s.state ≠ .init then s.toLeave c .configSet .errorGlobal else some (s.setPc c .configClaim)
  | .activate => if s.state ≠ .init then s.toLeave c .activate .errorGlobal else some (s.setPc c .activateClaim)
  | .deactivate =>
    if s.state ≠ .active then s.toLeave c .deactivate .errorGlobal else some (s.setPc c .deactivateState)
  | .other => if s.state ≠ .active then s.toLeave c .other .errorGlobal else some (s.setPc c .work)

def lockLayout (p : Pc) : Option Sys :=
  if s.layoutLock = none then some { s.setPc c p with layoutLock := some c } else some s

def unlockLayout (p : Pc) : Sys := { s.setPc c p with layoutLock := none }

def query (c : Nat) (a : Act) : Pc → Option Sys
  | .queryLock => s.lockLayout c .queryRead
  | .queryRead => some (s.setPc c .queryUnlock)
  | .queryUnlock =>
    if a = .again then some (s.unlockLayout c .queryLock)
    else ({ s with layoutLock := none }).toLeave c .query .success
  | _ => none

def sroIsIdle : Bool := (List.range s.ctxs).all fun h => !s.ctx h

def sro (a : Act) : Pc → Option Sys
  | .sroFind h =>
    if decide (h < s.ctxs) && s.ctx h then some (s.setPc c (.sroWork h))
    else s.toLeave c (.sroOp h) .errorInput
  | .sroWork h =>
    match a with
    | .go => some s
    | .finish => (s.setCtx h false).toLeave c (.sroOp h) .success
    | .again => s.toLeave c (.sroOp h) .incomplete
    | _ => none
  | _ => none

def work : Act → Option Sys
  | .go => some s
  | .finish => s.toLeave c .other .success
  | .openSro h => if h < s.ctxs ∧ s.ctx h = false then (s.setCtx h true).toLeave c .other .incomplete else none
  | _ => none

def config (a : Act) : Pc → Option Sys
  | .configClaim =>
    if a = .fail then s.toLeave c .configSet .errorInput
    else if s.state = .init then some { s.setPc c .configLock with state := .intermediate }
    else s.toLeave c .configSet .errorGlobal
  | .configLock => s.lockLayout c .configCheck
  | .configCheck =>
    if s.initialized then some (s.setPc c (.configUnlock .errorInput))
    else if a = .fail then some (s.setPc c (.configUnlock .success))
    else some { s.setPc c .configBuild with building := true }
  | .configBuild => if a = .finish then some { s.setPc c (.configUnlock .success) with building := false } else some s
  | .configUnlock st => some (s.unlockLayout c (.configPublish st))
  | .configPublish st => ({ s with state := s.transitionRmmState .intermediate .init }).toLeave c .configSet st
  | _ => none

def activate (c : Nat) (a : Act) : Pc → Option Sys
  | .activateClaim =>
    if s.state = .init then some { s.setPc c .activateLock with state := .intermediate }
    else s.toLeave c .activate .errorGlobal
  | .activateLock => s.lockLayout c .activateCheck
  | .activateCheck => some { s.setPc c .activateBuild with building := true }
  | .activateBuild =>
    if a = .finish then some { s.setPc c .activateUnlock with building := false,initialized := true }
    else some s
  | .activateUnlock => some (s.unlockLayout c .activatePublish)
  | .activatePublish => ({ s with state := s.transitionRmmState .intermediate .active }).toLeave c .activate .success
  | _ => none

def deactivate (c : Nat) (a : Act) : Pc → Option Sys
  | .deactivateState =>
    if s.state ≠ .active then s.toLeave c .deactivate .errorGlobal else some (s.setPc c .deactivateSro)
  | .deactivateSro =>
    if s.sroIsIdle then some (s.setPc c .deactivateInitialized) else s.toLeave c .deactivate .blocked
  | .deactivateInitialized => some (s.setPc c .deactivateLock)
  | .deactivateLock => s.lockLayout c .deactivateScan
  | .deactivateScan => some (s.setPc c (if a = .fail then .deactivateUnlock false else .deactivateClear))
  | .deactivateClear => some { s.setPc c (.deactivateUnlock true) with initialized := false }
  | .deactivateUnlock ok =>
    if ok then some (s.unlockLayout c .deactivatePublish)
    else ({ s with layoutLock := none }).toLeave c .deactivate .errorGlobal
  | .deactivatePublish => ({ s with state := s.transitionRmmState .active .init }).toLeave c .deactivate .success
  | _ => none

def step (a : Act) : Option Sys :=
  match s.pc c with
  | .idle =>
    match a with
    | .call f => s.call c f
    | _ => none
  | .enter f => s.enter c f
  | .check f => s.check c f
  | .leave _ => s.leave c
  | .work => s.work c a
  | p => (s.query c a p).or ((s.sro c a p).or ((s.config c a p).or ((s.activate c a p).or (s.deactivate c a p))))

def asserts (c : Nat) : Bool :=
  s.lock.asserts c ||
    match s.pc c with
    | .configPublish _ => s.state != .intermediate
    | .activateCheck => s.initialized
    | .activatePublish => s.state != .intermediate
    | .deactivateInitialized => !s.initialized
    | .deactivatePublish => s.state != .active
    | _ => false

structure Initial : Prop where
  lock : s.lock.Initial
  depthMax : s.lock.depthMax = 1
  pc : ∀ c, s.pc c = .idle
  state : s.state = .init
  ctx : ∀ h, s.ctx h = false
  layoutLock : s.layoutLock = none
  building : s.building = false
  initialized : s.initialized = false

end Sys

def system : Lib.TransitionSystem Sys (Nat × Act) where
  init := Sys.Initial
  step := fun s x s' => s.step x.1 x.2 = some s'

variable {s s' : Sys} {c i : Nat} {a : Act} {p : Pc} {l : Rwlock.Lock} {q : Pc → Bool} {f : Fid}

namespace Pc

def claimed : Pc → Bool
  | .configLock | .configCheck | .configBuild | .configUnlock _ | .configPublish _ => true
  | .activateLock | .activateCheck | .activateBuild | .activateUnlock | .activatePublish => true
  | _ => false

def built : Pc → Bool
  | .activateUnlock | .activatePublish => true
  | _ => false

def deactivates : Pc → Bool
  | .check .deactivate => true
  | .deactivateState | .deactivateSro | .deactivateInitialized | .deactivateLock | .deactivateScan => true
  | .deactivateClear | .deactivateUnlock _ | .deactivatePublish => true
  | _ => false

def runs : Pc → Bool
  | .idle | .enter _ | .leave _ => false
  | _ => true

def active : Pc → Bool
  | .work | .sroWork _ => true
  | .deactivateSro | .deactivateInitialized | .deactivateLock | .deactivateScan => true
  | .deactivateClear | .deactivateUnlock _ | .deactivatePublish => true
  | _ => false

def idled : Pc → Bool
  | .deactivateInitialized | .deactivateLock | .deactivateScan | .deactivateClear | .deactivateUnlock _ => true
  | .deactivatePublish => true
  | _ => false

def wiped : Pc → Bool
  | .deactivateUnlock true | .deactivatePublish => true
  | _ => false

def locked : Pc → Bool
  | .queryRead | .queryUnlock | .configCheck | .configBuild | .configUnlock _ => true
  | .activateCheck | .activateBuild | .activateUnlock => true
  | .deactivateScan | .deactivateClear | .deactivateUnlock _ => true
  | _ => false

def builds : Pc → Bool
  | .configBuild | .activateBuild => true
  | _ => false

def uses : Pc → Bool
  | .queryRead | .work | .sroWork _ | .deactivateScan => true
  | _ => false

theorem active_of_idled (h : p.idled = true) : p.active = true := by
  cases p <;> first | rfl | cases h

theorem active_of_wiped (h : p.wiped = true) : p.active = true := by
  cases p <;> first | rfl | cases h

theorem deactivates_of_idled (h : p.idled = true) : p.deactivates = true := by
  cases p <;> first | rfl | cases h

theorem runs_of_active (h : p.active = true) : p.runs = true := by
  cases p <;> first | rfl | cases h

theorem locked_of_builds (h : p.builds = true) : p.locked = true := by
  cases p <;> first | rfl | cases h

end Pc

def Fits : Pc → Rwlock.Phase → Nat → Prop
  | .idle, ph, n => ph = .out ∧ n = 0
  | .enter .deactivate, ph, n => n = 0 ∧ (ph = .tryGate false ∨ ph = .tryReaders false ∨ ph = .tryOpen false ∨
      ph = .tryWriter ∨ ph = .claim)
  | .enter _, ph, n => n = 0 ∧ (ph = .gate ∨ ph = .gateWriter ∨ ph = .gateReaders ∨ ph = .count) ∨
      n = 1 ∧ ph = .openGate
  | .leave .deactivate, ph, n => n = 0 ∧ (ph = .endWriter ∨ ph = .unclaim ∨ ph = .reopen)
  | .leave _, ph, n => n = 1 ∧ (ph = .release ∨ ph = .drop)
  | p, ph, n => if p.deactivates then ph = .writing ∧ n = 0 else ph = .out ∧ n = 1

theorem fits_runs (hp : p.runs = true) {ph : Rwlock.Phase} {n : Nat} :
    Fits p ph n ↔ if p.deactivates then ph = .writing ∧ n = 0 else ph = .out ∧ n = 1 := by
  cases p <;> first | exact Iff.rfl | cases hp

structure Knows (s : Sys) (p : Pc) : Prop where
  claimed : p.claimed = true → s.state = .intermediate ∧ s.initialized = p.built
  active : p.active = true → s.state = .active
  idled : p.idled = true → ∀ h, s.ctx h = false
  wiped : p.wiped = true → s.initialized = false

structure Inv (s : Sys) : Prop where
  lock : Rwlock.Inv s.lock
  depthMax : s.lock.depthMax = 1
  fits : ∀ c, Fits (s.pc c) (s.lock.phase c) (s.lock.depth c)
  knows : ∀ c, Knows s (s.pc c)
  one : ∀ c i, (s.pc c).claimed = true → (s.pc i).claimed = true → c = i
  claimant : s.state = .intermediate → ∃ c, (s.pc c).claimed = true
  ctx : ∀ h, s.ctx h = true → h < s.ctxs ∧ s.state = .active
  layout : ∀ c, (s.pc c).locked = true ↔ s.layoutLock = some c
  building : s.building = true → ∃ c, (s.pc c).builds = true
  fresh : s.state = .init → s.initialized = false
  ready : s.state = .active → s.initialized = true ∨ ∃ c, (s.pc c).wiped = true

theorem Knows.inactive (hc : p.claimed = true → s.state = .intermediate ∧ s.initialized = p.built)
    (ha : p.active = false) : Knows s p := by
  refine ⟨hc,fun h => ?_,fun h => ?_,fun h => ?_⟩
  · rw [ha] at h; cases h
  · rw [Pc.active_of_idled h] at ha; cases ha
  · rw [Pc.active_of_wiped h] at ha; cases ha

theorem Knows.quiet (hc : p.claimed = false) : p.active = false → Knows s p :=
  .inactive fun h => absurd (hc.symm.trans h) nofun

theorem Inv.not_exclusive (h : Inv s) (hic : i ≠ c) (hr : (s.pc i).runs = true) : (s.lock.phase c).exclusive = false := by
  have hfit := (fits_runs hr).mp (h.fits i)
  refine Bool.eq_false_iff.2 fun hx => ?_
  obtain ⟨hgate,hdepth⟩ := h.lock.exclusion hx hic
  split at hfit
  · rw [hfit.1] at hgate
    exact absurd hgate (by simp [Rwlock.Phase.gated])
  · rw [hfit.2] at hdepth
    cases hdepth

theorem Inv.exclusion (h : Inv s) (hc : (s.pc c).deactivates = true) (hi : i ≠ c) : (s.pc i).runs = false := by
  have hrun : (s.pc c).runs = true := by
    cases hp : s.pc c <;> rw [hp] at hc <;> first | rfl | cases hc
  have hfit := (fits_runs hrun).mp (h.fits c)
  rw [if_pos hc] at hfit
  refine Bool.eq_false_iff.2 fun hr => ?_
  have hx := h.not_exclusive hi hr
  rw [hfit.1] at hx
  cases hx

structure Goes (s : Sys) (c : Nat) (p : Pc) (s' : Sys) : Prop where
  lock : Rwlock.Inv s'.lock
  depthMax : s'.lock.depthMax = 1
  pc : s'.pc = Function.update s.pc c p
  other : ∀ i, i ≠ c → s'.lock.phase i = s.lock.phase i ∧ s'.lock.depth i = s.lock.depth i
  fits : Fits p (s'.lock.phase c) (s'.lock.depth c)

theorem Goes.at (hg : Goes s c p s') (i : Nat) : s'.pc i = if i = c then p else s.pc i := by
  rw [hg.pc]
  exact Function.update_apply ..

theorem Goes.exists (hg : Goes s c p s') (hq : q p = true ∨ ∃ i, i ≠ c ∧ q (s.pc i) = true) : ∃ i, q (s'.pc i) = true := by
  rw [hg.pc]
  exact Rwlock.exists_update.mpr hq

theorem Inv.next (h : Inv s) (hg : Goes s c p s') (hself : Knows s' p)
    (hknows : ∀ i, i ≠ c → Knows s (s.pc i) → Knows s' (s.pc i))
    (hone : p.claimed = true → (s.pc c).claimed = true ∨ s.state ≠ .intermediate)
    (hclaimant : s'.state = .intermediate → p.claimed = true ∨ ∃ i, i ≠ c ∧ (s.pc i).claimed = true)
    (hctx : ∀ x, s'.ctx x = true → x < s'.ctxs ∧ s'.state = .active)
    (hlayout : ∀ i, (if i = c then p.locked else (s.pc i).locked) = true ↔ s'.layoutLock = some i)
    (hbuilding : s'.building = true → p.builds = true ∨ ∃ i, i ≠ c ∧ (s.pc i).builds = true)
    (hfresh : s'.state = .init → s'.initialized = false)
    (hready : s'.state = .active → s'.initialized = true ∨ p.wiped = true ∨ ∃ i, i ≠ c ∧ (s.pc i).wiped = true) :
    Inv s' := by
  refine ⟨hg.lock,hg.depthMax,fun i => ?_,fun i => ?_,fun i j hi hj => ?_,fun hs => hg.exists (hclaimant hs),hctx,
    fun i => ?_,fun hb => hg.exists (hbuilding hb),hfresh,fun hs => (hready hs).imp_right hg.exists⟩
  · rw [hg.at]
    split
    next hic => rw [hic]; exact hg.fits
    next hic => rw [(hg.other i hic).1,(hg.other i hic).2]; exact h.fits i
  · rw [hg.at]
    split
    · exact hself
    next hic => exact hknows i hic (h.knows i)
  · have hnone : ∀ j, p.claimed = true → (s.pc j).claimed = true → j = c := fun j hp hj =>
      (hone hp).elim (fun hc => h.one j c hj hc) fun hn => absurd ((h.knows j).claimed hj).1 hn
    rw [hg.at] at hi hj
    split at hi <;> split at hj
    next hic hjc => rw [hic,hjc]
    next hic hjc => exact hic.trans (hnone j hi hj).symm
    next hic hjc => exact (hnone i hj hi).trans hjc.symm
    · exact h.one i j hi hj
  · rw [hg.at,← hlayout i]
    split <;> exact Iff.rfl

theorem Inv.elsewhere (hq : q p = q (s.pc c)) (h : ∃ i, q (s.pc i) = true) :
    q p = true ∨ ∃ i, i ≠ c ∧ q (s.pc i) = true := by
  obtain ⟨i,hi⟩ := h
  by_cases hic : i = c
  · exact .inl (by rw [hq,← hic]; exact hi)
  · exact .inr ⟨i,hic,hi⟩

def Hands (s : Sys) (c : Nat) (p : Pc) (s' : Sys) : Prop :=
  s'.layoutLock = s.layoutLock ∧ p.locked = (s.pc c).locked ∨
    s.layoutLock = none ∧ s'.layoutLock = some c ∧ p.locked = true ∨
    (s.pc c).locked = true ∧ s'.layoutLock = none ∧ p.locked = false

theorem Inv.hands (h : Inv s) (hl : Hands s c p s') (i : Nat) :
    (if i = c then p.locked else (s.pc i).locked) = true ↔ s'.layoutLock = some i := by
  rcases hl with ⟨he,hp⟩ | ⟨hn,he,hp⟩ | ⟨hc,he,hp⟩
  · rw [he,← h.layout i]
    split
    next hic => rw [hp,hic]
    · exact Iff.rfl
  · rw [he]
    split
    next hic => rw [hp,hic]; simp
    next hic =>
      rw [h.layout i,hn]
      simp [Ne.symm hic]
  · rw [he]
    split
    · rw [hp]; simp
    next hic =>
      rw [h.layout i,(h.layout c).mp hc]
      simp [Ne.symm hic]

structure Same (s s' : Sys) : Prop where
  state : s'.state = s.state
  ctxs : s'.ctxs = s.ctxs
  ctx : s'.ctx = s.ctx
  building : s'.building = s.building
  initialized : s'.initialized = s.initialized

theorem Knows.same (hk : Knows s p) (hs : Same s s') : Knows s' p := by
  refine ⟨fun hc => ?_,fun hc => ?_,fun hc => ?_,fun hc => ?_⟩
  · rw [hs.state,hs.initialized]; exact hk.claimed hc
  · rw [hs.state]; exact hk.active hc
  · rw [hs.ctx]; exact hk.idled hc
  · rw [hs.initialized]; exact hk.wiped hc

theorem Inv.move (h : Inv s) (hg : Goes s c p s') (hs : Same s s') (hself : Knows s p) (hlayout : Hands s c p s')
    (hclaimed : p.claimed = (s.pc c).claimed) (hbuilds : p.builds = (s.pc c).builds)
    (hwiped : p.wiped = (s.pc c).wiped) : Inv s' := by
  refine h.next hg (hself.same hs) (fun i _ hk => hk.same hs) (fun hp => .inl (by rw [← hclaimed]; exact hp))
    (fun hst => Inv.elsewhere hclaimed (h.claimant (hs.state ▸ hst))) (fun x hx => ?_) (h.hands hlayout)
    (fun hb => Inv.elsewhere hbuilds (h.building (hs.building ▸ hb)))
    (fun hst => by rw [hs.initialized]; exact h.fresh (hs.state ▸ hst)) fun hst => ?_
  · rw [hs.state,hs.ctxs]
    rw [hs.ctx] at hx
    exact h.ctx x hx
  · rw [hs.initialized]
    exact (h.ready (hs.state ▸ hst)).imp_right (Inv.elsewhere hwiped)

structure Pc.Plain (p : Pc) : Prop where
  claimed : p.claimed = false
  active : p.active = false
  locked : p.locked = false
  builds : p.builds = false

theorem Pc.Plain.wiped (h : p.Plain) : p.wiped = false := by
  refine Bool.eq_false_iff.2 fun hw => ?_
  have := h.active
  rw [Pc.active_of_wiped hw] at this
  cases this

theorem Pc.Plain.idle : Pc.Plain .idle := ⟨rfl,rfl,rfl,rfl⟩

theorem Pc.Plain.enter : Pc.Plain (.enter f) := ⟨rfl,rfl,rfl,rfl⟩

theorem Pc.Plain.check : Pc.Plain (.check f) := ⟨rfl,rfl,rfl,rfl⟩

theorem Pc.Plain.leave : Pc.Plain (.leave f) := ⟨rfl,rfl,rfl,rfl⟩

theorem Inv.plain (h : Inv s) (hg : Goes s c p s') (hs : Same s s') (hl : s'.layoutLock = s.layoutLock)
    (hp : p.Plain) (hc : (s.pc c).claimed = false) (hlocked : (s.pc c).locked = false)
    (hbuilds : (s.pc c).builds = false) (hwiped : (s.pc c).wiped = false) : Inv s' :=
  h.move hg hs (Knows.quiet hp.claimed hp.active) (.inl ⟨hl,hp.locked.trans hlocked.symm⟩)
    (hp.claimed.trans hc.symm) (hp.builds.trans hbuilds.symm) (hp.wiped.trans hwiped.symm)

open Function

variable {t : Sys} {q : Pc} {st : Status}

theorem Goes.inside (h : Inv s) (hq : s.pc c = q) (hpc : s'.pc = update s.pc c p) (hl : s'.lock = s.lock := by rfl)
    (hrun : q.runs = true := by rfl) (hp : p.runs = true := by rfl) (hd : p.deactivates = q.deactivates := by rfl) :
    Goes s c p s' := by
  subst hq
  refine ⟨by rw [hl]; exact h.lock,by rw [hl]; exact h.depthMax,hpc,fun i _ => by rw [hl]; exact ⟨rfl,rfl⟩,?_⟩
  rw [fits_runs hp,hd,hl]
  exact (fits_runs hrun).mp (h.fits c)

theorem Goes.locked {a : Rwlock.Act} (h : Inv s) (hl : s.lock.step c a = some l) (hlock : s'.lock = l)
    (hpc : s'.pc = update s.pc c p) (hfit : Fits p (l.phase c) (l.depth c)) : Goes s c p s' := by
  obtain ⟨hmax,hother⟩ := Rwlock.step_frame hl
  refine ⟨?_,?_,hpc,?_,?_⟩
  · rw [hlock]; exact h.lock.step hl
  · rw [hlock,hmax]; exact h.depthMax
  · rw [hlock]; exact hother
  · rw [hlock]; exact hfit

theorem setPhase_self {q : Rwlock.Phase} : (l.setPhase c q).phase c = q := update_self ..

theorem setDepth_self {n : Nat} : (l.setDepth c n).depth c = n := update_self ..

theorem Goes.leaving (h : Inv s) (hq : s.pc c = q) (hrun : q.runs = true) (hf : q.deactivates = decide (f = .deactivate))
    (hl : t.lock = s.lock) (hpc : t.pc = s.pc) (hs : t.toLeave c f st = some s') : Goes s c (.leave f) s' ∧ Same t s' ∧
    s'.layoutLock = t.layoutLock ∧ s'.res c = st := by
  subst hq
  obtain ⟨l,hstep,he⟩ := Option.map_eq_some_iff.mp hs
  subst he
  refine ⟨?_,⟨rfl,rfl,rfl,rfl,rfl⟩,rfl,update_self ..⟩
  rw [hl] at hstep
  apply Goes.locked h hstep rfl (by rw [← hpc]; rfl)
  have hfit := (fits_runs hrun).mp (h.fits c)
  rw [hf] at hfit
  by_cases hd : f = .deactivate
  · rw [if_pos (decide_eq_true hd)] at hfit
    rw [if_pos hd] at hstep
    simp only [Rwlock.Lock.step] at hstep
    split at hstep
    · cases hstep
      rw [hd]
      exact ⟨hfit.2,.inl setPhase_self⟩
    · cases hstep
  · rw [if_neg (by simpa using hd)] at hfit
    rw [if_neg hd] at hstep
    simp only [Rwlock.Lock.step] at hstep
    split at hstep
    · cases hstep
      have hgoal : s.lock.depth c = 1 ∧ ((s.lock.setPhase c .release).phase c = .release ∨
          (s.lock.setPhase c .release).phase c = .drop) := ⟨hfit.2,.inl setPhase_self⟩
      cases f <;> first | exact absurd rfl hd | exact hgoal
    · cases hstep

theorem Inv.returns (h : Inv s) (hq : s.pc c = q) (hs : s.toLeave c f st = some s')
    (hf : q.deactivates = decide (f = .deactivate) := by rfl) (hrun : q.runs = true := by rfl)
    (hc : q.claimed = false := by rfl) (hlocked : q.locked = false := by rfl) (hbuilds : q.builds = false := by rfl)
    (hwiped : q.wiped = false := by rfl) : Inv s' := by
  subst hq
  obtain ⟨hg,hsame,hl,_⟩ := Goes.leaving h rfl hrun hf rfl rfl hs
  exact h.plain hg hsame hl .leave hc hlocked hbuilds hwiped

theorem Inv.call (h : Inv s) (hp : s.pc c = .idle) (hs : s.call c f = some s') : Inv s' := by
  obtain ⟨l,hstep,he⟩ := Option.map_eq_some_iff.mp hs
  subst he
  have hfit : s.lock.phase c = .out ∧ s.lock.depth c = 0 := by
    have := h.fits c
    rw [hp] at this
    exact this
  refine h.plain (Goes.locked h hstep rfl rfl ?_) ⟨rfl,rfl,rfl,rfl,rfl⟩ rfl .enter (by rw [hp]; rfl) (by rw [hp]; rfl)
    (by rw [hp]; rfl) (by rw [hp]; rfl)
  by_cases hd : f = .deactivate
  · rw [if_pos hd] at hstep
    simp only [Rwlock.Lock.step] at hstep
    split at hstep
    · cases hstep
      rw [hd]
      exact ⟨hfit.2,.inl setPhase_self⟩
    · cases hstep
  · rw [if_neg hd] at hstep
    simp only [Rwlock.Lock.step] at hstep
    split at hstep
    · cases hstep
      have hgoal : s.lock.depth c = 0 ∧ (s.lock.setPhase c .gate).phase c = .gate := ⟨hfit.2,setPhase_self⟩
      cases f <;> first | exact absurd rfl hd | exact .inl ⟨hgoal.1,.inl hgoal.2⟩
    · cases hstep

theorem go_step (hl : s.lock.step c .go = some l) : s.lock.go c = some l := by
  simp only [Rwlock.Lock.step] at hl
  split at hl
  · exact hl
  · cases hl

theorem reader_enters (hf : f ≠ .deactivate) (hfit : Fits (.enter f) (s.lock.phase c) (s.lock.depth c))
    (hl : s.lock.go c = some l) :
    l.phase c = .out ∧ l.depth c = 1 ∨ l.phase c ≠ .out ∧ Fits (.enter f) (l.phase c) (l.depth c) := by
  have hw : ∀ {q : Rwlock.Phase} {n : Nat}, Fits (.enter f) q n ↔
      n = 0 ∧ (q = .gate ∨ q = .gateWriter ∨ q = .gateReaders ∨ q = .count) ∨ n = 1 ∧ q = .openGate := by
    intro q n
    cases f <;> first | exact absurd rfl hf | exact Iff.rfl
  rw [hw]
  rw [hw] at hfit
  unfold Rwlock.Lock.go at hl
  rcases hfit with ⟨hn,hq | hq | hq | hq⟩ | ⟨hn,hq⟩ <;> rw [hq] at hl <;> dsimp only at hl
  · split at hl <;> cases hl
    · exact .inr ⟨by rw [hq]; simp,.inl ⟨hn,.inl hq⟩⟩
    · exact .inr ⟨by rw [setPhase_self]; simp,.inl ⟨hn,.inr (.inl setPhase_self)⟩⟩
  · cases hl
    exact .inr ⟨by rw [setPhase_self]; simp,.inl ⟨hn,.inr (.inr (.inl setPhase_self))⟩⟩
  · cases hl
    exact .inr ⟨by rw [setPhase_self]; simp,.inl ⟨hn,.inr (.inr (.inr setPhase_self))⟩⟩
  · cases hl
    exact .inr ⟨by rw [setPhase_self]; simp,.inr ⟨setDepth_self.trans (by rw [hn]),setPhase_self⟩⟩
  · cases hl
    exact .inl ⟨setPhase_self,hn⟩

theorem writer_enters (hfit : Fits (.enter .deactivate) (s.lock.phase c) (s.lock.depth c))
    (hl : s.lock.go c = some l) :
    l.depth c = 0 ∧ (l.phase c = .writing ∨ l.phase c = .out ∨
      l.phase c ≠ .out ∧ l.phase c ≠ .writing ∧ Fits (.enter .deactivate) (l.phase c) (l.depth c)) := by
  unfold Rwlock.Lock.go at hl
  obtain ⟨hn,hq | hq | hq | hq | hq⟩ := hfit <;> rw [hq] at hl <;> dsimp only at hl
  · split at hl <;> cases hl
    · exact ⟨hn,.inr (.inl setPhase_self)⟩
    · exact ⟨hn,.inr (.inr ⟨by rw [setPhase_self]; simp,by rw [setPhase_self]; simp,hn,.inr (.inl setPhase_self)⟩)⟩
  · cases hl
    refine ⟨hn,.inr (.inr ?_)⟩
    split
    · exact ⟨by rw [setPhase_self]; simp,by rw [setPhase_self]; simp,hn,.inr (.inr (.inr (.inl setPhase_self)))⟩
    · exact ⟨by rw [setPhase_self]; simp,by rw [setPhase_self]; simp,hn,.inr (.inr (.inl setPhase_self))⟩
  · cases hl
    exact ⟨hn,.inr (.inl setPhase_self)⟩
  · cases hl
    exact ⟨hn,.inr (.inr ⟨by rw [setPhase_self]; simp,by rw [setPhase_self]; simp,hn,
      .inr (.inr (.inr (.inr setPhase_self)))⟩)⟩
  · cases hl
    exact ⟨hn,.inl setPhase_self⟩

theorem update_pc (hp : s.pc c = p) : s.pc = update s.pc c p := by
  rw [← hp,update_eq_self]

theorem Inv.passes {a : Rwlock.Act} (h : Inv s) (hq : s.pc c = q) (hplain : q.Plain)
    (hstep : s.lock.step c a = some l) (hp : p.Plain) (hl : t.lock = l) (hpc : t.pc = update s.pc c p) (hsame : Same s t)
    (hlay : t.layoutLock = s.layoutLock) (hfits : Fits p (l.phase c) (l.depth c)) : Inv t := by
  subst hq
  exact h.plain (Goes.locked h hstep hl hpc hfits) hsame hlay hp hplain.claimed hplain.locked hplain.builds hplain.wiped

theorem Inv.enter (h : Inv s) (hp : s.pc c = .enter f) (hs : s.enter c f = some s') : Inv s' := by
  obtain ⟨l,hstep,he⟩ := Option.map_eq_some_iff.mp hs
  have hfit := h.fits c
  rw [hp] at hfit
  by_cases hd : f = .deactivate
  · rw [hd] at hfit
    rw [if_pos hd] at he
    obtain ⟨hn,hw | ho | ⟨ho,hw,hfits⟩⟩ := writer_enters hfit (go_step hstep)
    · rw [if_pos hw] at he
      subst he
      refine h.passes hp .enter hstep .check rfl rfl ⟨rfl,rfl,rfl,rfl,rfl⟩ rfl ?_
      rw [hd]
      exact ⟨hw,hn⟩
    · rw [if_neg (by rw [ho]; simp),if_pos ho] at he
      subst he
      exact h.passes hp .enter hstep .idle rfl rfl ⟨rfl,rfl,rfl,rfl,rfl⟩ rfl ⟨ho,hn⟩
    · rw [if_neg hw,if_neg ho] at he
      subst he
      exact h.passes hp .enter hstep .enter rfl (update_pc hp) ⟨rfl,rfl,rfl,rfl,rfl⟩ rfl (by rw [hd]; exact hfits)
  · rw [if_neg hd] at he
    rcases reader_enters hd hfit (go_step hstep) with ⟨ho,hn⟩ | ⟨ho,hfits⟩
    · rw [if_pos ho] at he
      subst he
      refine h.passes hp .enter hstep .check rfl rfl ⟨rfl,rfl,rfl,rfl,rfl⟩ rfl ?_
      cases f <;> first | exact absurd rfl hd | exact ⟨ho,hn⟩
    · rw [if_neg ho] at he
      subst he
      exact h.passes hp .enter hstep .enter rfl (update_pc hp) ⟨rfl,rfl,rfl,rfl,rfl⟩ rfl hfits

theorem leaves (hfit : Fits (.leave f) (s.lock.phase c) (s.lock.depth c)) (hl : s.lock.go c = some l) :
    l.phase c = .out ∧ l.depth c = 0 ∨ l.phase c ≠ .out ∧ Fits (.leave f) (l.phase c) (l.depth c) := by
  unfold Rwlock.Lock.go at hl
  by_cases hd : f = .deactivate
  · rw [hd] at hfit ⊢
    obtain ⟨hn,hq | hq | hq⟩ := hfit <;> rw [hq] at hl <;> cases hl
    · exact .inr ⟨by rw [setPhase_self]; simp,hn,.inr (.inl setPhase_self)⟩
    · exact .inr ⟨by rw [setPhase_self]; simp,hn,.inr (.inr setPhase_self)⟩
    · exact .inl ⟨setPhase_self,hn⟩
  · have hw : ∀ {q : Rwlock.Phase} {n : Nat}, Fits (.leave f) q n ↔ n = 1 ∧ (q = .release ∨ q = .drop) := by
      intro q n
      cases f <;> first | exact absurd rfl hd | exact Iff.rfl
    rw [hw]
    obtain ⟨hn,hq | hq⟩ := hw.mp hfit <;> rw [hq] at hl <;> cases hl
    · exact .inr ⟨by rw [setPhase_self]; simp,hn,.inr setPhase_self⟩
    · exact .inl ⟨setPhase_self,setDepth_self.trans (by rw [hn])⟩

theorem Inv.leave (h : Inv s) (hp : s.pc c = .leave f) (hs : s.leave c = some s') : Inv s' := by
  obtain ⟨l,hstep,he⟩ := Option.map_eq_some_iff.mp hs
  have hfit := h.fits c
  rw [hp] at hfit
  rcases leaves hfit (go_step hstep) with ⟨ho,hn⟩ | ⟨ho,hfits⟩
  · rw [if_pos ho] at he
    subst he
    exact h.passes hp .leave hstep .idle rfl rfl ⟨rfl,rfl,rfl,rfl,rfl⟩ rfl ⟨ho,hn⟩
  · rw [if_neg ho] at he
    subst he
    exact h.passes hp .leave hstep .leave rfl (update_pc hp) ⟨rfl,rfl,rfl,rfl,rfl⟩ rfl hfits

structure Pc.Follows (p q : Pc) : Prop where
  source : q.runs = true
  runs : p.runs = true
  deactivates : p.deactivates = q.deactivates
  claimed : p.claimed = q.claimed
  builds : p.builds = q.builds
  wiped : p.wiped = q.wiped

theorem Inv.goes (h : Inv s) (hq : s.pc c = q) (hself : Knows s p) (hf : p.Follows q := by constructor <;> rfl)
    (hlocked : p.locked = q.locked := by rfl) : Inv (s.setPc c p) := by
  subst hq
  exact h.move (.inside h rfl rfl rfl hf.source hf.runs hf.deactivates) ⟨rfl,rfl,rfl,rfl,rfl⟩ hself (.inl ⟨rfl,hlocked⟩)
    hf.claimed hf.builds hf.wiped

theorem Knows.runs (hact : s.state = .active) (hc : p.claimed = false) (hi : p.idled = true → ∀ x, s.ctx x = false)
    (hw : p.wiped = true → s.initialized = false) : Knows s p :=
  ⟨fun hq => absurd (hc.symm.trans hq) nofun,fun _ => hact,hi,hw⟩

theorem Inv.check (h : Inv s) (hp : s.pc c = .check f) (hs : s.check c f = some s') : Inv s' := by
  have hret : ∀ {st : Status}, s.toLeave c f st = some s' → Inv s' := fun hs =>
    h.returns hp hs (by cases f <;> rfl)
  have hgo : ∀ {q : Pc}, q.Plain → q.runs = true → q.deactivates = (Pc.check f).deactivates → Inv (s.setPc c q) :=
    fun hq hr hd => h.goes hp (Knows.quiet hq.claimed hq.active) ⟨rfl,hr,hd,hq.claimed,hq.builds,hq.wiped⟩ hq.locked
  cases f <;> simp only [Sys.check] at hs
  case info => exact hret hs
  case query | sroOp x =>
    cases hs
    exact hgo ⟨rfl,rfl,rfl,rfl⟩ rfl rfl
  case other =>
    split at hs
    · exact hret hs
    next hst =>
    cases hs
    exact h.goes hp (Knows.runs (by simpa using hst) rfl nofun nofun)
  all_goals
    split at hs
    · exact hret hs
    · cases hs
      exact hgo ⟨rfl,rfl,rfl,rfl⟩ rfl rfl

end TfRmm.Dispatch
