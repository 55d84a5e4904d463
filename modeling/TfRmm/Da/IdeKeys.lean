import Mathlib.Logic.Function.Basic
import TfRmm.Lib.Transition

namespace TfRmm.Ide

open TfRmm.Lib
open Function

inductive KeySet where
  | k0
  | k1
  deriving DecidableEq

inductive Direction where
  | rx
  | tx
  deriving DecidableEq

inductive Party where
  | endpoint
  | rootPort
  deriving DecidableEq

abbrev SubStream := Fin 3

inductive KeyOp where
  | prog
  | go
  | stop
  deriving DecidableEq

inductive Op where
  | findDvsec
  | readCtl2
  | writeCtl2 (toLock : Bool)
  | readLocked
  | query
  | random (d : Direction)
  | key (x : KeyOp) (p : Party) (k : KeySet) (d : Direction) (i : SubStream)
  deriving DecidableEq

abbrev Started := Party → Direction → SubStream → Option KeySet

namespace Op

def isKey : Op → Bool
  | key .. => true
  | _ => false

def isGo : Op → Bool
  | key .go .. => true
  | _ => false

def apply (f : Started) : Op → Started
  | key .go p k d i => update f p (update (f p) d (update (f p d) i (some k)))
  | _ => f

end Op

structure Info where
  hasIde : Bool
  ideActive : Bool
  ideKslotCur : KeySet
  rootPortEcam : BitVec 64
  rpEcamAddr : BitVec 64
  started : Started
  asked : List Op

def andThen (x : Info × Bool) (f : Info → Info × Bool) : Info × Bool := if x.2 then f x.1 else x

def subStreams : List SubStream := [0,1,2]

def keySetStop (k : KeySet) (d : Direction) : List Op :=
  subStreams.map (.key .stop .endpoint k d) ++ subStreams.map (.key .stop .rootPort k d)

def keySetGo (k : KeySet) (d : Direction) : List Op :=
  subStreams.map (.key .go .endpoint k d) ++ subStreams.map (.key .go .rootPort k d)

def keyProg (k : KeySet) : List Op :=
  [.random .rx,.random .tx] ++ subStreams.flatMap (fun i => [.key .prog .endpoint k .rx i,.key .prog .endpoint k .tx i]) ++
    subStreams.flatMap fun i => [.key .prog .rootPort k .rx i,.key .prog .rootPort k .tx i]

section Code

variable (e : Op → Bool)

def requests : List Op → Info → Info × Bool
  | [], s => (s,true)
  | o :: l, s =>
    if e o then requests l { s with asked := s.asked ++ [o],started := o.apply s.started }
    else ({ s with asked := s.asked ++ [o] },false)

def ideRefresh (k : KeySet) (s : Info) : Info × Bool :=
  andThen (requests e (keyProg k ++ (keySetGo k .rx ++ keySetGo k .tx)) s) fun s => ({ s with ideKslotCur := k },true)

def dvsecInit (s : Info) : Info × Bool :=
  andThen (requests e [.findDvsec] s) fun s => ({ s with rpEcamAddr := s.rootPortEcam },true)

def dvsecStreamLock (toLock : Bool) (s : Info) : Info × Bool :=
  if s.rpEcamAddr = 0 then (s,false) else requests e [.readCtl2,.writeCtl2 toLock] s

def lockAndQuery (s : Info) : Info × Bool :=
  andThen (andThen (dvsecInit e s) (dvsecStreamLock e true)) (requests e [.query])

def ideSetup (s : Info) : Option (Info × Bool) :=
  let r := lockAndQuery e s
  if r.2 then
    let r := ideRefresh e .k0 r.1
    let locked := requests e [.readLocked] r.1
    if locked.2 then some (locked.1,r.2) else none
  else some r

def cmdIdeSetup (s : Info) : Option (Info × Bool) :=
  if s.hasIde then (ideSetup e s).map fun r => andThen r fun s => ({ s with ideActive := true },true)
  else some (s,true)

def ideRefreshMain (s : Info) : Option (Info × Bool) :=
  if s.hasIde = false then some (s,false)
  else if s.rpEcamAddr = 0 then none
  else some (andThen (requests e [.readLocked] s) fun s =>
    ideRefresh e (if s.ideKslotCur = .k0 then .k1 else .k0) s)

def ideTeardown (s : Info) : Info × Bool :=
  let tx := requests e (keySetStop s.ideKslotCur .tx) s
  let rx := requests e (keySetStop tx.1.ideKslotCur .rx) tx.1
  let unlock := dvsecStreamLock e false rx.1
  ({ unlock.1 with rpEcamAddr := 0 },tx.2 && rx.2 && unlock.2)

def cmdIdeDisconnect (s : Info) : Info × Bool := (if s.ideActive then (ideTeardown e s).1 else s,true)

end Code

inductive Cmd where
  | setup
  | refresh
  | disconnect
  deriving DecidableEq

def exec (e : Op → Bool) (s : Info) : Cmd → Option (Info × Bool)
  | .setup => cmdIdeSetup e { s with asked := [] }
  | .refresh => ideRefreshMain e { s with asked := [] }
  | .disconnect => some (cmdIdeDisconnect e { s with asked := [] })

def since (c : Cmd) (s : Info) : Info := if c = .disconnect then { s with started := fun _ _ _ => none } else s

def Idle (s : Info) : Prop := ∀ p d i, s.started p d i = none

def system : TransitionSystem Info (Cmd × (Op → Bool)) where
  init s := s.ideActive = false ∧ s.rpEcamAddr = 0 ∧ Idle s
  step s l t := ∃ r, exec l.2 s l.1 = some r ∧ t = since l.1 r.1

def Full (s : Info) : Prop := ∀ p d i, s.started p d i = some s.ideKslotCur

def Consistent (s : Info) (c : Cmd) (r : Info × Bool) : Prop :=
  if c = .disconnect then
    (∀ d i k, s.started .rootPort d i = some k →
      .key .stop .rootPort k d i ∈ r.1.asked ∧ .writeCtl2 false ∈ r.1.asked) ∧
    (Idle s → ∀ o ∈ r.1.asked, o.isKey = false)
  else r.2 = true → Full r.1

def Smooth (s : Info) (l : Cmd × (Op → Bool)) : Prop :=
  match l.1 with
  | .setup => s.hasIde = true ∧ ∀ o, o.isGo = true → l.2 o = true
  | .refresh => s.ideActive = true ∧ ∀ o, o.isGo = true → l.2 o = true
  | .disconnect => (∀ p k d i, l.2 (.key .stop p k d i) = true) ∧ l.2 .readCtl2 = true ∧ (s.ideActive = true → ¬ Idle s)

structure Inv (s : Info) : Prop where
  started : ∀ d i k, s.started .rootPort d i = some k → s.ideActive = true ∧ s.rpEcamAddr ≠ 0 ∧ k = s.ideKslotCur
  ecam : s.rpEcamAddr = 0 ∨ s.rpEcamAddr = s.rootPortEcam

def Quiet (s t : Info) : Prop := ∃ l, t = { s with asked := s.asked ++ l }

variable {e : Op → Bool} {s t u : Info} {c : Cmd} {r : Info × Bool} {k : KeySet} {d : Direction} {l : List Op} {o : Op}

theorem Quiet.trans (h : Quiet s t) (h' : Quiet t u) : Quiet s u := by
  obtain ⟨l,rfl⟩ := h
  obtain ⟨l',rfl⟩ := h'
  exact ⟨l ++ l',by simp⟩

theorem Quiet.fields (h : Quiet s t) : t.ideActive = s.ideActive ∧ t.ideKslotCur = s.ideKslotCur ∧
    t.rpEcamAddr = s.rpEcamAddr ∧ ∀ o ∈ s.asked, o ∈ t.asked := by
  obtain ⟨l,rfl⟩ := h
  exact ⟨rfl,rfl,rfl,fun o => List.mem_append_left _⟩

theorem Inv.quiet (hi : Inv s) (hq : Quiet s t) : Inv t := by
  obtain ⟨l,rfl⟩ := hq
  exact ⟨hi.started,hi.ecam⟩

theorem requests_quiet (h : ∀ o ∈ l, o.isGo = false) (s : Info) : Quiet s (requests e l s).1 := by
  induction l generalizing s with
  | nil => exact ⟨[],by simp [requests]⟩
  | cons o l ih =>
    have ho : o.apply s.started = s.started := by
      have := h o (by simp)
      cases o with
      | key x => cases x <;> first | rfl | cases this
      | _ => rfl
    rw [requests,ho]
    split
    · exact Quiet.trans ⟨[o],rfl⟩ (ih (fun o ho => h o (List.mem_cons_of_mem _ ho)) _)
    · exact ⟨[o],rfl⟩

theorem requests_ok (h : ∀ o ∈ l, e o = true) (s : Info) : requests e l s =
    ({ s with asked := s.asked ++ l,started := l.foldl (fun f o => o.apply f) s.started },true) := by
  induction l generalizing s with
  | nil => simp [requests]
  | cons o l ih =>
    rw [requests,if_pos (h o (by simp)),ih fun o ho => h o (List.mem_cons_of_mem _ ho)]
    simp

theorem requests_append {l' : List Op} (s : Info) : requests e (l ++ l') s = andThen (requests e l s) (requests e l') := by
  induction l generalizing s with
  | nil => rfl
  | cons o l ih =>
    simp only [List.cons_append,requests]
    split
    · exact ih _
    · rfl

theorem started_go (f : Started) :
    (keySetGo k .rx ++ keySetGo k .tx).foldl (fun f o => o.apply f) f = fun _ _ _ => some k := by
  funext p d i
  revert i
  cases p <;> cases d <;> simp [keySetGo,subStreams,Op.apply,Fin.forall_fin_succ,update]

theorem dvsecStreamLock_quiet (b : Bool) (s : Info) : Quiet s (dvsecStreamLock e b s).1 := by
  unfold dvsecStreamLock
  split
  · exact ⟨[],by simp⟩
  · exact requests_quiet (by simp [Op.isGo]) s

theorem Inv.dvsecInit (hi : Inv s) : Inv (dvsecInit e s).1 := by
  obtain ⟨l,hl⟩ := requests_quiet (l := [.findDvsec]) (by simp [Op.isGo]) s
  unfold Ide.dvsecInit andThen
  split
  · rw [hl]
    refine ⟨fun d i k hk => ?_,.inr rfl⟩
    obtain ⟨h1,h2,h3⟩ := hi.started d i k hk
    exact ⟨h1,fun h0 => h2 (hi.ecam.elim id fun he => he.trans h0),h3⟩
  · exact hi.quiet ⟨l,hl⟩

theorem dvsecStreamLock_ne {b : Bool} (h : (dvsecStreamLock e b s).2 = true) : s.rpEcamAddr ≠ 0 := fun h0 => by
  rw [dvsecStreamLock,if_pos h0] at h
  cases h

theorem Inv.lockAndQuery (hi : Inv s) :
    Inv (lockAndQuery e s).1 ∧ ((lockAndQuery e s).2 = true → (lockAndQuery e s).1.rpEcamAddr ≠ 0) := by
  have h1 := hi.dvsecInit (e := e)
  unfold Ide.lockAndQuery
  generalize Ide.dvsecInit e s = x at h1 ⊢
  have hq := dvsecStreamLock_quiet (e := e) true x.1
  have hq' := hq.trans (requests_quiet (e := e) (l := [.query]) (by simp [Op.isGo]) _)
  unfold andThen
  split
  · split
    next hy =>
      refine ⟨h1.quiet hq',fun _ => ?_⟩
      rw [hq'.fields.2.2.1]
      exact dvsecStreamLock_ne hy
    next hy => exact ⟨h1.quiet hq,fun h => absurd h hy⟩
  next hx => exact ⟨h1,fun h => absurd h hx⟩

section

variable (h : ∀ o, o.isGo = true → e o = true)

include h

theorem ideRefresh_spec (k : KeySet) (s : Info) :
    (∃ l, ideRefresh e k s = ({ s with
      asked := s.asked ++ l,ideKslotCur := k,started := fun _ _ _ => some k },true)) ∨
      (ideRefresh e k s).2 = false ∧ Quiet s (ideRefresh e k s).1 := by
  obtain ⟨l,hq⟩ := requests_quiet (l := keyProg k) (by simp [keyProg,subStreams,Op.isGo]) s
  have hgo : ∀ o ∈ keySetGo k .rx ++ keySetGo k .tx, e o = true := fun o ho => h o (by
    simp only [keySetGo,List.mem_append,List.mem_map] at ho
    obtain (⟨i,-,rfl⟩ | ⟨i,-,rfl⟩) | ⟨i,-,rfl⟩ | ⟨i,-,rfl⟩ := ho <;> rfl)
  unfold ideRefresh
  rw [requests_append]
  generalize requests e (keyProg k) s = x at hq ⊢
  obtain ⟨t,ok⟩ := x
  cases ok with
  | false => exact .inr ⟨rfl,l,hq⟩
  | true =>
    refine .inl ⟨l ++ (keySetGo k .rx ++ keySetGo k .tx),?_⟩
    simp only [andThen,if_true,requests_ok hgo,started_go]
    rw [show t = _ from hq]
    simp

theorem Inv.ideRefresh (hi : Inv s) (ha : s.rpEcamAddr ≠ 0) :
    (ideRefresh e k s).2 = true ∧ Full (ideRefresh e k s).1 ∧
        Inv { (ideRefresh e k s).1 with ideActive := true } ∧ (ideRefresh e k s).1.ideActive = s.ideActive ∨
      (ideRefresh e k s).2 = false ∧ Inv (ideRefresh e k s).1 := by
  obtain ⟨l,hr⟩ | ⟨hr,hq⟩ := ideRefresh_spec h k s
  · rw [hr]
    exact .inl ⟨rfl,fun _ _ _ => rfl,⟨fun d i k hk => ⟨rfl,ha,(Option.some.inj hk).symm⟩,hi.ecam⟩,rfl⟩
  · exact .inr ⟨hr,hi.quiet hq⟩

theorem Inv.ideSetup (hi : Inv s) (hx : ideSetup e s = some r) :
    r.2 = true ∧ Full r.1 ∧ Inv { r.1 with ideActive := true } ∨ r.2 = false ∧ Inv r.1 := by
  obtain ⟨hz,hne⟩ := hi.lockAndQuery
  simp only [Ide.ideSetup] at hx
  generalize Ide.lockAndQuery e s = z at hx hz hne
  split at hx
  next hok =>
    split at hx
    · obtain rfl := Option.some.inj hx
      obtain ⟨l,hl⟩ := requests_quiet (l := [.readLocked]) (by simp [Op.isGo]) (Ide.ideRefresh e .k0 z.1).1
      rw [hl]
      obtain ⟨h1,h2,h3,-⟩ | ⟨h1,h2⟩ := hz.ideRefresh h (hne hok)
      · exact .inl ⟨h1,h2,h3.started,h3.ecam⟩
      · exact .inr ⟨h1,h2.quiet ⟨l,rfl⟩⟩
    · cases hx
  next hok =>
    obtain rfl := Option.some.inj hx
    exact .inr ⟨by simpa using hok,hz⟩

theorem Inv.cmdIdeSetup (hi : Inv s) (hide : s.hasIde = true)
    (hx : cmdIdeSetup e s = some r) : (r.2 = true → Full r.1) ∧ Inv r.1 := by
  rw [Ide.cmdIdeSetup,if_pos hide] at hx
  obtain ⟨x,hr,rfl⟩ := Option.map_eq_some_iff.1 hx
  obtain ⟨h1,h2,h3⟩ | ⟨h1,h2⟩ := hi.ideSetup h hr
  · rw [andThen,if_pos h1]
    exact ⟨fun _ => h2,h3⟩
  · rw [andThen,if_neg (by rw [h1]; nofun)]
    exact ⟨fun h => absurd (h1.symm.trans h) nofun,h2⟩

theorem Inv.ideRefreshMain (hi : Inv s) (hact : s.ideActive = true)
    (hx : ideRefreshMain e s = some r) : (r.2 = true → Full r.1) ∧ Inv r.1 := by
  unfold Ide.ideRefreshMain at hx
  split at hx
  · cases hx
    exact ⟨nofun,hi⟩
  split at hx
  · cases hx
  next hne =>
    obtain rfl := Option.some.inj hx
    have hq := requests_quiet (e := e) (l := [.readLocked]) (by simp [Op.isGo]) s
    unfold andThen
    split
    · obtain ⟨h1,h2,h3,h4⟩ | ⟨h1,h2⟩ := (hi.quiet hq).ideRefresh
        h (hq.fields.2.2.1.trans_ne hne)
      · exact ⟨fun _ => h2,fun d i k hk => ⟨(h4.trans hq.fields.1).trans hact,(h3.started d i k hk).2⟩,h3.ecam⟩
      · exact ⟨fun h => absurd (h1.symm.trans h) nofun,h2⟩
    next hf => exact ⟨fun h => absurd h hf,hi.quiet hq⟩

end

theorem ideTeardown_asks (h : ∀ p k d i, e (.key .stop p k d i) = true) (hr : e .readCtl2 = true)
    (ha : s.rpEcamAddr ≠ 0) : .writeCtl2 false ∈ (ideTeardown e s).1.asked ∧
      ∀ d i, .key .stop .rootPort s.ideKslotCur d i ∈ (ideTeardown e s).1.asked := by
  have hq : ∀ d t, Quiet t (requests e (keySetStop t.ideKslotCur d) t).1 := fun d t =>
    requests_quiet (by simp [keySetStop,subStreams,Op.isGo]) t
  have hmem : ∀ d t k, t.ideKslotCur = k → ∀ i,
      .key .stop .rootPort k d i ∈ (requests e (keySetStop t.ideKslotCur d) t).1.asked := by
    rintro d t k rfl
    rw [requests_ok (by simp [keySetStop,subStreams,h])]
    simp [keySetStop,subStreams,Fin.forall_fin_succ]
  have htx := hq .tx s
  have hrx := hq .rx (requests e (keySetStop s.ideKslotCur .tx) s).1
  have hne := (htx.trans hrx).fields.2.2.1.trans_ne ha
  have hun := fun t => (dvsecStreamLock_quiet (e := e) false t).fields.2.2.2
  refine ⟨?_,fun d i => ?_⟩
  · show _ ∈ (dvsecStreamLock e false _).1.asked
    rw [dvsecStreamLock,if_neg hne,requests,if_pos hr,requests]
    split <;> simp [requests]
  · cases d with
    | tx => exact hun _ _ (hrx.fields.2.2.2 _ (hmem .tx s _ rfl i))
    | rx => exact hun _ _ (hmem .rx _ _ htx.fields.2.1 i)

theorem exec_spec (hi : Inv s) (hg : Smooth s (c,e)) (hx : exec e s c = some r) : Consistent s c r ∧ Inv (since c r.1) := by
  have hi' : Inv { s with asked := [] } := ⟨hi.started,hi.ecam⟩
  cases c with
  | setup => exact hi'.cmdIdeSetup hg.2 hg.1 hx
  | refresh => exact hi'.ideRefreshMain hg.2 hg.1 hx
  | disconnect =>
    obtain ⟨hstop,hread,hs⟩ := hg
    obtain rfl := Option.some.inj hx
    refine ⟨⟨fun d i k hk => ?_,fun hn o ho => ?_⟩,nofun,?_⟩
    · obtain ⟨h1,h2,rfl⟩ := hi.started d i k hk
      have := ideTeardown_asks (s := { s with asked := [] }) hstop hread h2
      rw [cmdIdeDisconnect,if_pos h1]
      exact ⟨this.2 d i,this.1⟩
    · rw [cmdIdeDisconnect,if_neg fun h => hs h hn] at ho
      cases ho
    · rw [cmdIdeDisconnect]
      split
      · exact .inl rfl
      · exact hi.ecam

theorem Inv.reachable (h : system.ReachableUnder Smooth s) : Inv s := by
  have hinit : ∀ s, system.init s → Inv s := fun s h =>
    ⟨fun d i k hk => absurd ((h.2.2 _ d i).symm.trans hk) nofun,.inl h.2.1⟩
  apply h.invariant hinit
  rintro s l t hi hg ⟨r,hx,rfl⟩
  exact (exec_spec hi hg hx).2

theorem ide_keys_consistent (h : system.ReachableUnder Smooth s) (hg : Smooth s (c,e))
    (hx : exec e s c = some r) : Consistent s c r :=
  (exec_spec (.reachable h) hg hx).1

def connected : Info := ⟨true,false,.k0,0x40000000,0,fun _ _ _ => none,[]⟩

def setUp : Info × Bool := (exec (fun _ => true) connected .setup).getD (connected,false)

def refreshed : Info × Bool :=
  (exec (fun _ => true) (since .setup setUp.1) .refresh).getD (connected,false)

def stopped : Info × Bool :=
  (exec (fun _ => true) (since .refresh refreshed.1) .disconnect).getD (connected,false)

theorem ide_keys_consistent_setup : setUp.2 = true ∧ refreshed.2 = true ∧ stopped.2 = true ∧
    Consistent connected .setup setUp ∧ Consistent (since .setup setUp.1) .refresh refreshed ∧
      Consistent (since .refresh refreshed.1) .disconnect stopped := by
  have h0 : system.ReachableUnder Smooth connected := .initial ⟨rfl,rfl,fun _ _ _ => rfl⟩
  have hsetup : Smooth connected (.setup,fun _ => true) := ⟨rfl,fun _ _ => rfl⟩
  have h1 : system.ReachableUnder Smooth (since .setup setUp.1) := h0.next hsetup ⟨_,rfl,rfl⟩
  have hrefresh : Smooth (since .setup setUp.1) (.refresh,fun _ => true) := ⟨rfl,fun _ _ => rfl⟩
  have h2 : system.ReachableUnder Smooth (since .refresh refreshed.1) := h1.next hrefresh ⟨_,rfl,rfl⟩
  have hstop : Smooth (since .refresh refreshed.1) (.disconnect,fun _ => true) :=
    ⟨fun _ _ _ _ => rfl,rfl,fun _ h => absurd (h .rootPort .tx 0) (by decide)⟩
  exact ⟨by decide,by decide,by decide,ide_keys_consistent h0 hsetup rfl,ide_keys_consistent h1 hrefresh rfl,
    ide_keys_consistent h2 hstop rfl⟩

theorem endpoint_failure_keeps_root_port : ∃ r, exec (fun _ => true) connected .setup = some r ∧ r.2 = true ∧
    ∃ q, exec (fun o => o != .key .stop .endpoint .k0 .tx 0) r.1 .disconnect = some q ∧
      r.1.started .rootPort .tx 0 = some .k0 ∧ .key .stop .rootPort .k0 .tx 0 ∉ q.1.asked := by
  refine ⟨_,rfl,by decide,_,rfl,by decide,by decide⟩

end TfRmm.Ide
