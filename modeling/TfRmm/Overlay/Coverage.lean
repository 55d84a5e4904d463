import TfRmm.Overlay.Effects

namespace TfRmm.Overlay

open TfRmm.S2tt

open TfRmm.Lib

variable {cfg : Config} {w u : World} {r t i idx : Nat} {cmd : Command}

def World.InProgress (w : World) (r idx : Nat) : Prop :=
  (w.recs r).setS2ap.pending ∧ (w.recs r).setS2ap.index % uintMax = idx ∧
    (w.recs r).setS2ap.base ≠ (w.recs r).setS2ap.start

def Careful (w : World) : Command → Prop
  | .memSetPermValue _ _ permIndex _ => ∀ r, ¬w.InProgress r (permIndex % uintMax)
  | .recEnter r reject => reject = true → ∀ idx, w.InProgress r idx → w.overlayIndexLock idx = true
  | _ => True

def basePermIdx (e : Entry) : Nat := if e.dev then devDefBasePermIdx else defBasePermIdx

def initOverlayPerm (cfg : Config) (ctx : Nat) : Nat :=
  let default := if ctx = cfg.planeToS2Context 0 then 15 else 0
  setOverlayPerm ((List.range defUnprotOverlayIdx).foldl (fun reg i => setOverlayPerm reg i default) 0)
    defUnprotOverlayIdx 12

structure Shape (cfg : Config) (w : World) : Prop where
  root : ∀ k < cfg.trees, ∀ x, cfg.treeOf (cfg.slTable k x) = k
  child : ∀ t i c, (w.tables t i).table = some c → cfg.treeOf c = cfg.treeOf t

structure Initial (cfg : Config) (w : World) : Prop where
  shape : Shape cfg w
  overlay : ∀ ctx, w.overlayPerm ctx = initOverlayPerm cfg ctx
  lock : ∀ i, w.overlayIndexLock i = (i == defProtOverlayIdx || i == defUnprotOverlayIdx)
  given : ∀ t i, (w.tables t i).given = defProtOverlayIdx
  direct : cfg.indirectS2ap = false → ∀ t i, (w.tables t i).ap =
    flattenedAp (w.overlayPerm (cfg.treeOf t)) (basePermIdx (w.tables t i)) (w.tables t i).given
  recs : ∀ r, (w.recs r).setS2ap = .none

def system (cfg : Config) : TransitionSystem World Command where
  init := Initial cfg
  step w cmd u := w.exec cfg cmd = u

def World.Fixed (w : World) (idx : Nat) : Prop := w.overlayIndexLock idx = true ∨ ∃ r, w.InProgress r idx

structure RequestOk (cfg : Config) (x : Rec) : Prop where
  idle : x.running = true → ¬x.setS2ap.pending
  start : x.setS2ap.start ≤ x.setS2ap.base
  index : x.setS2ap.pending → ovrlPermIndexValid (x.setS2ap.index % uintMax) = true
  tree : cfg.rttTreePp = true → getRttIdxFromCookie x.setS2ap.cookie < cfg.numPlanes

structure Inv (cfg : Config) (w : World) : Prop where
  shape : Shape cfg w
  recs : ∀ r, RequestOk cfg (w.recs r)
  given : ∀ t i, w.Fixed (w.tables t i).given
  direct : cfg.indirectS2ap = false → ∀ t i, (w.tables t i).ap =
    flattenedAp (w.overlayPerm (cfg.treeOf t)) (basePermIdx (w.tables t i)) (w.tables t i).given

theorem RequestOk.cleared : RequestOk cfg ⟨true,.none⟩ where
  idle := fun _ => none_not_pending
  start := Nat.le_refl _
  index := fun h => absurd h none_not_pending
  tree := fun _ => cfg.planes_pos

theorem idle_of_pending (h : Inv cfg w) (hp : (w.recs r).setS2ap.pending) : (w.recs r).running = false := by
  refine Bool.eq_false_iff.2 fun hr => ?_
  exact absurd hp ((h.recs r).idle hr)

theorem inProgress_after (h : Inv cfg w) (he : Effect cfg w cmd u) (hp : w.InProgress r idx)
    (hcmd : ∀ reject, cmd ≠ .recEnter r reject) : u.InProgress r idx := by
  have hkeep : (u.recs r).setS2ap = (w.recs r).setS2ap → u.InProgress r idx := fun hu => by
    unfold World.InProgress
    rw [hu]
    exact hp
  cases he with
  | nothing | value => exact hp
  | request r' _ _ _ _ _ hrun =>
    apply hkeep
    have hne : r ≠ r' := by
      rintro rfl
      rw [idle_of_pending h hp.1] at hrun
      cases hrun
    rw [recs_setRec,if_neg hne]
  | exit r' =>
    apply hkeep
    rw [recs_setRec]
    split
    · next hr => rw [hr]
    · rfl
  | sweep r' _ _ _ _ s _ _ _ _ hs =>
    by_cases hr : r = r'
    · subst hr
      have hst := (h.recs r).start
      have hf := hs.forward
      obtain ⟨h1,h2,h3⟩ := hp
      simp only [World.InProgress,World.setRequest,recs_setRec,if_true]
      exact ⟨h1,h2,by omega⟩
    · apply hkeep
      rw [World.setRequest,recs_setRec,if_neg hr,hs.recs]
  | enter r' reject | reject r' =>
    apply hkeep
    have hne : r ≠ r' := by
      rintro rfl
      exact hcmd _ rfl
    rw [recs_setRec,if_neg hne]
  | accept r' =>
    apply hkeep
    have hne : r ≠ r' := by
      rintro rfl
      exact hcmd _ rfl
    rw [recs_setRec,if_neg hne]
    rfl

theorem lock_after (he : Effect cfg w cmd u) (h : w.overlayIndexLock idx = true) : u.overlayIndexLock idx = true := by
  cases he with
  | nothing | value | request | exit | enter | reject => exact h
  | sweep _ _ _ _ _ _ _ _ _ _ hs => exact (congrFun hs.lock idx).trans h
  | accept r =>
    show Function.update w.overlayIndexLock _ true idx = true
    by_cases hi : idx = (w.recs r).setS2ap.index % uintMax
    · rw [hi,Function.update_self]
    · rw [Function.update_of_ne hi,h]

theorem fixed_after (h : Inv cfg w) (he : Effect cfg w cmd u) (hg : Careful w cmd) (hf : w.Fixed idx) : u.Fixed idx := by
  rcases hf with hl | ⟨r,hp⟩
  · exact .inl (lock_after he hl)
  by_cases hcmd : ∃ reject, cmd = .recEnter r reject
  · obtain ⟨reject,rfl⟩ := hcmd
    cases he with
    | nothing => exact .inr ⟨r,hp⟩
    | enter _ _ hn => exact absurd hp.1 hn
    | reject => exact .inl (hg rfl idx hp)
    | accept =>
      left
      show Function.update w.overlayIndexLock _ true idx = true
      rw [hp.2.1,Function.update_self]
  · exact .inr ⟨r,inProgress_after h he hp fun reject hr => hcmd ⟨reject,hr⟩⟩

theorem value_after (he : Effect cfg w cmd u) (hg : Careful w cmd) (hf : w.Fixed idx) (ctx : Nat) :
    getPermValue (u.overlayPerm ctx) idx = getPermValue (w.overlayPerm ctx) idx := by
  cases he with
  | nothing | request | exit | enter | reject | accept => rfl
  | sweep _ _ _ _ _ _ _ _ _ _ hs => exact congrArg (fun f => getPermValue (f ctx) idx) hs.overlayPerm
  | value r planeId permIndex permValue hlock hv =>
    have hne : idx ≠ permIndex % uintMax := by
      rintro rfl
      rcases hf with hl | ⟨r',hp⟩
      · rw [hlock] at hl
        cases hl
      · exact hg r' hp
    by_cases hc : ctx = cfg.planeToS2Context planeId
    · simp only [hc,Function.update_self]
      exact getPermValue_of_ne hv hne
    · simp only [Function.update_of_ne hc]

theorem flattenedAp_congr {por por' b : Nat} (h : getPermValue por idx = getPermValue por' idx) :
    flattenedAp por b idx = flattenedAp por' b idx := by
  unfold flattenedAp
  rw [h]

theorem treeIdx_lt {x : Rec} (h : RequestOk cfg x) : cfg.treeIdx x.setS2ap < cfg.trees := by
  unfold Config.treeIdx Config.trees
  split
  next hpp => exact h.tree hpp
  next => exact Nat.zero_lt_one

theorem walkFrom_tree {addr m l} (h : Shape cfg w) {k : Nat} (ht : cfg.treeOf t = k) :
    cfg.treeOf (w.walkFrom addr m t l).1 = k := by
  induction m generalizing t l with
  | zero => exact ht
  | succ m ih =>
    unfold World.walkFrom
    split
    next c hc => exact ih ((h.child _ _ _ hc).trans ht)
    next => exact ht

theorem updateProtAp_direct (hd : cfg.indirectS2ap = false) (e : Entry) (k i : Nat) :
    (w.updateProtAp cfg k i e).ap = flattenedAp (w.overlayPerm k) (basePermIdx e) i ∧
      basePermIdx (w.updateProtAp cfg k i e) = basePermIdx e := by
  simp [World.updateProtAp,hd,basePermIdx]

theorem recs_after (h : Inv cfg w) (he : Effect cfg w cmd u) (r : Nat) : RequestOk cfg (u.recs r) := by
  have hset : ∀ (v : World) r' x, (∀ r, RequestOk cfg (v.recs r)) → RequestOk cfg x →
      RequestOk cfg ((v.setRec r' x).recs r) := fun v r' x hv hx => by
    rw [recs_setRec]
    split
    · exact hx
    · exact hv r
  cases he with
  | nothing | value => exact h.recs r
  | request r' base top permIndex cookie c _ hcookie hidx =>
    exact hset w r' _ h.recs ⟨nofun,le_rfl,fun _ => hidx,validateCookie_idx hcookie⟩
  | exit r' => exact hset w r' _ h.recs ⟨nofun,(h.recs r').start,(h.recs r').index,(h.recs r').tree⟩
  | sweep r' base top top' wi s _ _ _ hrun hs =>
    have hst := (h.recs r').start
    have hf := hs.forward
    apply hset s.world r' _ (by rw [hs.recs]; exact h.recs)
    rw [hs.recs]
    exact ⟨fun hr => absurd hr (by rw [hrun]; decide),le_trans hst hf,(h.recs r').index,(h.recs r').tree⟩
  | enter r' _ hn => exact hset w r' _ h.recs ⟨fun _ => hn,(h.recs r').start,(h.recs r').index,(h.recs r').tree⟩
  | reject r' => exact hset w r' _ h.recs .cleared
  | accept r' => exact hset (w.setPermImmutable _) r' _ h.recs .cleared

theorem entry_after (h : Inv cfg w) (he : Effect cfg w cmd u) (t i : Nat) :
    (u.tables t i).table = (w.tables t i).table ∧ (u.tables t i = w.tables t i ∨
        u.Fixed (u.tables t i).given ∧ u.overlayPerm = w.overlayPerm ∧ (cfg.indirectS2ap = false → (u.tables t i).ap =
            flattenedAp (u.overlayPerm (cfg.treeOf t)) (basePermIdx (u.tables t i)) (u.tables t i).given)) := by
  cases he with
  | nothing | value | request | exit | enter | reject | accept => exact ⟨rfl,.inl rfl⟩
  | sweep r base top top' wi s hwi hb ht hrun hs =>
    rcases hs.tables t i with hsame | ⟨rfl,-,hlt,-,hnew⟩
    · exact ⟨congrArg Entry.table hsame,.inl hsame⟩
    refine ⟨(congrArg Entry.table hnew).trans (updateProtAp_table _),.inr ⟨?_,hs.overlayPerm,fun hd => ?_⟩⟩
    · right
      refine ⟨r,?_⟩
      have hst := (h.recs r).start
      have hgiven : (s.world.tables wi.llt i).given = (w.recs r).setS2ap.index % uintMax := by
        rw [hnew]
        exact updateProtAp_given _
      simp only [World.InProgress,World.setRequest,recs_setRec,if_true]
      refine ⟨fun h0 => ?_,hgiven.symm,by omega⟩
      have h1 : (w.recs r).setS2ap.top = 0 := h0
      omega
    · have htree : cfg.treeOf wi.llt = cfg.treeIdx (w.recs r).setS2ap := by
        rw [hwi]
        exact walkFrom_tree h.shape (h.shape.root _ (treeIdx_lt (h.recs r)) _)
      show (s.world.tables wi.llt i).ap = flattenedAp (s.world.overlayPerm (cfg.treeOf wi.llt))
        (basePermIdx (s.world.tables wi.llt i)) (s.world.tables wi.llt i).given
      obtain ⟨h1,h2⟩ := updateProtAp_direct hd (w.tables wi.llt i) (cfg.treeIdx (w.recs r).setS2ap)
        ((w.recs r).setS2ap.index % uintMax)
      rw [hs.overlayPerm,htree,hnew,h1,h2,updateProtAp_given]

theorem Inv.exec (h : Inv cfg w) (hg : Careful w cmd) : Inv cfg (w.exec cfg cmd) := by
  have he := exec_effect cfg w cmd
  generalize w.exec cfg cmd = u at he
  constructor
  case shape => exact ⟨h.shape.root,fun t i c hc => h.shape.child t i c ((entry_after h he t i).1 ▸ hc)⟩
  case recs => exact recs_after h he
  case given =>
    intro t i
    rcases (entry_after h he t i).2 with hsame | ⟨hf,-⟩
    · rw [hsame]
      exact fixed_after h he hg (h.given t i)
    · exact hf
  case direct =>
    intro hd t i
    rcases (entry_after h he t i).2 with hsame | ⟨-,-,hnew⟩
    · rw [hsame,h.direct hd t i]
      exact flattenedAp_congr (value_after he hg (h.given t i) _).symm
    · exact hnew hd

theorem Initial.inv (h : Initial cfg w) : Inv cfg w where
  shape := h.shape
  recs := fun r => by
    rw [show w.recs r = ⟨(w.recs r).running,.none⟩ from by rw [← h.recs r]]
    exact ⟨fun _ => none_not_pending,Nat.le_refl _,fun h0 => absurd h0 none_not_pending,fun _ => cfg.planes_pos⟩
  given := fun t i => .inl (by rw [h.given,h.lock]; rfl)
  direct := h.direct

theorem inv_of_reachable (h : (system cfg).ReachableUnder Careful w) : Inv cfg w :=
  TransitionSystem.ReachableUnder.invariant (T := system cfg) (fun _ h0 => Initial.inv h0)
    (fun _ _ _ hi hg hs => hs ▸ Inv.exec hi hg) h

theorem fixed_forever (h : Inv cfg w) (hf : w.Fixed idx) (hl : Relation.ReflTransGen ((system cfg).GuardedStep Careful) w u)
    : Inv cfg u ∧ u.Fixed idx ∧ ∀ ctx, getPermValue (u.overlayPerm ctx) idx = getPermValue (w.overlayPerm ctx) idx := by
  induction hl with
  | refl => exact ⟨h,hf,fun _ => rfl⟩
  | @tail v _ _ hst ih =>
    obtain ⟨cmd,hg,rfl⟩ := hst
    obtain ⟨hi,hf,hv⟩ := ih
    have he := exec_effect cfg v cmd
    exact ⟨hi.exec hg,fixed_after hi he hg hf,fun ctx => (value_after he hg hf ctx).trans (hv ctx)⟩

theorem overlay_index_immutable (hr : (system cfg).ReachableUnder Careful w) :
    (∀ t i u, Relation.ReflTransGen ((system cfg).GuardedStep Careful) w u → ∀ plane < cfg.numPlanes,
        getPermValue (u.overlayPerm (cfg.planeToS2Context plane)) (w.tables t i).given =
          getPermValue (w.overlayPerm (cfg.planeToS2Context plane)) (w.tables t i).given) ∧
      (cfg.indirectS2ap = false → ∀ t i, (w.tables t i).ap =
        flattenedAp (w.overlayPerm (cfg.treeOf t)) (basePermIdx (w.tables t i)) (w.tables t i).given) := by
  have h := inv_of_reachable hr
  exact ⟨fun t i u hl plane _ => (fixed_forever h (h.given t i) hl).2.2 _,h.direct⟩

def World.runs (cfg : Config) (w : World) : List Command → World
  | [] => w
  | cmd :: rest => (w.exec cfg cmd).runs cfg rest

def World.Along (cfg : Config) (guard : World → Command → Prop) (w : World) : List Command → Prop
  | [] => True
  | cmd :: rest => guard w cmd ∧ (w.exec cfg cmd).Along cfg guard rest

theorem reachable_runs {guard : World → Command → Prop} {cmds : List Command} (hw : (system cfg).ReachableUnder guard w)
    (hg : w.Along cfg guard cmds) : (system cfg).ReachableUnder guard (w.runs cfg cmds) := by
  induction cmds generalizing w with
  | nil => exact hw
  | cons cmd rest ih => exact ih (hw.next hg.1 rfl) hg.2

namespace Sample

def twoPlanes : Config where
  geo := ⟨30,2,Geometry.valid_two_levels⟩
  oaBits := 48
  rttTreePp := true
  indirectS2ap := false
  numPlanes := 2
  planes_pos := by decide
  planes_le := by decide
  root k := if k = 0 then 1 else 3
  treeOf t := if t = 1 ∨ t = 2 then 0 else 1

def page (t : Nat) : Entry where
  table := none
  ripas := some .ram
  dev := false
  drainPending := false
  piIndex := 0
  poIndex := 0
  ap := flattenedAp (initOverlayPerm twoPlanes (twoPlanes.treeOf t)) defBasePermIdx 0
  given := 0

def boot : World where
  tables t i :=
    if t = 1 ∧ i = 0 then { page 1 with table := some 2 }
    else if t = 3 ∧ i = 0 then { page 3 with table := some 4 }
    else page t
  overlayPerm := initOverlayPerm twoPlanes
  overlayIndexLock i := i == defProtOverlayIdx || i == defUnprotOverlayIdx
  recs _ := ⟨true,.none⟩

theorem root_eq (k x : Nat) : twoPlanes.slTable k x = if k = 0 then 1 else 3 := by
  have hlt : twoPlanes.geo.slAddrToIdx x < s2ttesPerS2tt := by
    have h1 : twoPlanes.geo.ipaSize = 2 ^ 30 := rfl
    have h2 : mapSize twoPlanes.geo.startLevel = 2 ^ 21 := rfl
    unfold Geometry.slAddrToIdx s2ttesPerS2tt
    rw [h1,h2]
    omega
  unfold Config.slTable
  rw [if_neg (Nat.not_le.mpr hlt)]
  rfl

theorem boot_initial : Initial twoPlanes boot where
  shape := by
    constructor
    · intro k hk x
      rw [root_eq]
      have hk2 : k < 2 := hk
      match k, hk2 with
      | 0, _ => rfl
      | 1, _ => rfl
    · intro t i c hc
      unfold boot at hc
      dsimp only at hc
      split at hc
      · next h =>
          cases hc
          rw [h.1]
          rfl
      · split at hc
        · next h =>
            cases hc
            rw [h.1]
            rfl
        · cases hc
  overlay := fun _ => rfl
  lock := fun _ => rfl
  given := fun t i => by
    unfold boot
    dsimp only
    split
    · rfl
    · split <;> rfl
  direct := fun _ t i => by
    unfold boot
    dsimp only
    split
    · next h =>
        rw [h.1]
        rfl
    split
    · next h =>
        rw [h.1]
        rfl
    · rfl
  recs := fun _ => rfl

def applying : List Command := [.memSetPermIndex 0 0 0x1000 1 0,.rttSetS2ap 0 0 0x1000]

def applied : World := boot.runs twoPlanes applying

def change : Command := .memSetPermValue 1 1 1 8

end Sample

theorem overlay_index_immutable_applied : (Sample.applied.tables 2 0).given = 1 ∧
      (Sample.applied.tables 2 0).ap = flattenedAp (Sample.applied.overlayPerm 0) defBasePermIdx 1 :=
  have h := overlay_index_immutable (reachable_runs (.initial Sample.boot_initial) ⟨trivial,trivial,trivial⟩ :
      (system Sample.twoPlanes).ReachableUnder Careful Sample.applied)
  ⟨by decide +kernel,(h.2 rfl 2 0).trans (by decide +kernel)⟩

theorem overlay_value_changed_after_use :
    (system Sample.twoPlanes).Reachable Sample.applied ∧ (Sample.applied.tables 2 0).given = 1 ∧
      getPermValue ((Sample.applied.exec Sample.twoPlanes Sample.change).overlayPerm (Sample.twoPlanes.planeToS2Context 1)) 1 ≠
        getPermValue (Sample.applied.overlayPerm (Sample.twoPlanes.planeToS2Context 1)) 1 ∧
      ((Sample.applied.exec Sample.twoPlanes Sample.change).tables 2 0).ap ≠
        flattenedAp ((Sample.applied.exec Sample.twoPlanes Sample.change).overlayPerm (Sample.twoPlanes.treeOf 2)) defBasePermIdx 1 :=
  ⟨reachable_runs (.initial Sample.boot_initial) ⟨trivial,trivial,trivial⟩,by decide +kernel,by decide +kernel,
    by decide +kernel⟩

open World (s2apProgress)

variable {cfg : Config} {r T idx k n x b e base cookie : Nat} {w u v : World}

structure Given where
  before : World
  after : World
  write : Write

structure Given.Gives (p : Given) (cfg : Config) (idx k x : Nat) : Prop where
  tree : p.write.tree = k
  covers : p.write.Covers x
  walk : p.before.walk cfg k x = ⟨p.write.table,p.write.slot,p.write.level⟩
  index : (p.after.tables p.write.table p.write.slot).given = idx % uintMax

inductive Host (cfg : Config) (r : Nat) : World → World → List Given → Prop where
  | done (w : World) : Host cfg r w w []
  | setS2ap {w u : World} {gs : List Given} (base top : Nat) : Host cfg r (w.rttSetS2ap cfg r base top).world u gs →
      Host cfg r w u
        ((w.rttSetS2ap cfg r base top).writes.map (fun a => ⟨w,(w.rttSetS2ap cfg r base top).world,a⟩) ++ gs)
  | other {w v u : World} {gs : List Given} : v.recs r = w.recs r → Host cfg r v u gs → Host cfg r w u gs

structure Round where
  tree : Nat
  base : Nat
  stop : Nat
  deriving DecidableEq

inductive Loop (cfg : Config) (r T idx : Nat) : World → Nat → Nat → List Round → List Given → Prop where
  | last {w w₁ w₂ : World} {base cookie : Nat} {gs : List Given} :
      w.rsiMemSetPermIndex cfg r base T idx cookie = some w₁ → Host cfg r w₁ w₂ gs →
      (w₂.completeSetS2ap cfg r false).2 = some (T,0) →
      Loop cfg r T idx w base cookie [⟨cfg.treeIdx (w₁.recs r).setS2ap,base,(w₂.recs r).setS2ap.base⟩] gs
  | more {w w₁ w₂ w₃ : World} {base cookie base' cookie' : Nat} {gs gs' : List Given} {rounds : List Round} :
      w.rsiMemSetPermIndex cfg r base T idx cookie = some w₁ → Host cfg r w₁ w₂ gs →
      (w₂.completeSetS2ap cfg r false).2 = some (base',cookie') → ¬(base' = T ∧ cookie' = 0) →
      Loop cfg r T idx w₃ base' cookie' rounds gs' →
      Loop cfg r T idx w base cookie
        (⟨cfg.treeIdx (w₁.recs r).setS2ap,base,(w₂.recs r).setS2ap.base⟩ :: rounds) (gs ++ gs')

structure Complete (cfg : Config) (idx B T : Nat) (gs : List Given) : Prop where
  reached : ∀ k < cfg.trees, ∀ x, B ≤ x → x < T → ∃ p ∈ gs, p.Gives cfg idx k x
  inside : ∀ p ∈ gs, ∀ x, p.write.Covers x → B ≤ x ∧ x < T

section Rounds

inductive Path (n T : Nat) : Nat → Nat → List Round → Prop where
  | last {b k : Nat} : b < T → k+1 = n → Path n T b k [⟨k,b,T⟩]
  | again {b k e : Nat} {rounds : List Round} : b ≤ e → e < T → k < n → Path n T e k rounds →
      Path n T b k (⟨k,b,e⟩ :: rounds)
  | next {b k : Nat} {rounds : List Round} : b < T → k+1 < n → Path n T b (k+1) rounds →
      Path n T b k (⟨k,b,T⟩ :: rounds)

def Round.Whole (n T : Nat) (a : Round) : Prop := a.tree+1 < n → a.stop = a.base ∨ a.stop = T

variable {rounds : List Round}

theorem Path.bounds (h : Path n T b k rounds) : ∀ a ∈ rounds, b ≤ a.base ∧ k ≤ a.tree ∧ a.tree < n ∧ a.stop ≤ T := by
  induction h with
  | last hb hk =>
    intro a ha
    rw [List.mem_singleton.mp ha]
    exact ⟨le_rfl,le_rfl,by dsimp only; omega,le_rfl⟩
  | again hb he hk _ ih =>
    intro a ha
    rcases List.mem_cons.mp ha with rfl | ha
    · exact ⟨le_rfl,le_rfl,hk,le_of_lt he⟩
    · have := ih a ha
      omega
  | next hb hk _ ih =>
    intro a ha
    rcases List.mem_cons.mp ha with rfl | ha
    · exact ⟨le_rfl,le_rfl,by dsimp only; omega,le_rfl⟩
    · have := ih a ha
      omega

theorem Path.covers (h : Path n T b k rounds) (hw : ∀ a ∈ rounds, a.Whole n T) {j : Nat} (hkj : k ≤ j) (hjn : j < n)
    (hx : b ≤ x) (hT : x < T) : ∃ a ∈ rounds, a.tree = j ∧ a.base ≤ x ∧ x < a.stop := by
  induction h with
  | last hb hk => exact ⟨_,List.mem_singleton_self _,by dsimp only; omega,hx,hT⟩
  | @again b k e rounds hb he hk _ ih =>
    have hrest : ∀ a ∈ rounds, a.Whole n T := fun a ha => hw a (List.mem_cons_of_mem _ ha)
    by_cases hxe : x < e
    · by_cases hk1 : k+1 < n
      · rcases hw _ (List.mem_cons_self ..) hk1 with h0 | h0
        · have h1 : e = b := h0
          omega
        · have h1 : e = T := h0
          omega
      · exact ⟨_,List.mem_cons_self ..,by dsimp only; omega,hx,hxe⟩
    · obtain ⟨a,ha,hc⟩ := ih hrest hkj (by omega)
      exact ⟨a,List.mem_cons_of_mem _ ha,hc⟩
  | @next b k rounds hb hk _ ih =>
    by_cases hj : j = k
    · exact ⟨_,List.mem_cons_self ..,hj.symm,hx,hT⟩
    · obtain ⟨a,ha,hc⟩ := ih (fun a ha => hw a (List.mem_cons_of_mem _ ha)) (by omega) hx
      exact ⟨a,List.mem_cons_of_mem _ ha,hc⟩

theorem Path.misses (h : Path n T b k rounds) (hw : ¬∀ a ∈ rounds, a.Whole n T) :
    ∃ j, k < j ∧ j < n ∧ ∀ a ∈ rounds, a.tree = j → b < a.base := by
  induction h with
  | last hb hk =>
    refine absurd (fun a ha => ?_) hw
    rw [List.mem_singleton.mp ha]
    exact fun _ => .inr rfl
  | @again b k e rounds hb he hk hp ih =>
    have hbound := hp.bounds
    by_cases hbe : b = e
    · subst hbe
      have hrest : ¬∀ a ∈ rounds, a.Whole n T := fun hr => by
        refine hw fun a ha => ?_
        rcases List.mem_cons.mp ha with rfl | ha
        · exact fun _ => .inl rfl
        · exact hr a ha
      obtain ⟨j,h1,h2,h3⟩ := ih hrest
      refine ⟨j,h1,h2,fun a ha hj => ?_⟩
      rcases List.mem_cons.mp ha with rfl | ha
      · exact absurd hj (by dsimp only; omega)
      · exact h3 a ha hj
    · have hk1 : k+1 < n := by
        by_contra hlast
        refine hw fun a ha hlt => ?_
        rcases List.mem_cons.mp ha with rfl | ha
        · exact absurd hlt (by dsimp only; omega)
        · have := hbound a ha
          omega
      refine ⟨k+1,by omega,hk1,fun a ha hj => ?_⟩
      rcases List.mem_cons.mp ha with rfl | ha
      · exact absurd hj (by dsimp only; omega)
      · have := hbound a ha
        omega
  | @next b k rounds hb hk hp ih =>
    have hrest : ¬∀ a ∈ rounds, a.Whole n T := fun hr => by
      refine hw fun a ha => ?_
      rcases List.mem_cons.mp ha with rfl | ha
      · exact fun _ => .inr rfl
      · exact hr a ha
    obtain ⟨j,h1,h2,h3⟩ := ih hrest
    refine ⟨j,by omega,h2,fun a ha hj => ?_⟩
    rcases List.mem_cons.mp ha with rfl | ha
    · exact absurd hj (by dsimp only; omega)
    · exact h3 a ha hj

end Rounds

theorem div_lt_sixteen {l : Int} (hl : l < 0) (hx : x < cfg.geo.ipaSize) : x / mapSize l < 16 := by
  have hbits : x < 2 ^ 52 := lt_of_lt_of_le hx (Nat.pow_le_pow_right (by decide) cfg.geo.valid.bits_le)
  have hsize : 2 ^ 48 ≤ mapSize l := Nat.pow_le_pow_right (by decide) (by unfold pageLevel; omega)
  exact Nat.div_lt_of_lt_mul (by omega)

theorem Sweep.gives {tree index top i : Nat} {s : S2apResult} {a : Write} {after : World}
    (hs : Sweep cfg tree index (w.walk cfg tree b).llt (w.walk cfg tree b).lastLevel top (w.walk cfg tree b).index b w s)
    (hb : b % mapSize (w.walk cfg tree b).lastLevel = 0) (htop : b ≤ top) (hipa : top ≤ cfg.geo.ipaSize)
    (ha : a ∈ s.writes) (hafter : after.tables = s.world.tables) (hi : index = i % uintMax) (hx : a.Covers x) :
    Given.Gives ⟨w,after,a⟩ cfg i tree x := by
  obtain ⟨h1,h2,h3,h4,h5,h6,h7,h8,h9⟩ := hs.writes a ha
  have hlt : x < cfg.geo.ipaSize := by
    have := hs.below htop
    have := hx.2
    rw [h3] at this
    omega
  have hblt : b < cfg.geo.ipaSize := by
    have := mapSize_pos (w.walk cfg tree b).lastLevel
    have := hs.below htop
    rw [h6] at h7
    omega
  have hidx : (w.walk cfg tree b).index = addrToIdx b (w.walk cfg tree b).lastLevel := rfl
  obtain ⟨hoff,htab⟩ := addrToIdx_offset hb
    (by rw [← h6]; exact hx.1) (by rw [← h6,← h3]; exact hx.2) (by rw [← hidx]; omega)
    (fun hl => div_lt_sixteen hl hlt)
  have hslot : addrToIdx x (w.walk cfg tree b).lastLevel = a.slot := by
    rw [hoff,← hidx]
    omega
  refine ⟨h1,hx,?_,?_⟩
  · have hw := walk_congr hlt hblt htab (by rw [hslot]; exact h8)
    rw [hslot] at hw
    rw [hw,h2,h3]
  · rw [hafter,h2,h9,hi]

structure Progress (cfg : Config) (q : Request) (b e : Nat) (gs : List Given) : Prop where
  forward : b ≤ e
  below : e ≤ q.top
  within : ∀ p ∈ gs, p.write.tree = cfg.treeIdx q ∧ b ≤ p.write.ipa ∧ p.write.ipa + mapSize p.write.level ≤ e
  covers : ∀ x, b ≤ x → x < e → ∃ p ∈ gs, p.Gives cfg q.index (cfg.treeIdx q) x

variable {q : Request} {gs gs' : List Given} {c : Nat}

theorem Progress.refl (h : b ≤ q.top) : Progress cfg q b b [] :=
  ⟨le_rfl,h,nofun,fun _ h1 h2 => absurd h2 (Nat.not_lt.mpr h1)⟩

theorem Progress.trans {m : Nat} (h : Progress cfg q b m gs)
    (h' : Progress cfg q m e gs') : Progress cfg q b e (gs ++ gs') := by
  have h1 := h.forward
  have h2 := h'.forward
  refine ⟨le_trans h1 h2,h'.below,fun p hp => ?_,fun x hx hxe => ?_⟩
  · rcases List.mem_append.mp hp with hp | hp
    · have := h.within p hp
      omega
    · have := h'.within p hp
      omega
  · by_cases hm : x < m
    · obtain ⟨p,hp,hg⟩ := h.covers x hx hm
      exact ⟨p,List.mem_append_left _ hp,hg⟩
    · obtain ⟨p,hp,hg⟩ := h'.covers x (by omega) hxe
      exact ⟨p,List.mem_append_right _ hp,hg⟩

theorem setS2ap_progress (base top : Nat) (hq : (w.recs r).setS2ap = { q with base := b })
    (hb : b ≤ q.top) (hpar : q.top ≤ cfg.geo.ipaSize) :
    ∃ e, ((w.rttSetS2ap cfg r base top).world.recs r).setS2ap = { q with base := e } ∧ Progress cfg q b e
        ((w.rttSetS2ap cfg r base top).writes.map fun a => ⟨w,(w.rttSetS2ap cfg r base top).world,a⟩) := by
  have hcall := rttSetS2ap_call cfg w r base top
  generalize w.rttSetS2ap cfg r base top = res at hcall
  cases hcall with
  | refused hw hws =>
    rw [hw,hws]
    exact ⟨b,hq,.refl hb⟩
  | swept top' q' wi s hq' hwi hlt htop _ hal hs hw hws =>
    rw [hq] at hq'
    subst hq' hwi
    have hbelow := hs.below (le_of_lt hlt)
    have htop' : top' ≤ q.top := htop
    refine ⟨s.next,?_,hs.forward,le_trans hbelow htop',?_,?_⟩
    · rw [hw,World.setRequest,recs_setRec,if_pos rfl]
    · intro p hp
      obtain ⟨a,ha,rfl⟩ := List.mem_map.mp hp
      rw [hws] at ha
      obtain ⟨h1,-,h3,-,-,h6,h7,-⟩ := hs.writes a ha
      exact ⟨h1,by show b ≤ a.ipa; rw [h6]; exact Nat.le_add_right _ _,by rw [h3]; exact h7⟩
    · intro x hx hxe
      obtain ⟨a,ha,hc⟩ := hs.covers x hx hxe
      refine ⟨⟨w,res.world,a⟩,List.mem_map_of_mem (hws ▸ ha),?_⟩
      exact hs.gives hal (le_of_lt hlt) (le_trans htop' hpar) ha (by rw [hw]; rfl) rfl hc

theorem host_progress (hh : Host cfg r w u gs)
    (hq : (w.recs r).setS2ap = { q with base := b }) (hb : b ≤ q.top) (hpar : q.top ≤ cfg.geo.ipaSize) :
    ∃ e, (u.recs r).setS2ap = { q with base := e } ∧ Progress cfg q b e gs := by
  induction hh generalizing b with
  | done w => exact ⟨b,hq,.refl hb⟩
  | setS2ap base top _ ih =>
    obtain ⟨m,hm,hp⟩ := setS2ap_progress base top hq hb hpar
    obtain ⟨e,he,hp'⟩ := ih hm hp.below
    exact ⟨e,he,hp.trans hp'⟩
  | other hrec _ ih => exact ih (by rw [hrec]; exact hq) hb

section Cookies

theorem rttCookie_idx (h : k < 4) : getRttIdxFromCookie (rttCookieCreate b k) = k := by
  unfold getRttIdxFromCookie rttCookieCreate granuleSize
  omega

theorem rttCookie_base (hb : b % granuleSize = 0) : getRttBaseFromCookie (rttCookieCreate b k) = b := by
  unfold getRttBaseFromCookie rttCookieCreate granuleSize at *
  omega

theorem rttCookie_zero (h : k < 4) (h0 : rttCookieCreate b k = 0) : k = 0 := by
  unfold rttCookieCreate granuleSize at h0
  omega

end Cookies

def At (cfg : Config) (base cookie k : Nat) : Prop :=
  k < cfg.trees ∧ if cfg.rttTreePp then cookie = rttCookieCreate base k ∨ (cookie = 0 ∧ k = 0) else cookie = 0

theorem trees_le (cfg : Config) : cfg.trees ≤ 4 := by
  unfold Config.trees
  have := cfg.planes_le
  split <;> omega

theorem At.validated (h : At cfg base cookie k) (hc : World.validateCookie cfg cookie base = some q.cookie) :
    cfg.treeIdx q = k ∧ (cfg.rttTreePp = true → q.cookie = rttCookieCreate base k) := by
  obtain ⟨hk,hcookie⟩ := h
  have hk4 := lt_of_lt_of_le hk (trees_le cfg)
  unfold Config.treeIdx
  split at hcookie
  next hpp =>
    have hcc : q.cookie = rttCookieCreate base k := by
      unfold World.validateCookie at hc
      split at hc
      next h0 =>
        have hk0 : k = 0 := by
          rcases hcookie with h1 | h1
          · exact rttCookie_zero hk4 (h1.symm.trans h0)
          · exact h1.2
        rw [hk0]
        exact (Option.some.inj hc).symm
      next h0 =>
      split at hc
      · cases hc
      · rw [← Option.some.inj hc]
        exact hcookie.resolve_right fun h1 => h0 h1.1
    rw [if_pos hpp,hcc]
    exact ⟨rttCookie_idx hk4,fun _ => rfl⟩
  next hpp =>
  rw [if_neg hpp]
  have hk1 : k < 1 := by simpa [Config.trees,hpp] using hk
  exact ⟨by omega,fun h0 => absurd h0 hpp⟩

theorem s2apProgress_cases (hk : cfg.treeIdx q = k) (hlt : k < cfg.trees)
    (hc : cfg.rttTreePp = true → q.cookie = rttCookieCreate b k) (hb : b % granuleSize = 0) :
    (q.base ≠ q.top ∧ (s2apProgress cfg q).1 = q.base ∧ At cfg q.base (s2apProgress cfg q).2 k) ∨
      (q.base = q.top ∧ k+1 < cfg.trees ∧ (s2apProgress cfg q).1 = b ∧
        At cfg b (s2apProgress cfg q).2 (k+1)) ∨
      (q.base = q.top ∧ k+1 = cfg.trees ∧ s2apProgress cfg q = (q.top,0)) := by
  have hk4 := lt_of_lt_of_le hlt (trees_le cfg)
  unfold s2apProgress At
  unfold Config.treeIdx at hk
  by_cases hpp : cfg.rttTreePp = true
  · have htrees : cfg.trees = cfg.numPlanes := if_pos hpp
    simp only [hpp,if_true] at hk ⊢
    rw [hk,htrees]
    rw [htrees] at hlt
    by_cases htop : q.base = q.top
    · rw [if_pos htop]
      by_cases hnext : k+1 < cfg.numPlanes
      · rw [if_pos hnext,hc hpp,rttCookie_base hb]
        exact .inr (.inl ⟨htop,hnext,rfl,hnext,.inl rfl⟩)
      · rw [if_neg hnext]
        exact .inr (.inr ⟨htop,by omega,by rw [htop]⟩)
    · rw [if_neg htop]
      exact .inl ⟨htop,rfl,hlt,.inl rfl⟩
  · have htrees : cfg.trees = 1 := if_neg hpp
    rw [if_neg hpp] at hk
    simp only [if_neg hpp,htrees]
    by_cases htop : q.base = q.top
    · exact .inr (.inr ⟨htop,by omega,by rw [htop]⟩)
    · exact .inl ⟨htop,trivial,by omega,trivial⟩

theorem completeSetS2ap_result (hq : (w.recs r).setS2ap = q) (htop : q.top ≠ 0) (reject : Bool) :
    (w.completeSetS2ap cfg r reject).2 = some (s2apProgress cfg q) := by
  unfold World.completeSetS2ap
  rw [hq,if_neg fun h => htop h.2]

structure Trace (cfg : Config) (T idx base k : Nat) (rounds : List Round) (gs : List Given) : Prop where
  path : Path cfg.trees T base k rounds
  within : ∀ p ∈ gs, ∃ a ∈ rounds, p.write.tree = a.tree ∧ a.base ≤ p.write.ipa ∧
    p.write.ipa + mapSize p.write.level ≤ a.stop
  covers : ∀ a ∈ rounds, ∀ x, a.base ≤ x → x < a.stop → ∃ p ∈ gs, p.Gives cfg idx a.tree x

theorem Trace.cons {rounds : List Round} {base' k' : Nat} (hk : cfg.treeIdx ⟨base,T,idx,c,base⟩ = k)
    (hp : Progress cfg ⟨base,T,idx,c,base⟩ base e gs) (hpath : Path cfg.trees T base k (⟨k,base,e⟩ :: rounds))
    (ht : Trace cfg T idx base' k' rounds gs') : Trace cfg T idx base k (⟨k,base,e⟩ :: rounds) (gs ++ gs') := by
  refine ⟨hpath,fun p hmem => ?_,fun a ha x h1 h2 => ?_⟩
  · rcases List.mem_append.mp hmem with hmem | hmem
    · obtain ⟨h1,h2,h3⟩ := hp.within p hmem
      exact ⟨_,List.mem_cons_self ..,h1.trans hk,h2,h3⟩
    · obtain ⟨a,ha,h⟩ := ht.within p hmem
      exact ⟨a,List.mem_cons_of_mem _ ha,h⟩
  · rcases List.mem_cons.mp ha with rfl | ha
    · obtain ⟨p,hmem,hg⟩ := hp.covers x h1 h2
      rw [hk] at hg
      exact ⟨p,List.mem_append_left _ hmem,hg⟩
    · obtain ⟨p,hmem,hg⟩ := ht.covers a ha x h1 h2
      exact ⟨p,List.mem_append_right _ hmem,hg⟩

theorem Trace.single (hk : cfg.treeIdx ⟨base,T,idx,c,base⟩ = k) (hp : Progress cfg ⟨base,T,idx,c,base⟩ base T gs)
    (hlt : base < T) (hlast : k+1 = cfg.trees) : Trace cfg T idx base k [⟨k,base,T⟩] gs := by
  refine ⟨.last hlt hlast,fun p hmem => ?_,fun a ha x h1 h2 => ?_⟩
  · obtain ⟨h1,h2,h3⟩ := hp.within p hmem
    exact ⟨_,List.mem_singleton_self _,h1.trans hk,h2,h3⟩
  rw [List.mem_singleton.mp ha] at h1 h2 ⊢
  obtain ⟨p,hmem,hg⟩ := hp.covers x h1 h2
  rw [hk] at hg
  exact ⟨p,hmem,hg⟩

theorem round_progress {w₁ w₂ : World} (hat : At cfg base cookie k)
    (hcall : w.rsiMemSetPermIndex cfg r base T idx cookie = some w₁) (hh : Host cfg r w₁ w₂ gs) :
    ∃ c e, cfg.treeIdx (w₁.recs r).setS2ap = k ∧ (w₂.recs r).setS2ap.base = e ∧ base < T ∧
      cfg.treeIdx ⟨base,T,idx,c,base⟩ = k ∧ Progress cfg ⟨base,T,idx,c,base⟩ base e gs ∧
      (w₂.completeSetS2ap cfg r false).2 = some (s2apProgress cfg ⟨e,T,idx,c,base⟩) ∧
      ((e ≠ T ∧ (s2apProgress cfg ⟨e,T,idx,c,base⟩).1 = e ∧
          At cfg e (s2apProgress cfg ⟨e,T,idx,c,base⟩).2 k) ∨
        (e = T ∧ k+1 < cfg.trees ∧ (s2apProgress cfg ⟨e,T,idx,c,base⟩).1 = base ∧
          At cfg base (s2apProgress cfg ⟨e,T,idx,c,base⟩).2 (k+1)) ∨
        (e = T ∧ k+1 = cfg.trees ∧ s2apProgress cfg ⟨e,T,idx,c,base⟩ = (T,0))) := by
  obtain ⟨c,rfl,hc,hlt,hal,-,hpar,-⟩ := memSetPermIndex_cases hcall
  have hq : ((w.setRec r ⟨false,⟨base,T,idx,c,base⟩⟩).recs r).setS2ap = ⟨base,T,idx,c,base⟩ := by
    rw [recs_setRec,if_pos rfl]
  obtain ⟨e,he,hp⟩ := host_progress (q := ⟨base,T,idx,c,base⟩) hh hq (le_of_lt hlt)
    (le_trans hpar (Nat.div_le_self ..))
  have htop : T ≠ 0 := by omega
  have hv := fun e' => At.validated (q := ⟨e',T,idx,c,base⟩) hat hc
  refine ⟨c,e,?_,by rw [he],hlt,(hv base).1,hp,completeSetS2ap_result he htop false,?_⟩
  · rw [hq]
    exact (hv base).1
  · exact s2apProgress_cases (hv e).1 hat.1 (hv e).2 hal

theorem loop_trace {rounds : List Round} (hl : Loop cfg r T idx w base cookie rounds gs)
    (hat : At cfg base cookie k) : Trace cfg T idx base k rounds gs := by
  induction hl generalizing k with
  | last hcall hh hres =>
    obtain ⟨c,e,h1,h2,hlt,hk,hp,hres',hcases⟩ := round_progress hat hcall hh
    rw [h1,h2]
    have hend := Option.some.inj (hres'.symm.trans hres)
    rcases hcases with ⟨hne,hb,-⟩ | ⟨-,-,hb,-⟩ | ⟨rfl,hlast,-⟩
    · exact absurd (hb.symm.trans (congrArg Prod.fst hend)) hne
    · have : _ = T := hb.symm.trans (congrArg Prod.fst hend)
      omega
    · exact .single hk hp hlt hlast
  | @more w w₁ w₂ w₃ base cookie base' cookie' gs gs' rounds hcall hh hres hnot _ ih =>
    obtain ⟨c,e,h1,h2,hlt,hk,hp,hres',hcases⟩ := round_progress hat hcall hh
    rw [h1,h2]
    have hend := Option.some.inj (hres'.symm.trans hres)
    have hbase : (s2apProgress cfg ⟨e,T,idx,c,base⟩).1 = base' := congrArg Prod.fst hend
    have hcookie : (s2apProgress cfg ⟨e,T,idx,c,base⟩).2 = cookie' := congrArg Prod.snd hend
    rw [hbase,hcookie] at hcases
    rcases hcases with ⟨hne,rfl,hnext⟩ | ⟨rfl,hk1,rfl,hnext⟩ | ⟨-,-,hdone⟩
    · have ht := ih hnext
      have hle : base' ≤ T := hp.below
      exact .cons hk hp (.again hp.forward (by omega) hat.1 ht.path) ht
    · have ht := ih hnext
      exact .cons hk hp (.next hlt hk1 ht.path) ht
    · rw [hdone] at hend
      exact absurd ⟨(congrArg Prod.fst hend).symm,(congrArg Prod.snd hend).symm⟩ hnot

theorem At.start (cfg : Config) (B : Nat) : At cfg B 0 0 := by
  have := cfg.planes_pos
  refine ⟨by unfold Config.trees; split <;> omega,?_⟩
  split
  · exact .inr ⟨rfl,rfl⟩
  · rfl

theorem Trace.complete {rounds : List Round} (ht : Trace cfg T idx b 0 rounds gs)
    (hw : ∀ a ∈ rounds, a.Whole cfg.trees T) : Complete cfg idx b T gs := by
  refine ⟨fun k hk x h1 h2 => ?_,fun p hp x hx => ?_⟩
  · obtain ⟨a,ha,rfl,h3,h4⟩ := ht.path.covers hw (Nat.zero_le k) hk h1 h2
    exact ht.covers a ha x h3 h4
  obtain ⟨a,ha,-,h3,h4⟩ := ht.within p hp
  have hbound := ht.path.bounds a ha
  have h5 := hx.1
  have h6 := hx.2
  omega

theorem Trace.incomplete {rounds : List Round} (ht : Trace cfg T idx b 0 rounds gs)
    (hw : ¬∀ a ∈ rounds, a.Whole cfg.trees T) : ¬Complete cfg idx b T gs := fun hc => by
  obtain ⟨j,hj,hjn,hmiss⟩ := ht.path.misses hw
  have hbT : b < T := by
    cases ht.path with
    | last hb _ | next hb _ _ => exact hb
    | again hb he _ _ => omega
  obtain ⟨p,hp,hg⟩ := hc.reached j hjn b le_rfl hbT
  obtain ⟨a,ha,htree,hbase,-⟩ := ht.within p hp
  have h1 := hmiss a ha (htree.symm.trans hg.tree)
  have h2 := hg.covers.1
  omega

theorem perm_index_covers_range_iff {B : Nat} {rounds : List Round} {gs : List Given}
    (hl : Loop cfg r T idx w B 0 rounds gs) :
    Complete cfg idx B T gs ↔ ∀ a ∈ rounds, a.tree+1 < cfg.trees → a.stop = a.base ∨ a.stop = T := by
  have ht := loop_trace hl (At.start cfg B)
  exact ⟨fun hc => by_contra fun hw => ht.incomplete hw hc,ht.complete⟩

namespace Sample

def request (w : World) (base cookie : Nat) : World :=
  (w.rsiMemSetPermIndex twoPlanes 0 base 0x2000 1 cookie).getD w

theorem request_some {base cookie : Nat} (h : (w.rsiMemSetPermIndex twoPlanes 0 base 0x2000 1 cookie).isSome = true) :
    w.rsiMemSetPermIndex twoPlanes 0 base 0x2000 1 cookie = some (request w base cookie) := by
  unfold request
  cases hc : w.rsiMemSetPermIndex twoPlanes 0 base 0x2000 1 cookie with
  | none =>
    rw [hc] at h
    cases h
  | some u => rfl

def served (w : World) (base cookie top : Nat) : World := ((request w base cookie).rttSetS2ap twoPlanes 0 base top).world

theorem served_host (w : World) (base cookie top : Nat) :
    ∃ gs, Host twoPlanes 0 (request w base cookie) (served w base cookie top) gs := ⟨_,.setS2ap base top (.done _)⟩

def told (w : World) (base cookie top : Nat) : Option (Nat × Nat) :=
  ((served w base cookie top).completeSetS2ap twoPlanes 0 false).2

def resumed (w : World) (base cookie top : Nat) : World :=
  ((served w base cookie top).completeSetS2ap twoPlanes 0 false).1

def half : World := resumed boot 0 0 0x1000

def first : World := resumed half 0x1000 0x1000 0x2000

end Sample

open Sample

theorem second_tree_not_covered : ∃ rounds gs, Loop Sample.twoPlanes 0 0x2000 1 Sample.boot 0 0 rounds gs ∧
      ¬Complete Sample.twoPlanes 1 0 0x2000 gs := by
  obtain ⟨gs₁,h1⟩ := served_host boot 0 0 0x1000
  obtain ⟨gs₂,h2⟩ := served_host half 0x1000 0x1000 0x2000
  obtain ⟨gs₃,h3⟩ := served_host first 0x1000 0x1001 0x2000
  have hl₃ : Loop twoPlanes 0 0x2000 1 first 0x1000 0x1001 _ gs₃ :=
    .last (request_some (by decide +kernel)) h3
      (by decide +kernel : told first 0x1000 0x1001 0x2000 = some (0x2000,0))
  have hl₂ : Loop twoPlanes 0 0x2000 1 half 0x1000 0x1000 _ (gs₂ ++ gs₃) :=
    .more (request_some (by decide +kernel)) h2
      (by decide +kernel : told half 0x1000 0x1000 0x2000 = some (0x1000,0x1001)) (by decide) hl₃
  have hl : Loop twoPlanes 0 0x2000 1 boot 0 0 _ (gs₁ ++ (gs₂ ++ gs₃)) :=
    .more (request_some (by decide +kernel)) h1
      (by decide +kernel : told boot 0 0 0x1000 = some (0x1000,0x1000)) (by decide) hl₂
  refine ⟨_,_,hl,(loop_trace hl (At.start _ _)).incomplete fun hw => ?_⟩
  have h0 := hw _ (List.mem_cons_self ..)
  exact absurd h0 (by unfold Round.Whole; decide +kernel)

theorem perm_index_covers_range_iff_two_trees :
    ∃ rounds gs, Loop Sample.twoPlanes 0 0x2000 1 Sample.boot 0 0 rounds gs ∧
      Complete Sample.twoPlanes 1 0 0x2000 gs := by
  obtain ⟨gs₁,h1⟩ := served_host boot 0 0 0x2000
  obtain ⟨gs₂,h2⟩ := served_host (resumed boot 0 0 0x2000) 0 1 0x2000
  have hl : Loop twoPlanes 0 0x2000 1 boot 0 0 _ (gs₁ ++ gs₂) :=
    .more (request_some (by decide +kernel)) h1
      (by decide +kernel : told boot 0 0 0x2000 = some (0,1)) (by decide)
      (.last (request_some (by decide +kernel)) h2
        (by decide +kernel : told (resumed boot 0 0 0x2000) 0 1 0x2000 = some (0x2000,0)))
  exact ⟨_,_,hl,(perm_index_covers_range_iff hl).mpr (by decide +kernel)⟩

end TfRmm.Overlay
