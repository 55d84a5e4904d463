import TfRmm.Rtt.Updates
import TfRmm.Lib.Tally

namespace TfRmm.Rtt

open TfRmm.S2tt

abbrev InBlock (base size q : Nat) : Prop := base ≤ q ∧ q < base+size ∧ q % granuleSize = 0

def SroOp.Holds : SroOp → Nat → GranuleState → Prop
  | .idle, _, _ => False
  | .map c, q, st =>
    if c.coarse then InBlock c.pa (mapSize c.level) q ∧ st = .partialUnit
    else InBlock c.pa c.pendingOff q ∧ st = c.mem.mappedState
  | .unmap c, q, st =>
    if c.coarse then InBlock (c.backing.getD 0) (mapSize c.leafLevel) q ∧ st = .partialUnit
    else q ∈ c.queue ∧ st = c.flavor.mem.mappedState
  | .delegation c, q, st => q ∈ c.pages ∧ st = .partialUnit
  | .object p, q, st => q = p ∧ st = .partialUnit

structure MapCtx.Ok (cfg : Config) (c : MapCtx) : Prop where
  region : c.coarse = true → mapSize c.level = cfg.regionSize
  data : c.coarse = true → c.mem = .data
  aligned : c.pa % mapSize c.level = 0
  fits : mapSize c.level ≤ cfg.regionSize
  off : c.pendingOff ≤ mapSize c.level
  page : c.pendingOff % granuleSize = 0
  rollback : c.rollback = true → c.coarse = false ∧ c.pendingOff < mapSize c.level

section Held

variable {cfg : Config} {c : MapCtx} {q : Nat} {st : GranuleState}

theorem holds_fine (hco : c.coarse = false) :
    (SroOp.map c).Holds q st ↔ InBlock c.pa c.pendingOff q ∧ st = c.mem.mappedState := by
  simp [SroOp.Holds,hco]

theorem holds_coarse (hco : c.coarse = true) :
    (SroOp.map c).Holds q st ↔ InBlock c.pa (mapSize c.level) q ∧ st = .partialUnit := by
  simp [SroOp.Holds,hco]

theorem MapCtx.Ok.pa_page (h : c.Ok cfg) : c.pa % granuleSize = 0 :=
  Nat.mod_eq_zero_of_dvd ((granuleSize_dvd_mapSize c.level).trans (Nat.dvd_of_mod_eq_zero h.aligned))

theorem MapCtx.Ok.holds (h : c.Ok cfg) (hq : InBlock c.pa c.pendingOff q) : ∃ st, (SroOp.map c).Holds q st := by
  simp only [SroOp.Holds]
  have := h.off
  split
  · exact ⟨_,⟨hq.1,by have := hq.2.1; omega,hq.2.2⟩,rfl⟩
  · exact ⟨_,hq,rfl⟩

end Held

structure MapCtx.Same (c c' : MapCtx) : Prop where
  mem : c'.mem = c.mem
  llt : c'.llt = c.llt
  rd : c'.rd = c.rd
  pa : c'.pa = c.pa
  index : c'.index = c.index
  level : c'.level = c.level
  ipa : c'.ipa = c.ipa
  initBase : c'.initBase = c.initBase

variable {cfg : Config} {s : Rmm}

structure Active (cfg : Config) (s : Rmm) (mem : Mem) (a : Nat) (st : GranuleState) (u : TrackingUnit) :
    Prop where
  page : a % granuleSize = 0
  bank : mem.backs (cfg.bank a) = true
  unit : s.tracking (Rmm.region cfg a) = .fine ∧ u = ⟨a,granuleSize⟩ ∨
    s.tracking (Rmm.region cfg a) = .coarse ∧ u = ⟨roundDown a cfg.regionSize,cfg.regionSize⟩
  state : (s.granule u.base).state = st

theorem Rmm.active {mem : Mem} {a : Nat} {st : GranuleState} {u : TrackingUnit}
    (h : s.findActive cfg mem a st = .ok u) : Active cfg s mem a st u := by
  unfold Rmm.findActive at h
  split at h
  · cases h
  split at h
  · cases h
  split at h
  · cases h
  rename_i h1 h2 h3
  split at h
  next htr =>
    split at h
    next hst =>
      cases h
      exact ⟨by simpa using h1,by simpa using h2,Or.inl ⟨htr,rfl⟩,hst⟩
    next => cases h
  next htr =>
    split at h
    next hst =>
      cases h
      exact ⟨by simpa using h1,by simpa using h2,Or.inr ⟨htr,rfl⟩,hst⟩
    next => cases h
  next => cases h

variable {s' : Rmm} {mem : Mem} {addr lo q : Nat} {st : GranuleState} {u : TrackingUnit}

theorem Config.regionSize_pos (cfg : Config) : 0 < cfg.regionSize := mapSize_pos _

theorem Config.granuleSize_lt (cfg : Config) : granuleSize < cfg.regionSize := by
  have h : mapSize 2 ≤ cfg.regionSize := Nat.le_of_dvd cfg.regionSize_pos (mapSize_dvd cfg.region_le)
  have h2 : granuleSize < mapSize 2 := by decide
  omega

theorem region_eq_iff (hlo : lo % cfg.regionSize = 0) :
    Rmm.region cfg q = Rmm.region cfg lo ↔ lo ≤ q ∧ q < lo+cfg.regionSize := by
  obtain ⟨k,rfl⟩ := Nat.dvd_of_mod_eq_zero hlo
  have hpos := cfg.regionSize_pos
  unfold Rmm.region
  rw [Nat.mul_div_cancel_left _ hpos,Nat.div_eq_iff hpos,mul_comm k]
  omega

theorem inBlock_page {q : Nat} (ha : addr % granuleSize = 0) (h : InBlock addr granuleSize q) : q = addr := by
  obtain ⟨h1,h2,h3⟩ := h
  unfold granuleSize at *
  omega

namespace Active

variable (a : Active cfg s mem addr st u) (hal : addr % u.size = 0)

include a hal

theorem base : u.base = addr := by
  rcases a.unit with ⟨_,rfl⟩ | ⟨_,rfl⟩
  · rfl
  · simp [roundDown,hal]

theorem cases : u.size = granuleSize ∧ s.tracking (Rmm.region cfg addr) = .fine ∨
    u.size = cfg.regionSize ∧ ∀ q, InBlock addr u.size q → s.tracking (Rmm.region cfg q) = .coarse := by
  rcases a.unit with ⟨htr,hu⟩ | ⟨htr,hu⟩
  · exact Or.inl ⟨by rw [hu],htr⟩
  refine Or.inr ⟨by rw [hu],fun q hq => ?_⟩
  rw [hu] at hq hal
  rw [(region_eq_iff hal).mpr ⟨hq.1,hq.2.1⟩]
  exact htr

end Active

open Rmm

variable {h n : Nat} {c c' : MapCtx} {irqs : Irqs} {pa hi : Nat} {st : Status} {t : Rmm} {x : MapCtx}

structure Rmm.Layout (cfg : Config) (s : Rmm) : Prop where
  states : ∀ q q', s.tracking (Rmm.region cfg q) = .coarse → Rmm.region cfg q' = Rmm.region cfg q →
    q % granuleSize = 0 → q' % granuleSize = 0 → (s.granule q').state = (s.granule q).state
  banks : ∀ q q', s.tracking (Rmm.region cfg q) = .coarse → Rmm.region cfg q' = Rmm.region cfg q →
    cfg.bank q' = cfg.bank q

def Rmm.FailsAt (cfg : Config) (s : Rmm) (c : MapCtx) (off : Nat) (st : Status) : Prop :=
  s.findActive cfg c.mem (c.pa+off) .delegated = .error st ∨
    ∃ u, s.findActive cfg c.mem (c.pa+off) .delegated = .ok u ∧
      ((mapSize c.level - off < u.size ∨ (c.pa+off) % u.size ≠ 0) ∧ st = .errorTracking (c.pa+off) ∨
        c.mem = .dev ∧ cfg.bank (c.pa+off) ≠ cfg.bank c.pa ∧ st = .errorInput)

def Rmm.PassesTo (cfg : Config) (s : Rmm) (c : MapCtx) (off : Nat) : Prop :=
  ∀ o, c.pendingOff ≤ o → o < off → o % granuleSize = 0 → ∀ st, ¬ s.FailsAt cfg c o st

def Rmm.Stops (cfg : Config) (s : Rmm) (c : MapCtx) (st : Status) : Prop :=
  ∃ off, c.pendingOff ≤ off ∧ off < mapSize c.level ∧ off % granuleSize = 0 ∧ s.FailsAt cfg c off st ∧
    s.PassesTo cfg c off

structure Kept (h : Nat) (c : MapCtx) (s s' : Rmm) : Prop where
  rd : s'.rd = s.rd
  tracking : s'.tracking = s.tracking
  moving : s'.moving = s.moving
  entry : ∀ t i, t ≠ c.llt ∨ i ≠ c.index → s'.entry t i = s.entry t i
  refs : ∀ q, q ≠ c.llt → (s'.granule q).refcount = (s.granule q).refcount
  sro : ∀ x, x ≠ h → s'.sro x = s.sro x

structure Moved (mem : Mem) (pa lo hi : Nat) (s s' : Rmm) : Prop where
  up : ∀ q, InBlock (pa+lo) (hi-lo) q →
    (s.granule q).state = .delegated ∧ (s'.granule q).state = mem.mappedState
  down : ∀ q, InBlock (pa+hi) (lo-hi) q → (s'.granule q).state = .delegated
  rest : ∀ q, ¬ InBlock (pa+lo) (hi-lo) q → ¬ InBlock (pa+hi) (lo-hi) q →
    (s'.granule q).state = (s.granule q).state

structure At (cfg : Config) (h : Nat) (s : Rmm) (c : MapCtx) (s' : Rmm) (c' : MapCtx) : Prop where
  kept : Kept h c s s'
  same : c.Same c'
  ok : c'.Ok cfg
  fine : c.coarse = false
  coarse : c'.coarse = false
  op : (s'.sro h).op = .map c'
  here : s'.entry c.llt c.index = s.entry c.llt c.index
  ref : (s'.granule c.llt).refcount = (s.granule c.llt).refcount
  moved : Moved c.mem c.pa c.pendingOff c'.pendingOff s s'
  zero : c.mem = .data → ∀ q, InBlock c.pa c'.pendingOff q → s'.content q = 0
  kind : c.mem = .dev → c'.pendingOff ≠ 0 →
    c'.cohType = cfg.bank c.pa ∧ ∀ q, InBlock c.pa c'.pendingOff q → cfg.bank q = cfg.bank c.pa
  forward : c'.rollback = false → c.rollback = false ∧ c.pendingOff ≤ c'.pendingOff
  back : c.rollback = true → c'.pendingOff ≤ c.pendingOff
  pinned : c.pendingOff < c'.pendingOff → c'.pendingOff < mapSize c.level →
    s.tracking (Rmm.region cfg c.pa) = .fine
  passed : c'.rollback = false → c'.pendingOff < mapSize c.level → s.PassesTo cfg c c'.pendingOff
  stop : c'.rollback = true →
    c.rollback = true ∧ c'.retErr = c.retErr ∨ c.rollback = false ∧ s.Stops cfg c c'.retErr

structure Zeroing (cfg : Config) (h : Nat) (s : Rmm) (c : MapCtx) (s' : Rmm) (c' : MapCtx) : Prop where
  kept : Kept h c s s'
  same : c.Same c'
  ok : c'.Ok cfg
  coarse : c'.coarse = true
  began : c.rollback = false
  forward : c'.rollback = false
  op : (s'.sro h).op = .map c'
  here : s'.entry c.llt c.index = s.entry c.llt c.index
  ref : (s'.granule c.llt).refcount = (s.granule c.llt).refcount
  claimed : c.coarse = false → c.pendingOff = 0 ∧
    ∀ q, InBlock c.pa (mapSize c.level) q → (s.granule q).state = .delegated
  unit : ∀ q, InBlock c.pa (mapSize c.level) q → (s'.granule q).state = .partialUnit
  rest : ∀ q, ¬ InBlock c.pa (mapSize c.level) q → (s'.granule q).state = (s.granule q).state
  zero : ∀ q, InBlock c.pa c'.pendingOff q → s'.content q = 0

structure Done (cfg : Config) (h : Nat) (s : Rmm) (c : MapCtx) (s' : Rmm) : Prop where
  kept : Kept h c s s'
  here : s'.entry c.llt c.index =
    Rmm.assignedForm (s.rd c.rd).indirectS2ap c.mem (s.entry c.llt c.index) c.pa
  ref : (s'.granule c.llt).refcount = (s.granule c.llt).refcount
  forward : c.rollback = false
  state : c.coarse = true → ∀ q, InBlock c.pa (mapSize c.level) q → (s'.granule q).state = .data
  moved : c.coarse = false → Moved c.mem c.pa c.pendingOff (mapSize c.level) s s'
  rest : ∀ q, ¬ InBlock c.pa (mapSize c.level) q → (s'.granule q).state = (s.granule q).state
  zero : c.mem = .data → ∀ q, InBlock c.pa (mapSize c.level) q → s'.content q = 0
  kind : c.mem = .dev → ∀ q, InBlock c.pa (mapSize c.level) q → cfg.bank q = cfg.bank c.pa

structure Undone (cfg : Config) (h : Nat) (s : Rmm) (c : MapCtx) (s' : Rmm) (st : Status) : Prop where
  kept : Kept h c s s'
  here : s'.entry c.llt c.index = (s.entry c.llt c.index).clearDrainPending
  ref : (s'.granule c.llt).refcount = (s.granule c.llt).refcount - 1
  fine : c.coarse = false
  moved : Moved c.mem c.pa c.pendingOff 0 s s'
  stop : c.rollback = true ∧ st = c.retErr ∨ c.rollback = false ∧ s.Stops cfg c st

inductive CallEnd (cfg : Config) (h : Nat) (s : Rmm) (c : MapCtx) : Rmm → Drain → Prop where
  | paused {s' : Rmm} {c' : MapCtx} (a : At cfg h s c s' c') : CallEnd cfg h s c s' .yielded
  | zeroing {s' : Rmm} {c' : MapCtx} (z : Zeroing cfg h s c s' c') (hlt : c'.pendingOff < mapSize c.level) :
      CallEnd cfg h s c s' .yielded
  | done {s' : Rmm} (f : Done cfg h s c s') : CallEnd cfg h s c s' .mapped
  | undone {s' : Rmm} {st : Status} (f : Undone cfg h s c s' st) : CallEnd cfg h s c s' (.failed st)

theorem setRange_in {st : GranuleState} {n : Nat} (hq : InBlock lo n q) : ((s.setRange lo n st).granule q).state = st := by
  rw [Rmm.setRange_state]
  exact if_pos hq

theorem setRange_out {st : GranuleState} {n : Nat} (hq : ¬ InBlock lo n q) :
    ((s.setRange lo n st).granule q).state = (s.granule q).state := by
  rw [Rmm.setRange_state]
  exact if_neg hq

theorem Kept.refl : Kept h c s s := ⟨rfl,rfl,rfl,fun _ _ _ => rfl,fun _ _ => rfl,fun _ _ => rfl⟩

theorem Moved.refl : Moved mem pa lo lo s s := by
  have hno : ∀ q, ¬ InBlock (pa+lo) (lo-lo) q := fun q hq => by omega
  exact ⟨fun q hq => absurd hq (hno q),fun q hq => absurd hq (hno q),fun _ _ _ => rfl⟩

theorem Moved.congr (hm : Moved mem pa lo hi s s') (ht : t.granule = s'.granule) : Moved mem pa lo hi s t :=
  ⟨fun q hq => by rw [ht]; exact hm.up q hq,fun q hq => by rw [ht]; exact hm.down q hq,
    fun q h1 h2 => by rw [ht]; exact hm.rest q h1 h2⟩

theorem Moved.forward {n : Nat} (hm : Moved mem pa lo hi s s') (hle : lo ≤ hi)
    (hd : ∀ q, InBlock (pa+hi) n q → (s.granule q).state = .delegated) :
    Moved mem pa lo (hi+n) s (s'.setRange (pa+hi) n mem.mappedState) := by
  have hno : ∀ q, ¬ InBlock (pa+(hi+n)) (lo-(hi+n)) q := fun q hq => by omega
  have hno' : ∀ q, ¬ InBlock (pa+hi) (lo-hi) q := fun q hq => by omega
  refine ⟨fun q hq => ?_,fun q hq => absurd hq (hno q),fun q hq _ => ?_⟩
  · by_cases hin : InBlock (pa+hi) n q
    · rw [setRange_in hin]
      exact ⟨hd q hin,rfl⟩
    · rw [setRange_out hin]
      refine hm.up q ⟨hq.1,?_,hq.2.2⟩
      have := hq.2.1
      by_contra hlt
      exact hin ⟨by omega,by omega,hq.2.2⟩
  · have hin : ¬ InBlock (pa+hi) n q := fun hin => hq ⟨by omega,by omega,hin.2.2⟩
    rw [setRange_out hin]
    exact hm.rest q (fun hq' => hq ⟨hq'.1,by omega,hq'.2.2⟩) (hno' q)

theorem Moved.backward (hm : Moved mem pa lo hi s s') (hpa : pa % granuleSize = 0) (hhi : hi % granuleSize = 0)
    (hlo : lo % granuleSize = 0) (hpos : granuleSize ≤ hi) :
    Moved mem pa lo (hi-granuleSize) s (s'.setState (pa + hi - granuleSize) .delegated) := by
  obtain ⟨x,hx⟩ : ∃ x, x = pa + hi - granuleSize := ⟨_,rfl⟩
  rw [← hx]
  have hpage : x % granuleSize = 0 := by unfold granuleSize at *; omega
  by_cases hle : hi ≤ lo
  · -- The page was claimed by an earlier call.
    have hno : ∀ q k, k ≤ lo → ¬ InBlock (pa+lo) (k-lo) q := fun q k hk hq => by omega
    refine ⟨fun q hq => absurd hq (hno q _ (by omega)),fun q hq => ?_,fun q _ hq => ?_⟩
    · rw [setState_state]
      split
      · rfl
      next hne =>
      refine hm.down q ⟨?_,?_,hq.2.2⟩
      · have h1 := hq.1
        have h2 := hq.2.2
        unfold granuleSize at *
        omega
      · omega
    · have hne : q ≠ x := fun he => hq (by
        rw [he]
        exact ⟨by omega,by unfold granuleSize at *; omega,hpage⟩)
      rw [setState_state,if_neg hne]
      refine hm.rest q (hno q hi hle) fun hq' => hq ⟨?_,?_,hq'.2.2⟩
      · omega
      · omega
  · -- The page was claimed by this call.
    have hge : lo ≤ hi-granuleSize := by unfold granuleSize at *; omega
    have hno : ∀ q k, lo ≤ k → ¬ InBlock (pa+k) (lo-k) q := fun q k hk hq => by omega
    refine ⟨fun q hq => ?_,fun q hq => absurd hq (hno q _ hge),fun q hq _ => ?_⟩
    · have h1 := hq.1
      have h2 := hq.2.1
      have hne : q ≠ x := fun he => by omega
      rw [setState_state,if_neg hne]
      exact hm.up q ⟨h1,by omega,hq.2.2⟩
    · rw [setState_state]
      split
      next he =>
        rw [he]
        exact (hm.up x ⟨by omega,by unfold granuleSize at *; omega,hpage⟩).1.symm
      next hne =>
      refine hm.rest q (fun hq' => hq ⟨hq'.1,?_,hq'.2.2⟩) (hno q hi (by omega))
      have h1 := hq'.1
      have h2 := hq'.2.1
      have h3 := hq'.2.2
      unfold granuleSize at *
      omega

theorem Kept.putMap (hk : Kept h c s s') : Kept h c s (s'.putMap h x) :=
  ⟨hk.rd,hk.tracking,hk.moving,hk.entry,hk.refs,fun i hi => by
    rw [← hk.sro i hi]
    simp [Rmm.putMap,hi]⟩

theorem Kept.setState (hk : Kept h c s s') {x : Nat} {st : GranuleState} : Kept h c s (s'.setState x st) :=
  ⟨hk.rd,hk.tracking,hk.moving,hk.entry,fun q hq => by rw [Rmm.setState_refcount]; exact hk.refs q hq,hk.sro⟩

theorem Kept.setRange (hk : Kept h c s s') {x n : Nat} {st : GranuleState} : Kept h c s (s'.setRange x n st) :=
  ⟨hk.rd,hk.tracking,hk.moving,hk.entry,fun q hq => by rw [setRange_refcount]; exact hk.refs q hq,hk.sro⟩

theorem Kept.zeroPage (hk : Kept h c s s') {x : Nat} : Kept h c s (s'.zeroPage x) :=
  ⟨hk.rd,hk.tracking,hk.moving,hk.entry,hk.refs,hk.sro⟩

theorem MapCtx.Ok.dvd_region (hok : c.Ok cfg) : mapSize c.level ∣ cfg.regionSize :=
  pow_dvd_pow 2 ((Nat.pow_le_pow_iff_right (Nat.lt_succ_self 1)).mp hok.fits)

theorem MapCtx.Ok.region_eq (hok : c.Ok cfg) {o : Nat} (hoff : o < mapSize c.level) :
    Rmm.region cfg (c.pa+o) = Rmm.region cfg c.pa := by
  obtain ⟨k,hk⟩ := Nat.dvd_of_mod_eq_zero hok.aligned
  obtain ⟨m,hm⟩ := hok.dvd_region
  have hpos := mapSize_pos c.level
  unfold Rmm.region
  rw [hm,← Nat.div_div_eq_div_mul,← Nat.div_div_eq_div_mul,hk,Nat.mul_add_div hpos,Nat.div_eq_of_lt hoff,
    Nat.mul_div_cancel_left _ hpos,add_zero]

section Steps

variable (a : At cfg h s c s' c')

include a

theorem At.pa_page : c.pa % granuleSize = 0 := by
  rw [← a.same.pa]
  exact a.ok.pa_page

theorem At.giveBack (hlo : c.pendingOff % granuleSize = 0) (hr : c'.rollback = true)
    (hpos : granuleSize ≤ c'.pendingOff)
    {x : MapCtx} (hx : x = { c' with pendingOff := c'.pendingOff-granuleSize }) :
    At cfg h s c ((s'.setState (c'.pa + c'.pendingOff - granuleSize) .delegated).putMap h x) x := by
  subst hx
  obtain ⟨hco,hlt⟩ := a.ok.rollback hr
  have hsub : ∀ q, InBlock c.pa (c'.pendingOff-granuleSize) q → InBlock c.pa c'.pendingOff q := fun q hq =>
    ⟨hq.1,by omega,hq.2.2⟩
  refine ⟨a.kept.setState.putMap,⟨a.same.mem,a.same.llt,a.same.rd,a.same.pa,a.same.index,a.same.level,a.same.ipa,a.same.initBase⟩,
    ⟨fun hx => absurd (hx.symm.trans hco) (by simp),fun hx => absurd (hx.symm.trans hco) (by simp),a.ok.aligned,
      a.ok.fits,le_trans (Nat.sub_le ..) a.ok.off,?_,fun _ => ⟨hco,lt_of_le_of_lt (Nat.sub_le ..) hlt⟩⟩,
    a.fine,a.coarse,by simp [Rmm.putMap],a.here,?_,?_,fun hm q hq => a.zero hm q (hsub q hq),fun hm hne => ?_,
    fun hf => ?_,fun hx => le_trans (Nat.sub_le ..) (a.back hx),fun h1 h2 => a.pinned (by dsimp only at h1; omega) ?_,
    fun hf => ?_,a.stop⟩
  · have := a.ok.page
    dsimp only
    unfold granuleSize at *
    omega
  · simp only [Rmm.putMap,setSro_frame,Rmm.setState_refcount]
    exact a.ref
  · apply (a.moved.backward a.pa_page a.ok.page hlo hpos).congr
    simp only [Rmm.putMap,setSro_frame,a.same.pa]
  · dsimp only at hne
    obtain ⟨h1,h2⟩ := a.kind hm (by omega)
    exact ⟨h1,fun q hq => h2 q (hsub q hq)⟩
  · rw [show ({ c' with pendingOff := c'.pendingOff-granuleSize } : MapCtx).rollback = true from hr] at hf
    cases hf
  · rw [← a.same.level]
    exact hlt
  · exact absurd (hr.symm.trans hf) (by simp)

theorem At.abort (hr : c'.rollback = true) (h0 : c'.pendingOff = 0) :
    CallEnd cfg h s c (s'.mapAbort h c') (.failed c'.retErr) := by
  have hm := a.moved
  rw [h0] at hm
  have hllt := a.same.llt
  have hidx := a.same.index
  refine .undone ⟨⟨a.kept.rd,a.kept.tracking,a.kept.moving,fun t i hti => ?_,fun q hq => ?_,fun x hx => ?_⟩,?_,?_,
    a.fine,⟨fun q hq => ?_,fun q hq => ?_,fun q h1 h2 => ?_⟩,?_⟩
  · rw [← a.kept.entry t i hti]
    refine (setEntry_entry ..).trans (if_neg fun he => ?_)
    rw [hllt,hidx] at he
    exact hti.elim (fun hn => hn he.1) fun hn => hn he.2
  · rw [← a.kept.refs q hq]
    simp [mapAbort,hllt,hq]
  · rw [← a.kept.sro x hx]
    simp [mapAbort,hx]
  · rw [← a.here]
    apply (setEntry_entry ..).trans
    rw [hllt,hidx,if_pos ⟨rfl,rfl⟩]
  · rw [← a.ref]
    simp [mapAbort,hllt]
  · simpa [mapAbort] using hm.up q hq
  · simpa [mapAbort] using hm.down q hq
  · simpa [mapAbort] using hm.rest q h1 h2
  · rcases a.stop hr with ⟨h1,h2⟩ | ⟨h1,h2⟩
    · exact .inl ⟨h1,h2⟩
    · exact .inr ⟨h1,h2⟩

end Steps

theorem At.rollback (a : At cfg h s c s' c') (hlo : c.pendingOff % granuleSize = 0) (hr : c'.rollback = true)
    (hn : c'.pendingOff = n*granuleSize) :
    CallEnd cfg h s c (Rmm.mapRollbackPending h n irqs c' s').1 (Rmm.mapRollbackPending h n irqs c' s').2.2 := by
  induction n generalizing irqs c' s' with
  | zero => exact a.abort hr (by rw [hn,zero_mul])
  | succ n ih =>
    have hpos : 0 < granuleSize := by decide
    have hge : granuleSize ≤ c'.pendingOff := by rw [hn,Nat.succ_mul]; exact Nat.le_add_left ..
    simp only [Rmm.mapRollbackPending]
    rw [if_neg (by omega)]
    split
    · exact .paused a
    · apply ih (a.giveBack hlo hr hge rfl) hr
      rw [hn,Nat.succ_mul,Nat.add_sub_cancel]

theorem At.turn (hlo : c.pendingOff % granuleSize = 0) (a : At cfg h s c s' c') (hf : c'.rollback = false)
    (hlt : c'.pendingOff < mapSize c.level) (hst : s.Stops cfg c st) :
    CallEnd cfg h s c (s'.mapRollback h irqs c' st).1 (s'.mapRollback h irqs c' st).2.2 := by
  have b : At cfg h s c (s'.putMap h { c' with rollback := true,retErr := st })
      { c' with rollback := true,retErr := st } := by
    refine ⟨a.kept.putMap,⟨a.same.mem,a.same.llt,a.same.rd,a.same.pa,a.same.index,a.same.level,a.same.ipa,a.same.initBase⟩,
      ⟨a.ok.region,a.ok.data,a.ok.aligned,a.ok.fits,a.ok.off,a.ok.page,fun _ => ⟨a.coarse,?_⟩⟩,
      a.fine,a.coarse,by simp [Rmm.putMap],a.here,a.ref,a.moved.congr rfl,a.zero,a.kind,nofun,a.back,a.pinned,
      nofun,fun _ => .inr ⟨(a.forward hf).1,hst⟩⟩
    rw [a.same.level]
    exact hlt
  exact b.rollback hlo rfl (Nat.div_mul_cancel (Nat.dvd_of_mod_eq_zero a.ok.page)).symm

theorem At.lookup (a : At cfg h s c s' c') (hf : c'.rollback = false) (hlt : c'.pendingOff < mapSize c.level) :
    s'.findActive cfg c.mem (c.pa+c'.pendingOff) .delegated =
      s.findActive cfg c.mem (c.pa+c'.pendingOff) .delegated := by
  have hle := (a.forward hf).2
  have hreg : Rmm.region cfg (c.pa+c'.pendingOff) = Rmm.region cfg c.pa := by
    have := a.ok.region_eq (by rw [a.same.level]; exact hlt)
    rw [a.same.pa] at this
    exact this
  have hsame : ∀ q, (c.pendingOff < c'.pendingOff → q = c.pa+c'.pendingOff) →
      (s'.granule q).state = (s.granule q).state := fun q hq => by
    refine a.moved.rest q (fun hin => ?_) fun hin => ?_
    · have h1 := hin.1
      have h2 := hin.2.1
      have := hq (by omega)
      omega
    · omega
  unfold Rmm.findActive
  rw [a.kept.moving,a.kept.tracking,hreg,hsame (c.pa+c'.pendingOff) fun _ => rfl]
  by_cases hm : c.pendingOff < c'.pendingOff
  · rw [a.pinned hm hlt]
  · rw [hsame (roundDown (c.pa+c'.pendingOff) cfg.regionSize) fun hx => absurd hx hm]

theorem At.claim (a : At cfg h s c s' c') (hf : c'.rollback = false) {u : Nat} (hu : u % granuleSize = 0)
    (hfit : c'.pendingOff+u ≤ mapSize c.level)
    (hd : ∀ q, InBlock (c.pa+c'.pendingOff) u q → (s.granule q).state = .delegated)
    (hkind : c.mem = .dev → ∀ q, InBlock (c.pa+c'.pendingOff) u q → cfg.bank q = cfg.bank c.pa)
    (hzero : c.mem = .data → u = granuleSize)
    (htr : c'.pendingOff+u < mapSize c.level → s.tracking (Rmm.region cfg c.pa) = .fine)
    (hpass : c'.pendingOff+u < mapSize c.level → s.PassesTo cfg c (c'.pendingOff+u))
    {coh : Option Bank} (hcoh : c.mem = .dev → coh = cfg.bank c.pa) (hx : x = { c' with pendingOff := c'.pendingOff+u,cohType := coh })
    (ht : t = if c'.mem = .data then s'.zeroPage (c'.pa+c'.pendingOff) else s') :
    At cfg h s c ((t.setRange (c'.pa+c'.pendingOff) u c'.mem.mappedState).putMap h x) x := by
  have hpg := a.ok.page
  have hkept : Kept h c s t := by
    rw [ht]
    split
    · exact a.kept.zeroPage
    · exact a.kept
  have hsame : t.granule = s'.granule ∧ t.entry = s'.entry := by
    rw [ht]
    split <;> exact ⟨rfl,rfl⟩
  subst hx
  have hold : ∀ q, InBlock c.pa (c'.pendingOff+u) q → InBlock c.pa c'.pendingOff q ∨
      InBlock (c.pa+c'.pendingOff) u q := fun q hq => by
    by_cases hlt : q < c.pa+c'.pendingOff
    · exact .inl ⟨hq.1,hlt,hq.2.2⟩
    · exact .inr ⟨by omega,by omega,hq.2.2⟩
  refine ⟨hkept.setRange.putMap,⟨a.same.mem,a.same.llt,a.same.rd,a.same.pa,a.same.index,a.same.level,a.same.ipa,a.same.initBase⟩,
    ⟨fun hx => absurd (hx.symm.trans a.coarse) (by simp),fun hx => absurd (hx.symm.trans a.coarse) (by simp),
      a.ok.aligned,a.ok.fits,?_,?_,fun hx => absurd (hx.symm.trans hf) (by simp)⟩,
    a.fine,a.coarse,by simp [Rmm.putMap],?_,?_,?_,fun hm q hq => ?_,fun hm _ => ?_,
    fun _ => ⟨(a.forward hf).1,le_trans (a.forward hf).2 (Nat.le_add_right ..)⟩,
    fun hx => absurd (hx.symm.trans (a.forward hf).1) (by simp),fun _ h2 => htr h2,fun _ => hpass,
    fun hx => absurd (hx.symm.trans hf) (by simp)⟩
  · rw [a.same.level]
    exact hfit
  · rw [Nat.add_mod,hpg,hu]
    rfl
  · show t.entry _ _ = _
    rw [hsame.2]
    exact a.here
  · simp only [Rmm.putMap,setSro_frame,setRange_refcount]
    rw [hsame.1]
    exact a.ref
  · apply ((a.moved.congr hsame.1).forward (a.forward hf).2 hd).congr
    simp only [Rmm.putMap,setSro_frame,a.same.pa,a.same.mem]
  · show t.content q = 0
    rw [ht,if_pos (by rw [a.same.mem]; exact hm),Rmm.zeroPage,Rmm.write_content]
    split
    · rfl
    next hne =>
    refine a.zero hm q ((hold q hq).resolve_right fun hin => hne ?_)
    rw [hzero hm] at hin
    have hpa := a.pa_page
    rw [inBlock_page (by unfold granuleSize at *; omega) hin,a.same.pa]
  · refine ⟨hcoh hm,fun q hq => ?_⟩
    rcases hold q hq with hin | hin
    · have hne : c'.pendingOff ≠ 0 := fun h0 => by
        omega
      exact (a.kind hm hne).2 q hin
    · exact hkind hm q hin

theorem At.finish (a : At cfg h s c s' c') (hf : c'.rollback = false) (hge : mapSize c.level ≤ c'.pendingOff) :
    CallEnd cfg h s c (s'.mapFinish (s.rd c.rd).indirectS2ap h c') .mapped := by
  have hoff : c'.pendingOff = mapSize c.level := by
    have := a.ok.off
    rw [a.same.level] at this
    omega
  have hm := a.moved
  rw [hoff] at hm
  have hgran : (s'.mapFinish (s.rd c.rd).indirectS2ap h c').granule = s'.granule := rfl
  refine .done ⟨⟨a.kept.rd,a.kept.tracking,a.kept.moving,fun t i hti => ?_,a.kept.refs,fun x hx => ?_⟩,?_,a.ref,
    (a.forward hf).1,fun hx => ?_,fun _ => hm.congr hgran,fun q hq => ?_,fun hd q hq => ?_,fun hd q hq => ?_⟩
  · rw [← a.kept.entry t i hti]
    refine (setEntry_entry ..).trans (if_neg fun he => ?_)
    rw [a.same.llt,a.same.index] at he
    exact hti.elim (fun hn => hn he.1) fun hn => hn he.2
  · rw [← a.kept.sro x hx]
    simp [Rmm.mapFinish,hx]
  · rw [← a.here]
    apply (setEntry_entry ..).trans
    rw [a.same.llt,a.same.index,a.same.mem,a.same.pa,if_pos ⟨rfl,rfl⟩]
  · rw [a.fine] at hx
    cases hx
  · have hle := (a.forward hf).2
    refine hm.rest q (fun hin => hq ⟨?_,?_,hin.2.2⟩) fun hin => ?_
    · omega
    · omega
    · omega
  · exact a.zero hd q (by rw [hoff]; exact hq)
  · refine (a.kind hd ?_).2 q (by rw [hoff]; exact hq)
    rw [hoff]
    exact ne_of_gt (mapSize_pos _)

theorem Zeroing.zeroOne (z : Zeroing cfg h s c s' c') (hlt : c'.pendingOff < mapSize c.level)
    (hx : x = { c' with pendingOff := c'.pendingOff+granuleSize }) :
    Zeroing cfg h s c ((s'.zeroPage (c'.pa+c'.pendingOff)).putMap h x) x := by
  subst hx
  have hpg := z.ok.page
  have hsz := granuleSize_dvd_mapSize c.level
  have hle : c'.pendingOff+granuleSize ≤ mapSize c.level := by
    obtain ⟨k,hk⟩ := hsz
    obtain ⟨m,hm⟩ := Nat.dvd_of_mod_eq_zero hpg
    rw [hk,hm] at hlt
    have := Nat.lt_of_mul_lt_mul_left hlt
    rw [hk,hm,← Nat.mul_succ]
    exact Nat.mul_le_mul_left _ this
  refine ⟨z.kept.zeroPage.putMap,⟨z.same.mem,z.same.llt,z.same.rd,z.same.pa,z.same.index,z.same.level,z.same.ipa,z.same.initBase⟩,
    ⟨z.ok.region,z.ok.data,z.ok.aligned,z.ok.fits,?_,?_,fun hx => absurd (hx.symm.trans z.forward) (by simp)⟩,
    z.coarse,z.began,z.forward,by simp [Rmm.putMap],z.here,z.ref,z.claimed,z.unit,z.rest,fun q hq => ?_⟩
  · rw [z.same.level]
    exact hle
  · rw [Nat.add_mod_right]
    exact hpg
  · show ((s'.zeroPage (c'.pa+c'.pendingOff)).content q) = 0
    rw [Rmm.zeroPage,Rmm.write_content]
    split
    · rfl
    next hne =>
    refine z.zero q ⟨hq.1,?_,hq.2.2⟩
    have h1 := hq.2.1
    have h2 := hq.2.2
    have hpa := z.ok.pa_page
    rw [z.same.pa] at hne hpa
    dsimp only at h1
    unfold granuleSize at *
    omega

theorem Zeroing.zeroAll (z : Zeroing cfg h s c s' c') (irqs : Irqs)
    (hn : mapSize c.level - c'.pendingOff = n*granuleSize) :
    Zeroing cfg h s c (mapZeroCoarse h n irqs c' s').1 (mapZeroCoarse h n irqs c' s').2.2.1 ∧
      (if (mapZeroCoarse h n irqs c' s').2.2.2 then
        (mapZeroCoarse h n irqs c' s').2.2.1.pendingOff = mapSize c.level
      else (mapZeroCoarse h n irqs c' s').2.2.1.pendingOff < mapSize c.level) := by
  have hoff : ∀ {x : MapCtx} {t : Rmm}, Zeroing cfg h s c t x → mapSize c.level - x.pendingOff = 0 →
      x.pendingOff = mapSize c.level := fun {x} {t} z h0 => by
    have := z.ok.off
    rw [z.same.level] at this
    omega
  induction n generalizing irqs c' s' with
  | zero => exact ⟨z,hoff z (hn.trans (zero_mul _))⟩
  | succ n ih =>
    have hpos : 0 < granuleSize := by decide
    have hlt : c'.pendingOff < mapSize c.level := by
      rw [Nat.succ_mul] at hn
      omega
    have z' := z.zeroOne hlt rfl
    have hrest : mapSize c.level - (c'.pendingOff+granuleSize) = n*granuleSize := by
      rw [Nat.succ_mul] at hn
      omega
    simp only [mapZeroCoarse]
    split
    next h0 => exact ⟨z',hoff z' (by rw [hrest,h0,zero_mul])⟩
    next h0 =>
    split
    · have := mul_pos (pos_of_ne_zero h0) hpos
      refine ⟨z',?_⟩
      show c'.pendingOff+granuleSize < mapSize c.level
      omega
    · exact ih z' _ hrest

theorem Zeroing.publish (z : Zeroing cfg h s c s' c') (hoff : c'.pendingOff = mapSize c.level)
    (hx : x = { c' with coarse := false }) :
    CallEnd cfg h s c ((s'.publishCoarse h c').mapFinish (s.rd c.rd).indirectS2ap h x) .mapped := by
  subst hx
  have hdata : c.mem = .data := z.same.mem.symm.trans (z.ok.data z.coarse)
  have hpa := z.same.pa
  have hlev := z.same.level
  have hin : ∀ q, InBlock c.pa (mapSize c.level) q →
      (((s'.publishCoarse h c').mapFinish (s.rd c.rd).indirectS2ap h { c' with coarse := false }).granule q).state =
        .data := fun q hq => by
    apply setRange_in
    rw [hpa,hlev]
    exact hq
  have hout : ∀ q, ¬ InBlock c.pa (mapSize c.level) q →
      (((s'.publishCoarse h c').mapFinish (s.rd c.rd).indirectS2ap h { c' with coarse := false }).granule q).state =
        (s.granule q).state := fun q hq => by
    rw [← z.rest q hq]
    apply setRange_out
    rw [hpa,hlev]
    exact hq
  refine .done ⟨⟨z.kept.rd,z.kept.tracking,z.kept.moving,fun t i hti => ?_,fun q hq => ?_,fun y hy => ?_⟩,?_,?_,z.began,
    fun _ => hin,fun hfine => ?_,hout,fun _ q hq => z.zero q (by rw [hoff]; exact hq),
    fun hd => by rw [hdata] at hd; cases hd⟩
  · rw [← z.kept.entry t i hti]
    refine (setEntry_entry ..).trans (if_neg fun he => ?_)
    rw [z.same.llt,z.same.index] at he
    exact hti.elim (fun hn => hn he.1) fun hn => hn he.2
  · rw [← z.kept.refs q hq]
    exact setRange_refcount ..
  · rw [← z.kept.sro y hy]
    simp [Rmm.mapFinish,Rmm.publishCoarse,Rmm.putMap,Rmm.setRange,hy]
  · rw [← z.here]
    apply (setEntry_entry ..).trans
    rw [z.same.llt,z.same.index,z.same.mem,hpa,if_pos ⟨rfl,rfl⟩]
    rfl
  · rw [← z.ref]
    exact setRange_refcount ..
  · obtain ⟨h0,hdel⟩ := z.claimed hfine
    rw [h0,hdata]
    refine ⟨fun q hq => ?_,fun q hq => ?_,fun q hq _ => ?_⟩
    · exact ⟨hdel q hq,hin q hq⟩
    · omega
    · exact hout q hq

theorem Zeroing.drain (z : Zeroing cfg h s c s' c') (hlt : c'.pendingOff < mapSize c.level) (hn : 0 < n) :
    CallEnd cfg h s c (mapDrainPending cfg (s.rd c.rd).indirectS2ap h n irqs c' s').1
      (mapDrainPending cfg (s.rd c.rd).indirectS2ap h n irqs c' s').2.2 := by
  obtain ⟨n,rfl⟩ : ∃ k, n = k+1 := ⟨n-1,by omega⟩
  have hcount : mapSize c.level - c'.pendingOff = (mapSize c'.level - c'.pendingOff) / granuleSize * granuleSize := by
    rw [z.same.level]
    refine (Nat.div_mul_cancel ?_).symm
    exact Nat.dvd_sub (granuleSize_dvd_mapSize _) (Nat.dvd_of_mod_eq_zero z.ok.page)
  simp only [mapDrainPending]
  rw [if_neg (by rw [z.same.level]; omega),if_pos z.coarse]
  have hall := z.zeroAll irqs hcount
  generalize mapZeroCoarse h ((mapSize c'.level - c'.pendingOff) / granuleSize) irqs c' s' = r at hall
  obtain ⟨t,irqs',x,b⟩ := r
  obtain ⟨z',hoff⟩ := hall
  cases b with
  | false => exact .zeroing z' hoff
  | true => exact z'.publish hoff rfl

theorem At.unit (hl : s.Layout cfg) (a : At cfg h s c s' c') (hf : c'.rollback = false)
    (hlt : c'.pendingOff < mapSize c.level) {u : TrackingUnit}
    (hu : s'.findActive cfg c.mem (c.pa+c'.pendingOff) .delegated = .ok u)
    (hfit : u.size ≤ mapSize c.level - c'.pendingOff) (hal : (c.pa+c'.pendingOff) % u.size = 0) :
    u.base = c.pa+c'.pendingOff ∧ u.size % granuleSize = 0 ∧ granuleSize ≤ u.size ∧
      (∀ q, InBlock (c.pa+c'.pendingOff) u.size q → (s.granule q).state = .delegated) ∧
      (u.size = granuleSize ∧ s.tracking (Rmm.region cfg c.pa) = .fine ∨
        u.size ≠ granuleSize ∧ c'.pendingOff = 0 ∧ u.size = mapSize c.level ∧ u.size = cfg.regionSize ∧
          ∀ q, InBlock c.pa (mapSize c.level) q → cfg.bank q = cfg.bank c.pa) := by
  rw [a.lookup hf hlt] at hu
  have act := Rmm.active hu
  have hbase := act.base hal
  have hreg : Rmm.region cfg (c.pa+c'.pendingOff) = Rmm.region cfg c.pa := by
    have := a.ok.region_eq (by rw [a.same.level]; exact hlt)
    rw [a.same.pa] at this
    exact this
  have hst := act.state
  rw [hbase] at hst
  rcases act.cases hal with ⟨hsz,htr⟩ | ⟨hsz,htr⟩
  · refine ⟨hbase,by rw [hsz,Nat.mod_self],le_of_eq hsz.symm,fun q hq => ?_,.inl ⟨hsz,by rw [← hreg]; exact htr⟩⟩
    rw [hsz] at hq
    rw [inBlock_page act.page hq]
    exact hst
  · have hfits := a.ok.fits
    rw [a.same.level] at hfits
    have hgt := cfg.granuleSize_lt
    have h0 : c'.pendingOff = 0 := by omega
    have hmap : u.size = mapSize c.level := by omega
    have hco : s.tracking (Rmm.region cfg c.pa) = .coarse := by
      have := htr c.pa ⟨by omega,by omega,a.pa_page⟩
      exact this
    have hin : ∀ q, InBlock (c.pa+c'.pendingOff) u.size q → Rmm.region cfg q = Rmm.region cfg c.pa := fun q hq => by
      obtain ⟨k,hk⟩ : ∃ k, q = c'.pa+k := ⟨q-c.pa,by rw [a.same.pa]; have := hq.1; omega⟩
      have := a.ok.region_eq (o := k) (by
        rw [a.same.level]
        have := hq.2.1
        rw [hk,a.same.pa] at this
        omega)
      rw [← hk,a.same.pa] at this
      exact this
    have hst' : (s.granule c.pa).state = .delegated := by
      rw [h0,add_zero] at hst
      exact hst
    refine ⟨hbase,?_,by omega,fun q hq => ?_,.inr ⟨by omega,h0,hmap,hsz,fun q hq => ?_⟩⟩
    · rw [hsz]
      exact Nat.mod_eq_zero_of_dvd (granuleSize_dvd_mapSize _)
    · rw [hl.states c.pa q hco (hin q hq) a.pa_page hq.2.2]
      exact hst'
    · refine hl.banks c.pa q hco (hin q ?_)
      rw [h0,hmap,add_zero]
      exact hq

theorem At.drain (hl : s.Layout cfg) (hlo : c.pendingOff % granuleSize = 0) (a : At cfg h s c s' c')
    (hf : c'.rollback = false) (hn : mapSize c.level - c'.pendingOff < n*granuleSize) :
    CallEnd cfg h s c (mapDrainPending cfg (s.rd c.rd).indirectS2ap h n irqs c' s').1
      (mapDrainPending cfg (s.rd c.rd).indirectS2ap h n irqs c' s').2.2 := by
  induction n generalizing irqs c' s' with
  | zero => omega
  | succ n ih =>
    have hmem := a.same.mem
    have hpa := a.same.pa
    have hlev := a.same.level
    simp only [mapDrainPending]
    split
    next hge => exact a.finish hf (hlev ▸ hge)
    next hlt =>
    rw [hlev,not_le] at hlt
    rw [if_neg (by rw [a.coarse]; simp)]
    split
    · exact .paused a
    have hstops : ∀ {st : Status}, s.FailsAt cfg c c'.pendingOff st → s.Stops cfg c st := fun hs =>
      ⟨c'.pendingOff,(a.forward hf).2,hlt,a.ok.page,hs,a.passed hf hlt⟩
    split
    next st hst =>
      rw [hmem,hpa,a.lookup hf hlt] at hst
      exact a.turn hlo hf hlt (hstops (.inl hst))
    next u hu =>
    rw [hmem,hpa] at hu
    have hu' := hu
    rw [a.lookup hf hlt] at hu'
    split
    next hbad =>
      rw [hlev,hpa] at hbad
      rw [hpa]
      exact a.turn hlo hf hlt (hstops (.inr ⟨u,hu',.inl ⟨hbad,rfl⟩⟩))
    next hgood =>
    rw [hlev,hpa,not_or,not_lt,not_not] at hgood
    obtain ⟨hbase,hpage,hmin,hdel,hkinds⟩ := a.unit hl hf hlt hu hgood.1 hgood.2
    split
    next hbad =>
      rw [hmem,hpa] at hbad
      rw [(a.kind hbad.1 hbad.2.1).1] at hbad
      exact a.turn hlo hf hlt (hstops (.inr ⟨u,hu',.inr ⟨hbad.1,hbad.2.2,rfl⟩⟩))
    next hmix =>
    have hcoh : c.mem = .dev → (if c'.pendingOff = 0 then cfg.bank (c'.pa+c'.pendingOff) else c'.cohType) =
        cfg.bank c.pa := fun hd => by
      split
      next h0 => rw [h0,hpa,add_zero]
      next h0 => exact (a.kind hd h0).1
    split
    next hclaim =>
      rw [hmem] at hclaim
      obtain ⟨hsz,_⟩ | ⟨_,h0,hsz,hreg,_⟩ := hkinds
      · exact absurd hsz hclaim.2
      have h0' : c.pendingOff = 0 := by
        have := (a.forward hf).2
        omega
      have hdel' : ∀ q, InBlock c.pa (mapSize c.level) q → (s.granule q).state = .delegated := fun q hq =>
        hdel q (by rw [h0,hsz,add_zero]; exact hq)
      have hu0 : u.base = c.pa := by rw [hbase,h0,add_zero]
      have z : Zeroing cfg h s c ((s'.setRange u.base u.size .partialUnit).putMap h { c' with coarse := true })
          { c' with coarse := true } := by
        refine ⟨a.kept.setRange.putMap,⟨a.same.mem,a.same.llt,a.same.rd,a.same.pa,a.same.index,a.same.level,a.same.ipa,a.same.initBase⟩,
          ⟨fun _ => by rw [← hreg,hsz,hlev],fun _ => by rw [hmem]; exact hclaim.1,a.ok.aligned,a.ok.fits,a.ok.off,
            a.ok.page,fun hx => absurd (hx.symm.trans hf) (by simp)⟩,rfl,(a.forward hf).1,hf,by simp [Rmm.putMap],
          a.here,?_,fun _ => ⟨h0',hdel'⟩,fun q hq => ?_,fun q hq => ?_,fun q hq => ?_⟩
        · rw [← a.ref]
          exact setRange_refcount ..
        · apply setRange_in
          rw [hu0,hsz]
          exact hq
        · refine (setRange_out ?_).trans (a.moved.rest q (fun hin => ?_) fun hin => ?_)
          · rw [hu0,hsz]
            exact hq
          · omega
          · omega
        · have h1 := hq.1
          have h2 := hq.2.1
          rw [h0] at h2
          omega
      have hgt := cfg.granuleSize_lt
      refine z.drain hlt (pos_of_ne_zero fun hz => ?_)
      rw [hz,zero_add,one_mul] at hn
      omega
    next hfine =>
    rw [hmem] at hfine
    have hhere : ∀ st, ¬ s.FailsAt cfg c c'.pendingOff st := fun st hs => by
      rcases hs with hs | ⟨u',hs,⟨hbad,_⟩ | ⟨hd,hne,_⟩⟩
      · rw [hu'] at hs
        cases hs
      · rw [hu'] at hs
        cases hs
        omega
      · by_cases h0 : c'.pendingOff = 0
        · rw [h0,add_zero] at hne
          exact hne rfl
        · rw [hmem,hpa,(a.kind hd h0).1] at hmix
          exact hmix ⟨hd,h0,hne⟩
    refine ih (a.claim hf hpage (by omega) hdel ?_ ?_ ?_ ?_ hcoh rfl rfl) hf ?_
    · intro hd q hq
      rcases hkinds with ⟨hsz,_⟩ | ⟨_,h0,hsz,_,hb⟩
      · rw [hsz] at hq
        have hpg := a.ok.page
        have hpp := a.pa_page
        rw [inBlock_page (by unfold granuleSize at *; omega) hq]
        by_cases h0 : c'.pendingOff = 0
        · rw [h0,add_zero]
        · by_contra hne
          rw [hmem,hpa,(a.kind hd h0).1] at hmix
          exact hmix ⟨hd,h0,hne⟩
      · apply hb q
        rw [h0,hsz,add_zero] at hq
        exact hq
    · intro hd
      by_contra hne
      exact hfine ⟨hd,hne⟩
    · intro hmore
      rcases hkinds with ⟨_,htr⟩ | ⟨_,h0,hsz,_⟩
      · exact htr
      · omega
    · intro hmore o hlo hhi hpg
      rcases hkinds with ⟨hsz,_⟩ | ⟨_,h0,hsz,_⟩
      · by_cases hold : o < c'.pendingOff
        · exact a.passed hf hlt o hlo hold hpg
        obtain rfl : o = c'.pendingOff := by
          have := a.ok.page
          unfold granuleSize at *
          omega
        exact hhere
      · omega
    · show mapSize c.level - (c'.pendingOff+u.size) < n*granuleSize
      rw [Nat.succ_mul] at hn
      omega

theorem Rmm.mapResume_end (hl : s.Layout cfg) (hok : c.Ok cfg) (hop : (s.sro h).op = .map c)
    (hun : c.coarse = true → ∀ q, InBlock c.pa (mapSize c.level) q → (s.granule q).state = .partialUnit)
    (hlt : c.coarse = true → c.pendingOff < mapSize c.level ∧ c.rollback = false)
    (hzero : c.mem = .data → ∀ q, InBlock c.pa c.pendingOff q → s.content q = 0)
    (hkind : c.mem = .dev → c.pendingOff ≠ 0 →
      c.cohType = cfg.bank c.pa ∧ ∀ q, InBlock c.pa c.pendingOff q → cfg.bank q = cfg.bank c.pa) :
    CallEnd cfg h s c (s.mapResume cfg (s.rd c.rd).indirectS2ap h irqs c).1
      (s.mapResume cfg (s.rd c.rd).indirectS2ap h irqs c).2.2 := by
  have hfuel : mapSize c.level < (mapSize c.level / granuleSize + 1)*granuleSize :=
    Nat.lt_mul_of_div_lt (Nat.lt_succ_self _) (by decide)
  cases hco : c.coarse with
  | true =>
    obtain ⟨hlt,hf⟩ := hlt hco
    unfold Rmm.mapResume
    rw [if_neg (by rw [hf]; simp)]
    refine Zeroing.drain ⟨.refl,⟨rfl,rfl,rfl,rfl,rfl,rfl,rfl,rfl⟩,hok,hco,hf,hf,hop,rfl,rfl,fun hx => ?_,hun hco,fun _ _ => rfl,
      hzero (hok.data hco)⟩ hlt (Nat.succ_pos _)
    rw [hco] at hx
    cases hx
  | false =>
    have a : At cfg h s c s c := ⟨.refl,⟨rfl,rfl,rfl,rfl,rfl,rfl,rfl,rfl⟩,hok,hco,hco,hop,rfl,rfl,.refl,hzero,hkind,
      fun hf => ⟨hf,le_rfl⟩,fun _ => le_rfl,fun hx => absurd hx (lt_irrefl _),
      fun _ _ o hlo hhi => absurd hhi (Nat.not_lt.2 hlo),fun hr => .inl ⟨hr,rfl⟩⟩
    unfold Rmm.mapResume
    split
    next hr => exact a.rollback hok.page hr (Nat.div_mul_cancel (Nat.dvd_of_mod_eq_zero hok.page)).symm
    next hr => exact a.drain hl hok.page (by simpa using hr) (by omega)

end TfRmm.Rtt
