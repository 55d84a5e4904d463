import Mathlib.Logic.Function.Basic
import TfRmm.Lib.Transition
import TfRmm.S2tt.Entry

namespace TfRmm.Overlay

open TfRmm.S2tt

structure Perm where
  r : Bool
  w : Bool
  xn : Nat
  deriving DecidableEq

def permXuXp : Nat := 0

def permXuXnp : Nat := 1

def permXnuXp : Nat := 3

def ovrEncodings : Nat → Perm
  | 4 => ⟨false,true,permXnuXnp⟩
  | 8 => ⟨true,false,permXnuXnp⟩
  | 9 => ⟨true,false,permXuXnp⟩
  | 10 => ⟨true,false,permXnuXp⟩
  | 11 => ⟨true,false,permXuXp⟩
  | 12 => ⟨true,true,permXnuXnp⟩
  | 13 => ⟨true,true,permXuXnp⟩
  | 14 => ⟨true,true,permXnuXp⟩
  | 15 => ⟨true,true,permXuXp⟩
  | _ => ⟨false,false,permXnuXnp⟩

def baseEncodings : Nat → Bool × Bool
  | 1 => (true,false)
  | 2 => (false,true)
  | 3 => (true,true)
  | 4 => (true,true)
  | _ => (false,false)

def getPermValue (reg index : Nat) : Nat := reg / 16 ^ index % 16

def setOverlayPerm (reg index perm : Nat) : Nat :=
  reg / 16 ^ (index+1) * 16 ^ (index+1) + perm * 16 ^ index + reg % 16 ^ index

def flattenedAp (por baseIdx ovrIdx : Nat) : Perm :=
  let ovr := ovrEncodings (getPermValue por ovrIdx)
  let base := baseEncodings baseIdx
  ⟨base.1 && ovr.r,base.2 && ovr.w,if baseIdx ≠ defBasePermIdx then permXnuXnp else ovr.xn⟩

def numPermOverlayIndices : Nat := 15

def permCount : Nat := 16

def ovrlPermIndexValid (index : Nat) : Bool := index < numPermOverlayIndices

def permValueValid (perm : Nat) : Bool := perm < permCount

def defProtOverlayIdx : Nat := 0

def defUnprotOverlayIdx : Nat := 15

structure Entry where
  table : Option Nat
  ripas : Option Ripas
  dev : Bool
  drainPending : Bool
  piIndex : Nat
  poIndex : Nat
  ap : Perm
  given : Nat
  deriving DecidableEq

structure Config where
  geo : Geometry
  oaBits : Nat
  rttTreePp : Bool
  indirectS2ap : Bool
  numPlanes : Nat
  planes_pos : 0 < numPlanes
  planes_le : numPlanes ≤ 4
  root : Nat → Nat
  treeOf : Nat → Nat

namespace Config

variable (cfg : Config)

def trees : Nat := if cfg.rttTreePp then cfg.numPlanes else 1

def planeToS2Context (plane : Nat) : Nat := (plane+1) % cfg.numPlanes

def slTable (tree addr : Nat) : Nat :=
  if cfg.geo.slAddrToIdx addr ≥ s2ttesPerS2tt then
    cfg.root tree + cfg.geo.slAddrToIdx addr / s2ttesPerS2tt * granuleSize
  else cfg.root tree

end Config

structure Request where
  base : Nat
  top : Nat
  index : Nat
  cookie : Nat
  start : Nat
  deriving DecidableEq

def Request.none : Request := ⟨0,0,0,0,0⟩

structure Rec where
  running : Bool
  setS2ap : Request
  deriving DecidableEq

structure World where
  tables : Nat → Nat → Entry
  overlayPerm : Nat → Nat
  overlayIndexLock : Nat → Bool
  recs : Nat → Rec

namespace World

variable (w : World)

def setEntry (t i : Nat) (e : Entry) : World :=
  { w with tables := Function.update w.tables t (Function.update (w.tables t) i e) }

def setRec (r : Nat) (x : Rec) : World := { w with recs := Function.update w.recs r x }

def setRequest (r : Nat) (q : Request) : World := w.setRec r { w.recs r with setS2ap := q }

end World

def getRttBaseFromCookie (cookie : Nat) : Nat := cookie / granuleSize * granuleSize

def getRttIdxFromCookie (cookie : Nat) : Nat := cookie % granuleSize

def rttCookieCreate (addr idx : Nat) : Nat := addr / granuleSize * granuleSize + idx % granuleSize

structure Walk where
  llt : Nat
  index : Nat
  lastLevel : Int
  deriving DecidableEq

structure Write where
  tree : Nat
  table : Nat
  slot : Nat
  ipa : Nat
  level : Int
  deriving DecidableEq

inductive Status where
  | success
  | errorInput
  | errorRec
  | errorRtt (level : Int)
  | errorRttAux (level : Int)
  | blocked
  deriving DecidableEq

structure S2apResult where
  world : World
  status : Status
  next : Nat
  writes : List Write

def uintMax : Nat := 2 ^ 32

variable (cfg : Config)

def Config.treeIdx (q : Request) : Nat := if cfg.rttTreePp then getRttIdxFromCookie q.cookie else 0

namespace World

variable (w : World)

def walkFrom (addr : Nat) : Nat → Nat → Int → Nat × Int
  | 0, t, l => (t,l)
  | n+1, t, l =>
    match (w.tables t (addrToIdx addr l)).table with
    | some c => walkFrom addr n c (l+1)
    | none => (t,l)

def walk (tree addr : Nat) : Walk :=
  let p := w.walkFrom addr (pageLevel-cfg.geo.startLevel).toNat (cfg.slTable tree addr) cfg.geo.startLevel
  ⟨p.1,addrToIdx addr p.2,p.2⟩

def walkEntry (wi : Walk) : Entry := w.tables wi.llt wi.index

def updateProtAp (tree index : Nat) (e : Entry) : Entry :=
  if cfg.indirectS2ap then { e with poIndex := index,given := index }
  else
    { e with
      ap := flattenedAp (w.overlayPerm tree) (if e.dev then devDefBasePermIdx else defBasePermIdx) index
      given := index }

def rttError (tree : Nat) (level : Int) : Status :=
  if tree = 0 then .errorRtt level else .errorRttAux level

def setS2apEntries (tree index t : Nat) (level : Int) (base top : Nat) : Nat → Nat → Nat → World → S2apResult
  | 0, _, next, w => ⟨w,.success,next,[]⟩
  | n+1, i, next, w =>
    if next < top then
      if next + mapSize level > top then ⟨w,rttError tree level,next,[]⟩
      else if (w.tables t i).drainPending then ⟨w,if next = base then .blocked else .success,next,[]⟩
      else if (w.tables t i).table.isSome then ⟨w,.success,next,[]⟩
      else
        let w' := w.setEntry t i (w.updateProtAp cfg tree index (w.tables t i))
        let res := setS2apEntries tree index t level base top n (i+1) (next + mapSize level) w'
        { res with writes := ⟨tree,t,i,next,level⟩ :: res.writes }
    else ⟨w,.success,next,[]⟩

def rttSetS2ap (r base top : Nat) : S2apResult :=
  let q := (w.recs r).setS2ap
  let tree := cfg.treeIdx q
  let wi := w.walk cfg tree base
  if top ≤ base ∨ top % granuleSize ≠ 0 then ⟨w,.errorInput,base,[]⟩
  else if (w.recs r).running then ⟨w,.errorRec,base,[]⟩
  else if base ≠ q.base ∨ top > q.top then ⟨w,.errorInput,base,[]⟩
  else if base > cfg.geo.ipaSize then ⟨w,.errorInput,base,[]⟩
  else if !isAddrLvlAligned cfg.oaBits base wi.lastLevel then ⟨w,rttError tree wi.lastLevel,base,[]⟩
  else
    let res := setS2apEntries cfg tree (q.index % uintMax) wi.llt wi.lastLevel base top (s2ttesPerS2tt-wi.index)
      wi.index base w
    { res with world := res.world.setRequest r { q with base := res.next } }

def validateCookie (cookie base : Nat) : Option Nat :=
  if cookie = 0 then some (if cfg.rttTreePp then rttCookieCreate base 0 else 0)
  else if !cfg.rttTreePp ∨ getRttBaseFromCookie cookie ≠ base ∨ getRttIdxFromCookie cookie ≥ cfg.numPlanes then none
  else some cookie

def baseRipas (base : Nat) : Option Ripas := (w.walkEntry (w.walk cfg 0 base)).ripas

def rsiMemSetPermIndex (r base top permIndex cookie : Nat) : Option World :=
  if base % granuleSize ≠ 0 ∨ top % granuleSize ≠ 0 ∨ top ≤ base then none
  else if cfg.geo.parSize < top ∨ !ovrlPermIndexValid (permIndex % uintMax) then none
  else
    match validateCookie cfg cookie base with
    | none => none
    | some cookie =>
      if w.baseRipas cfg base = none ∨ w.baseRipas cfg base = some .empty then none
      else some (w.setRec r ⟨false,⟨base,top,permIndex,cookie,base⟩⟩)

def rsiMemSetPermValue (planeId permIndex permValue : Nat) : Option World :=
  if planeId < cfg.numPlanes ∧ ovrlPermIndexValid (permIndex % uintMax) ∧ planeId ≠ 0 ∧ permValueValid permValue then
    if w.overlayIndexLock (permIndex % uintMax) then none
    else
      let ctx := cfg.planeToS2Context planeId
      let reg := setOverlayPerm (w.overlayPerm ctx) (permIndex % uintMax) permValue
      some { w with overlayPerm := Function.update w.overlayPerm ctx reg }
  else none

def s2apProgress (q : Request) : Nat × Nat :=
  if cfg.rttTreePp then
    let idx := getRttIdxFromCookie q.cookie
    if q.base = q.top then
      if idx+1 < cfg.numPlanes then
        let newBase := getRttBaseFromCookie q.cookie
        (newBase,rttCookieCreate newBase (idx+1))
      else (q.base,0)
    else (q.base,rttCookieCreate q.base idx)
  else (q.base,0)

def setPermImmutable (index : Nat) : World :=
  { w with overlayIndexLock := Function.update w.overlayIndexLock (index % uintMax) true }

def completeSetS2ap (r : Nat) (reject : Bool) : World × Option (Nat × Nat) :=
  let q := (w.recs r).setS2ap
  if q.base = 0 ∧ q.top = 0 then (w.setRec r ⟨true,q⟩,none)
  else
    let w' := if reject then w else w.setPermImmutable q.index
    (w'.setRec r ⟨true,.none⟩,some (s2apProgress cfg q))

end World

inductive Command where
  | memSetPermValue (r planeId permIndex permValue : Nat)
  | memSetPermIndex (r base top permIndex cookie : Nat)
  | recExit (r : Nat)
  | rttSetS2ap (r base top : Nat)
  | recEnter (r : Nat) (reject : Bool)
  deriving DecidableEq

def World.exec (w : World) : Command → World
  | .memSetPermValue r planeId permIndex permValue =>
    if (w.recs r).running then (w.rsiMemSetPermValue cfg planeId permIndex permValue).getD w else w
  | .memSetPermIndex r base top permIndex cookie =>
    if (w.recs r).running then (w.rsiMemSetPermIndex cfg r base top permIndex cookie).getD w else w
  | .recExit r => if (w.recs r).running then w.setRec r { w.recs r with running := false } else w
  | .rttSetS2ap r base top => (w.rttSetS2ap cfg r base top).world
  | .recEnter r reject => if (w.recs r).running then w else (w.completeSetS2ap cfg r reject).1

variable {cfg : Config} {tree index t base top n i next : Nat} {level : Int} {w : World}

def Write.Covers (a : Write) (x : Nat) : Prop := a.ipa ≤ x ∧ x < a.ipa + mapSize a.level

structure Sweep (cfg : Config) (tree index t : Nat) (level : Int) (top i next : Nat) (w : World) (res : S2apResult) :
    Prop where
  recs : res.world.recs = w.recs
  overlayPerm : res.world.overlayPerm = w.overlayPerm
  lock : res.world.overlayIndexLock = w.overlayIndexLock
  forward : next ≤ res.next
  below : next ≤ top → res.next ≤ top
  tables : ∀ t' i', res.world.tables t' i' = w.tables t' i' ∨
    (t' = t ∧ i ≤ i' ∧ next < res.next ∧ (w.tables t' i').table = none ∧
      res.world.tables t' i' = w.updateProtAp cfg tree index (w.tables t' i'))
  writes : ∀ a ∈ res.writes, a.tree = tree ∧ a.table = t ∧ a.level = level ∧ i ≤ a.slot ∧ a.slot < s2ttesPerS2tt ∧
    a.ipa = next + (a.slot-i) * mapSize level ∧ a.ipa + mapSize level ≤ res.next ∧
    (w.tables t a.slot).table = none ∧ (res.world.tables t a.slot).given = index
  covers : ∀ x, next ≤ x → x < res.next → ∃ a ∈ res.writes, a.Covers x

theorem Sweep.stop (st : Status) : Sweep cfg tree index t level top i next w ⟨w,st,next,[]⟩ :=
  ⟨rfl,rfl,rfl,le_rfl,id,fun _ _ => .inl rfl,nofun,fun _ h1 h2 => absurd h2 (Nat.not_lt.mpr h1)⟩

theorem updateProtAp_given (e : Entry) : (w.updateProtAp cfg tree index e).given = index := by
  unfold World.updateProtAp
  split <;> rfl

theorem updateProtAp_table (e : Entry) : (w.updateProtAp cfg tree index e).table = e.table := by
  unfold World.updateProtAp
  split <;> rfl

theorem setEntry_tables_self (e : Entry) : (w.setEntry t i e).tables t i = e := by
  simp [World.setEntry]

theorem setEntry_tables_of_ne {t' i' : Nat} (h : t' ≠ t ∨ i' ≠ i) (e : Entry) :
    (w.setEntry t i e).tables t' i' = w.tables t' i' := by
  by_cases ht : t' = t
  · subst ht
    have hi := h.resolve_left fun h0 => h0 rfl
    simp [World.setEntry,hi]
  · simp [World.setEntry,ht]

theorem Sweep.cons {res : S2apResult} (hlt : i < s2ttesPerS2tt) (hfit : next + mapSize level ≤ top)
    (hnone : (w.tables t i).table = none)
    (hs : Sweep cfg tree index t level top (i+1) (next + mapSize level)
      (w.setEntry t i (w.updateProtAp cfg tree index (w.tables t i))) res) :
    Sweep cfg tree index t level top i next w { res with writes := ⟨tree,t,i,next,level⟩ :: res.writes } := by
  have hpos := mapSize_pos level
  have hf := hs.forward
  have hnext : next < res.next := by omega
  have hself : res.world.tables t i = w.updateProtAp cfg tree index (w.tables t i) := by
    rcases hs.tables t i with h | h
    · rw [h,setEntry_tables_self]
    · omega
  constructor
  case recs => exact hs.recs
  case overlayPerm => exact hs.overlayPerm
  case lock => exact hs.lock
  case forward => exact le_of_lt hnext
  case below => exact fun _ => hs.below hfit
  case tables =>
    intro t' i'
    by_cases hti : t' = t ∧ i' = i
    · obtain ⟨rfl,rfl⟩ := hti
      exact .inr ⟨rfl,le_rfl,hnext,hnone,hself⟩
    have hne : t' ≠ t ∨ i' ≠ i := by
      by_cases ht : t' = t
      · exact .inr fun hi => hti ⟨ht,hi⟩
      · exact .inl ht
    rcases hs.tables t' i' with h | ⟨h1,h2,-,h4,h5⟩
    · exact .inl (h.trans (setEntry_tables_of_ne hne _))
    · right
      rw [setEntry_tables_of_ne hne] at h4 h5
      exact ⟨h1,by omega,hnext,h4,h5⟩
  case writes =>
    intro a ha
    rcases List.mem_cons.mp ha with rfl | ha
    · refine ⟨rfl,rfl,rfl,le_rfl,hlt,by simp,hf,hnone,?_⟩
      simp only [hself]
      exact updateProtAp_given _
    obtain ⟨h1,h2,h3,h4,h5,h6,h7,h8,h9⟩ := hs.writes a ha
    have hne : a.slot ≠ i := by omega
    refine ⟨h1,h2,h3,by omega,h5,?_,h7,?_,h9⟩
    · rw [h6,show a.slot-i = a.slot - (i+1) + 1 by omega]
      ring
    · rwa [setEntry_tables_of_ne (.inr hne)] at h8
  case covers =>
    intro x h1 h2
    by_cases hx : x < next + mapSize level
    · exact ⟨_,List.mem_cons_self ..,h1,hx⟩
    · obtain ⟨a,ha,hc⟩ := hs.covers x (by omega) h2
      exact ⟨a,List.mem_cons_of_mem _ ha,hc⟩

theorem setS2apEntries_sweep (base : Nat) (hn : i+n ≤ s2ttesPerS2tt) : Sweep cfg tree index t level top i next w
      (World.setS2apEntries cfg tree index t level base top n i next w) := by
  induction n generalizing i next w with
  | zero => exact .stop _
  | succ n ih =>
    unfold World.setS2apEntries
    split
    case isFalse => exact .stop _
    case isTrue hlt =>
      split
      · exact .stop _
      next hfit =>
      split
      · exact .stop _
      split
      · exact .stop _
      next htab =>
      exact (ih (by omega)).cons (by omega) (by omega) (by simpa using htab)

section Walks

variable {x addr m t' : Nat} {l l' : Int}

theorem addrToIdx_congr (hl : l < l') (hp : l' ≤ pageLevel) (h : x / tableSize l' = addr / tableSize l') :
    addrToIdx x l = addrToIdx addr l := by
  have hm : mapSize l = tableSize (l+1) := mapSize_eq_tableSize_succ (by omega)
  obtain ⟨k,hk⟩ : tableSize l' ∣ tableSize (l+1) := by
    unfold tableSize
    exact Nat.mul_dvd_mul_left _ (mapSize_dvd (by omega))
  have hd : x / mapSize l = addr / mapSize l := by
    rw [hm,hk,← Nat.div_div_eq_div_mul,← Nat.div_div_eq_div_mul,h]
  unfold addrToIdx
  rw [hd]

theorem walkFrom_level (h : w.walkFrom addr m t l = (t',l')) : l ≤ l' ∧ l' ≤ l+m := by
  induction m generalizing t l with
  | zero =>
    cases h
    simp
  | succ m ih =>
    unfold World.walkFrom at h
    split at h
    · have := ih h
      push_cast
      omega
    · cases h
      push_cast
      omega

theorem walkFrom_congr (hm : l+m ≤ pageLevel) (h : w.walkFrom addr m t l = (t',l'))
    (hx : x / tableSize l' = addr / tableSize l') (hleaf : (w.tables t' (addrToIdx x l')).table = none) :
    w.walkFrom x m t l = (t',l') := by
  induction m generalizing t l with
  | zero => exact h
  | succ m ih =>
    unfold World.walkFrom at h ⊢
    push_cast at hm
    split at h
    case h_1 c hc =>
      obtain ⟨h1,h2⟩ := walkFrom_level h
      rw [addrToIdx_congr (show l < l' by omega) (by omega) hx,hc]
      exact ih (by omega) h
    case h_2 hc =>
      cases h
      rw [hleaf]

theorem slTable_congr (hx : x < cfg.geo.ipaSize) (ha : addr < cfg.geo.ipaSize)
    (h : x / tableSize cfg.geo.startLevel = addr / tableSize cfg.geo.startLevel) :
    cfg.slTable tree x = cfg.slTable tree addr := by
  have hdiv : cfg.geo.slAddrToIdx x / s2ttesPerS2tt = cfg.geo.slAddrToIdx addr / s2ttesPerS2tt := by
    unfold Geometry.slAddrToIdx
    rw [Nat.mod_eq_of_lt hx,Nat.mod_eq_of_lt ha,Nat.div_div_eq_div_mul,Nat.div_div_eq_div_mul,mul_comm (mapSize _)]
    exact h
  have hiff : cfg.geo.slAddrToIdx x ≥ s2ttesPerS2tt ↔ cfg.geo.slAddrToIdx addr ≥ s2ttesPerS2tt := by
    unfold s2ttesPerS2tt at *
    omega
  unfold Config.slTable
  simp only [hiff,hdiv]

theorem div_tableSize_of_le {l l' : Int} (hl : l ≤ l') (h : x / tableSize l' = addr / tableSize l') :
    x / tableSize l = addr / tableSize l := by
  obtain ⟨k,hk⟩ : tableSize l' ∣ tableSize l := by
    unfold tableSize
    exact Nat.mul_dvd_mul_left _ (mapSize_dvd hl)
  rw [hk,← Nat.div_div_eq_div_mul,← Nat.div_div_eq_div_mul,h]

theorem walk_level (cfg : Config) (w : World) (tree addr : Nat) :
    cfg.geo.startLevel ≤ (w.walk cfg tree addr).lastLevel ∧ (w.walk cfg tree addr).lastLevel ≤ pageLevel := by
  have h := walkFrom_level (rfl : w.walkFrom addr (pageLevel-cfg.geo.startLevel).toNat (cfg.slTable tree addr)
    cfg.geo.startLevel = (_,_))
  have h2 := cfg.geo.valid.start_le
  unfold World.walk
  dsimp only
  omega

theorem walk_congr (hx : x < cfg.geo.ipaSize) (ha : addr < cfg.geo.ipaSize)
    (h : x / tableSize (w.walk cfg tree addr).lastLevel = addr / tableSize (w.walk cfg tree addr).lastLevel)
    (hleaf : (w.tables (w.walk cfg tree addr).llt (addrToIdx x (w.walk cfg tree addr).lastLevel)).table = none) :
    w.walk cfg tree x =
      ⟨(w.walk cfg tree addr).llt,addrToIdx x (w.walk cfg tree addr).lastLevel,(w.walk cfg tree addr).lastLevel⟩ := by
  have hl := walk_level cfg w tree addr
  have hst := cfg.geo.valid.start_le
  have hsame : w.walkFrom x (pageLevel-cfg.geo.startLevel).toNat (cfg.slTable tree x) cfg.geo.startLevel =
      ((w.walk cfg tree addr).llt,(w.walk cfg tree addr).lastLevel) := by
    rw [slTable_congr hx ha (div_tableSize_of_le hl.1 h)]
    exact walkFrom_congr (by omega) rfl h hleaf
  show Walk.mk _ _ _ = _
  rw [hsame]

theorem addrToIdx_offset {o : Nat} (hb : addr % mapSize l = 0) (h1 : addr + o * mapSize l ≤ x)
    (h2 : x < addr + o * mapSize l + mapSize l) (hoff : addrToIdx addr l + o < s2ttesPerS2tt)
    (hneg : l < 0 → x / mapSize l < 16) : addrToIdx x l = addrToIdx addr l + o ∧ x / tableSize l = addr / tableSize l := by
  have hpos := mapSize_pos l
  have hx : x / mapSize l = addr / mapSize l + o := by
    obtain ⟨k,hk⟩ := Nat.dvd_of_mod_eq_zero hb
    rw [hk] at h1 h2 ⊢
    rw [Nat.mul_div_cancel_left _ hpos,Nat.div_eq_iff hpos]
    have hm : (k+o) * mapSize l = mapSize l * k + o * mapSize l := by ring
    omega
  have htab : ∀ y, y / tableSize l = y / mapSize l / s2ttesPerS2tt := fun y => by
    rw [tableSize,mul_comm,Nat.div_div_eq_div_mul]
  rw [htab,htab]
  unfold addrToIdx at hoff ⊢
  rw [hx] at hneg ⊢
  generalize addr / mapSize l = e at *
  unfold s2ttesPerS2tt at *
  split at hoff
  · next hl =>
      have := hneg hl
      rw [if_pos hl]
      omega
  · next hl =>
      rw [if_neg hl]
      omega

end Walks

section Call

variable {r : Nat}

inductive S2apCall (cfg : Config) (w : World) (r : Nat) (res : S2apResult) : Prop where
  | refused : res.world = w → res.writes = [] → S2apCall cfg w r res
  | swept (top : Nat) (q : Request) (wi : Walk) (s : S2apResult) : (w.recs r).setS2ap = q →
      wi = w.walk cfg (cfg.treeIdx q) q.base → q.base < top → top ≤ q.top → (w.recs r).running = false →
      q.base % mapSize wi.lastLevel = 0 →
      Sweep cfg (cfg.treeIdx q) (q.index % uintMax) wi.llt wi.lastLevel top wi.index q.base w s →
      res.world = s.world.setRequest r { q with base := s.next } → res.writes = s.writes → S2apCall cfg w r res

theorem addrToIdx_lt (addr : Nat) (l : Int) : addrToIdx addr l < s2ttesPerS2tt := by
  unfold addrToIdx s2ttesPerS2tt
  split <;> omega

theorem rttSetS2ap_call (cfg : Config) (w : World) (r base top : Nat) : S2apCall cfg w r (w.rttSetS2ap cfg r base top) := by
  unfold World.rttSetS2ap
  dsimp only
  split
  · exact .refused rfl rfl
  next h1 =>
  split
  · exact .refused rfl rfl
  next h2 =>
  split
  · exact .refused rfl rfl
  next h3 =>
  split
  · exact .refused rfl rfl
  split
  · exact .refused rfl rfl
  next h5 =>
  obtain ⟨hb,ht⟩ : base = (w.recs r).setS2ap.base ∧ top ≤ (w.recs r).setS2ap.top :=
    ⟨not_not.mp (not_or.mp h3).1,Nat.not_lt.mp (not_or.mp h3).2⟩
  subst hb
  have hal : (w.recs r).setS2ap.base %
      mapSize (w.walk cfg (cfg.treeIdx (w.recs r).setS2ap) (w.recs r).setS2ap.base).lastLevel = 0 := by
    simp only [isAddrLvlAligned,Bool.not_eq_true',Bool.not_eq_false,Bool.and_eq_true,beq_iff_eq] at h5
    exact h5.2
  have hi := addrToIdx_lt (w.recs r).setS2ap.base
    (w.walk cfg (cfg.treeIdx (w.recs r).setS2ap) (w.recs r).setS2ap.base).lastLevel
  refine .swept top _ _ _ rfl rfl (by omega) ht (by simpa using h2) hal
    (setS2apEntries_sweep (w.recs r).setS2ap.base ?_) rfl rfl
  exact le_of_eq (Nat.add_sub_of_le (le_of_lt hi))

end Call

open TfRmm.Lib
open World (exec setRec validateCookie)

section Registers

variable {reg j v : Nat}

theorem setOverlayPerm_low : setOverlayPerm reg i v % 16 ^ i = reg % 16 ^ i := by
  have h : setOverlayPerm reg i v = 16 ^ i * (reg / 16 ^ (i+1) * 16 + v) + reg % 16 ^ i := by
    unfold setOverlayPerm
    ring
  rw [h,Nat.mul_add_mod,Nat.mod_mod]

theorem setOverlayPerm_div : setOverlayPerm reg i v / 16 ^ i = reg / 16 ^ (i+1) * 16 + v := by
  have h : setOverlayPerm reg i v = 16 ^ i * (reg / 16 ^ (i+1) * 16 + v) + reg % 16 ^ i := by
    unfold setOverlayPerm
    ring
  have hpos : 0 < 16 ^ i := Nat.pow_pos (by decide)
  rw [h,Nat.mul_add_div hpos,Nat.div_eq_of_lt (Nat.mod_lt _ hpos),add_zero]

theorem getPermValue_below (h : j < i) (a b : Nat) (he : a % 16 ^ i = b % 16 ^ i) :
    getPermValue a j = getPermValue b j := by
  have hp : 16 ^ i = 16 ^ j * 16 * 16 ^ (i-(j+1)) := by
    rw [← pow_succ,← pow_add]
    congr 1
    omega
  have hd : ∀ x, x / 16 ^ j % 16 = x % 16 ^ i % (16 ^ j * 16) / 16 ^ j := fun x => by
    rw [hp,Nat.mod_mul_right_mod,Nat.mod_mul_right_div_self]
  unfold getPermValue
  rw [hd a,hd b,he]

theorem getPermValue_of_ne (hv : v < 16) (h : j ≠ i) : getPermValue (setOverlayPerm reg i v) j = getPermValue reg j := by
  rcases Nat.lt_or_gt_of_ne h with hlt | hgt
  · exact getPermValue_below hlt _ _ setOverlayPerm_low
  obtain ⟨k,rfl⟩ : ∃ k, j = i + 1 + k := ⟨j-(i+1),by omega⟩
  have hdiv : setOverlayPerm reg i v / 16 ^ (i+1) = reg / 16 ^ (i+1) := by
    have hs : setOverlayPerm reg i v / 16 ^ (i+1) = setOverlayPerm reg i v / 16 ^ i / 16 := by
      rw [Nat.div_div_eq_div_mul,pow_succ]
    rw [hs,setOverlayPerm_div]
    omega
  unfold getPermValue
  rw [pow_add,← Nat.div_div_eq_div_mul,← Nat.div_div_eq_div_mul,hdiv]

end Registers

variable {u : World} {r : Nat} {cmd : Command}

def Request.pending (q : Request) : Prop := q.top ≠ 0

theorem none_not_pending : ¬Request.none.pending := fun h => h rfl

theorem validateCookie_idx {cookie base c : Nat} (h : validateCookie cfg cookie base = some c)
    (hpp : cfg.rttTreePp = true) : getRttIdxFromCookie c < cfg.numPlanes := by
  unfold validateCookie at h
  split at h
  · cases h
    simp only [getRttIdxFromCookie,rttCookieCreate,granuleSize]
    have := cfg.planes_pos
    omega
  · split at h
    · cases h
    next hc =>
      cases h
      exact Nat.not_le.mp fun h0 => hc (.inr (.inr h0))

theorem memSetPermIndex_cases {base top permIndex cookie : Nat}
    (h : w.rsiMemSetPermIndex cfg r base top permIndex cookie = some u) :
    ∃ c, u = w.setRec r ⟨false,⟨base,top,permIndex,c,base⟩⟩ ∧ validateCookie cfg cookie base = some c ∧
      base < top ∧ base % granuleSize = 0 ∧ top % granuleSize = 0 ∧ top ≤ cfg.geo.parSize ∧
      ovrlPermIndexValid (permIndex % uintMax) = true := by
  unfold World.rsiMemSetPermIndex at h
  split at h
  · cases h
  next h1 =>
  split at h
  · cases h
  next h2 =>
  split at h
  · cases h
  next c hc =>
  split at h
  · cases h
  · cases h
    simp only [not_or,Bool.not_eq_true',Bool.not_eq_false] at h1 h2
    exact ⟨c,rfl,hc,by omega,by omega,by omega,by omega,h2.2⟩

theorem recs_setRec (x : Rec) (r' : Nat) : (w.setRec r x).recs r' = if r' = r then x else w.recs r' :=
  Function.update_apply ..

inductive Effect (cfg : Config) (w : World) : Command → World → Prop where
  | nothing (cmd : Command) : Effect cfg w cmd w
  | value (r planeId permIndex permValue : Nat) : w.overlayIndexLock (permIndex % uintMax) = false →
      permValue < 16 → Effect cfg w (.memSetPermValue r planeId permIndex permValue)
        { w with overlayPerm := Function.update w.overlayPerm (cfg.planeToS2Context planeId)
                   (setOverlayPerm (w.overlayPerm (cfg.planeToS2Context planeId)) (permIndex % uintMax) permValue) }
  | request (r base top permIndex cookie c : Nat) : (w.recs r).running = true →
      World.validateCookie cfg cookie base = some c → ovrlPermIndexValid (permIndex % uintMax) = true →
      Effect cfg w (.memSetPermIndex r base top permIndex cookie) (w.setRec r ⟨false,⟨base,top,permIndex,c,base⟩⟩)
  | exit (r : Nat) : Effect cfg w (.recExit r) (w.setRec r { w.recs r with running := false })
  | sweep (r base top top' : Nat) (wi : Walk) (s : S2apResult) :
      wi = w.walk cfg (cfg.treeIdx (w.recs r).setS2ap) (w.recs r).setS2ap.base →
      (w.recs r).setS2ap.base < top' → top' ≤ (w.recs r).setS2ap.top → (w.recs r).running = false →
      Sweep cfg (cfg.treeIdx (w.recs r).setS2ap) ((w.recs r).setS2ap.index % uintMax) wi.llt wi.lastLevel top' wi.index
        (w.recs r).setS2ap.base w s →
      Effect cfg w (.rttSetS2ap r base top) (s.world.setRequest r { (w.recs r).setS2ap with base := s.next })
  | enter (r : Nat) (reject : Bool) : ¬(w.recs r).setS2ap.pending →
      Effect cfg w (.recEnter r reject) (w.setRec r ⟨true,(w.recs r).setS2ap⟩)
  | reject (r : Nat) : Effect cfg w (.recEnter r true) (w.setRec r ⟨true,.none⟩)
  | accept (r : Nat) : Effect cfg w (.recEnter r false)
      ((w.setPermImmutable (w.recs r).setS2ap.index).setRec r ⟨true,.none⟩)

theorem exec_effect (cfg : Config) (w : World) (cmd : Command) : Effect cfg w cmd (w.exec cfg cmd) := by
  cases cmd with
  | memSetPermValue r planeId permIndex permValue =>
    simp only [exec]
    split
    · unfold World.rsiMemSetPermValue
      split
      next hvalid =>
        split
        · exact .nothing _
        next hlock =>
          refine .value r planeId permIndex permValue (by simpa using hlock) ?_
          exact of_decide_eq_true hvalid.2.2.2
      next => exact .nothing _
    · exact .nothing _
  | memSetPermIndex r base top permIndex cookie =>
    simp only [exec]
    split
    next hrun =>
      cases hc : w.rsiMemSetPermIndex cfg r base top permIndex cookie with
      | none => exact .nothing _
      | some u =>
        obtain ⟨c,rfl,hcookie,-,-,-,-,hidx⟩ := memSetPermIndex_cases hc
        exact .request r base top permIndex cookie c hrun hcookie hidx
    next => exact .nothing _
  | recExit r =>
    simp only [exec]
    split
    · exact .exit r
    · exact .nothing _
  | rttSetS2ap r base top =>
    simp only [exec]
    cases rttSetS2ap_call cfg w r base top with
    | refused hw _ =>
      rw [hw]
      exact .nothing _
    | swept top' q wi s hq hwi hb ht hrun _ hs hw _ =>
      subst hq
      rw [hw]
      exact .sweep r base top top' wi s hwi hb ht hrun hs
  | recEnter r reject =>
    simp only [exec]
    split
    · exact .nothing _
    unfold World.completeSetS2ap
    dsimp only
    split
    next h0 => exact .enter r reject fun hp => hp h0.2
    next =>
    cases reject with
    | true => exact .reject r
    | false => exact .accept r

end TfRmm.Overlay
