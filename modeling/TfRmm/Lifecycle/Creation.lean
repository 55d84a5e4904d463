import TfRmm.Tracking.IndexSpace
import Mathlib.Data.List.Rotate

namespace TfRmm.Lifecycle.Creation

open TfRmm.Tracking.IndexSpace
open Function

inductive GranuleState where
  | delegated
  | rtt
  | other
  deriving DecidableEq

def setAll {β : Type} (f : Nat → β) (xs : List Nat) (b : β) : Nat → β := fun x => if x ∈ xs then b else f x

section SetAll

variable {β : Type} {f : Nat → β} {xs ys : List Nat} {b c : β}

@[simp] theorem setAll_nil : setAll f [] b = f := by
  funext x
  simp [setAll]

theorem setAll_append : setAll f (xs ++ ys) b = setAll (setAll f xs b) ys b := by
  funext x
  by_cases hx : x ∈ ys <;> simp [setAll,hx]

theorem setAll_singleton (y : Nat) : setAll f [y] b = update f y b := by
  funext x
  simp [setAll,update_apply]

theorem setAll_congr (h : ∀ x,x ∈ xs ↔ x ∈ ys) : setAll f xs b = setAll f ys b := by
  funext x
  simp only [setAll,h]

theorem setAll_undo (h : ∀ x ∈ xs,f x = b) : setAll (setAll f xs c) xs b = f := by
  funext x
  by_cases hx : x ∈ xs <;> simp [setAll,hx,h x]

end SetAll

structure Pools where
  vmid : Nat → Bool
  sharedMembers : Nat
  mec : Nat → Bool
  granule : Nat → GranuleState

structure Platform where
  vmidCount : Nat
  mecPresent : Bool
  maxMecid : Nat
  layout : Layout
  refused : Nat → Bool

def mecidShared : Nat := 1
def mecidPrivateStart : Nat := 2

def firstFree (used : Nat → Bool) : Nat := ((List.range 65536).find? fun i => !used i).getD 0

def vmidAlloc (p : Platform) (s : Pools) : Option Nat :=
  let hint := if p.vmidCount ≤ firstFree s.vmid then 0 else firstFree s.vmid
  (List.range' hint (p.vmidCount-hint) ++ List.range hint).find? fun i => !s.vmid i

def freeVmids (vs : List Nat) (s : Pools) : Pools := { s with vmid := setAll s.vmid vs false }

def allocVmids (p : Platform) (taken : List Nat) : Nat → Pools → Option (List Nat) × Pools
  | 0,s => (some taken,s)
  | n+1,s =>
    match vmidAlloc p s with
    | none => (none,freeVmids taken s)
    | some v => allocVmids p (taken ++ [v]) n { s with vmid := update s.vmid v true }

def mecidOrder (p : Platform) (s : Pools) : List Nat :=
  let hint := if firstFree s.mec = 0 ∨ p.maxMecid < firstFree s.mec then mecidPrivateStart else firstFree s.mec
  let count := if p.maxMecid < mecidPrivateStart then 0 else p.maxMecid - mecidPrivateStart + 1
  (List.range count).map fun i =>
    mecidPrivateStart + (i+(hint + 2 ^ 32 - mecidPrivateStart)) % 2 ^ 32 % count

def mecidAlloc (p : Platform) (shared : Bool) (s : Pools) : Option (Nat × Pools) :=
  if !p.mecPresent then some (0,s)
  else if shared then
    if s.sharedMembers < 2 ^ 64 - 1 then
      some (mecidShared,{ s with sharedMembers := s.sharedMembers+1 })
    else none
  else ((mecidOrder p s).find? fun i => !s.mec i).map fun i =>
    (i,{ s with mec := update s.mec i true })

def mecidFree (p : Platform) (mecid : Nat) (s : Pools) : Pools :=
  if !p.mecPresent then s
  else if mecid = mecidShared then { s with sharedMembers := s.sharedMembers-1 }
  else { s with mec := update s.mec mecid false }

def rootSlots (l : Layout) (base n : Nat) : List Nat := (List.range n).map (l.slot .conv base + ·)

def freeSlRtts (slot n : Nat) (g : Nat → GranuleState) : Nat → GranuleState :=
  setAll g ((List.range n).map (slot + ·)) .delegated

def revertSlRtts (l : Layout) (cnt : Nat) (bases : List Nat) (g : Nat → GranuleState) : Nat → GranuleState :=
  bases.foldl (fun g b => freeSlRtts (l.slot .conv b) cnt g) g

def acquireTree (l : Layout) (refused : Nat → Bool) (base : Nat) (g : Nat → GranuleState) :
    Nat → (Nat → GranuleState) × Nat × Bool
  | 0 => (g,0,true)
  | n+1 =>
    let out := acquireTree l refused base g n
    if out.2.2 then
      match l.fineAddrToIdx .conv (base + n * 4096) with
      | none => (out.1,n,false)
      | some i =>
        if out.1 i = .delegated ∧ !refused (base + n * 4096) then (update out.1 i .rtt,n+1,true)
        else (out.1,n,false)
    else out

def transitionSlRtts (l : Layout) (refused : Nat → Bool) (cnt : Nat) :
    List Nat → List Nat → (Nat → GranuleState) → (Nat → GranuleState) × Bool
  | _,[],g => (g,true)
  | done,b :: bs,g =>
    let out := acquireTree l refused b g cnt
    if out.2.2 then transitionSlRtts l refused cnt (done ++ [b]) bs out.1
    else
      let g := if 0 < out.2.1 then freeSlRtts (l.slot .conv b) out.2.1 out.1 else out.1
      (revertSlRtts l cnt done g,false)

structure Params where
  paramsRead : Bool
  supported : Bool
  idGenerated : Bool
  numAuxPlanes : Nat
  treePpFlag : Bool
  rttBase : Nat
  auxRttBase : Nat → Nat
  rttNumStart : Nat
  ipaBits : Nat
  levels : Nat
  sharedMec : Bool

namespace Params

variable (p : Params)

def numPlanes : Nat := p.numAuxPlanes+1

def treePp : Bool := decide (0 < p.numAuxPlanes) && p.treePpFlag

def numRtts : Nat := if p.treePp then p.numPlanes else 1

def base (i : Nat) : Nat := if i = 0 then p.rttBase else p.auxRttBase (i-1)

def bases : List Nat := (List.range p.numRtts).map p.base

def slIpaBits : Nat := p.levels * 9 + 12 + 9

def valid : Bool :=
  p.supported && p.ipaBits ≤ p.slIpaBits+4 && p.rttNumStart == 2 ^ (p.ipaBits-p.slIpaBits) &&
    p.bases.all fun b => b % (p.rttNumStart*4096) == 0

end Params

structure Rd where
  numPlanes : Nat
  treePp : Bool
  ctxRoot : Nat → Nat
  ctxVmid : Nat → Nat
  numRootRtts : Nat
  mecid : Nat

def planeToS2Context (numPlanes plane : Nat) : Nat := (plane+1) % numPlanes

def assignVmids (numPlanes : Nat) (vmids : List Nat) : Nat → Nat :=
  (List.range numPlanes).foldl
    (fun f plane => update f (planeToS2Context numPlanes plane) (vmids.getD plane 0)) fun _ => 0

def newRd (l : Layout) (p : Params) (vmids : List Nat) (mecid : Nat) : Rd where
  numPlanes := p.numPlanes
  treePp := p.treePp
  ctxRoot i := l.slot .conv (if p.treePp then p.base i else p.base 0)
  ctxVmid := assignVmids p.numPlanes vmids
  numRootRtts := p.rttNumStart
  mecid := mecid

def realmCreateContinue (pl : Platform) (p : Params) (s : Pools) : Option Rd × Pools :=
  if !p.paramsRead || !p.valid || !p.idGenerated then (none,s)
  else
    match allocVmids pl [] p.numPlanes s with
    | (none,s) => (none,s)
    | (some vmids,s) =>
      match mecidAlloc pl p.sharedMec s with
      | none => (none,freeVmids vmids s)
      | some (mecid,s) =>
        let out := transitionSlRtts pl.layout pl.refused p.rttNumStart [] p.bases s.granule
        if out.2 then (some (newRd pl.layout p vmids mecid),{ s with granule := out.1 })
        else (none,mecidFree pl mecid (freeVmids vmids { s with granule := out.1 }))

def Rd.numRtts (rd : Rd) : Nat := if rd.treePp then rd.numPlanes else 1

def realmDestroyCleanup (pl : Platform) (rd : Rd) (s : Pools) : Pools :=
  let g := (List.range rd.numRtts).foldl (fun g i => freeSlRtts (rd.ctxRoot i) rd.numRootRtts g) s.granule
  let s := freeVmids ((List.range rd.numPlanes).map rd.ctxVmid) { s with granule := g }
  mecidFree pl rd.mecid s

section Vmids

variable {pl : Platform} {s s₀ : Pools} {v : Nat} {taken : List Nat}

theorem vmidAlloc_free (h : vmidAlloc pl s = some v) : s.vmid v = false := by
  simpa using List.find?_some h

structure Taken (s₀ s : Pools) (taken : List Nat) : Prop where
  pools : s = { s₀ with vmid := setAll s₀.vmid taken true }
  free : ∀ v ∈ taken,s₀.vmid v = false
  nodup : taken.Nodup

theorem Taken.undo (h : Taken s₀ s taken) : freeVmids taken s = s₀ := by
  rw [h.pools,freeVmids]
  simp only [setAll_undo h.free]

theorem Taken.more (h : Taken s₀ s taken) (hv : s.vmid v = false) :
    Taken s₀ { s with vmid := update s.vmid v true } (taken ++ [v]) := by
  rw [h.pools] at hv
  have hnot : v ∉ taken := fun hm => by simp [setAll,hm] at hv
  refine ⟨?_,fun w hw => ?_,List.concat_eq_append ▸ h.nodup.concat hnot⟩
  · rw [h.pools,setAll_append,setAll_singleton]
  · rcases List.mem_append.mp hw with hw | hw
    · exact h.free w hw
    · simpa [List.mem_singleton.mp hw,setAll,hnot] using hv

theorem allocVmids_spec (pl : Platform) (n : Nat) (h : Taken s₀ s taken) :
    (∃ vs s',allocVmids pl taken n s = (some vs,s') ∧ vs.length = taken.length+n ∧ Taken s₀ s' vs) ∨
      allocVmids pl taken n s = (none,s₀) := by
  induction n generalizing taken s with
  | zero => exact .inl ⟨taken,s,rfl,rfl,h⟩
  | succ n ih =>
    rw [allocVmids]
    cases hv : vmidAlloc pl s with
    | none => exact .inr (by rw [h.undo])
    | some v =>
      rcases ih (h.more (vmidAlloc_free hv)) with ⟨vs,s',he,hl,ht⟩ | he
      · refine .inl ⟨vs,s',he,?_,ht⟩
        rw [hl,List.length_append,List.length_singleton]
        omega
      · exact .inr he

end Vmids

inductive MecTaken (pl : Platform) (s : Pools) : Nat → Pools → Prop
  | absent (h : pl.mecPresent = false) : MecTaken pl s 0 s
  | shared (h : pl.mecPresent = true) :
      MecTaken pl s mecidShared { s with sharedMembers := s.sharedMembers+1 }
  | priv (h : pl.mecPresent = true) (i : Nat) (hi : mecidPrivateStart ≤ i) (hfree : s.mec i = false) :
      MecTaken pl s i { s with mec := update s.mec i true }

section Mec

variable {pl : Platform} {s s' : Pools} {b : Bool} {mecid : Nat}

theorem mecidAlloc_taken (h : mecidAlloc pl b s = some (mecid,s')) : MecTaken pl s mecid s' := by
  unfold mecidAlloc at h
  by_cases hp : pl.mecPresent = true
  · rw [if_neg (by simp [hp])] at h
    cases b with
    | true =>
      rw [if_pos rfl] at h
      split at h
      · obtain ⟨rfl,rfl⟩ := Prod.mk.inj (Option.some.inj h)
        exact .shared hp
      · simp at h
    | false =>
      rw [if_neg (by simp)] at h
      obtain ⟨i,hi,he⟩ := Option.map_eq_some_iff.mp h
      obtain ⟨rfl,rfl⟩ := Prod.mk.inj he
      have hmem := List.mem_of_find?_eq_some hi
      refine .priv hp _ ?_ (by simpa using List.find?_some hi)
      obtain ⟨k,_,rfl⟩ := List.mem_map.mp hmem
      exact Nat.le_add_right _ _
  · rw [if_pos (by simp [hp])] at h
    obtain ⟨rfl,rfl⟩ := Prod.mk.inj (Option.some.inj h)
    exact .absent (by simpa using hp)

theorem MecTaken.undo (h : MecTaken pl s mecid s') : mecidFree pl mecid s' = s := by
  unfold mecidFree
  cases h with
  | absent h => rw [if_pos (by simp [h])]
  | shared h => rw [if_neg (by simp [h]),if_pos rfl]; rfl
  | priv h i hi hfree =>
    have hne : mecid ≠ mecidShared := by simp only [mecidShared,mecidPrivateStart] at hi ⊢; omega
    rw [if_neg (by simp [h]),if_neg hne]
    have : update (update s.mec mecid true) mecid false = s.mec := by
      rw [update_idem,← hfree,update_eq_self]
    simp only [this]

theorem MecTaken.frame (h : MecTaken pl s mecid s') : s'.vmid = s.vmid ∧ s'.granule = s.granule := by
  cases h <;> exact ⟨rfl,rfl⟩

end Mec

section Roots

variable {l : Layout} {r : Nat → Bool} {base cnt : Nat} {g g₀ : Nat → GranuleState} {done : List Nat}

theorem slot_table {k i : Nat} (hk : k ≤ 4) (hb : base % (2 ^ k * 4096) = 0) (hi : i < 2 ^ k) (t : MemType) :
    l.slot t (base + i * 4096) = l.slot t base + i := by
  have hsplit : (base + i * 4096) / l.size.bytes = base / l.size.bytes ∧
      (base + i * 4096) % l.size.bytes = base % l.size.bytes + i * 4096 := by
    obtain rfl | rfl | rfl | rfl | rfl : k = 0 ∨ k = 1 ∨ k = 2 ∨ k = 3 ∨ k = 4 := by omega
    all_goals cases l.size <;> simp only [RegionSize.bytes] <;> omega
  rw [Layout.slot,Layout.slot,hsplit.1,hsplit.2,Nat.add_mul_div_right _ _ (by decide),add_assoc]

def Consecutive (l : Layout) (base cnt : Nat) : Prop :=
  ∀ i,i < cnt → l.slot .conv (base + i * 4096) = l.slot .conv base + i

theorem acquireTree_spec (hv : l.Valid) (hc : Consecutive l base cnt) {n : Nat} (hn : n ≤ cnt) :
    (acquireTree l r base g n).1 = setAll g (rootSlots l base (acquireTree l r base g n).2.1) .rtt ∧
      (∀ x ∈ rootSlots l base (acquireTree l r base g n).2.1,g x = .delegated) ∧
      ((acquireTree l r base g n).2.2 = true → (acquireTree l r base g n).2.1 = n) := by
  induction n with
  | zero => exact ⟨by simp [acquireTree,rootSlots],by simp [acquireTree,rootSlots],fun _ => rfl⟩
  | succ n ih =>
    obtain ⟨hg,hdel,hall⟩ := ih (by omega)
    rw [acquireTree]
    by_cases hok : (acquireTree l r base g n).2.2 = true
    · rw [if_pos hok]
      have hcount := hall hok
      rw [hcount] at hg hdel
      cases hi : l.fineAddrToIdx .conv (base + n * 4096) with
      | none => exact ⟨hg,hdel,fun h => absurd h (by simp)⟩
      | some i =>
        have hslot : l.slot .conv base + n = i :=
          (hc n (by omega)).symm.trans ((Layout.fineAddrToIdx_iff hv).mp hi).2.2
        dsimp only
        split
        · next hd =>
            obtain ⟨hd,-⟩ := hd
            have hsucc : rootSlots l base (n+1) = rootSlots l base n ++ [i] := by
              simp [rootSlots,List.range_succ,hslot]
            have hfresh : i ∉ rootSlots l base n := by
              simp only [rootSlots,List.mem_map,List.mem_range]
              rintro ⟨j,hj,he⟩
              omega
            rw [hg,setAll,if_neg hfresh] at hd
            refine ⟨?_,fun x hx => ?_,fun _ => rfl⟩
            · rw [hsucc,setAll_append,hg,setAll_singleton]
            rw [hsucc] at hx
            rcases List.mem_append.mp hx with hx | hx
            · exact hdel x hx
            · rw [List.mem_singleton.mp hx,hd]
        · exact ⟨hg,hdel,fun h => absurd h (by simp)⟩
    · rw [if_neg hok]
      exact ⟨hg,hdel,fun h => absurd h hok⟩

def allSlots (l : Layout) (cnt : Nat) (bases : List Nat) : List Nat := bases.flatMap (rootSlots l · cnt)

theorem revertSlRtts_eq (bases : List Nat) : revertSlRtts l cnt bases g = setAll g (allSlots l cnt bases) .delegated := by
  induction bases generalizing g with
  | nil => simp [revertSlRtts,allSlots]
  | cons b bs ih =>
    rw [revertSlRtts,List.foldl_cons,← revertSlRtts,ih]
    simp [allSlots,setAll_append,freeSlRtts,rootSlots]

structure Acquired (l : Layout) (cnt : Nat) (g₀ g : Nat → GranuleState) (done : List Nat) : Prop where
  granules : g = setAll g₀ (allSlots l cnt done) .rtt
  delegated : ∀ x ∈ allSlots l cnt done,g₀ x = .delegated
  nodup : (allSlots l cnt done).Nodup

theorem rootSlots_nodup (l : Layout) (base n : Nat) : (rootSlots l base n).Nodup :=
  List.Nodup.map (fun _ _ h => add_left_cancel h) List.nodup_range

theorem Acquired.undo (h : Acquired l cnt g₀ g done) : revertSlRtts l cnt done g = g₀ := by
  rw [revertSlRtts_eq,h.granules,setAll_undo h.delegated]

theorem Acquired.fresh (h : Acquired l cnt g₀ g done) {x : Nat} (hx : g x = .delegated) :
    x ∉ allSlots l cnt done ∧ g₀ x = .delegated := by
  rw [h.granules,setAll] at hx
  split at hx
  · simp at hx
  · next hn => exact ⟨hn,hx⟩

theorem transitionSlRtts_spec (hv : l.Valid) {bases done : List Nat}
    (hc : ∀ b ∈ bases,Consecutive l b cnt) (h : Acquired l cnt g₀ g done) :
    (∃ g',transitionSlRtts l r cnt done bases g = (g',true) ∧ Acquired l cnt g₀ g' (done ++ bases)) ∨
      transitionSlRtts l r cnt done bases g = (g₀,false) := by
  induction bases generalizing done g with
  | nil => exact .inl ⟨g,rfl,by rwa [List.append_nil]⟩
  | cons b bs ih =>
    obtain ⟨hg,hdel,hall⟩ := acquireTree_spec hv (hc b (by simp)) (le_refl cnt)
    rw [transitionSlRtts]
    dsimp only
    by_cases hok : (acquireTree l r b g cnt).2.2 = true
    · rw [if_pos hok]
      rw [hall hok] at hg hdel
      have hnew : Acquired l cnt g₀ (acquireTree l r b g cnt).1 (done ++ [b]) := by
        have hslots : allSlots l cnt (done ++ [b]) = allSlots l cnt done ++ rootSlots l b cnt := by
          simp [allSlots]
        refine ⟨?_,fun x hx => ?_,?_⟩
        · rw [hg,hslots,setAll_append,h.granules]
        · rw [hslots] at hx
          rcases List.mem_append.mp hx with hx | hx
          · exact h.delegated x hx
          · exact (h.fresh (hdel x hx)).2
        · rw [hslots]
          exact List.nodup_append.mpr ⟨h.nodup,rootSlots_nodup l b cnt,
            fun x hx y hy hxy => (h.fresh (hdel y hy)).1 (hxy ▸ hx)⟩
      have hnext := ih (fun x hx => hc x (by simp [hx])) hnew
      rwa [List.append_assoc,List.singleton_append] at hnext
    · rw [if_neg hok]
      have hrest : (if 0 < (acquireTree l r b g cnt).2.1 then
          freeSlRtts (l.slot .conv b) (acquireTree l r b g cnt).2.1 (acquireTree l r b g cnt).1
          else (acquireTree l r b g cnt).1) = g := by
        have hundo : freeSlRtts (l.slot .conv b) (acquireTree l r b g cnt).2.1 (acquireTree l r b g cnt).1 = g := by
          rw [hg]
          exact setAll_undo hdel
        split
        · exact hundo
        · next hz => rw [hg,Nat.eq_zero_of_not_pos hz]; simp [rootSlots]
      rw [hrest,h.undo]
      exact .inr rfl

end Roots

section Contexts

variable {k v : Nat → Nat}

theorem foldl_update {N n q : Nat} {f : Nat → Nat} (hk : ∀ p,p < N → ∀ q,q < N → k p = k q → p = q) (hn : n ≤ N)
    (hq : q < n) : (List.range n).foldl (fun f p => update f (k p) (v p)) f (k q) = v q := by
  induction n with
  | zero => omega
  | succ n ih =>
    rw [List.range_succ,List.foldl_append,List.foldl_cons,List.foldl_nil,update_apply]
    split
    · next he => rw [hk q (by omega) n (by omega) he]
    · next hne => exact ih (by omega) (Nat.lt_of_le_of_ne (by omega) fun h => hne (by rw [h]))

theorem context_plane {n i : Nat} (h : i < n) : planeToS2Context n ((i+(n-1)) % n) = i := by
  unfold planeToS2Context
  rw [Nat.mod_add_mod,show i + (n-1) + 1 = i+n by omega,Nat.add_mod_right,Nat.mod_eq_of_lt h]

theorem context_injective {n p q : Nat} (hp : p < n) (hq : q < n)
    (h : planeToS2Context n p = planeToS2Context n q) : p = q := by
  have hback : ∀ x,x < n → (planeToS2Context n x + (n-1)) % n = x := fun x hx => by
    unfold planeToS2Context
    rw [Nat.mod_add_mod,show x + 1 + (n-1) = x+n by omega,Nat.add_mod_right,Nat.mod_eq_of_lt hx]
  rw [← hback p hp,h,hback q hq]

theorem contexts_rotate {vs : List Nat} : (List.range vs.length).map (assignVmids vs.length vs) =
    vs.rotate (vs.length-1) := by
  refine List.ext_getElem (by simp) fun i h₁ h₂ => ?_
  have hi : i < vs.length := by simpa using h₁
  have hplane : (i+(vs.length-1)) % vs.length < vs.length := Nat.mod_lt _ (by omega)
  rw [List.getElem_map,List.getElem_range,List.getElem_rotate]
  have htouched := foldl_update (v := fun p => vs.getD p 0) (f := fun _ => 0)
    (fun p hp q hq => context_injective hp hq) (le_refl vs.length) hplane
  rw [context_plane hi] at htouched
  exact htouched.trans (by simp [List.getElem?_eq_getElem hplane])

end Contexts

namespace Rd

variable (rd : Rd)

def vmids : List Nat := (List.range rd.numPlanes).map rd.ctxVmid

def roots : List Nat :=
  (List.range rd.numRtts).flatMap fun i => (List.range rd.numRootRtts).map (rd.ctxRoot i + ·)

end Rd

structure Created (pl : Platform) (p : Params) (s : Pools) (rd : Rd) (s' : Pools) : Prop where
  planes : rd.numPlanes = p.numPlanes
  vmidsDistinct : rd.vmids.Nodup
  vmidsFree : ∀ v ∈ rd.vmids,s.vmid v = false
  vmid : s'.vmid = setAll s.vmid rd.vmids true
  mecid : MecTaken pl s rd.mecid { s with sharedMembers := s'.sharedMembers,mec := s'.mec }
  trees : rd.numRtts = p.numRtts ∧ rd.numRootRtts = p.rttNumStart
  rootsDistinct : rd.roots.Nodup
  rootsDelegated : ∀ x ∈ rd.roots,s.granule x = .delegated
  granule : s'.granule = setAll s.granule rd.roots .rtt

def Rd.release (pl : Platform) (rd : Rd) (t : Pools) : Pools :=
  mecidFree pl rd.mecid
    { t with vmid := setAll t.vmid rd.vmids false,granule := setAll t.granule rd.roots .delegated }

structure Released (pl : Platform) (s : Pools) (rd : Rd) (s' : Pools) : Prop where
  restores : realmDestroyCleanup pl rd s' = s
  only : ∀ t,realmDestroyCleanup pl rd t = rd.release pl t

theorem foldl_freeSlRtts (rd : Rd) (g : Nat → GranuleState) (n : Nat) :
    (List.range n).foldl (fun g i => freeSlRtts (rd.ctxRoot i) rd.numRootRtts g) g =
      setAll g ((List.range n).flatMap fun i => (List.range rd.numRootRtts).map (rd.ctxRoot i + ·)) .delegated := by
  induction n with
  | zero => simp
  | succ n ih =>
    rw [List.range_succ,List.foldl_append,ih,List.flatMap_append,setAll_append]
    simp [freeSlRtts]

theorem destroy_eq (pl : Platform) (rd : Rd) (t : Pools) : realmDestroyCleanup pl rd t = rd.release pl t := by
  rw [realmDestroyCleanup,foldl_freeSlRtts]
  rfl

theorem newRd_roots (l : Layout) (p : Params) (vs : List Nat) (mecid : Nat) :
    (newRd l p vs mecid).roots = allSlots l p.rttNumStart p.bases := by
  rw [Rd.roots,allSlots,Params.bases,List.flatMap_map]
  refine List.flatMap_congr fun i hi => ?_
  by_cases ht : p.treePp = true
  · simp [newRd,ht,rootSlots]
  · have hi0 : i = 0 := by simpa [Rd.numRtts,newRd,ht] using hi
    simp [newRd,ht,rootSlots,hi0]

theorem valid_consecutive (pl : Platform) {p : Params} (h : p.valid = true) :
    ∀ b ∈ p.bases,Consecutive pl.layout b p.rttNumStart := by
  simp only [Params.valid,Bool.and_eq_true,decide_eq_true_eq,beq_iff_eq,List.all_eq_true] at h
  obtain ⟨⟨⟨_,hbits⟩,hnum⟩,halign⟩ := h
  intro b hb i hi
  have hb' := halign b hb
  rw [hnum] at hb' hi
  exact slot_table (by omega) hb' hi .conv

section Success

variable {pl : Platform} {p : Params} {s s₁ s₂ : Pools} {vs : List Nat} {mecid : Nat} {g' : Nat → GranuleState}

theorem MecTaken.commute (h : MecTaken pl s₁ mecid s₂) (vmid : Nat → Bool) (g : Nat → GranuleState) :
    MecTaken pl { s₁ with vmid := vmid,granule := g } mecid { s₂ with vmid := vmid,granule := g } := by
  cases h with
  | absent h => exact .absent h
  | shared h => exact .shared h
  | priv h _ hi hfree => exact .priv h _ hi hfree

theorem newRd_vmids (hlen : vs.length = p.numPlanes) (l : Layout) :
    (newRd l p vs mecid).vmids = vs.rotate (vs.length-1) := by
  rw [← contexts_rotate,hlen]
  rfl

variable (htaken : Taken s s₁ vs) (hlen : vs.length = p.numPlanes) (hmec : MecTaken pl s₁ mecid s₂)
    (hacq : Acquired pl.layout p.rttNumStart s₂.granule g' p.bases)

include htaken hlen hmec hacq

theorem created : Created pl p s (newRd pl.layout p vs mecid) { s₂ with granule := g' } := by
  obtain ⟨hv₂,hg₂⟩ := hmec.frame
  have hperm := List.rotate_perm vs (vs.length-1)
  have hs₁ := htaken.pools
  have hgranule : s₂.granule = s.granule := hg₂.trans (by rw [hs₁])
  refine ⟨rfl,?_,?_,?_,?_,⟨rfl,rfl⟩,?_,?_,?_⟩
  · rw [newRd_vmids hlen]
    exact hperm.nodup_iff.mpr htaken.nodup
  · rw [newRd_vmids hlen]
    exact fun v hv => htaken.free v (hperm.mem_iff.mp hv)
  · rw [newRd_vmids hlen]
    rw [hv₂,hs₁]
    exact setAll_congr fun v => hperm.mem_iff.symm
  · have hc := hmec.commute s.vmid s.granule
    rw [hs₁] at hc
    exact hc
  · rw [newRd_roots]
    exact hacq.nodup
  · rw [newRd_roots,← hgranule]
    exact hacq.delegated
  · rw [newRd_roots,← hgranule]
    exact hacq.granules

theorem created_restores : realmDestroyCleanup pl (newRd pl.layout p vs mecid) { s₂ with granule := g' } = s := by
  have hc := created htaken hlen hmec hacq
  rw [destroy_eq,Rd.release,hc.granule,hc.vmid,setAll_undo hc.vmidsFree,setAll_undo hc.rootsDelegated]
  exact hc.mecid.undo

end Success

theorem realm_create_atomic (pl : Platform) (p : Params) (s : Pools) (hv : pl.layout.Valid) :
    realmCreateContinue pl p s = (none,s) ∨
      ∃ rd s',realmCreateContinue pl p s = (some rd,s') ∧ Created pl p s rd s' ∧ Released pl s rd s' := by
  unfold realmCreateContinue
  by_cases hok : (!p.paramsRead || !p.valid || !p.idGenerated) = true
  · rw [if_pos hok]
    exact .inl rfl
  rw [if_neg hok]
  simp only [Bool.or_eq_true,Bool.not_eq_true',not_or,Bool.not_eq_false] at hok
  have hnone : Taken s s [] := ⟨by simp,by simp,.nil⟩
  rcases allocVmids_spec pl p.numPlanes hnone with ⟨vs,s₁,he,hlen,htaken⟩ | he
  swap
  · rw [he]
    exact .inl rfl
  rw [he]
  dsimp only
  cases hm : mecidAlloc pl p.sharedMec s₁ with
  | none =>
    rw [htaken.undo]
    exact .inl rfl
  | some out =>
    obtain ⟨mecid,s₂⟩ := out
    have hmec := mecidAlloc_taken hm
    dsimp only
    have hroots : Acquired pl.layout p.rttNumStart s₂.granule s₂.granule [] :=
      ⟨by simp [allSlots],by simp [allSlots],by simp [allSlots]⟩
    rcases transitionSlRtts_spec hv (valid_consecutive pl hok.1.2) hroots with ⟨g',ht,hacq⟩ | ht
    · rw [ht]
      rw [List.length_nil,zero_add] at hlen
      exact .inr ⟨_,_,rfl,created htaken hlen hmec hacq,created_restores htaken hlen hmec hacq,destroy_eq pl _⟩
    rw [ht]
    obtain ⟨hvmid,hgranule⟩ := hmec.frame
    have hback := (hmec.commute (setAll s₁.vmid vs false) s₁.granule).undo
    rw [← hgranule,← hvmid] at hback
    refine .inl (congrArg (Prod.mk none) (hback.trans ?_))
    rw [hgranule,hvmid]
    exact htaken.undo

section Instances

def mecPlatform : Platform := ⟨16,true,8,sharedRegion,fun _ => false⟩

def twoTrees : Params := ⟨true,true,true,1,true,0x1000,fun _ => 0x4000,1,40,3,false⟩

def idlePools : Pools := ⟨fun _ => false,0,fun i => decide (i < 2),fun _ => .delegated⟩

end Instances

theorem realm_create_atomic_two_trees : mecPlatform.layout.Valid ∧
    ∃ rd s',realmCreateContinue mecPlatform twoTrees idlePools = (some rd,s') ∧
      Created mecPlatform twoTrees idlePools rd s' ∧ Released mecPlatform idlePools rd s' := by
  have hsome : (realmCreateContinue mecPlatform twoTrees idlePools).1.isSome = true := by decide +kernel
  refine ⟨sharedRegion_valid,(realm_create_atomic mecPlatform twoTrees idlePools sharedRegion_valid).resolve_left ?_⟩
  intro hnone
  rw [hnone] at hsome
  cases hsome

end TfRmm.Lifecycle.Creation
