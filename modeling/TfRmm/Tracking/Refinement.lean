import TfRmm.Tracking.Region

namespace TfRmm.Tracking

def fineSourceStateAllowed (target : TrState) (state : GranuleState) : Bool :=
  if target = .none then state = .ns else state = .ns || state = .delegated

def coarseSourceStateAllowed (category : MemCat) (target : TrState) (state : GranuleState) : Bool :=
  if target = .none then state = .ns
  else if category = .only .conv then state = .ns || state = .delegated || state = .data
  else state = .ns || state = .delegated || state = .mapped

variable (f : Granule → Descriptor)

def setLock (q : Granule) (b : Bool) : Granule → Descriptor :=
  Function.update f q { f q with locked := b }

structure Scan where
  fine : Granule → Descriptor
  source : Option GranuleState
  count : MemType → Nat

def counted (count : MemType → Nat) (t : MemType) : MemType → Nat := Function.update count t (count t+1)

def fineDescriptorsLock (target : TrState) (exempt : Granule → Bool) : List Granule → Scan → Status × Scan
  | [], s => (if s.source.isSome then .success else .errorInput,s)
  | q :: qs, s =>
    let g := s.fine q
    if g.locked then (.busy,s)
    else
      let s := { s with fine := setLock s.fine q true,count := counted s.count q.1 }
      if g.state = .internal && exempt q then fineDescriptorsLock target exempt qs s
      else
        let s := { s with source := s.source <|> some g.state }
        if g.state = .partialUnit then (.blocked,s)
        else if ¬ fineSourceStateAllowed target g.state ∨ s.source ≠ some g.state then
          (.errorInput,s)
        else fineDescriptorsLock target exempt qs s

def fineDescriptorsUnlock (qs : List Granule) : Granule → Descriptor :=
  qs.foldl (fun f q => setLock f q false) f

structure Locks where
  lockedState : TrState
  count : MemType → Nat

def Locks.empty : Locks := ⟨.none,fun _ => 0⟩

structure Acquired where
  status : Status
  region : Region
  source : GranuleState
  locks : Locks

namespace Region

variable (r : Region) (target : TrState) (state : GranuleState)

def fineUnlock (f : Granule → Descriptor) (count : MemType → Nat) : Granule → Descriptor :=
  let f := fineDescriptorsUnlock f ((r.traversed .conv).take (count .conv))
  fineDescriptorsUnlock f ((r.traversed .dev).take (count .dev))

def locksRelease (locks : Locks) : Region :=
  match locks.lockedState with
  | .fine => { r with fine := r.fineUnlock r.fine locks.count }
  | .coarse => { r with coarse := { r.coarse with locked := false } }
  | _ => r

def refuse (status : Status) : Acquired := ⟨status,r,.ns,.empty⟩

def coarseLock : Acquired :=
  if r.coarse.locked then r.refuse .busy
  else if r.coarse.state = .partialUnit then r.refuse .blocked
  else if ¬ coarseSourceStateAllowed r.category target r.coarse.state then r.refuse .errorInput
  else
    ⟨.success,{ r with coarse := { r.coarse with locked := true } },r.coarse.state,⟨.coarse,fun _ => 0⟩⟩

def fineLock : Acquired :=
  let (status,s) := fineDescriptorsLock target r.metadata r.scanned ⟨r.fine,none,fun _ => 0⟩
  let held := { r with fine := s.fine }
  let locks : Locks := ⟨.fine,s.count⟩
  if status = .success then ⟨.success,held,s.source.getD .ns,locks⟩
  else (held.locksRelease locks).refuse status

def locksAcquire : Acquired :=
  match r.state with
  | .none => ⟨.success,r,.ns,.empty⟩
  | .coarse => r.coarseLock target
  | .fine => r.fineLock target
  | .reserved => r.refuse .errorInput

def fineDescriptorsInit (refcount : Nat) : Region :=
  { r with fine := r.scanned.foldl (fun f q => Function.update f q ⟨state,refcount,false⟩) r.fine }

def coarseInit : Region := { r with coarse := ⟨state,0,false⟩ }

def coarseToFineInit : Option Region :=
  match r.category, state with
  | _, .ns => some (r.fineDescriptorsInit .ns 0)
  | _, .delegated => some (r.fineDescriptorsInit .delegated 0)
  | .only .conv, .data => some (r.fineDescriptorsInit .data r.coarse.refcount)
  | .only .devNcoh, .mapped => some (r.fineDescriptorsInit .mapped r.coarse.refcount)
  | .only .devCoh, .mapped => some (r.fineDescriptorsInit .mapped r.coarse.refcount)
  | _, _ => none

def install (source : GranuleState) : Option Region :=
  match r.state, target with
  | .none, .fine => some (r.fineDescriptorsInit .ns 0)
  | .none, _ => some (r.coarseInit .ns)
  | .fine, .none => if source ≠ .ns then none else some r
  | .fine, _ => if ¬ fineSourceStateAllowed .coarse source then none else some (r.coarseInit source)
  | .coarse, .none => if source ≠ .ns then none else some r
  | .coarse, _ => r.coarseToFineInit source
  | .reserved, _ => none

def transition (sroOwner : Bool) : Status × Region :=
  if target = .reserved then (.errorInput,r)
  else if r.gate then (.busy,r)
  else if r.pending ∧ ¬ sroOwner then (.blocked,r)
  else if r.state = .reserved then (.errorInput,r)
  else if r.state = target then (.success,r)
  else if target = .coarse ∧ r.category = .diverse then (.errorInput,r)
  else
    let a := r.locksAcquire target
    if a.status ≠ .success then (a.status,a.region.locksRelease a.locks)
    else match a.region.install target a.source with
      | none => (.errorInput,a.region.locksRelease a.locks)
      | some r' => (.success,{ r' with state := target }.locksRelease a.locks)

def transitionClaim (current target : TrState) : Status × Region :=
  if r.gate then (.busy,r)
  else if r.pending then (.blocked,r)
  else if r.state ≠ current then (.busy,r)
  else if current = .reserved ∨ (target = .coarse ∧ r.category = .diverse) then (.errorInput,r)
  else
    let a := r.locksAcquire target
    if a.status = .success then
      (.success,{ a.region with pending := true }.locksRelease a.locks)
    else (a.status,a.region.locksRelease a.locks)

def fineTransitionComplete : Region :=
  { r with
    fine := (r.scanned.filter r.metadata).foldl
      (fun f q => Function.update f q ⟨.internal,0,false⟩) r.fine
    pending := false }

end Region

theorem setLock_comm (f : Granule → Descriptor) (p q : Granule) (b : Bool) :
    setLock (setLock f p b) q b = setLock (setLock f q b) p b := by
  rcases eq_or_ne p q with rfl | hpq
  · rfl
  · simp only [setLock,Function.update_of_ne hpq,Function.update_of_ne hpq.symm]
    exact Function.update_comm hpq ..

theorem setLock_unlock {f : Granule → Descriptor} {q : Granule} (h : (f q).locked = false) :
    setLock (setLock f q true) q false = f := by
  have hq : ({ f q with locked := false } : Descriptor) = f q := by rw [← h]
  simp only [setLock,Function.update_self,Function.update_idem]
  rw [hq,Function.update_eq_self]

theorem fineDescriptorsUnlock_setLock (qs : List Granule) (f : Granule → Descriptor) (q : Granule) :
    fineDescriptorsUnlock (setLock f q false) qs = setLock (fineDescriptorsUnlock f qs) q false := by
  induction qs generalizing f with
  | nil => rfl
  | cons p qs ih =>
    simp only [fineDescriptorsUnlock,List.foldl_cons] at ih ⊢
    rw [setLock_comm,ih]

theorem Region.fineUnlock_scanned (r : Region) (f : Granule → Descriptor) (k : Nat) :
    r.fineUnlock f (fun t => (r.scanned.take k).countP (·.1 = t)) = fineDescriptorsUnlock f (r.scanned.take k) := by
  have hall : ∀ t n, ((r.traversed t).take n).countP (·.1 = t) = min n (r.traversed t).length := fun t n => by
    rw [← List.length_take,List.countP_eq_length]
    exact fun q hq => decide_eq_true (traversed_type (List.mem_of_mem_take hq))
  have hnone : ∀ t t' n, t ≠ t' → ((r.traversed t).take n).countP (·.1 = t') = 0 := fun t t' n hne => by
    rw [List.countP_eq_zero]
    exact fun q hq h => hne ((traversed_type (List.mem_of_mem_take hq)).symm.trans (of_decide_eq_true h))
  have hsplit : r.scanned.take k = (r.traversed .conv).take k ++ (r.traversed .dev).take (k-(r.traversed .conv).length) :=
    List.take_append
  have hmin : ∀ (l : List Granule) n, l.take (min n l.length) = l.take n := fun l n => List.take_eq_take_min.symm
  have hconv : (r.scanned.take k).countP (·.1 = .conv) = min k (r.traversed .conv).length := by
    rw [hsplit,List.countP_append,hall,hnone .dev .conv _ nofun,Nat.add_zero]
  have hdev : (r.scanned.take k).countP (·.1 = .dev) =
      min (k-(r.traversed .conv).length) (r.traversed .dev).length := by
    rw [hsplit,List.countP_append,hall,hnone .conv .dev _ nofun,Nat.zero_add]
  unfold fineUnlock
  dsimp only
  rw [hconv,hdev,hmin,hmin,hsplit]
  exact List.foldl_append.symm

structure Scanned (target : TrState) (exempt : Granule → Bool) (qs : List Granule) (s : Scan)
    (r : Status × Scan) (k : Nat) : Prop where
  count : ∀ t, r.2.count t = s.count t+(qs.take k).countP (·.1 = t)
  restored : fineDescriptorsUnlock r.2.fine (qs.take k) = s.fine
  kept : ∀ g, s.source = some g → r.2.source = some g
  uniform : (∀ g, s.source = some g → fineSourceStateAllowed target g) → r.1 = .success →
    ∃ g, r.2.source = some g ∧ fineSourceStateAllowed target g ∧ ∀ q ∈ qs,
      ((s.fine q).state = .internal ∧ exempt q) ∨ (s.fine q).state = g
  origin : ∀ g, r.2.source = some g → s.source = some g ∨
    ∃ q ∈ qs, (s.fine q).state = g ∧ ¬ ((s.fine q).state = .internal ∧ exempt q)

theorem fineDescriptorsLock_scanned (target : TrState) (exempt : Granule → Bool) : ∀ (qs : List Granule) (s : Scan),
      ∃ k, Scanned target exempt qs s (fineDescriptorsLock target exempt qs s) k := fun qs => by
  induction qs with
  | nil =>
    intro s
    refine ⟨0,fun _ => rfl,rfl,fun _ h => h,fun ha h => ?_,fun _ h => .inl h⟩
    simp only [fineDescriptorsLock] at h ⊢
    split at h
    next hs =>
      obtain ⟨g,hg⟩ := Option.isSome_iff_exists.1 hs
      exact ⟨g,hg,ha g hg,nofun⟩
    · cases h
  | cons q qs ih =>
    intro s
    rcases hl : (s.fine q).locked with _ | _
    swap
    · refine ⟨0,?_,?_,?_,?_,?_⟩ <;> simp [fineDescriptorsLock,hl,fineDescriptorsUnlock]
      exact fun _ h => .inl h
    have hstates : ∀ p, (setLock s.fine q true p).state = (s.fine p).state := fun p => by
      rcases eq_or_ne p q with rfl | hp
      · simp [setLock]
      · simp [setLock,hp]
    have hone : ∀ x : Scan, x.fine = setLock s.fine q true →
        fineDescriptorsUnlock x.fine ((q :: qs).take 1) = s.fine := fun x hx => by
      rw [hx]
      exact setLock_unlock hl
    have hmore : ∀ (f : Granule → Descriptor) (k : Nat),fineDescriptorsUnlock f (qs.take k) = setLock s.fine q true →
        fineDescriptorsUnlock f ((q :: qs).take (k+1)) = s.fine := fun f k hf => by
      rw [List.take_succ_cons]
      show fineDescriptorsUnlock (setLock f q false) (qs.take k) = s.fine
      rw [fineDescriptorsUnlock_setLock,hf,setLock_unlock hl]
    have hstep : ∀ (k : Nat) t, counted s.count q.1 t+(qs.take k).countP (·.1 = t) =
        s.count t+((q :: qs).take (k+1)).countP (·.1 = t) := fun k t => by
      rw [List.take_succ_cons,List.countP_cons]
      by_cases ht : q.1 = t
      · subst ht
        simp only [counted,Function.update_self,decide_true,if_true]
        omega
      · simp [counted,Function.update_of_ne (Ne.symm ht),ht]
    have hfirst : ∀ t, counted s.count q.1 t = s.count t+((q :: qs).take 1).countP (·.1 = t) := fun t => hstep 0 t
    simp only [fineDescriptorsLock,hl]
    by_cases hex : ((s.fine q).state = .internal && exempt q) = true
    · rw [if_neg Bool.false_ne_true,if_pos hex]
      obtain ⟨k,h⟩ := ih { s with fine := setLock s.fine q true,count := counted s.count q.1 }
      refine ⟨k+1,fun t => (h.count t).trans (hstep k t),hmore _ k h.restored,h.kept,fun ha hs => ?_,fun g hg => ?_⟩
      swap
      · obtain hg | ⟨p,hp,hpg⟩ := h.origin g hg
        · exact .inl hg
        · rw [hstates p] at hpg
          exact .inr ⟨p,List.mem_cons_of_mem q hp,hpg⟩
      obtain ⟨g,hg,hga,hall⟩ := h.uniform ha hs
      refine ⟨g,hg,hga,List.forall_mem_cons.2 ⟨.inl (by simpa using hex),fun p hp => ?_⟩⟩
      have := hall p hp
      rwa [hstates p] at this
    · rw [if_neg Bool.false_ne_true,if_neg hex]
      have hfrom : ∀ g, (s.source <|> some (s.fine q).state) = some g → s.source = some g ∨
          ∃ p ∈ q :: qs, (s.fine p).state = g ∧ ¬ ((s.fine p).state = .internal ∧ exempt p) := fun g hg => by
        rcases hsrc : s.source with _ | g'
        · rw [hsrc] at hg
          exact .inr ⟨q,List.mem_cons_self ..,Option.some.inj hg,by simpa using hex⟩
        · rw [hsrc] at hg
          exact .inl hg
      split
      · exact ⟨1,hfirst,hone _ rfl,fun g hg => by simp [hg],fun _ => nofun,hfrom⟩
      split
      · exact ⟨1,hfirst,hone _ rfl,fun g hg => by simp [hg],fun _ => nofun,hfrom⟩
      rename_i hok
      obtain ⟨hallowed,hsrc⟩ := not_or.1 hok
      obtain ⟨k,h⟩ := ih { s with
        fine := setLock s.fine q true,count := counted s.count q.1
        source := s.source <|> some (s.fine q).state }
      refine ⟨k+1,fun t => (h.count t).trans (hstep k t),hmore _ k h.restored,
        fun g hg => h.kept g (by simp [hg]),fun _ hs => ?_,fun g hg => ?_⟩
      swap
      · obtain hg | ⟨p,hp,hpg⟩ := h.origin g hg
        · exact hfrom g hg
        · rw [hstates p] at hpg
          exact .inr ⟨p,List.mem_cons_of_mem q hp,hpg⟩
      have hnow := not_not.1 hsrc
      obtain ⟨g,hg,hga,hall⟩ := h.uniform (fun g hg => by
        rw [Option.some.inj (hg.symm.trans hnow)]
        exact not_not.1 hallowed) hs
      have hgq : g = (s.fine q).state := by
        have := h.kept _ hnow
        exact Option.some.inj (hg.symm.trans this)
      subst hgq
      refine ⟨_,hg,hga,List.forall_mem_cons.2 ⟨.inr rfl,fun p hp => ?_⟩⟩
      have := hall p hp
      rwa [hstates p] at this

def Descriptor.view (d : Descriptor) : GranuleState × Nat :=
  (d.state,if d.state = .data ∨ d.state = .mapped then d.refcount else 0)

namespace Region

def view (r : Region) (q : Granule) : GranuleState × Nat :=
  match r.state with
  | .fine => (r.fine q).view
  | .coarse => r.coarse.view
  | _ => (.ns,0)

def Uniform (r : Region) (target : TrState) (g : GranuleState) : Prop :=
  fineSourceStateAllowed target g ∧
    (∀ q ∈ r.layout.granules,((r.fine q).state = .internal ∧ r.metadata q) ∨ (r.fine q).state = g) ∧
    ∃ q ∈ r.layout.granules,
      (r.fine q).state = g ∧ ¬ ((r.fine q).state = .internal ∧ r.metadata q)

inductive Installs (r : Region) : TrState → Region → Prop
  | same : r.Installs r.state r
  | noneFine : r.state = .none →
      r.Installs .fine { r.fineDescriptorsInit .ns 0 with state := .fine }
  | noneCoarse : r.state = .none → r.Installs .coarse { r.coarseInit .ns with state := .coarse }
  | coarseNone : r.state = .coarse → r.coarse.state = .ns →
      r.Installs .none { r with state := .none }
  | coarseFine {n : Nat} : r.state = .coarse → r.coarse.locked = false →
      (r.coarse.state = .data ∨ r.coarse.state = .mapped → n = r.coarse.refcount) →
      r.Installs .fine { r.fineDescriptorsInit r.coarse.state n with state := .fine }
  | fineNone : r.state = .fine → r.Uniform .none .ns → r.Installs .none { r with state := .none }
  | fineCoarse {g : GranuleState} : r.state = .fine → r.Uniform .coarse g →
      r.Installs .coarse { r.coarseInit g with state := .coarse }

end Region

variable {r r' : Region} {target : TrState}

variable {d : Descriptor} {a : Acquired} {state g : GranuleState} {r₁ : Region} {status : Status} {q : Granule}

theorem unlocked_eq (h : d.locked = false) : { d with locked := false } = d := by
  rw [← h]

theorem Region.coarseLock_cases (r : Region) (target : TrState) :
    (∃ status, status ≠ .success ∧ r.coarseLock target = r.refuse status) ∨
      r.coarse.locked = false ∧ coarseSourceStateAllowed r.category target r.coarse.state ∧
      r.coarseLock target = ⟨.success,{ r with coarse := { r.coarse with locked := true } },r.coarse.state,
          ⟨.coarse,fun _ => 0⟩⟩ := by
  unfold coarseLock
  split
  · exact .inl ⟨.busy,nofun,rfl⟩
  split
  · exact .inl ⟨.blocked,nofun,rfl⟩
  split
  · exact .inl ⟨.errorInput,nofun,rfl⟩
  next hl _ ha => exact .inr ⟨Bool.eq_false_iff.2 hl,not_not.1 ha,rfl⟩

theorem Region.fineLock_cases (r : Region) (target : TrState) :
    (∃ status, status ≠ .success ∧ r.fineLock target = r.refuse status) ∨
      ∃ f n g, r.fineUnlock f n = r.fine ∧ r.Uniform target g ∧
        r.fineLock target = ⟨.success,{ r with fine := f },g,⟨.fine,n⟩⟩ := by
  obtain ⟨k,h⟩ := fineDescriptorsLock_scanned target r.metadata r.scanned ⟨r.fine,none,fun _ => 0⟩
  unfold fineLock
  generalize fineDescriptorsLock target r.metadata r.scanned ⟨r.fine,none,fun _ => 0⟩ = x at h
  obtain ⟨status,s⟩ := x
  obtain ⟨hcount,hrestored,-,huniform,horigin⟩ := h
  have hcount : s.count = fun t => (r.scanned.take k).countP (·.1 = t) :=
    funext fun t => (hcount t).trans (Nat.zero_add _)
  have hrestored : r.fineUnlock s.fine s.count = r.fine := by
    rw [hcount,r.fineUnlock_scanned]
    exact hrestored
  simp only at huniform horigin ⊢
  by_cases hs : status = .success
  · obtain ⟨g,hg,hallowed,hall⟩ := huniform nofun hs
    rw [if_pos hs,hg,Option.getD_some]
    have horigin := (horigin g hg).resolve_left nofun
    rw [r.scanned_eq] at hall horigin
    exact .inr ⟨s.fine,s.count,g,hrestored,⟨hallowed,hall,horigin⟩,rfl⟩
  · rw [if_neg hs]
    refine .inl ⟨status,hs,?_⟩
    show Region.refuse { r with fine := r.fineUnlock s.fine s.count } status = _
    rw [hrestored]

inductive Region.Locked (r : Region) (target : TrState) : Acquired → Prop
  | refused {status : Status} : status ≠ .success → r.Locked target (r.refuse status)
  | none : r.state = .none → r.Locked target ⟨.success,r,.ns,.empty⟩
  | coarse : r.state = .coarse → r.coarse.locked = false →
      coarseSourceStateAllowed r.category target r.coarse.state →
      r.Locked target ⟨.success,{ r with coarse := { r.coarse with locked := true } },
        r.coarse.state,⟨.coarse,fun _ => 0⟩⟩
  | fine {f : Granule → Descriptor} {n : MemType → Nat} {g : GranuleState} : r.state = .fine →
      r.fineUnlock f n = r.fine → r.Uniform target g →
      r.Locked target ⟨.success,{ r with fine := f },g,⟨.fine,n⟩⟩

theorem Region.locksAcquire_locked (r : Region) (target : TrState) : r.Locked target (r.locksAcquire target) := by
  unfold locksAcquire
  split
  next hs => exact .none hs
  next hs =>
    obtain ⟨status,hne,h⟩ | ⟨hl,ha,h⟩ := r.coarseLock_cases target
    · rw [h]
      exact .refused hne
    · rw [h]
      exact .coarse hs hl ha
  next hs =>
    obtain ⟨status,hne,h⟩ | ⟨f,n,g,hf,hu,h⟩ := r.fineLock_cases target
    · rw [h]
      exact .refused hne
    · rw [h]
      exact .fine hs hf hu
  · exact .refused nofun

theorem Region.Locked.released (h : r.Locked target a) : a.region.locksRelease a.locks = r := by
  cases h with
  | refused _ => rfl
  | none _ => rfl
  | coarse _ hl _ =>
    show { r with coarse := { r.coarse with locked := false } } = r
    rw [unlocked_eq hl]
  | @fine f n g _ hf _ =>
    show { r with fine := r.fineUnlock f n } = r
    rw [hf]

theorem Region.coarseToFineInit_eq (h : r.coarseToFineInit state = some r₁) :
    ∃ n, r₁ = r.fineDescriptorsInit state n ∧ (state = .data ∨ state = .mapped → n = r.coarse.refcount) := by
  unfold coarseToFineInit at h
  split at h
  all_goals first
    | cases h
      exact ⟨_,rfl,by simp⟩
    | cases h

theorem Region.Installs.of_eq {r₂ : Region} (h : r.Installs target r₁) (he : r₂ = r₁) : r.Installs target r₂ := he ▸ h

theorem Region.Locked.installs (h : r.Locked target a) (hsucc : a.status = .success)
    (htarget : target ≠ .reserved) (hne : r.state ≠ target)
    (hi : a.region.install target a.source = some r₁) :
    r.Installs target ({ r₁ with state := target }.locksRelease a.locks) := by
  cases h with
  | refused hs => exact absurd hsucc hs
  | none hs =>
    cases target with
    | reserved => exact absurd rfl htarget
    | none => exact absurd hs hne
    | fine =>
      simp only [install,hs,Option.some.injEq] at hi
      subst hi
      exact .noneFine hs
    | coarse =>
      simp only [install,hs,Option.some.injEq] at hi
      subst hi
      exact .noneCoarse hs
  | coarse hs hl ha =>
    cases target with
    | reserved => exact absurd rfl htarget
    | coarse => exact absurd hs hne
    | none =>
      simp only [install,hs] at hi
      split at hi
      · cases hi
      rename_i hns
      cases hi
      apply (Installs.coarseNone hs (not_not.1 hns)).of_eq
      show { r with state := .none,coarse := { r.coarse with locked := false } } = _
      rw [unlocked_eq hl]
    | fine =>
      simp only [install,hs] at hi
      obtain ⟨n,rfl,hn⟩ := coarseToFineInit_eq hi
      apply (Installs.coarseFine hs hl hn).of_eq
      show { r.fineDescriptorsInit r.coarse.state n with
        state := .fine,coarse := { r.coarse with locked := false } } = _
      rw [unlocked_eq hl]
      rfl
  | @fine f n g hs hf hu =>
    cases target with
    | reserved => exact absurd rfl htarget
    | fine => exact absurd hs hne
    | none =>
      simp only [install,hs] at hi
      split at hi
      · cases hi
      rename_i hns
      cases hi
      obtain rfl : g = .ns := not_not.1 hns
      apply (Installs.fineNone hs hu).of_eq
      show { r with
        state := .none,fine := r.fineUnlock f n } = _
      rw [hf]
    | coarse =>
      simp only [install,hs] at hi
      split at hi
      · cases hi
      cases hi
      apply (Installs.fineCoarse hs hu).of_eq
      show { r.coarseInit g with
        state := .coarse,fine := r.fineUnlock f n } = _
      rw [hf]
      rfl

theorem refused_eq {p : Prop} {s : Status} (he : (s,r) = (status,r'))
    (hs : s ≠ .success) : p ∨ status ≠ .success ∧ r' = r := by
  cases he
  exact .inr ⟨hs,rfl⟩

theorem Region.transition_cases {sroOwner : Bool} (h : r.transition target sroOwner = (status,r')) :
    status = .success ∧ r.Installs target r' ∨ status ≠ .success ∧ r' = r := by
  unfold transition at h
  split at h
  · exact refused_eq h nofun
  rename_i htarget
  split at h
  · exact refused_eq h nofun
  split at h
  · exact refused_eq h nofun
  split at h
  · exact refused_eq h nofun
  split at h
  next hst =>
    cases h
    subst hst
    exact .inl ⟨rfl,.same⟩
  rename_i hne
  split at h
  · exact refused_eq h nofun
  have hl := r.locksAcquire_locked target
  generalize r.locksAcquire target = a at h hl
  simp only at h
  split at h
  next hs =>
    rw [hl.released] at h
    exact refused_eq h hs
  rename_i hs
  split at h
  · rw [hl.released] at h
    exact refused_eq h nofun
  next hi =>
    cases h
    exact .inl ⟨rfl,hl.installs (not_not.1 hs) htarget hne hi⟩

theorem Region.transitionClaim_cases {current : TrState} (h : r.transitionClaim current target = (status,r')) :
    status = .success ∧ r.pending = false ∧ r.state = current ∧ r' = { r with pending := true } ∨
      status ≠ .success ∧ r' = r := by
  unfold transitionClaim at h
  split at h
  · exact refused_eq h nofun
  split at h
  · exact refused_eq h nofun
  rename_i hp
  split at h
  · exact refused_eq h nofun
  rename_i hc
  split at h
  · exact refused_eq h nofun
  have hl := r.locksAcquire_locked target
  generalize r.locksAcquire target = a at h hl
  simp only at h
  split at h
  · cases h
    refine .inl ⟨rfl,Bool.eq_false_iff.2 hp,not_not.1 hc,?_⟩
    have hrel : { a.region with pending := true }.locksRelease a.locks =
        { a.region.locksRelease a.locks with pending := true } := by
      unfold locksRelease
      split <;> rfl
    rw [hrel,hl.released]
  next hs =>
    rw [hl.released] at h
    exact refused_eq h hs

theorem foldl_update_of_notMem : ∀ {qs : List Granule} {f : Granule → Descriptor}, q ∉ qs →
      qs.foldl (fun f q => Function.update f q d) f q = f q := by
  intro qs
  induction qs with
  | nil => exact fun _ => rfl
  | cons p qs ih =>
    intro f hq
    obtain ⟨hp,hqs⟩ := not_or.1 (mt List.mem_cons.2 hq)
    rw [List.foldl_cons,ih hqs]
    exact Function.update_of_ne hp ..

theorem foldl_update_mem : ∀ {qs : List Granule} {f : Granule → Descriptor}, q ∈ qs →
      qs.foldl (fun f q => Function.update f q d) f q = d := by
  intro qs
  induction qs with
  | nil => exact nofun
  | cons p qs ih =>
    intro f hq
    by_cases hqs : q ∈ qs
    · exact ih hqs
    · obtain rfl := (List.mem_cons.1 hq).resolve_right hqs
      rw [List.foldl_cons,foldl_update_of_notMem hqs]
      exact Function.update_self ..

theorem Region.fineDescriptorsInit_fine {n : Nat}
    (hq : q ∈ r.layout.granules) : (r.fineDescriptorsInit state n).fine q = ⟨state,n,false⟩ := by
  rw [← r.scanned_eq] at hq
  exact foldl_update_mem hq

theorem Region.fineTransitionComplete_fine (hq : r.metadata q = false) : r.fineTransitionComplete.fine q = r.fine q :=
  foldl_update_of_notMem fun h => by
    rw [(List.mem_filter.1 h).2] at hq
    cases hq

theorem Region.fineTransitionComplete_metadata (hq : q ∈ r.layout.granules)
    (hm : r.metadata q) : r.fineTransitionComplete.fine q = ⟨.internal,0,false⟩ := by
  rw [← r.scanned_eq] at hq
  exact foldl_update_mem (List.mem_filter.2 ⟨hq,hm⟩)

theorem Region.fineTransitionComplete_cases (r : Region) (q : Granule) :
    (r.fineTransitionComplete.fine q).state = .internal ∨ r.fineTransitionComplete.fine q = r.fine q := by
  by_cases hq : q ∈ r.scanned.filter r.metadata
  · have : r.fineTransitionComplete.fine q = ⟨.internal,0,false⟩ := foldl_update_mem hq
    exact .inl (by rw [this])
  · exact .inr (foldl_update_of_notMem hq)

theorem allowed_view (hd : d.state = g) (hg : fineSourceStateAllowed target g) : d.view = (g,0) := by
  subst hd
  unfold Descriptor.view
  unfold fineSourceStateAllowed at hg
  rw [if_neg]
  rintro (h | h) <;> rw [h] at hg <;> split at hg <;> cases hg

theorem Region.Uniform.view (h : r.Uniform target g)
    (hq : q ∈ r.layout.granules) (hm : r.metadata q = false) : (r.fine q).view = (g,0) := by
  obtain ⟨ha,hall,-⟩ := h
  obtain ⟨-,hmeta⟩ | hg := hall q hq
  · rw [hm] at hmeta
    cases hmeta
  · exact allowed_view hg ha

theorem Region.Installs.view_eq (h : r.Installs target r')
    (hq : q ∈ r.layout.granules) (hm : r.metadata q = false) : r'.view q = r.view q := by
  cases h with
  | same => rfl
  | noneFine hs =>
    simp only [view,hs,fineDescriptorsInit_fine hq]
    rfl
  | noneCoarse hs =>
    simp only [view,hs]
    rfl
  | coarseNone hs hns =>
    simp only [view,hs,Descriptor.view,hns]
    rfl
  | @coarseFine n hs _ hn =>
    simp only [view,hs,fineDescriptorsInit_fine hq,Descriptor.view]
    split
    next hd => rw [hn hd]
    · rfl
  | fineNone hs hu =>
    simp only [view,hs]
    exact (hu.view hq hm).symm
  | @fineCoarse g hs hu =>
    simp only [view,hs]
    rw [hu.view hq hm]
    exact allowed_view rfl hu.1

theorem Region.fineTransitionComplete_view (hs : r.state = .fine)
    (hm : r.metadata q = false) : r.fineTransitionComplete.view q = r.view q := by
  have hs' : r.fineTransitionComplete.state = .fine := hs
  simp only [view,hs,hs',fineTransitionComplete_fine hm]

theorem Region.Installs.none_ns (h : r.Installs .none r')
    (hq : q ∈ r.layout.granules) (hm : r.metadata q = false) : (r.view q).1 = .ns := by
  have hview := h.view_eq hq hm
  have hs : r'.state = .none := by
    generalize ht : TrState.none = t at h
    cases h with
    | same => rw [← ht]
    | coarseNone _ _ => rfl
    | fineNone _ _ => rfl
    | noneFine _ | noneCoarse _ | coarseFine _ _ _ | fineCoarse _ _ => cases ht
  rw [← hview]
  simp only [view,hs]

theorem Region.Installs.fine_of_unfine (h : r.Installs .fine r') (hs : r.state ≠ .fine) : r'.layout = r.layout ∧
    (r.state = .none ∧ (∀ q ∈ r.layout.granules, (r'.fine q).state = .ns) ∨
      r.state = .coarse ∧ r.coarse.locked = false ∧ ∀ q ∈ r.layout.granules, (r'.fine q).state = r.coarse.state) := by
  generalize ht : TrState.fine = t at h
  cases h with
  | same => exact absurd ht.symm hs
  | noneCoarse _ | coarseNone _ _ | fineNone _ _ | fineCoarse _ _ => cases ht
  | noneFine hn =>
    refine ⟨rfl,.inl ⟨hn,fun q hq => ?_⟩⟩
    rw [fineDescriptorsInit_fine hq]
  | coarseFine hc hl _ =>
    refine ⟨rfl,.inr ⟨hc,hl,fun q hq => ?_⟩⟩
    rw [fineDescriptorsInit_fine hq]

theorem Region.Installs.fine_state (h : r.Installs .fine r') : r'.state = .fine := by
  generalize ht : TrState.fine = t at h
  cases h with
  | same => exact ht ▸ rfl
  | noneFine _ => rfl
  | noneCoarse _ | coarseNone _ _ | fineNone _ _ | fineCoarse _ _ => cases ht
  | coarseFine _ _ _ => rfl

theorem Region.Installs.coarse_of_fine (h : r.Installs .coarse r') (hs : r.state = .fine) :
    ∃ g, r.Uniform .coarse g ∧ r'.coarse = ⟨g,0,false⟩ := by
  generalize ht : TrState.coarse = t at h
  cases h with
  | same => rw [hs] at ht; cases ht
  | noneFine _ | coarseNone _ _ | coarseFine _ _ _ | fineNone _ _ => cases ht
  | noneCoarse h => rw [hs] at h; cases h
  | fineCoarse _ hu => exact ⟨_,hu,rfl⟩

theorem Region.Installs.restored {r₃ : Region} (h : r.Installs .fine r₁) (hs : r.state = .coarse)
    (h' : r₁.fineTransitionComplete.Installs .coarse r₃)
    (hc : r.coarse.state = .ns ∨ r.coarse.state = .delegated → r.coarse.refcount = 0) : r₃.coarse = r.coarse := by
  obtain ⟨hlayout,⟨hn,-⟩ | ⟨-,hl,hfine⟩⟩ := h.fine_of_unfine (by rw [hs]; simp)
  · cases hs.symm.trans hn
  obtain ⟨g,⟨ha,-,q,hq,hg,hord⟩,hr₃⟩ := h'.coarse_of_fine h.fine_state
  have hq₁ : q ∈ r₁.layout.granules := hq
  have hm : r₁.metadata q = false := by
    rw [Bool.eq_false_iff]
    intro hm
    exact hord ⟨congrArg Descriptor.state (fineTransitionComplete_metadata hq₁ hm),hm⟩
  have hgc : r.coarse.state = g := by
    rw [← hg,fineTransitionComplete_fine hm]
    exact (hfine q (hlayout ▸ hq₁)).symm
  have hz : r.coarse.refcount = 0 := by
    apply hc
    rw [hgc]
    simpa [fineSourceStateAllowed] using ha
  rw [hr₃,← hgc,← hz,← hl]

theorem representation_changes_invisible (r : Region) :
    (∀ target sroOwner r', r.transition target sroOwner = (.success,r') →
      ∀ q ∈ r.layout.granules, r.metadata q = false → r'.view q = r.view q) ∧
    (∀ q, r.state = .fine → r.metadata q = false → r.fineTransitionComplete.view q = r.view q) ∧
    (∀ o₁ o₃ r₁ r₃, r.state = .coarse → (r.coarse.state = .ns ∨ r.coarse.state = .delegated → r.coarse.refcount = 0) →
      r.transition .fine o₁ = (.success,r₁) →
      r₁.fineTransitionComplete.transition .coarse o₃ = (.success,r₃) → r₃.coarse = r.coarse) ∧
    (∀ sroOwner r', r.transition .none sroOwner = (.success,r') →
      ∀ q ∈ r.layout.granules, r.metadata q = false → (r.view q).1 = .ns) ∧
    (∀ target sroOwner status r', r.transition target sroOwner = (status,r') → status ≠ .success → r' = r) ∧
    ∀ current target status r', r.transitionClaim current target = (status,r') →
      r' = { r with pending := r'.pending } ∧ (status ≠ .success → r' = r) := by
  have hsucc : ∀ {target o r'}, r.transition target o = (.success,r') → r.Installs target r' :=
    fun h => ((Region.transition_cases h).resolve_right fun hr => hr.1 rfl).2
  refine ⟨fun target o r' h q hq hm => (hsucc h).view_eq hq hm,
    fun q hs hm => Region.fineTransitionComplete_view hs hm,?_,
    fun o r' h q hq hm => (hsucc h).none_ns hq hm,?_,?_⟩
  · intro o₁ o₃ r₁ r₃ hs hc h₁ h₃
    have h₃ := ((Region.transition_cases h₃).resolve_right fun hr => hr.1 rfl).2
    exact (hsucc h₁).restored hs h₃ hc
  · intro target o status r' h hs
    exact ((Region.transition_cases h).resolve_left fun hr => hs hr.1).2
  · intro current target status r' h
    obtain ⟨hs,-,-,rfl⟩ | ⟨hs,rfl⟩ := Region.transitionClaim_cases h
    · exact ⟨rfl,fun hne => absurd hs hne⟩
    · exact ⟨rfl,fun _ => rfl⟩

def twoGranules : Region where
  layout := ⟨2,[⟨0,2,.conv⟩]⟩
  base := 4
  state := .coarse
  pending := false
  gate := false
  coarse := ⟨.delegated,0,false⟩
  fine := fun _ => ⟨.ns,0,false⟩
  metadataPages := 1
  backing := fun i => if i = 0 then some 4 else none

theorem representation_changes_invisible_two :
    (twoGranules.transition .fine true).2.fineTransitionComplete.fine (.conv,0) = ⟨.internal,0,false⟩ ∧
    ((twoGranules.transition .fine true).2.fineTransitionComplete.transition .coarse true).2.coarse =
      twoGranules.coarse := by
  refine ⟨by decide,?_⟩
  have h := (representation_changes_invisible twoGranules).2.2.1 true true (twoGranules.transition .fine true).2
    ((twoGranules.transition .fine true).2.fineTransitionComplete.transition .coarse true).2
  refine h rfl (fun _ => rfl) (Prod.ext (by decide) rfl) (Prod.ext (by decide) rfl)

variable {exempt : Granule → Bool} {qs : List Granule} {s : Scan} {source : Option GranuleState}
    {e : Descriptor × Bool} {es : List (Descriptor × Bool)}

def exempted (e : Descriptor × Bool) : Bool := e.1.state = .internal && e.2

def firstSource (es : List (Descriptor × Bool)) : Option GranuleState := (es.find? (!exempted ·)).map fun e => e.1.state

def obstacle (target : TrState) (source : Option GranuleState) (e : Descriptor × Bool) : Option Status :=
  if e.1.locked then some .busy
  else if exempted e then none
  else if e.1.state = .partialUnit then some .blocked
  else if ¬ fineSourceStateAllowed target e.1.state ∨ source ≠ some e.1.state then some .errorInput
  else none

def scanStatus (target : TrState) (source : Option GranuleState) (es : List (Descriptor × Bool)) : Status :=
  (es.findSome? (obstacle target source)).getD (if source.isSome then .success else .errorInput)

def sources (exempt : Granule → Bool) (f : Granule → Descriptor) (qs : List Granule) : List (Descriptor × Bool) :=
  qs.map fun q => (f q,exempt q)

def lockAll (qs : List Granule) (f : Granule → Descriptor) (q : Granule) : Descriptor :=
  if q ∈ qs then { f q with locked := true } else f q

theorem scanStatus_cons : scanStatus target source (e::es) = (obstacle target source e).getD (scanStatus target source es) := by
  unfold scanStatus
  rw [List.findSome?_cons]
  cases obstacle target source e <;> rfl

theorem firstSource_cons : firstSource (e::es) = if exempted e then firstSource es else some e.1.state := by
  unfold firstSource
  rw [List.find?_cons]
  cases exempted e <;> rfl

structure Acquires (target : TrState) (qs : List Granule) (f : Granule → Descriptor) (source : Option GranuleState)
    (es : List (Descriptor × Bool)) (x : Status × Scan) : Prop where
  status : x.1 = scanStatus target source es
  locked : x.1 = .success → x.2.fine = lockAll qs f

theorem fineDescriptorsLock_acquires (hnd : qs.Nodup) : Acquires target qs s.fine
    (s.source <|> firstSource (sources exempt s.fine qs)) (sources exempt s.fine qs) (fineDescriptorsLock target exempt qs s) := by
  induction qs generalizing s with
  | nil =>
    refine ⟨?_,fun _ => ?_⟩
    · cases hs : s.source <;> simp [fineDescriptorsLock,scanStatus,sources,firstSource,hs]
    · funext q
      exact (if_neg List.not_mem_nil).symm
  | cons q qs ih =>
    obtain ⟨hq,hnd⟩ := List.nodup_cons.1 hnd
    have hkept : sources exempt (setLock s.fine q true) qs = sources exempt s.fine qs :=
      List.map_congr_left fun p hp => by rw [setLock,Function.update_of_ne (ne_of_mem_of_not_mem hp hq)]
    have hall : lockAll qs (setLock s.fine q true) = lockAll (q::qs) s.fine := by
      funext p
      by_cases hp : p = q <;> simp [lockAll,setLock,hp]
    have hnext : ∀ source, obstacle target (source <|> firstSource (sources exempt s.fine qs)) (s.fine q,exempt q) = none →
        Acquires target (q::qs) s.fine (source <|> firstSource (sources exempt s.fine qs)) (sources exempt s.fine (q::qs))
          (fineDescriptorsLock target exempt qs ⟨setLock s.fine q true,source,counted s.count q.1⟩) := fun source hnone => by
      have h := ih (s := ⟨setLock s.fine q true,source,counted s.count q.1⟩) hnd
      dsimp only at h
      rw [hkept] at h
      refine ⟨?_,fun hs => (h.locked hs).trans hall⟩
      rw [h.status]
      exact (scanStatus_cons.trans (by rw [hnone]; rfl)).symm
    have hstop : ∀ {source st t}, obstacle target source (s.fine q,exempt q) = some st → st ≠ .success →
        Acquires target (q::qs) s.fine source (sources exempt s.fine (q::qs)) (st,t) := fun hst hne =>
      ⟨(scanStatus_cons.trans (by rw [hst]; rfl)).symm,fun h => absurd h hne⟩
    unfold fineDescriptorsLock
    dsimp only
    split
    next hl => exact hstop (by rw [obstacle,if_pos hl]) (by simp)
    next hl =>
    split
    next hex =>
      have hfirst : firstSource (sources exempt s.fine (q::qs)) = firstSource (sources exempt s.fine qs) :=
        firstSource_cons.trans (if_pos hex)
      rw [hfirst]
      exact hnext s.source (by rw [obstacle,if_neg hl,exempted,if_pos hex])
    next hex =>
      have hfirst : firstSource (sources exempt s.fine (q::qs)) = some (s.fine q).state :=
        firstSource_cons.trans (if_neg hex)
      have hsource : ∀ x, ((s.source <|> some (s.fine q).state) <|> x) = (s.source <|> some (s.fine q).state) := fun x => by
        cases s.source <;> rfl
      rw [hfirst]
      split
      next hp => exact hstop (by rw [obstacle,if_neg hl,exempted,if_neg hex,if_pos hp]) (by simp)
      next hp =>
      split
      next hbad => exact hstop (by rw [obstacle,if_neg hl,exempted,if_neg hex,if_neg hp,if_pos hbad]) (by simp)
      next hok =>
        have h := hnext (s.source <|> some (s.fine q).state)
        rw [hsource] at h
        exact h (by rw [obstacle,if_neg hl,exempted,if_neg hex,if_neg hp,if_neg hok])

namespace Region

def lockStatus (r : Region) (target : TrState) : Status :=
  let es := sources r.metadata r.fine r.layout.granules
  match r.state with
  | .none => .success
  | .coarse =>
    if r.coarse.locked then .busy
    else if r.coarse.state = .partialUnit then .blocked
    else if coarseSourceStateAllowed r.category target r.coarse.state then .success
    else .errorInput
  | .fine => scanStatus target (firstSource es) es
  | .reserved => .errorInput

def sourceLocked (r : Region) : Region :=
  match r.state with
  | .fine => { r with fine := lockAll r.layout.granules r.fine }
  | .coarse => { r with coarse := { r.coarse with locked := true } }
  | _ => r

end Region

structure AllOrNothing (r : Region) (target : TrState) (a : Acquired) : Prop where
  status : a.status = r.lockStatus target
  all : a.status = .success → a.region = r.sourceLocked
  nothing : a.status ≠ .success → a.region = r ∧ a.locks = .empty

theorem transition_locks_all_or_nothing {r : Region} (hbanks : r.layout.granules.Nodup) (target : TrState) :
    AllOrNothing r target (r.locksAcquire target) := by
  have hnothing : ∀ a, r.Locked target a → a.status ≠ .success → a.region = r ∧ a.locks = .empty := fun a hl hne => by
    cases hl with
    | refused _ => exact ⟨rfl,rfl⟩
    | none _ | coarse _ _ _ | fine _ _ _ => exact absurd rfl hne
  suffices h : (r.locksAcquire target).status = r.lockStatus target ∧
      ((r.locksAcquire target).status = .success → (r.locksAcquire target).region = r.sourceLocked) from
    ⟨h.1,h.2,hnothing _ (r.locksAcquire_locked target)⟩
  unfold Region.locksAcquire Region.lockStatus Region.sourceLocked
  split
  next hs => rw [hs]; exact ⟨rfl,fun _ => rfl⟩
  next hs =>
    rw [hs]
    unfold Region.coarseLock
    dsimp only
    split
    · exact ⟨rfl,nofun⟩
    split
    · exact ⟨rfl,nofun⟩
    split
    · exact ⟨rfl,nofun⟩
    next hn => exact ⟨(if_pos (not_not.1 hn)).symm,fun _ => by rw [hs]⟩
  next hs =>
    have h := @fineDescriptorsLock_acquires target r.metadata _ ⟨r.fine,none,fun _ => 0⟩ hbanks
    rw [hs]
    rw [← r.scanned_eq] at h ⊢
    unfold Region.fineLock
    dsimp only
    split
    next hok => exact ⟨hok.symm.trans h.status,fun _ => by rw [h.locked hok,hs]⟩
    next hne => exact ⟨h.status,fun hok => absurd hok hne⟩
  next hs => rw [hs]; exact ⟨rfl,nofun⟩

theorem transition_locks_second_page_busy : ∃ r : Region, r.state = .fine ∧ r.layout.granules.Nodup ∧
    (r.locksAcquire .none).status = .busy ∧ AllOrNothing r .none (r.locksAcquire .none) :=
  ⟨⟨⟨2,[⟨0,2,.conv⟩]⟩,0,.fine,false,false,⟨.ns,0,false⟩,fun q => ⟨.ns,0,q = (.conv,1)⟩,0,fun _ => none⟩,rfl,by decide,rfl,
    transition_locks_all_or_nothing (by decide) _⟩

end TfRmm.Tracking
