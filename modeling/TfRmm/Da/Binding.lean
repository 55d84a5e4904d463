import TfRmm.Da.Streams

namespace TfRmm.Da

open TfRmm.S2tt TfRmm.Smmu
open Function

structure Stg2Config where
  s2ttb : Nat
  vtcr : Nat
  vmid : Nat
  mecid : Nat
  deriving DecidableEq

def Stg2Config.zero : Stg2Config := ⟨0,0,0,0⟩

structure Context where
  rtts : List Nat
  vtcr : Nat
  vmid : Nat
  mecid : Nat
  deriving DecidableEq

def ttbrBaddr : Nat := (2 ^ 47 - 1) <<< 1

namespace Context

variable (x : Context)

def root : Nat := x.rtts.headD 0

def stg2 : Stg2Config := ⟨x.root &&& ttbrBaddr,x.vtcr,x.vmid,x.mecid⟩

def plane0 : Stg2Config := ⟨x.root,x.vtcr,x.vmid,x.mecid⟩

def Low : Prop := x.root < 2 ^ 48 ∧ x.root % granuleSize = 0

variable {x}

theorem stg2_eq (h : x.Low) : x.stg2 = x.plane0 := by
  have hbit : x.root / 2 * 2 = x.root := by
    have := h.2
    unfold granuleSize at this
    omega
  have hlt : x.root / 2 < 2 ^ 47 := by
    have := h.1
    omega
  have hmask : x.root &&& ttbrBaddr = x.root := by
    rw [ttbrBaddr,← hbit,show x.root / 2 * 2 = (x.root / 2) <<< 1 from (Nat.shiftLeft_eq _ 1).symm,← Nat.shiftLeft_and_distrib,
      Nat.and_two_pow_sub_one_eq_mod,Nat.mod_eq_of_lt hlt]
  rw [stg2,plane0,hmask]

end Context

structure World where
  rmm : Rmm
  context : Nat → Context
  rootOf : Nat → Option Nat
  vmidOf : Nat → Option Nat
  stg2 : Nat → Nat → Stg2Config

inductive Call where
  | realmCreate (rd : Nat) (maxNumVdevs : VdevCount) (numAuxPlanes : Nat) (daEnabled : Bool) (x : Context)
  | realmDestroy (rd : Nat)
  | command (c : Command)

def Rmm.setGranules (s : Rmm) (l : List Nat) (g : Rtt.GranuleState) : Rmm :=
  { s with granule := fun a => if a ∈ l then g else s.granule a }

namespace World

variable (w : World)

def stg2After (s : Rmm) (x : Stg2Config) : Nat → Nat → Stg2Config := fun i sid =>
  if ((s.smmu i).ste sid).config = false then .zero
  else if ((w.rmm.smmu i).ste sid).config = true then w.stg2 i sid
  else x

def realmCreate (rd : Nat) (m : VdevCount) (n : Nat) (d : Bool) (x : Context) : World × Status :=
  if w.rmm.isObject rd .delegated && x.rtts.all (fun a => w.rmm.isObject a .delegated && a != rd) &&
      decide (x.root % granuleSize = 0) && (w.vmidOf x.vmid).isNone then
    ({ w with
      rmm := (w.rmm.realmCreate rd m n d).1.setGranules x.rtts .rtt
      context := update w.context rd x
      rootOf := fun a => if a ∈ x.rtts then some rd else w.rootOf a
      vmidOf := update w.vmidOf x.vmid (some rd) },.success)
  else (w,.errorInput)

def realmDestroy (rd : Nat) : World × Status :=
  let x := w.context rd
  if w.rmm.isObject rd .rd && (w.rmm.rd rd).vdevRefcount == 0 then
    ({ w with
      rmm := (w.rmm.realmDestroy rd).1.setGranules x.rtts .delegated
      rootOf := fun a => if a ∈ x.rtts then none else w.rootOf a
      vmidOf := update w.vmidOf x.vmid none },.success)
  else (w,.errorRealm)

def admits : Command → Bool
  | .realmCreate .. => false
  | .realmDestroy .. => false
  | .granule a _ => (w.rootOf a).isNone
  | _ => true

def command (cfg : Config) (c : Command) : Except Assertion (World × Status) :=
  if w.admits c then
    match w.rmm.exec cfg c with
    | .error e => .error e
    | .ok (s,st) =>
      .ok ({ w with rmm := s,stg2 := w.stg2After s ((c.creates.map fun rd => (w.context rd).stg2).getD .zero) },
        st)
  else .ok (w,.errorInput)

def exec (cfg : Config) : Call → Except Assertion (World × Status)
  | .realmCreate rd m n d x => .ok (w.realmCreate rd m n d x)
  | .realmDestroy rd => .ok (w.realmDestroy rd)
  | .command c => w.command cfg c

structure Initial : Prop where
  rmm : w.rmm.Initial
  rootOf : ∀ a, w.rootOf a = none

end World

def streams (cfg : Config) : Lib.TransitionSystem World Call where
  init := World.Initial
  step := fun w c w' => ∃ st, w.exec cfg c = .ok (w',st)

def Call.binds : Call → Bool
  | .realmCreate _ _ _ _ x => decide (x.root < 2 ^ 48)
  | .realmDestroy _ => true
  | .command c => c.releases

variable {w w' : World} {s s' : Rmm} {c : Command} {cfg : Config}

structure Bound (w : World) : Prop where
  objects : Objects w.rmm
  streams : Streams w.rmm
  stg2 : ∀ a, w.rmm.granule a = .vdev →
    w.stg2 (w.rmm.vdev a).smmuIdx (w.rmm.vdev a).sid = (w.context (w.rmm.vdev a).rd).stg2
  roots : ∀ r, w.rmm.granule r = .rd → ∀ a ∈ (w.context r).rtts, w.rootOf a = some r
  vmid : ∀ r, w.rmm.granule r = .rd → w.vmidOf (w.context r).vmid = some r
  low : ∀ r, w.rmm.granule r = .rd → (w.context r).Low
  rtt : ∀ a r, w.rootOf a = some r → w.rmm.granule a = .rtt

variable {l : List Nat} {g : Rtt.GranuleState} {st : Status} {rd : Nat}

theorem setGranules_other {x : Rtt.GranuleState} (hl : ∀ a ∈ l, s.granule a ≠ x) (hg : g ≠ x)
    (a : Nat) : (s.setGranules l g).granule a = x ↔ s.granule a = x := by
  show (if a ∈ l then g else s.granule a) = x ↔ _
  split
  next ha => exact ⟨fun h => absurd h hg,fun h => absurd h (hl a ha)⟩
  · exact Iff.rfl

theorem setGranules_past {t : Rmm} {x y : Rtt.GranuleState} (ht : ∀ a, t.granule a = if a = rd then y else s.granule a)
    (hl : ∀ a ∈ l, t.granule a ≠ x) (hg : g ≠ x) {a : Nat} (ha : (t.setGranules l g).granule a = x) :
    a = rd ∧ y = x ∨ a ≠ rd ∧ s.granule a = x := by
  have := (setGranules_other hl hg a).mp ha
  rw [ht] at this
  split at this
  next h => exact .inl ⟨h,this⟩
  next h => exact .inr ⟨h,this⟩

theorem Objects.setGranules (h : Objects s) (hl : ∀ a ∈ l, s.granule a ≠ .rd ∧ s.granule a ≠ .vdev)
    (hg : g ≠ .rd ∧ g ≠ .vdev) : Objects (s.setGranules l g) :=
  h.transfer ⟨setGranules_other (fun a ha => (hl a ha).2) hg.2,setGranules_other (fun a ha => (hl a ha).1) hg.1,
    fun _ _ => .refl _,fun _ _ => rfl,fun _ _ => rfl⟩ h.sane h.lastLock

theorem Streams.setGranules (h : Streams s)
    (hl : ∀ a ∈ l, s.granule a ≠ .vdev) (hg : g ≠ .vdev) : Streams (s.setGranules l g) :=
  h.transfer rfl fun a i sid => by
    unfold Rmm.Owner
    rw [setGranules_other hl hg a]
    exact Iff.rfl

theorem Effect.rtt (he : Effect s c s') {a : Nat} (hc : ∀ g, c ≠ .granule a g) (ha : s.granule a = .rtt) :
    s'.granule a = .rtt := by
  have hgran : ∀ (b : Nat) (g x : Rtt.GranuleState), s.granule b = x → x ≠ .rtt →
      update s.granule b g a = .rtt := fun b g x hb hx => by
    rw [update_of_ne fun hab => hx (by rw [← hb,← hab,ha])]
    exact ha
  cases he with
  | granule b g hb hg hcb =>
    rcases hcb with rfl | hcb
    · have hab : a ≠ b := fun hab => hc g (by rw [hab])
      exact (update_of_ne hab ..).trans ha
    · exact hgran b g _ hcb (by simp)
  | pdevCreate b x hb => exact hgran b .pdev _ hb (by simp)
  | realmCreate b m n d hb => exact hgran b .rd _ hb (by simp)
  | realmDestroy b hb hv | destroy p b v hb => exact hgran b .delegated _ hb (by simp)
  | create rd p b sid i slot x hr hb => exact hgran b .vdev _ hb (by simp)
  | _ => exact ha

theorem Effect.realms (he : Effect s c s') (hc : ∀ r m n d, c ≠ .realmCreate r m n d) {r : Nat}
    (hr : s'.granule r = .rd) : s.granule r = .rd := by
  have hgran : ∀ (b : Nat) (g : Rtt.GranuleState), g ≠ .rd → update s.granule b g r = .rd →
      s.granule r = .rd := fun b g hg h => by
    rw [update_apply] at h
    split at h
    · exact absurd h hg
    · exact h
  cases he with
  | granule b g hb hg => exact hgran b g hg.1 hr
  | pdevCreate b x hb => exact hgran b .pdev (by simp) hr
  | realmCreate b m n d hb hcb => exact absurd hcb (hc b m n d)
  | realmDestroy b hb hv | destroy p b v => exact hgran b .delegated (by simp) hr
  | create rd p b sid i slot x => exact hgran b .vdev (by simp) hr
  | _ => exact hr

theorem Bound.command (h : Bound w) (hc : w.admits c = true) (hrel : c.releases = true)
    (he : w.rmm.exec cfg c = .ok (s,st)) :
    Bound { w with rmm := s,stg2 := w.stg2After s ((c.creates.map fun rd => (w.context rd).stg2).getD .zero) } := by
  have hnc : ∀ r m n d, c ≠ .realmCreate r m n d := fun r m n d hn => by
    rw [hn] at hc
    exact absurd hc (by simp [World.admits])
  have hroot : ∀ a r, w.rootOf a = some r → ∀ g, c ≠ .granule a g := fun a r ha g hn => by
    rw [hn] at hc
    exact absurd hc (by simp [World.admits,ha])
  have he := exec_effect he
  have hs := h.streams.effect h.objects hrel he
  refine ⟨h.objects.effect he,hs,fun a ha => ?_,fun r hr => h.roots r (he.realms hnc hr),
    fun r hr => h.vmid r (he.realms hnc hr),fun r hr => h.low r (he.realms hnc hr),fun a r ha => he.rtt (hroot a r ha) (h.rtt a r ha)⟩
  have hconf := (hs.stream a _ _ ⟨ha,rfl,rfl⟩).2
  show (if _ then _ else _) = _
  rw [if_neg (by rw [hconf]; simp)]
  rcases he.vdevs h.objects ha with ⟨hold,hsame⟩ | ⟨hfree,hnew⟩
  · have hwas := (h.streams.stream a _ _ ⟨hold,rfl,rfl⟩).2
    rw [hsame.smmuIdx,hsame.sid,hsame.rd,if_pos hwas]
    exact h.stg2 a hold
  · rw [if_neg (by rw [hfree]; simp),hnew]
    rfl

theorem Bound.realmCreate (h : Bound w) {m : VdevCount} {n : Nat} {d : Bool} {x : Context} (hx : x.root < 2 ^ 48) : Bound (w.realmCreate rd m n d x).1 := by
  unfold World.realmCreate
  split
  next hok =>
    simp only [Bool.and_eq_true,Rmm.isObject_iff,List.all_eq_true,bne_iff_ne,Option.isNone_iff_eq_none,
      decide_eq_true_eq] at hok
    obtain ⟨⟨⟨hrd,hrtts⟩,hroot⟩,hvmid⟩ := hok
    have he := exec_effect (show w.rmm.exec ⟨fun _ _ => none⟩ (.realmCreate rd m n d) = .ok _ from rfl)
    have hcreated : ∀ a, (w.rmm.realmCreate rd m n d).1.granule a = if a = rd then .rd else w.rmm.granule a :=
      fun a => by
        unfold Rmm.realmCreate
        rw [if_pos (Rmm.isObject_iff.mpr hrd)]
        exact update_apply ..
    have hsame : (w.rmm.realmCreate rd m n d).1.vdev = w.rmm.vdev := by
      unfold Rmm.realmCreate
      split <;> rfl
    generalize w.rmm.realmCreate rd m n d = t at he hcreated hsame ⊢
    have hl : ∀ a ∈ x.rtts, t.1.granule a ≠ .rd ∧ t.1.granule a ≠ .vdev := fun a ha => by
      rw [hcreated,if_neg (hrtts a ha).2,(hrtts a ha).1]
      simp
    have hs := h.streams.effect h.objects rfl he
    have hne : ∀ r, w.rmm.granule r = .rd → r ≠ rd := fun r hr hn => by
      rw [hn,hrd] at hr
      cases hr
    have hold : ∀ r, (t.1.setGranules x.rtts .rtt).granule r = .rd → r ≠ rd → w.rmm.granule r = .rd := fun r hr hn =>
      ((setGranules_past hcreated (fun a ha => (hl a ha).1) (by simp) hr).resolve_left fun h => hn h.1).2
    refine ⟨(h.objects.effect he).setGranules hl (by simp),hs.setGranules (fun a ha => (hl a ha).2) (by simp),
      fun a ha => ?_,fun r hr a ha => ?_,fun r hr => ?_,fun r hr => ?_,fun a r ha => ?_⟩
    · have ha := ((setGranules_past hcreated (fun a ha => (hl a ha).2) (by simp) ha).resolve_left (by simp)).2
      show w.stg2 (t.1.vdev a).smmuIdx (t.1.vdev a).sid = (update w.context rd x (t.1.vdev a).rd).stg2
      rw [hsame,update_of_ne (hne _ (h.objects.mapped a ha).1)]
      exact h.stg2 a ha
    · show (if a ∈ x.rtts then some rd else w.rootOf a) = some r
      have ha : a ∈ (update w.context rd x r).rtts := ha
      by_cases hn : r = rd
      · rw [hn,update_self] at ha
        rw [if_pos ha,hn]
      rw [update_of_ne hn] at ha
      have howner := h.roots r (hold r hr hn) a ha
      rw [if_neg fun hmem => ?_]
      · exact howner
      · cases (h.rtt a r howner).symm.trans (hrtts a hmem).1
    · show update w.vmidOf x.vmid (some rd) (update w.context rd x r).vmid = some r
      by_cases hn : r = rd
      · rw [hn,update_self,update_self]
      have hv := h.vmid r (hold r hr hn)
      rw [update_of_ne hn,update_of_ne fun hn => ?_]
      · exact hv
      · rw [hn,hvmid] at hv
        cases hv
    · show (update w.context rd x r).Low
      by_cases hn : r = rd
      · rw [hn,update_self]
        exact ⟨hx,hroot⟩
      · rw [update_of_ne hn]
        exact h.low r (hold r hr hn)
    · have ha : (if a ∈ x.rtts then some rd else w.rootOf a) = some r := ha
      show (if a ∈ x.rtts then Rtt.GranuleState.rtt else t.1.granule a) = .rtt
      split
      · rfl
      next hmem =>
      rw [if_neg hmem] at ha
      have := h.rtt a r ha
      rw [hcreated,if_neg fun hn => by rw [hn,hrd] at this; exact absurd this (by simp)]
      exact this
  · exact h

theorem Bound.realmDestroy (h : Bound w) : Bound (w.realmDestroy rd).1 := by
  unfold World.realmDestroy
  extract_lets x
  split
  next hok =>
    have hok' := hok
    simp only [Bool.and_eq_true,Rmm.isObject_iff] at hok
    obtain ⟨hrd,_⟩ := hok
    have he := exec_effect (show w.rmm.exec ⟨fun _ _ => none⟩ (.realmDestroy rd) = .ok _ from rfl)
    have hdestroyed : ∀ a, (w.rmm.realmDestroy rd).1.granule a = if a = rd then .delegated else w.rmm.granule a :=
      fun a => by
        unfold Rmm.realmDestroy
        rw [if_pos hok']
        exact update_apply ..
    have hsame : (w.rmm.realmDestroy rd).1.vdev = w.rmm.vdev := by
      unfold Rmm.realmDestroy
      split <;> rfl
    generalize w.rmm.realmDestroy rd = t at he hdestroyed hsame ⊢
    have hl : ∀ a ∈ x.rtts, t.1.granule a ≠ .rd ∧ t.1.granule a ≠ .vdev := fun a ha => by
      have hroot := h.rtt a rd (h.roots rd hrd a ha)
      rw [hdestroyed,if_neg (fun hn => by rw [hn,hrd] at hroot; cases hroot),hroot]
      simp
    have hs := h.streams.effect h.objects rfl he
    have hold : ∀ r, (t.1.setGranules x.rtts .delegated).granule r = .rd → r ≠ rd ∧ w.rmm.granule r = .rd := fun r hr =>
      (setGranules_past hdestroyed (fun a ha => (hl a ha).1) (by simp) hr).resolve_left (by simp)
    refine ⟨(h.objects.effect he).setGranules hl (by simp),hs.setGranules (fun a ha => (hl a ha).2) (by simp),
      fun a ha => ?_,fun r hr a ha => ?_,fun r hr => ?_,fun r hr => h.low r (hold r hr).2,fun a r ha => ?_⟩
    · have ha := ((setGranules_past hdestroyed (fun a ha => (hl a ha).2) (by simp) ha).resolve_left (by simp)).2
      show w.stg2 (t.1.vdev a).smmuIdx (t.1.vdev a).sid = (w.context (t.1.vdev a).rd).stg2
      rw [hsame]
      exact h.stg2 a ha
    · obtain ⟨hn,hr⟩ := hold r hr
      have hra := h.roots r hr a ha
      show (if a ∈ x.rtts then none else w.rootOf a) = some r
      rw [if_neg fun hmem => ?_]
      · exact hra
      · have := h.roots rd hrd a hmem
        rw [hra] at this
        exact hn (Option.some.inj this)
    · obtain ⟨hn,hr⟩ := hold r hr
      have hv := h.vmid r hr
      show update w.vmidOf x.vmid none (w.context r).vmid = some r
      rw [update_of_ne fun heq => ?_]
      · exact hv
      · have := h.vmid rd hrd
        rw [← heq,hv] at this
        exact hn (Option.some.inj this)
    · have ha : (if a ∈ x.rtts then none else w.rootOf a) = some r := ha
      split at ha
      · cases ha
      next hmem =>
      have := h.rtt a r ha
      show (if a ∈ x.rtts then Rtt.GranuleState.delegated else t.1.granule a) = .rtt
      rw [if_neg hmem,hdestroyed,if_neg fun hn => by rw [hn,hrd] at this; exact absurd this (by simp)]
      exact this
  · exact h

theorem Bound.exec (h : Bound w) {c : Call} (hc : c.binds = true) (he : w.exec cfg c = .ok (w',st)) : Bound w' := by
  cases c with
  | realmCreate rd m n d x =>
    have hw : (w.realmCreate rd m n d x).1 = w' := congrArg Prod.fst (Except.ok.inj he)
    rw [← hw]
    exact h.realmCreate (of_decide_eq_true hc)
  | realmDestroy rd =>
    have hw : (w.realmDestroy rd).1 = w' := congrArg Prod.fst (Except.ok.inj he)
    rw [← hw]
    exact h.realmDestroy
  | command c =>
    simp only [World.exec,World.command] at he
    split at he
    next hadm =>
      cases hx : w.rmm.exec cfg c with
      | error e => rw [hx] at he; cases he
      | ok r =>
        rw [hx] at he
        cases he
        exact h.command hadm hc hx
    · cases he
      exact h

theorem Bound.initial (h : w.Initial) : Bound w := by
  have hnone : ∀ a, w.rmm.granule a ≠ .vdev ∧ w.rmm.granule a ≠ .rd := fun a => by
    have := h.rmm.granule a
    constructor <;> intro hn <;> rw [hn] at this <;> exact absurd this (by simp [plain])
  exact ⟨objects_initial h.rmm,streams_initial h.rmm,fun a ha => absurd ha (hnone a).1,
    fun r hr => absurd hr (hnone r).2,fun r hr => absurd hr (hnone r).2,fun r hr => absurd hr (hnone r).2,
    fun a r ha => by rw [h.rootOf a] at ha; exact absurd ha (by simp)⟩

theorem stream_bound_to_vdev (h : (streams cfg).ReachableUnder (fun _ c => c.binds = true) w) :
    (∀ i sid, ((w.rmm.smmu i).ste sid).config = true → ∃! a, w.rmm.Owner a i sid) ∧
    ∀ a i sid, w.rmm.Owner a i sid →
      ((w.rmm.smmu i).ste sid).config = true ∧ ((w.rmm.smmu i).l1 (l1stdIdx sid)).isSome = true ∧
      w.stg2 i sid = (w.context (w.rmm.vdev a).rd).plane0 ∧ w.rmm.granule (w.rmm.vdev a).rd = .rd ∧
      (∀ x ∈ (w.context (w.rmm.vdev a).rd).rtts,w.rootOf x = some (w.rmm.vdev a).rd ∧ w.rmm.granule x = .rtt) ∧
      w.vmidOf (w.context (w.rmm.vdev a).rd).vmid = some (w.rmm.vdev a).rd := by
  have hb : Bound w := h.invariant (fun _ => Bound.initial) fun _ _ _ hi hg ⟨_,he⟩ => hi.exec hg he
  refine ⟨fun i sid hc => ?_,fun a i sid ha => ?_⟩
  · obtain ⟨a,ha⟩ := hb.streams.owned i sid hc
    exact ⟨a,ha,fun b hb' => hb.streams.apart b a i sid hb' ha⟩
  obtain ⟨hl,hc⟩ := hb.streams.stream a i sid ha
  have hrd := (hb.objects.mapped a ha.1).1
  obtain ⟨hgran,rfl,rfl⟩ := ha
  exact ⟨hc,hl,(hb.stg2 a hgran).trans (Context.stg2_eq (hb.low _ hrd)),hrd,
    fun x hx => ⟨hb.roots _ hrd x hx,hb.rtt x _ (hb.roots _ hrd x hx)⟩,hb.vmid _ hrd⟩

def World.runs (cfg : Config) : World → List Call → Option World
  | w, [] => some w
  | w, c :: cs =>
    match w.exec cfg c with
    | .error _ => none
    | .ok (w',_) => World.runs cfg w' cs

theorem streams_runs {guard : World → Call → Prop} {cs : List Call} (h : (streams cfg).ReachableUnder guard w)
    (hg : ∀ w, ∀ c ∈ cs, guard w c) (hr : World.runs cfg w cs = some w') : (streams cfg).ReachableUnder guard w' := by
  induction cs generalizing w with
  | nil => cases hr; exact h
  | cons c cs ih =>
    simp only [World.runs] at hr
    split at hr
    · cases hr
    next t st he =>
      exact ih (h.next (hg w c (List.mem_cons_self ..)) ⟨st,he⟩) (fun w c hc => hg w c (List.mem_cons_of_mem _ hc)) hr

namespace Sample

def world : World := ⟨boot,fun _ => ⟨[],0,0,0⟩,fun _ => none,fun _ => none,fun _ _ => .zero⟩

theorem world_initial : world.Initial := ⟨boot_initial,fun _ => rfl⟩

def attached (root : Nat) : List Call :=
  .realmCreate 1 maxVdevs 0 true ⟨[root],2,5,6⟩ :: [.pdevCreate 2 device,.psmmu 0 .activate,.psmmu 0 .activateFinish,
    .psmmu 0 (.createStL2 0 9 none none),create,communicate].map .command

end Sample

theorem stream_bound_to_vdev_attached : ∃ w, (streams Sample.platform).ReachableUnder
    (fun _ c => c.binds = true) w ∧ w.rmm.Owner 3 0 5 ∧ w.stg2 0 5 = (w.context (w.rmm.vdev 3).rd).plane0 := by
  have hrun : (World.runs Sample.platform Sample.world (Sample.attached 0x10000)).map (fun w =>
      (w.rmm.granule 3,(w.rmm.vdev 3).smmuIdx,(w.rmm.vdev 3).sid)) = some (.vdev,0,5) := by
    decide +kernel
  obtain ⟨w,hw,hh⟩ := Option.map_eq_some_iff.mp hrun
  simp only [Prod.mk.injEq] at hh
  have hrel : ∀ c ∈ Sample.attached 0x10000, c.binds = true := by decide
  have hreach : (streams Sample.platform).ReachableUnder (fun _ c => c.binds = true) w :=
    streams_runs (.initial Sample.world_initial) (fun _ => hrel) hw
  exact ⟨w,hreach,hh,((stream_bound_to_vdev hreach).2 3 0 5 hh).2.2.1⟩

theorem vdev_without_stream : (∃ w, (streams Sample.platform).Reachable w ∧ w.rmm.Owner 3 0 5 ∧
      ((w.rmm.smmu 0).ste 5).config = false) ∧
    ∃ w, (streams Sample.platform).Reachable w ∧ w.rmm.Owner 3 0 5 ∧ ((w.rmm.smmu 0).ste 5).config = true ∧
      (w.stg2 0 5).s2ttb ≠ (w.context (w.rmm.vdev 3).rd).root := by
  constructor
  · have hrun : (World.runs Sample.platform Sample.world
        (Sample.attached 0x10000 ++ [.command (.vdevDestroy 1 2 3 (some .einval))])).map (fun w =>
          (w.rmm.granule 3,(w.rmm.vdev 3).smmuIdx,(w.rmm.vdev 3).sid,((w.rmm.smmu 0).ste 5).config)) =
        some (.vdev,0,5,false) := by
      decide +kernel
    obtain ⟨w,hw,hh⟩ := Option.map_eq_some_iff.mp hrun
    simp only [Prod.mk.injEq] at hh
    exact ⟨w,streams_runs (.initial Sample.world_initial) (fun _ _ _ => trivial) hw,⟨hh.1,hh.2.1,hh.2.2.1⟩,hh.2.2.2⟩
  · have hrun : (World.runs Sample.platform Sample.world (Sample.attached (2 ^ 48 + 0x10000))).map (fun w =>
          ((w.rmm.granule 3,(w.rmm.vdev 3).smmuIdx,(w.rmm.vdev 3).sid),((w.rmm.smmu 0).ste 5).config,
            (w.stg2 0 5).s2ttb,(w.context (w.rmm.vdev 3).rd).root)) =
        some ((.vdev,0,5),true,0x10000,2 ^ 48 + 0x10000) := by
      decide +kernel
    obtain ⟨w,hw,hh⟩ := Option.map_eq_some_iff.mp hrun
    simp only [Prod.mk.injEq] at hh
    refine ⟨w,streams_runs (.initial Sample.world_initial) (fun _ _ _ => trivial) hw,hh.1,hh.2.1,?_⟩
    rw [hh.2.2.1,hh.2.2.2]
    decide

end TfRmm.Da
