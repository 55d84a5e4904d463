import TfRmm.Sro.Framework

namespace TfRmm.Sro.AuxGranules

open TfRmm.Lib TfRmm.Sro.Framework

inductive GranuleState where
  | delegated
  | partialObject
  | object
  | aux (owner : Nat)
  | other
  deriving DecidableEq

inductive CbId where
  | memReclaim
  | memDonate
  | createContinue
  | destroyFinish
  deriving DecidableEq

inductive Failure where
  | blocked
  | error (code : Nat)
  deriving DecidableEq

def Failure.input : Failure := .error 1

def retErrStatus : Option Failure → RmiStatus
  | none => .success
  | some .blocked => .blocked
  | some (.error code) => .error code

structure AuxOp where
  cbId : CbId
  objAddr : Nat
  retErr : Option Failure
  aux : List Nat
  requested : Nat
  totalTransferred : Nat
  deriving DecidableEq

def maxSroAuxGranules : Nat := 72

structure World where
  granules : Nat → GranuleState
  locks : Nat → Option Failure
  create : Option Failure

variable (w : World) (c : Ctx AuxOp) (fid : Fid) (s : Sys)

def World.set (p : Nat) (st : GranuleState) : World :=
  { w with granules := Function.update w.granules p st }

def trFindLockGranule (p : Nat) : Option Failure :=
  if w.granules p = .delegated then w.locks p else some .input

def sroAuxOpStartReclaim (w : World) (err : Failure) (num : Nat) : Option (Res × Ctx AuxOp × World) :=
  if w.granules c.body.objAddr = .partialObject then
    some (⟨.incomplete .reclaim,0⟩,{ c with body := { c.body with
        cbId := .memReclaim,retErr := some err,requested := num,totalTransferred := 0 } },w)
  else none

def takeGranules (obj total : Nat) : List (Nat × Nat × Option MemState) → List Nat → World →
    Option (List Nat × Option Failure × World)
  | [], taken, w => some (taken,none,w)
  | (p,level,st) :: rest, taken, w =>
    if st ≠ some .delegated ∨ level ≠ 3 then none
    else match trFindLockGranule w p with
      | some err => some (taken,some err,w)
      | none =>
        if maxSroAuxGranules ≤ taken.length+total then none
        else takeGranules obj total rest (taken ++ [p]) (w.set p (.aux obj))

def donated (w : World) (taken : List Nat) : Res × Ctx AuxOp × World :=
  let b : AuxOp := { c.body with
    aux := c.body.aux.take c.body.totalTransferred ++ taken,
    totalTransferred := c.body.totalTransferred+taken.length }
  if b.totalTransferred < b.requested then
    (⟨.incomplete (.donate ⟨b.requested-b.totalTransferred,c.isContig,.delegated⟩),taken.length⟩,
      { c with body := { b with cbId := .memDonate } },w)
  else (⟨.incomplete .none,taken.length⟩,{ c with body := { b with cbId := .createContinue } },w)

def takenOrFailed : List Nat × Option Failure × World → Option (Res × Ctx AuxOp × World)
  | ([],some err,w) => sroAuxOpStartReclaim c w err c.body.totalTransferred
  | (taken,_,w) => some (donated c w taken)

def sroObjMemoryDonate (c : Ctx AuxOp) (w : World) : Option (Res × Ctx AuxOp × World) :=
  if fid ≠ .memDonate then none
  else (takeGranules c.body.objAddr c.body.totalTransferred (blocks c.input) [] w).bind (takenOrFailed c)

def returnGranules (aux : List Nat) : List Nat → World → List Desc → Option (World × List Desc)
  | [], w, l => some (w,l)
  | i :: is, w, l =>
    if maxSroAuxGranules ≤ i then none
    else match aux[i]? with
      | none => none
      | some p => match w.granules p with
        | .aux _ => (AddrList.addBlock l p .delegated).bind
            fun l => returnGranules aux is (w.set p .delegated) l
        | _ => none

def sroObjMemoryReclaim (c : Ctx AuxOp) (w : World) : Option (Res × Ctx AuxOp × World) :=
  if fid ≠ .memReclaim then none
  else
    let n := min c.body.requested c.rangeDescCount
    let b : AuxOp := { c.body with
      requested := c.body.requested-n,totalTransferred := c.body.totalTransferred+n }
    (returnGranules c.body.aux (List.range' c.body.totalTransferred n) w c.list).map fun r =>
      if b.requested = 0 then
        (⟨.incomplete .none,n⟩,{ c with list := r.2,body := { b with cbId := .destroyFinish } },r.1)
      else (⟨.incomplete .reclaim,n⟩,{ c with list := r.2,body := { b with cbId := .memReclaim } },r.1)

def createContinue (c : Ctx AuxOp) (w : World) : Option (Res × Ctx AuxOp × World) :=
  if fid ≠ .opContinue ∨ c.body.totalTransferred ≠ c.body.requested then none
  else match w.create with
    | some err => sroAuxOpStartReclaim c w err c.body.totalTransferred
    | none =>
      if w.granules c.body.objAddr = .partialObject ∧
          c.body.aux.all fun p => w.granules p = .aux c.body.objAddr then
        some (⟨.final .success,0⟩,c,w.set c.body.objAddr .object)
      else none

def sroAuxOpReclaimFinish (w : World) : Option (Res × Ctx AuxOp × World) :=
  if w.granules c.body.objAddr = .partialObject then
    some (⟨.final (retErrStatus c.body.retErr),0⟩,c,w.set c.body.objAddr .delegated)
  else none

def continueHandler : Callback World AuxOp := fun fid c w =>
  match c.body.cbId with
  | .memReclaim => sroObjMemoryReclaim fid c w
  | .memDonate => sroObjMemoryDonate fid c w
  | .createContinue => createContinue fid c w
  | .destroyFinish => sroAuxOpReclaimFinish c w

structure Sys where
  world : World
  objects : Nat → List Nat
  ops : Nat → Option (Ctx AuxOp)

def Sys.setOp (h : Nat) (c : Option (Ctx AuxOp)) : Sys :=
  { s with ops := Function.update s.ops h c }

inductive Label where
  | other (w : World)
  | create (h obj requested : Nat)
  | destroy (h obj : Nat)
  | call (h : Nat) (f : FollowUp)

def Loose : GranuleState → Prop
  | .delegated => True
  | .other => True
  | _ => False

def created (obj requested : Nat) : Ctx AuxOp :=
  reserved requested false .memDonate ⟨.memDonate,obj,none,[],requested,0⟩

def destroyed (obj : Nat) (aux : List Nat) : Ctx AuxOp :=
  reserved 0 false .memReclaim ⟨.memReclaim,obj,none,aux,aux.length,0⟩

def Sys.finish (h : Nat) (c : Ctx AuxOp) : Sys :=
  if s.world.granules c.body.objAddr = .object then
    { s.setOp h none with objects := Function.update s.objects c.body.objAddr c.body.aux }
  else s.setOp h none

def exec : Label → Option Sys
  | .other w => some { s with world := w }
  | .create h obj requested =>
    if s.ops h = none ∧ s.world.granules obj = .delegated ∧ requested ≤ maxSroAuxGranules then
      some { s.setOp h (some (created obj requested)) with world := s.world.set obj .partialObject }
    else none
  | .destroy h obj =>
    if s.ops h = none ∧ s.world.granules obj = .object then
      some { s.setOp h (some (destroyed obj (s.objects obj))) with
        world := s.world.set obj .partialObject }
    else none
  | .call h f =>
    match s.ops h with
    | none => none
    | some c => (call continueHandler c s.world f).map fun r =>
      if ends f r.1 then ({ s with world := r.2.2 } : Sys).finish h r.2.1
      else { s.setOp h (some r.2.1) with world := r.2.2 }

def Rely : Label → Prop
  | .other w => ∀ p, w.granules p = s.world.granules p ∨ Loose (s.world.granules p) ∧ Loose (w.granules p)
  | _ => True

def auxSystem : TransitionSystem Sys Label where
  init s := (∀ p, Loose (s.world.granules p)) ∧ ∀ h, s.ops h = none
  step s l t := Rely s l ∧ exec s l = some t

variable {l : List HostDesc} {contig : Bool} {st : ReqState} {total : Nat} {b : Nat × Nat × Option MemState}

theorem addrListValidate_cases (h : addrListValidate l contig st = some total) :
    ((blocks l).map fun b => blockPages b.2.1).sum = total ∧ ∀ d ∈ l, 0 < d.count.val → d.valid contig st := by
  have hsum : ((blocks l).map fun b => blockPages b.2.1).sum = ((l.filter fun d => 0 < d.count.val).map HostDesc.pages).sum := by
    clear h
    induction l with
    | nil => rfl
    | cons d l ih =>
      have hd : (d.blocks.map fun b => blockPages b.2.1).sum = d.pages := by
        simp [HostDesc.blocks,HostDesc.pages,Function.comp_def]
      rw [show blocks (d :: l) = d.blocks ++ blocks l from rfl,List.map_append,List.sum_append,ih,hd,List.filter_cons]
      split
      · rfl
      next hc => simp [HostDesc.pages,show d.count.val = 0 by simpa using hc]
  unfold addrListValidate at h
  dsimp only at h
  split at h
  · cases h
  split at h
  next hv =>
    cases h
    exact ⟨hsum,fun d hd hc => List.all_eq_true.1 hv d (List.mem_filter.2 ⟨hd,by simpa using hc⟩)⟩
  · cases h

theorem block_of_mem (hb : b ∈ blocks l) : ∃ d ∈ l, 0 < d.count.val ∧ b.2 = (d.level,d.state) := by
  obtain ⟨d,hd,hb⟩ := List.mem_flatMap.1 hb
  obtain ⟨i,hi,rfl⟩ := List.mem_map.1 hb
  exact ⟨d,hd,Nat.zero_lt_of_lt (List.mem_range.1 hi),rfl⟩

theorem block_le {pre post : List (Nat × Nat × Option MemState)} (h : addrListValidate l contig st = some total)
    (hl : blocks l = pre ++ b :: post) : (pre.map fun b => blockPages b.2.1).sum+blockPages b.2.1 ≤ total := by
  have hsum := (addrListValidate_cases h).1
  rw [hl,List.map_append,List.sum_append,List.map_cons,List.sum_cons] at hsum
  omega

theorem block_single (h : addrListValidate l contig st = some total) (hle : total ≤ maxSroAuxGranules) (hb : b ∈ blocks l) :
    b.2.1 = 3 := by
  obtain ⟨pre,post,hl⟩ := List.append_of_mem hb
  obtain ⟨d,-,-,hbd⟩ := block_of_mem hb
  have h : blockPages b.2.1 ≤ maxSroAuxGranules := by
    have := block_le h hl
    omega
  rw [hbd] at h ⊢
  have hlt := d.size.isLt
  simp only [HostDesc.level] at h ⊢
  generalize d.size.val = n at h hlt ⊢
  revert h
  decide +revert

theorem validated (h : addrListValidate l false .delegated = some total) (hle : total ≤ maxSroAuxGranules) :
    (∀ b ∈ blocks l, b.2.2 = some .delegated ∧ b.2.1 = 3) ∧ (blocks l).length ≤ total := by
  obtain ⟨hsum,hvalid⟩ := addrListValidate_cases h
  have hlevel : ∀ b ∈ blocks l, b.2.1 = 3 := fun b => block_single h hle
  refine ⟨fun b hb => ⟨?_,hlevel b hb⟩,?_⟩
  · obtain ⟨d,hd,hc,hbd⟩ := block_of_mem hb
    have hv := hvalid d hd hc
    rw [hbd]
    cases hs : d.state <;> simp_all [HostDesc.valid,ReqState.admits]
  · rw [← hsum,List.map_congr_left fun b hb => congrArg blockPages (hlevel b hb)]
    simp [blockPages]

def World.setAll (w : World) (l : List Nat) (st : GranuleState) : World :=
  { w with granules := fun p => if p ∈ l then st else w.granules p }

theorem World.setAll_nil (w : World) (st : GranuleState) : w.setAll [] st = w := by
  simp [setAll]

theorem World.set_setAll (w : World) (p : Nat) (l : List Nat) (st : GranuleState) :
    (w.set p st).setAll l st = w.setAll (p :: l) st := by
  simp only [setAll,set,World.mk.injEq,and_self,and_true]
  funext q
  by_cases hq : q ∈ l
  · simp [hq]
  by_cases hp : q = p
  · subst hp
    simp
  · simp [hq,hp]

theorem World.set_granules (w : World) (p q : Nat) (st : GranuleState) :
    (w.set p st).granules q = if q = p then st else w.granules q :=
  Function.update_apply ..

theorem takeGranules_spec (obj total : Nat) {bs : List (Nat × Nat × Option MemState)} (taken : List Nat)
    (w : World) (hbs : ∀ b ∈ bs, b.2.2 = some .delegated ∧ b.2.1 = 3)
    (hlen : taken.length + bs.length + total ≤ maxSroAuxGranules) :
    ∃ new why, takeGranules obj total bs taken w = some (taken ++ new,why,w.setAll new (.aux obj)) ∧
      new.Nodup ∧ (∀ p ∈ new, w.granules p = .delegated) ∧ new.length ≤ bs.length := by
  induction bs generalizing taken w with
  | nil => exact ⟨[],none,by simp [takeGranules,World.setAll_nil],.nil,nofun,Nat.le_refl _⟩
  | cons b bs ih =>
    obtain ⟨p,level,st⟩ := b
    obtain ⟨rfl,rfl⟩ : st = some .delegated ∧ level = 3 := hbs _ List.mem_cons_self
    simp only [List.length_cons] at hlen
    simp only [takeGranules,ne_eq,not_true_eq_false,or_self,if_false]
    cases hlook : trFindLockGranule w p with
    | some err => exact ⟨[],some err,by simp [World.setAll_nil],.nil,nofun,Nat.zero_le _⟩
    | none =>
      have hp : w.granules p = .delegated := by
        by_contra hne
        simp [trFindLockGranule,hne] at hlook
      have hidx : ¬maxSroAuxGranules ≤ taken.length+total := by omega
      obtain ⟨new,why,hx,hnd,hdel,hle⟩ := ih (taken ++ [p]) (w.set p (.aux obj))
        (fun b hb => hbs b (List.mem_cons_of_mem _ hb)) (by simp; omega)
      have hnot : p ∉ new := fun hmem => by
        have := hdel p hmem
        simp [World.set_granules] at this
      refine ⟨p :: new,why,?_,List.nodup_cons.2 ⟨hnot,hnd⟩,fun q hq => ?_,?_⟩
      · simp only [hidx,if_false,hx,World.set_setAll,List.append_assoc,List.singleton_append]
      · rcases List.mem_cons.1 hq with rfl | hq
        · exact hp
        · have hd := hdel q hq
          have hqp : q ≠ p := fun h => hnot (h ▸ hq)
          rw [World.set_granules,if_neg hqp] at hd
          exact hd
      · simp only [List.length_cons]
        omega

theorem returnGranules_spec {aux : List Nat} (obj : Nat) (hmax : aux.length ≤ maxSroAuxGranules)
    (hnd : aux.Nodup) (n start : Nat) (w : World) (l : List Desc) (hlen : start+n ≤ aux.length)
    (haux : ∀ p ∈ aux.drop start, w.granules p = .aux obj) (hl : l.length+n ≤ maxRanges) :
    ∃ l', returnGranules aux (List.range' start n) w l = some (w.setAll ((aux.drop start).take n) .delegated,l') ∧
      (AddrList.pages l').Perm
        (((aux.drop start).take n).map (fun p => (p,MemState.delegated)) ++ AddrList.pages l) ∧
      (0 < n → l' ≠ []) ∧ (n = 0 → l' = l) := by
  induction n generalizing start w l with
  | zero => exact ⟨l,by simp [returnGranules,World.setAll_nil],by simp,nofun,fun _ => rfl⟩
  | succ n ih =>
    have hstart : start < aux.length := by omega
    have hdrop : aux.drop start = aux[start] :: aux.drop (start+1) := List.drop_eq_getElem_cons hstart
    have hnd' : (aux.drop start).Nodup := hnd.drop
    rw [hdrop] at haux hnd' ⊢
    have hp : w.granules aux[start] = .aux obj := haux _ List.mem_cons_self
    obtain ⟨l₁,hl₁,hlen₁⟩ := AddrList.addBlock_some aux[start] .delegated (l := l) (by omega)
    obtain ⟨l',hx,hperm,hne,heq⟩ := ih (start+1) (w.set aux[start] .delegated) l₁ (by omega) (fun q hq => by
        have hne : q ≠ aux[start] := fun h => (List.nodup_cons.1 hnd').1 (h ▸ hq)
        rw [World.set_granules,if_neg hne]
        exact haux q (List.mem_cons_of_mem _ hq)) (by omega)
    refine ⟨l',?_,?_,fun _ => ?_,nofun⟩
    · rw [List.range'_succ]
      simp only [returnGranules,List.getElem?_eq_getElem hstart,hp,hl₁,Option.bind_some,hx,
        World.set_setAll,List.take_succ_cons,if_neg (show ¬maxSroAuxGranules ≤ start by omega)]
    · apply hperm.trans
      simp only [List.take_succ_cons,List.map_cons,List.cons_append]
      exact ((AddrList.addBlock_pages hl₁).append_left _).trans List.perm_middle
    · rcases Nat.eq_zero_or_pos n with rfl | hn
      · rw [heq rfl]
        exact AddrList.addBlock_ne_nil hl₁
      · exact hne hn

end TfRmm.Sro.AuxGranules
