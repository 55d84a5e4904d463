import Mathlib.Data.List.Sort
import Mathlib.Algebra.GroupWithZero.Nat
import Mathlib.Data.List.Perm.Basic

namespace TfRmm.Sro

inductive MemState where
  | delegated
  | undelegated
  deriving DecidableEq

structure Desc where
  base : Nat
  level : Nat
  count : Nat
  state : MemState
  deriving DecidableEq

def blockPages (level : Nat) : Nat := 512 ^ (3-level)

def maxBlockCount : Nat := 2 ^ 10 - 1

def maxRanges : Nat := 512

namespace Desc

def pages (d : Desc) : List (Nat × MemState) :=
  (List.range' d.base (d.count * blockPages d.level)).map fun p => (p,d.state)

def addBlock (d : Desc) (p level : Nat) (st : MemState) : Option Desc :=
  if d.level ≠ level ∨ st ≠ d.state ∨ maxBlockCount ≤ d.count then none
  else if p+blockPages level = d.base then some { d with base := p,count := d.count+1 }
  else if p = d.base+d.count*blockPages level then some { d with count := d.count+1 }
  else none

end Desc

namespace AddrList

def pages (l : List Desc) : List (Nat × MemState) := l.flatMap Desc.pages

def fit (p level : Nat) (st : MemState) : List Desc → Option (List Desc)
  | [] => none
  | d :: ds =>
    match d.addBlock p level st with
    | some d' => some (d' :: ds)
    | none => (fit p level st ds).map (d :: ·)

def addBlockAt (maxCount level : Nat) (l : List Desc) (p : Nat) (st : MemState) : Option (List Desc) :=
  match fit p level st l with
  | some l' => some l'
  | none => if l ≠ [] ∧ l.length = maxCount then none else some (l ++ [⟨p,level,1,st⟩])

def addBlock : List Desc → Nat → MemState → Option (List Desc) := addBlockAt maxRanges 3

end AddrList

variable {p : Nat} {st : MemState} {l l' : List Desc}

theorem Desc.addBlock_pages {d d' : Desc} (h : d.addBlock p 3 st = some d') : d'.pages.Perm ((p,st) :: d.pages) := by
  obtain ⟨base,level,count,state⟩ := d
  simp only [addBlock,show blockPages 3 = 1 from rfl,Nat.mul_one] at h
  split at h
  · cases h
  rename_i hok
  obtain ⟨hlevel,hst⟩ := not_or.1 hok
  obtain ⟨hst,-⟩ := not_or.1 hst
  obtain rfl : level = 3 := not_not.1 hlevel
  obtain rfl : st = state := not_not.1 hst
  have hone : blockPages 3 = 1 := rfl
  split at h
  next hp =>
    cases h
    subst hp
    simp only [pages,hone,Nat.mul_one,List.range'_succ,List.map_cons]
    exact List.Perm.refl _
  split at h
  next hp =>
    cases h
    subst hp
    simp only [pages,hone,Nat.mul_one,List.range'_concat,List.map_append,List.map_cons,List.map_nil,Nat.one_mul]
    exact List.perm_append_singleton _ _
  · cases h

theorem AddrList.fit_pages (h : fit p 3 st l = some l') : (pages l').Perm ((p,st) :: pages l) := by
  induction l generalizing l' with
  | nil => cases h
  | cons d ds ih =>
    simp only [fit] at h
    split at h
    next d' hd =>
      cases h
      exact (Desc.addBlock_pages hd).append_right _
    · obtain ⟨l₁,h₁,rfl⟩ := Option.map_eq_some_iff.1 h
      exact ((ih h₁).append_left d.pages).trans List.perm_middle

theorem AddrList.addBlock_pages (h : addBlock l p st = some l') : (pages l').Perm ((p,st) :: pages l) := by
  unfold addBlock addBlockAt at h
  split at h
  next l₁ hfit =>
    cases h
    exact fit_pages hfit
  split at h
  · cases h
  · cases h
    simp only [pages,List.flatMap_append]
    exact List.perm_append_comm

theorem AddrList.fit_length {level : Nat} (h : fit p level st l = some l') : l'.length = l.length := by
  induction l generalizing l' with
  | nil => cases h
  | cons d ds ih =>
    simp only [fit] at h
    split at h
    · cases h
      rfl
    · obtain ⟨l₁,h₁,rfl⟩ := Option.map_eq_some_iff.1 h
      simp [ih h₁]

theorem AddrList.addBlock_some (p : Nat) (st : MemState) (h : l.length < maxRanges) :
    ∃ l', addBlock l p st = some l' ∧ l'.length ≤ l.length+1 := by
  unfold addBlock addBlockAt
  split
  next l' hfit =>
    have hlen := fit_length hfit
    exact ⟨l',rfl,by omega⟩
  · rw [if_neg fun hx => Nat.ne_of_lt h hx.2]
    exact ⟨_,rfl,by simp⟩

theorem AddrList.addBlock_ne_nil (h : addBlock l p st = some l') : l' ≠ [] := by
  rintro rfl
  exact absurd (addBlock_pages h).length_eq (by simp [pages])

abbrev Writes := List (Nat × BitVec 64)

def memcpyNsWrite (fault : Nat → Bool) : Nat → List (BitVec 64) → Bool × Writes
  | _, [] => (true,[])
  | dest, w :: ws =>
    if fault dest then (false,[])
    else
      let r := memcpyNsWrite fault (dest+8) ws
      (r.1,(dest,w) :: r.2)

structure Host where
  mapped : Bool
  fault : Nat → Bool

def nsBufferWriteAddr (host : Host) (nsAddr offset : Nat) (src : List (BitVec 64)) : Bool × Writes :=
  if nsAddr % 4096 ≠ 0 ∨ offset % 8 ≠ 0 then (false,[])
  else if 4096-offset % 4096 < src.length*8 then (false,[])
  else if ¬ host.mapped then (false,[])
  else memcpyNsWrite host.fault (nsAddr+offset % 4096) src

structure OutputList where
  rangeDesc : Nat → BitVec 64
  count : Nat

structure Delivery where
  host : Host
  addr : Nat
  count : Nat

structure Copied where
  ok : Bool
  writes : Writes
  list : OutputList

namespace OutputList

def pending (l : OutputList) : List (BitVec 64) := (List.range l.count).map l.rangeDesc

def dropFirst (l : OutputList) (n : Nat) : OutputList where
  rangeDesc := fun i => if i < l.count-n then l.rangeDesc (n+i) else l.rangeDesc i
  count := l.count-n

def partialCopyToHost (l : OutputList) (d : Delivery) : Copied :=
  let offset := d.addr % 4096 / 8
  let n := min (min l.count d.count) (maxRanges-offset)
  let r := nsBufferWriteAddr d.host (d.addr-d.addr % 4096) (offset*8) ((List.range n).map l.rangeDesc)
  if ¬ r.1 then ⟨false,r.2,l⟩
  else ⟨true,r.2,l.dropFirst n⟩

end OutputList

def Copied.delivered (c : Copied) : List (BitVec 64) := if c.ok then c.writes.map Prod.snd else []

def Delivery.capacity (d : Delivery) : Nat := min d.count (maxRanges-d.addr % 4096 / 8)

inductive Delivers : OutputList → List (BitVec 64) → Nat → OutputList → Prop where
  | start (l : OutputList) : Delivers l [] 0 l
  | call {l t : OutputList} {ws : List (BitVec 64)} {cap : Nat} (run : Delivers l ws cap t) (d : Delivery)
      (aligned : d.addr % 8 = 0) :
      Delivers l (ws ++ (t.partialCopyToHost d).delivered) (if (t.partialCopyToHost d).ok then cap+d.capacity else cap)
        (t.partialCopyToHost d).list

structure Confined (l : OutputList) (d : Delivery) (c : Copied) : Prop where
  within : ∀ x ∈ c.writes, ∃ i < d.count, x.1 = d.addr+8*i ∧ x.1 / 4096 = d.addr / 4096
  served : d.host.mapped → (∀ a, d.host.fault a = false) → c.ok
  wrote : c.ok → c.writes = (List.range (min l.count d.capacity)).map fun i => (d.addr+8*i,l.rangeDesc i)
  failed : c.ok = false → c.list = l
  split : c.delivered ++ c.list.pending = l.pending

structure Wrote (served : Prop) (dest : Nat) (src : List (BitVec 64)) (r : Bool × Writes) : Prop where
  slots : ∀ x ∈ r.2, ∃ i < src.length, x.1 = dest+8*i
  addrs : r.1 → r.2.map Prod.fst = (List.range src.length).map (dest+8*·)
  all : r.1 → r.2.map Prod.snd = src
  ok : served → r.1

variable {fault : Nat → Bool} {host : Host} {dest nsAddr offset : Nat} {src : List (BitVec 64)}

theorem memcpyNsWrite_wrote : Wrote (∀ a, fault a = false) dest src (memcpyNsWrite fault dest src) := by
  induction src generalizing dest with
  | nil => exact ⟨nofun,fun _ => rfl,fun _ => rfl,fun _ => rfl⟩
  | cons w ws ih =>
    obtain ⟨hslots,haddrs,hall,hok⟩ := @ih (dest+8)
    unfold memcpyNsWrite
    split
    next hf => exact ⟨nofun,nofun,nofun,fun h => absurd hf (by simp [h])⟩
    refine ⟨List.forall_mem_cons.2 ⟨⟨0,Nat.succ_pos _,rfl⟩,fun x hx => ?_⟩,fun h => ?_,fun h => congrArg _ (hall h),hok⟩
    · obtain ⟨i,hi,hx⟩ := hslots x hx
      exact ⟨i+1,Nat.succ_lt_succ hi,by omega⟩
    · rw [List.length_cons,List.range_succ_eq_map,List.map_cons,haddrs h,List.map_cons,List.map_map]
      refine congrArg _ (List.map_congr_left fun i _ => ?_)
      simp only [Function.comp_apply]
      omega

theorem nsBufferWriteAddr_wrote : Wrote (nsAddr % 4096 = 0 ∧ offset % 8 = 0 ∧ src.length*8 ≤ 4096-offset % 4096 ∧
    host.mapped ∧ ∀ a, host.fault a = false) (nsAddr+offset % 4096) src (nsBufferWriteAddr host nsAddr offset src) := by
  unfold nsBufferWriteAddr
  split
  next h => exact ⟨nofun,nofun,nofun,fun hs => by omega⟩
  split
  next h => exact ⟨nofun,nofun,nofun,fun hs => by omega⟩
  split
  next h => exact ⟨nofun,nofun,nofun,fun hs => absurd hs.2.2.2.1 h⟩
  · have hw := @memcpyNsWrite_wrote host.fault (nsAddr+offset % 4096) src
    exact ⟨hw.slots,hw.addrs,hw.all,fun hs => hw.ok hs.2.2.2.2⟩

theorem OutputList.pending_split (l : OutputList) {n : Nat} (hn : n ≤ l.count) :
    (List.range n).map l.rangeDesc ++ (l.dropFirst n).pending = l.pending := by
  have hrest : (l.dropFirst n).pending = ((List.range (l.count-n)).map (n+·)).map l.rangeDesc := by
    rw [List.map_map]
    exact List.map_congr_left fun i hi => if_pos (List.mem_range.1 hi)
  rw [hrest,← List.map_append,← List.range_add,Nat.add_sub_cancel' hn]
  rfl

theorem partialCopyToHost_confined (l : OutputList) {d : Delivery} (ha : d.addr % 8 = 0) :
    Confined l d (l.partialCopyToHost d) := by
  obtain ⟨n,hn⟩ : ∃ n, n = min (min l.count d.count) (maxRanges-d.addr % 4096 / 8) := ⟨_,rfl⟩
  have hcap : min l.count d.capacity = n := hn ▸ (Nat.min_assoc ..).symm
  have hroom : n ≤ 512-d.addr % 4096 / 8 := hn ▸ Nat.min_le_right ..
  have hlen : ((List.range n).map l.rangeDesc).length = n := by simp
  have hwrote := @nsBufferWriteAddr_wrote d.host (d.addr-d.addr % 4096) (d.addr % 4096 / 8*8) ((List.range n).map l.rangeDesc)
  unfold OutputList.partialCopyToHost
  simp only [← hn]
  generalize nsBufferWriteAddr d.host _ _ _ = r at hwrote ⊢
  have hwithin : ∀ x ∈ r.2, ∃ i < d.count, x.1 = d.addr+8*i ∧ x.1 / 4096 = d.addr / 4096 := fun x hx => by
    obtain ⟨i,hi,hx⟩ := hwrote.slots x hx
    exact ⟨i,by omega,by omega,by omega⟩
  split
  next hr =>
    exact ⟨hwithin,fun hm hf => absurd (hwrote.ok ⟨by omega,by omega,by omega,hm,hf⟩) hr,fun h => absurd h Bool.false_ne_true,
      fun _ => rfl,rfl⟩
  next hr =>
    have hall := hwrote.all (not_not.1 hr)
    have haddrs := hwrote.addrs (not_not.1 hr)
    refine ⟨hwithin,fun _ _ => rfl,fun _ => ?_,nofun,?_⟩
    · rw [hcap,← List.zip_unzip r.2,List.unzip_eq_map,hall,haddrs,hlen]
      rw [List.zip_map',List.map_congr_left fun i _ => ?_]
      exact Prod.ext (by simp only; omega) rfl
    · show r.2.map Prod.snd ++ _ = _
      rw [hall]
      exact l.pending_split (by omega)

theorem Confined.delivered_length {l : OutputList} {d : Delivery} {c : Copied} (h : Confined l d c) :
    c.delivered.length = if c.ok then min l.count d.capacity else 0 := by
  unfold Copied.delivered
  split
  next hok => simp [h.wrote hok]
  · rfl

theorem host_list_delivered {l t : OutputList} {ws : List (BitVec 64)} {cap : Nat} (run : Delivers l ws cap t) :
    ws ++ t.pending = l.pending ∧ ws.length = min l.count cap ∧ (l.count ≤ cap → t.pending = []) ∧
      ∀ d : Delivery, d.addr % 8 = 0 → Confined t d (t.partialCopyToHost d) := by
  have hrun : ws ++ t.pending = l.pending ∧ ws.length = min l.count cap := by
    induction run with
    | start => exact ⟨rfl,(Nat.min_zero _).symm⟩
    | @call t ws cap run d aligned ih =>
      have hc := partialCopyToHost_confined t aligned
      have hlen := congrArg List.length ih.1
      simp only [List.length_append,OutputList.pending,List.length_map,List.length_range] at hlen
      refine ⟨by rw [List.append_assoc,hc.split,ih.1],?_⟩
      rw [List.length_append,hc.delivered_length,ih.2]
      split <;> omega
  refine ⟨hrun.1,hrun.2,fun hcap => ?_,fun d => partialCopyToHost_confined t⟩
  have hlen := congrArg List.length hrun.1
  simp only [List.length_append,OutputList.pending,List.length_map,List.length_range] at hlen
  have hz : t.count = 0 := by omega
  simp [OutputList.pending,hz]

theorem host_list_delivered_in_two : ∃ (l t u : OutputList) (ws : List (BitVec 64)), Delivers l ws 2 t ∧
    (t.partialCopyToHost ⟨⟨true,fun _ => false⟩,8,9⟩).writes = [(8,2)] ∧ ws ++ t.pending = l.pending ∧
    (t.partialCopyToHost ⟨⟨true,fun _ => false⟩,8,9⟩).list = u ∧ u.pending = [] :=
  have run := ((Delivers.start ⟨fun i => i,3⟩).call ⟨⟨true,fun _ => false⟩,4080,9⟩ rfl).call ⟨⟨true,fun _ => true⟩,0,1⟩ rfl
  have last := run.call ⟨⟨true,fun _ => false⟩,8,9⟩ rfl
  ⟨_,_,_,_,run,by decide,(host_list_delivered run).1,rfl,(host_list_delivered last).2.2.1 (by decide)⟩

def descAfterByAddr (a b : Desc) : Bool :=
  let aEmpty := a.count == 0
  let bEmpty := b.count == 0
  if aEmpty ≠ bEmpty then aEmpty
  else if aEmpty then false
  else b.base < a.base

def Settles (temp d : Desc) : Prop := descAfterByAddr d temp = false

instance : DecidableRel Settles := fun _ _ => inferInstanceAs (Decidable (_ = false))

def sortByAddr (l : List Desc) : List Desc := (l.foldl (fun sorted temp => sorted.orderedInsert Settles temp) []).reverse

structure DrainCursor where
  pending : List Desc
  blkIdx : Nat
  pa : Option Nat

def drainStep : DrainCursor → Option (Option Nat × DrainCursor)
  | ⟨[],_,_⟩ => none
  | ⟨d :: ds,blkIdx,pa⟩ =>
    if d.count ≤ blkIdx then some (none,⟨ds,0,none⟩)
    else
      let blkBase := d.base+blkIdx*blockPages d.level
      let pa := pa.getD blkBase
      if pa < blkBase+blockPages d.level then some (pa,⟨d :: ds,blkIdx,some (pa+1)⟩)
      else some (none,⟨d :: ds,blkIdx+1,none⟩)

inductive Drains (l : List Desc) : List Nat → DrainCursor → Prop where
  | start : Drains l [] ⟨l,0,none⟩
  | step {vs : List Nat} {v : Option Nat} {c t : DrainCursor} (run : Drains l vs c) (h : drainStep c = some (v,t)) :
      Drains l (vs ++ v.toList) t

def Desc.granules (d : Desc) : List Nat := List.range' d.base (d.count*blockPages d.level)

def granules (l : List Desc) : List Nat := l.flatMap Desc.granules

variable {a b d : Desc} {c t : DrainCursor} {v : Option Nat} {vs : List Nat}

theorem settles_iff : Settles b a ↔ (b.count ≠ 0 → a.count ≠ 0 ∧ a.base ≤ b.base) := by
  by_cases ha : a.count = 0 <;> by_cases hb : b.count = 0 <;> simp [Settles,descAfterByAddr,ha,hb]

instance : Std.Total Settles := ⟨fun a b => by
  rw [settles_iff,settles_iff]
  omega⟩

instance : IsTrans Desc Settles := ⟨fun a b c => by
  rw [settles_iff,settles_iff,settles_iff]
  omega⟩

theorem sortByAddr_eq (l : List Desc) : sortByAddr l = (l.reverse.insertionSort Settles).reverse := by
  rw [sortByAddr,List.foldl_eq_foldr_reverse]
  rfl

theorem sortByAddr_perm (l : List Desc) : (sortByAddr l).Perm l := by
  rw [sortByAddr_eq]
  exact (List.reverse_perm _).trans ((List.perm_insertionSort _ _).trans (List.reverse_perm l))

theorem sortByAddr_sorted (l : List Desc) : (sortByAddr l).Pairwise fun a b => b.count ≠ 0 → a.count ≠ 0 ∧ a.base ≤ b.base := by
  rw [sortByAddr_eq,List.pairwise_reverse]
  exact (List.pairwise_insertionSort _ _).imp settles_iff.1

theorem granules_ascend (hs : l.Pairwise fun a b => b.count ≠ 0 → a.count ≠ 0 ∧ a.base ≤ b.base) (hn : (granules l).Nodup) :
    (granules l).Pairwise (· < ·) := by
  rw [granules,List.pairwise_flatMap]
  refine ⟨fun d _ => List.pairwise_lt_range',(hs.and (List.nodup_flatMap.1 hn).2).imp ?_⟩
  rintro a b ⟨hab,hdis⟩ p hp q hq
  simp only [Desc.granules,List.mem_range'_1] at hp hq
  by_contra hle
  have hb : b.count ≠ 0 := by
    intro h
    simp only [h,Nat.zero_mul] at hq
    omega
  have hbase := (hab hb).2
  refine hdis (a := b.base) ?_ ?_ <;> simp only [Desc.granules,List.mem_range'_1] <;> omega

def DrainCursor.rest : DrainCursor → List Nat
  | ⟨[],_,_⟩ => []
  | ⟨d :: ds,blkIdx,pa⟩ =>
    let cur := pa.getD (d.base+blkIdx*blockPages d.level)
    List.range' cur (d.base+d.count*blockPages d.level-cur) ++ granules ds

def DrainCursor.Inside : DrainCursor → Prop
  | ⟨[],_,_⟩ => True
  | ⟨d :: _,blkIdx,pa⟩ => blkIdx ≤ d.count ∧ ∀ p ∈ pa, blkIdx < d.count ∧
    p ≤ d.base+blkIdx*blockPages d.level+blockPages d.level

theorem fresh_inside (l : List Desc) : (DrainCursor.mk l 0 none).Inside ∧ (DrainCursor.mk l 0 none).rest = granules l := by
  cases l with
  | nil => exact ⟨trivial,rfl⟩
  | cons d ds => exact ⟨⟨Nat.zero_le _,nofun⟩,by simp [DrainCursor.rest,granules,Desc.granules]⟩

theorem drainStep_rest (hc : c.Inside) (h : drainStep c = some (v,t)) : t.Inside ∧ c.rest = v.toList ++ t.rest := by
  obtain ⟨_ | ⟨d,ds⟩,blkIdx,pa⟩ := c
  · cases h
  obtain ⟨hcount,hpa⟩ := hc
  simp only [drainStep] at h
  split at h
  next hdone =>
    cases h
    obtain rfl := Nat.le_antisymm hcount hdone
    cases pa with
    | none =>
      obtain ⟨hin,hrest⟩ := fresh_inside ds
      exact ⟨hin,by rw [hrest]; simp [DrainCursor.rest]⟩
    | some p => exact absurd (hpa p rfl).1 (Nat.lt_irrefl _)
  next hlt =>
  have hroom : blkIdx*blockPages d.level+blockPages d.level ≤ d.count*blockPages d.level := by
    rw [← Nat.succ_mul]
    exact Nat.mul_le_mul_right _ (Nat.not_le.1 hlt)
  have hend : pa.getD (d.base+blkIdx*blockPages d.level) ≤ d.base+blkIdx*blockPages d.level+blockPages d.level := by
    cases pa with
    | none => exact Nat.le_add_right _ _
    | some p => exact (hpa p rfl).2
  simp only [DrainCursor.rest]
  generalize pa.getD (d.base+blkIdx*blockPages d.level) = p at h hend ⊢
  split at h
  next hp =>
    cases h
    refine ⟨⟨hcount,fun q hq => by cases hq; omega⟩,?_⟩
    obtain ⟨n,hn⟩ : ∃ n, d.base+d.count*blockPages d.level = p+1+n := ⟨_,(Nat.add_sub_of_le (by omega)).symm⟩
    rw [hn,show p+1+n-p = n+1 by omega,List.range'_succ]
    simp [hn]
  next hp =>
    cases h
    refine ⟨⟨Nat.not_le.1 hlt,nofun⟩,?_⟩
    obtain rfl : p = d.base+(blkIdx+1)*blockPages d.level := by
      rw [Nat.succ_mul]
      omega
    rfl

theorem Drains.rest (run : Drains l vs c) : c.Inside ∧ vs ++ c.rest = granules l := by
  induction run with
  | start => exact fresh_inside l
  | step run h ih =>
    obtain ⟨hin,hrest⟩ := drainStep_rest ih.1 h
    exact ⟨hin,by rw [List.append_assoc,← hrest,ih.2]⟩

theorem rest_of_done (h : drainStep c = none) : c.rest = [] := by
  obtain ⟨_ | ⟨d,ds⟩,blkIdx,pa⟩ := c
  · rfl
  simp only [drainStep] at h
  split at h
  · cases h
  · split at h <;> cases h

theorem list_sorted_for_drain (l : List Desc) : (sortByAddr l).Perm l ∧
    ((sortByAddr l).Pairwise fun a b => b.count ≠ 0 → a.count ≠ 0 ∧ a.base ≤ b.base) ∧
    ((granules l).Nodup → ∀ vs c, Drains (sortByAddr l) vs c →
      vs.Pairwise (· < ·) ∧ (drainStep c = none → vs.Perm (granules l))) := by
  have hperm := sortByAddr_perm l
  have hgran : (granules (sortByAddr l)).Perm (granules l) := hperm.flatMap_right _
  refine ⟨hperm,sortByAddr_sorted l,fun hn vs c run => ?_⟩
  have hasc := granules_ascend (sortByAddr_sorted l) (hgran.nodup_iff.2 hn)
  rw [← run.rest.2] at hasc hgran
  refine ⟨(List.pairwise_append.1 hasc).1,fun hdone => ?_⟩
  rwa [rest_of_done hdone,List.append_nil] at hgran

def scattered : List Desc := [⟨8,3,1,.delegated⟩,⟨0,3,0,.delegated⟩,⟨2,3,2,.delegated⟩]

theorem list_sorted_for_drain_scattered : sortByAddr scattered = [⟨2,3,2,.delegated⟩,⟨8,3,1,.delegated⟩,⟨0,3,0,.delegated⟩] ∧
    ∀ vs c, Drains (sortByAddr scattered) vs c → vs.Pairwise (· < ·) ∧ (drainStep c = none → vs.Perm [8,2,3]) :=
  ⟨by decide,(list_sorted_for_drain scattered).2.2 (by decide)⟩

end TfRmm.Sro
