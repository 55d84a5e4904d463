import TfRmm.Lib.Tally
import TfRmm.Lib.Field
import TfRmm.S2tt.Entry

namespace TfRmm.Smmu

open TfRmm.S2tt TfRmm.Lib

abbrev Cmd := Nat

def cmdTlbiS2Ipa : Nat := 0x2A
def cmdSync : Nat := 0x46

def numWidth : Nat := 5

def maxRetries : Nat := 100000

def sigIrq : Nat := 1
def sigSev : Nat := 2
def mshIsh : Nat := 3
def msiattrOiwb : Nat := 0xF
def tg4kb : Nat := 1

def addressBits (addr : Nat) : Nat := field 12 44 addr <<< 12

def tgTtl (tgtLvl : Int) (leaf : Bool) : Nat :=
  tg4kb <<< 10 ||| (if leaf then 1 else 0) ||| (if 0 < tgtLvl then tgtLvl.toNat <<< 8 else 0)

def tlbiParam0 (vmid scale num : Nat) : Nat := vmid <<< 32 ||| scale <<< 20 ||| (num-1) <<< 12

def tlbiParam1 (addr : Nat) (tgtLvl : Int) (leaf : Bool) : Nat :=
  addressBits addr ||| tgTtl tgtLvl leaf

def tlbiCommand (vmid scale num addr : Nat) (tgtLvl : Int) (leaf : Bool) : Cmd :=
  cmdTlbiS2Ipa ||| tlbiParam0 vmid scale num ||| tlbiParam1 addr tgtLvl leaf <<< 64

def syncCommand (msiAddr : Nat) : Cmd :=
  cmdSync ||| sigIrq <<< 12 ||| mshIsh <<< 22 ||| msiattrOiwb <<< 24 ||| msiAddr <<< 64

def sevCommand (sev : Bool) : Cmd := cmdSync ||| (if sev then sigSev <<< 12 else 0)

namespace Cmd

variable (c : Cmd)

def opcode : Nat := field 0 8 c

def msiTarget : Option Nat :=
  if opcode c = cmdSync ∧ field 12 2 c = sigIrq then some (field 64 52 c) else none

end Cmd

inductive Errno where
  | einval
  | enomem
  | ebusy
  | etimedout
  | eio
  deriving DecidableEq

structure Features where
  btm : Bool
  ds : Bool
  vmid16 : Bool
  msi : Bool
  sev : Bool
  deriving DecidableEq

inductive PsmmuState where
  | active
  | busy
  | inactive
  deriving DecidableEq

structure Queue where
  sent : List Cmd
  consumed : Nat
  deriving DecidableEq

structure Enables where
  smmuEn : Bool
  cmdqEn : Bool
  evtqEn : Bool
  deriving DecidableEq

structure Regs where
  cr0 : Enables
  ack : Enables
  ptm : Bool
  deriving DecidableEq

structure Device where
  features : Features
  state : PsmmuState
  regs : Regs
  queue : Queue
  lock : Bool
  deriving DecidableEq

inductive Tick where
  | consume (i : Nat)
  | ack (i : Nat) (bits : Enables)
  | other (i : Nat) (c : Cmd)
  deriving DecidableEq

structure Input where
  ticks : List Tick
  fault : Option Errno
  deriving DecidableEq

structure World where
  num : Nat
  smmu : Nat → Device
  broadcast : Bool
  eventNotify : Bool
  word : Nat → Nat
  inputs : List Input
  emitted : List (Nat × Cmd)

structure CmdSync where
  completionPa : Nat
  words : Nat
  deriving DecidableEq

namespace CmdSync

variable (cs : CmdSync)

def addr (i : Nat) : Nat := cs.completionPa + i * 4

def owns (a : Nat) : Bool := (List.range cs.words).any fun i => a == cs.addr i

end CmdSync

def Enables.select (bits new old : Enables) : Enables :=
  ⟨if bits.smmuEn then new.smmuEn else old.smmuEn,if bits.cmdqEn then new.cmdqEn else old.cmdqEn,
    if bits.evtqEn then new.evtqEn else old.evtqEn⟩

def Enables.mask (bits e : Enables) : Enables :=
  ⟨bits.smmuEn && e.smmuEn,bits.cmdqEn && e.cmdqEn,bits.evtqEn && e.evtqEn⟩

namespace World

variable (w : World) (i : Nat) (cs : CmdSync)

def setSmmu (d : Device) : World := { w with smmu := Function.update w.smmu i d }

def setWord (a v : Nat) : World := { w with word := Function.update w.word a v }

def push (c : Cmd) : World :=
  w.setSmmu i { w.smmu i with
    queue := { (w.smmu i).queue with sent := (w.smmu i).queue.sent ++ [c] } }

def consume : World :=
  match (w.smmu i).queue.sent[(w.smmu i).queue.consumed]? with
  | none => w
  | some c =>
    let w' := w.setSmmu i { w.smmu i with
      queue := { (w.smmu i).queue with consumed := (w.smmu i).queue.consumed + 1 } }
    match Cmd.msiTarget c with
    | none => w'
    | some a => w'.setWord a 0

def acknowledge (bits : Enables) : World :=
  w.setSmmu i { w.smmu i with
    regs := { (w.smmu i).regs with ack := bits.select (w.smmu i).regs.cr0 (w.smmu i).regs.ack } }

def tick : Tick → World
  | .consume i => if i < w.num then w.consume i else w
  | .ack i bits => w.acknowledge i bits
  | .other i c => if (w.smmu i).lock || (Cmd.msiTarget c).any cs.owns then w else w.push i c

def ticks (ts : List Tick) : World := ts.foldl (fun w t => w.tick cs t) w

def access : World × Option Errno :=
  match w.inputs with
  | [] => (w,none)
  | x :: xs => ({ w with inputs := xs }.ticks cs x.ticks,x.fault)

def emit (c : Cmd) : World := { w.push i c with emitted := w.emitted ++ [(i,c)] }

def sendCmd (i : Nat) (c : Cmd) : World × Option Errno :=
  match w.access cs with
  | (w',some e) => (w',some e)
  | (w',none) => (w'.emit i c,none)

def prepareSendCmdSync (i msiAddr : Nat) : World × Option Errno :=
  match w.sendCmd cs i (syncCommand msiAddr) with
  | (w',some e) => (w',some e)
  | (w',none) => if w'.eventNotify then w'.sendCmd cs i (sevCommand (w'.smmu i).features.sev) else (w',none)

def spinlockSmmu (idx : Nat) (acquire : Bool) : World :=
  { w with smmu := fun i =>
      if idx ≤ i ∧ i < w.num then { w.smmu i with lock := acquire } else w.smmu i }

def spinlockRelease : World := w.setSmmu i { w.smmu i with lock := false }

end World

def strtabL1SteMax : Nat := 64

def l1stdIdx (sid : Nat) : Nat := sid / strtabL1SteMax

structure Ste where
  config : Bool
  v : Bool
  deriving DecidableEq

def Ste.zero : Ste := ⟨false,false⟩

structure StreamTable where
  state : PsmmuState
  sidBits : Nat
  l1 : Nat → Option Nat
  l1Refcnt : Nat
  refcount : Nat → Nat
  ste : Nat → Ste

namespace StreamTable

variable (t : StreamTable) (sid : Nat)

def setSte (e : Ste) : StreamTable := { t with ste := Function.update t.ste sid e }

def setRefcount (k n : Nat) : StreamTable := { t with refcount := Function.update t.refcount k n }

def setL1 (k : Nat) (pa : Option Nat) : StreamTable := { t with l1 := Function.update t.l1 k pa }

def ready : Bool :=
  decide (sid < 2 ^ t.sidBits) && t.state == .active && (t.l1 (l1stdIdx sid)).isSome

def changeSte (enable : Bool) (inval prefetch : Option Errno) : StreamTable × Option Errno :=
  if !t.ready sid then (t,some .einval)
  else if (t.ste sid).v = enable then (t,some .einval)
  else
    let t' := t.setSte sid { t.ste sid with v := enable }
    match inval with
    | some e => (t',some e)
    | none => (t',if enable then prefetch else none)

def releaseSte (inval : Option Errno) : StreamTable × Option Errno :=
  let k := l1stdIdx sid
  if !t.ready sid then (t,some .einval)
  else if t.refcount k = 0 then (t,some .einval)
  else if (t.ste sid).v then (t,some .einval)
  else ((t.setSte sid .zero).setRefcount k (t.refcount k - 1),inval)

def configureStream (inval : Option Errno) : StreamTable × Option Errno :=
  let k := l1stdIdx sid
  if !t.ready sid then (t,some .einval)
  else if t.ste sid ≠ .zero then (t,some .einval)
  else
    let t' := (t.setRefcount k (t.refcount k + 1)).setSte sid ⟨true,false⟩
    match inval with
    | none => (t',none)
    | some e => ((t'.setSte sid .zero).setRefcount k (t'.refcount k - 1),some e)

def clearTable (k : Nat) : StreamTable :=
  { t with ste := fun sid => if l1stdIdx sid = k then .zero else t.ste sid }

def registerStL2 (sid pa : Nat) (mapping inval : Option Errno) : StreamTable × Option Errno :=
  let k := l1stdIdx sid
  if t.state ≠ .active then (t,some .einval)
  else if (t.l1 k).isSome then (t,some .einval)
  else
    match mapping with
    | some e => (t,some e)
    | none =>
      let t' := ((t.clearTable k).setL1 k (some pa)).setRefcount k 0
      match inval with
      | some e => (t'.setL1 k none,some e)
      | none => ({ t' with l1Refcnt := t'.l1Refcnt+1 },none)

def releaseStL2 (inval : Option Errno) : StreamTable × Except Errno Nat :=
  let k := l1stdIdx sid
  if t.state ≠ .active then (t,.error .einval)
  else
    match t.l1 k with
    | none => (t,.error .einval)
    | some pa =>
      if t.refcount k ≠ 0 then (t,.error .einval)
      else
        let t' := { t.setL1 k none with l1Refcnt := t.l1Refcnt-1 }
        match inval with
        | some e => (t',.error e)
        | none => (t',.ok pa)

def setBusy (state : PsmmuState) : StreamTable × Bool :=
  if t.state = state then ({ t with state := .busy },true) else (t,false)

end StreamTable

variable {i j k : Nat}

open World

def cmdqOn : Enables := ⟨false,true,false⟩

def queuesOn : Enables := ⟨false,true,true⟩

def allOn : Enables := ⟨true,true,true⟩

def evtqBit : Enables := ⟨false,false,true⟩

def smmuBit : Enables := ⟨true,false,false⟩

open Function
open Ste (config zero)

namespace StreamTable

variable {t : StreamTable} {sid : Nat} {e : Ste}

def table (t : StreamTable) (k : Nat) : Nat → Ste := fun j => t.ste (k * strtabL1SteMax + j)

structure Sound (t : StreamTable) : Prop where
  l1Refcnt : t.l1Refcnt = tally Option.isSome t.l1 (2 ^ t.sidBits)
  outside : ∀ k, 2 ^ t.sidBits ≤ k → t.l1 k = none
  inactive : t.state ≠ .active → ∀ k, t.l1 k = none
  refcount : ∀ k, t.refcount k = tally Ste.config (t.table k) strtabL1SteMax

theorem sid_split (sid : Nat) : l1stdIdx sid * strtabL1SteMax + sid % strtabL1SteMax = sid :=
  Nat.div_add_mod' sid strtabL1SteMax

theorem sid_mod_lt (sid : Nat) : sid % strtabL1SteMax < strtabL1SteMax := Nat.mod_lt _ (by decide)

theorem l1stdIdx_table {j : Nat} (hj : j < strtabL1SteMax) : l1stdIdx (k * strtabL1SteMax + j) = k := by
  unfold l1stdIdx strtabL1SteMax at *
  omega

theorem table_setSte : (t.setSte sid e).table (l1stdIdx sid) =
    update (t.table (l1stdIdx sid)) (sid % strtabL1SteMax) e := by
  funext j
  unfold table setSte
  simp only [update_apply]
  by_cases hj : j = sid % strtabL1SteMax
  · rw [if_pos hj,if_pos (by rw [hj]; exact sid_split sid)]
  · rw [if_neg hj,if_neg fun h => hj ?_]
    have := sid_split sid
    omega

theorem tally_other (hk : k ≠ l1stdIdx sid) : tally config ((t.setSte sid e).table k) strtabL1SteMax =
      tally config (t.table k) strtabL1SteMax := by
  refine tally_congr fun j hj => ?_
  have hne : k * strtabL1SteMax + j ≠ sid := by
    rintro rfl
    exact hk (l1stdIdx_table hj).symm
  simp [table,setSte,hne]

theorem tally_self : tally config ((t.setSte sid e).table (l1stdIdx sid)) strtabL1SteMax +
    (t.ste sid).config.toNat = tally config (t.table (l1stdIdx sid)) strtabL1SteMax + e.config.toNat := by
  have hsid : t.table (l1stdIdx sid) (sid % strtabL1SteMax) = t.ste sid := by
    unfold table
    rw [sid_split]
  rw [table_setSte,← hsid]
  exact tally_update (sid_mod_lt sid)

theorem Sound.setSte (h : t.Sound) (hc : e.config = (t.ste sid).config) : (t.setSte sid e).Sound := by
  refine ⟨h.l1Refcnt,h.outside,h.inactive,fun k => ?_⟩
  show t.refcount k = _
  rw [h.refcount k]
  by_cases hk : k = l1stdIdx sid
  · subst hk
    have := @tally_self t sid e
    rw [hc] at this
    exact (add_right_cancel this).symm
  · exact (tally_other hk).symm

theorem setRefcount_apply {n : Nat} : (t.setRefcount (l1stdIdx sid) n).refcount k =
    if k = l1stdIdx sid then n else t.refcount k := update_apply ..

theorem Sound.recount {x : Ste} {n : Nat} (h : t.Sound)
    (hn : ∀ m, m + (t.ste sid).config.toNat = t.refcount (l1stdIdx sid) + x.config.toNat → n = m) :
    ((t.setRefcount (l1stdIdx sid) n).setSte sid x).Sound := by
  refine ⟨h.l1Refcnt,h.outside,h.inactive,fun k => ?_⟩
  show (t.setRefcount (l1stdIdx sid) n).refcount k = tally config ((t.setSte sid x).table k) strtabL1SteMax
  rw [setRefcount_apply]
  split
  next hk =>
    subst hk
    exact hn _ (by rw [h.refcount]; exact tally_self)
  next hk => rw [tally_other hk,← h.refcount]

theorem Sound.release (h : t.Sound) (hc : (t.ste sid).config = true) :
    ((t.setSte sid .zero).setRefcount (l1stdIdx sid) (t.refcount (l1stdIdx sid) - 1)).Sound :=
  h.recount (x := .zero) fun m hm => by
    simp only [hc,Bool.toNat_true,zero,Bool.toNat_false] at hm
    omega

theorem Sound.configure (h : t.Sound) (hz : t.ste sid = .zero) :
    ((t.setRefcount (l1stdIdx sid) (t.refcount (l1stdIdx sid) + 1)).setSte sid ⟨true,false⟩).Sound :=
  h.recount fun m hm => by
    simp only [hz,Bool.toNat_true,zero,Bool.toNat_false] at hm
    omega

theorem Sound.refcount_pos (h : t.Sound) (hc : (t.ste sid).config = true) : 0 < t.refcount (l1stdIdx sid) := by
  rw [h.refcount]
  apply tally_pos (sid_mod_lt sid)
  unfold table
  rw [sid_split]
  exact hc

theorem Sound.no_tables (h : t.Sound) (hn : t.l1Refcnt = 0) (k : Nat) : t.l1 k = none := by
  by_cases hk : k < 2 ^ t.sidBits
  · have := eq_false_of_tally_eq_zero (h.l1Refcnt.symm.trans hn) hk
    simpa using this
  · exact h.outside k (by omega)

theorem clearTable_table (t : StreamTable) (k : Nat) : tally config ((t.clearTable k).table k) strtabL1SteMax = 0 := by
  refine tally_eq_zero fun j hj => ?_
  unfold table clearTable
  simp [l1stdIdx_table hj,zero]

theorem clearTable_other {j : Nat} (hj : j ≠ k) : tally config ((t.clearTable k).table j) strtabL1SteMax =
      tally config (t.table j) strtabL1SteMax := by
  refine tally_congr fun i hi => ?_
  unfold table clearTable
  simp [l1stdIdx_table hi,hj]

theorem Sound.clear (h : t.Sound) : ((t.clearTable k).setRefcount k 0).Sound := by
  refine ⟨h.l1Refcnt,h.outside,h.inactive,fun j => ?_⟩
  show update t.refcount k 0 j = tally config ((t.clearTable k).table j) strtabL1SteMax
  by_cases hj : j = k
  · subst hj
    rw [update_self,clearTable_table]
  · rw [update_of_ne hj,clearTable_other hj,← h.refcount]

theorem Sound.relinked {d : Option Nat} {n : Nat} (h : t.Sound) (hk : k < 2 ^ t.sidBits)
    (hn : ∀ m, m + (t.l1 k).isSome.toNat = t.l1Refcnt + d.isSome.toNat → n = m) :
    n = tally Option.isSome (update t.l1 k d) (2 ^ t.sidBits) :=
  hn _ (by rw [h.l1Refcnt]; exact tally_update hk)

theorem Sound.install (h : t.Sound) (hact : t.state = .active) (hk : k < 2 ^ t.sidBits)
    (hnone : t.l1 k = none) {pa : Nat} :
    Sound { t.setL1 k (some pa) with l1Refcnt := t.l1Refcnt+1 } := by
  refine ⟨h.relinked hk fun m hm => ?_,fun j hj => ?_,fun hn => absurd hact hn,h.refcount⟩
  · simpa [hnone] using hm.symm
  · show update t.l1 k (some pa) j = none
    rw [update_of_ne (ne_of_gt (lt_of_lt_of_le hk hj))]
    exact h.outside j hj

theorem Sound.remove (h : t.Sound) {pa : Nat} (hsome : t.l1 k = some pa) :
    Sound { t.setL1 k none with l1Refcnt := t.l1Refcnt-1 } := by
  have hk : k < 2 ^ t.sidBits := by
    by_contra hk
    rw [h.outside k (by omega)] at hsome
    cases hsome
  have hset : ∀ j, t.l1 j = none → update t.l1 k none j = none := fun j hj => by
    rw [update_apply]
    split
    · rfl
    · exact hj
  refine ⟨h.relinked hk fun m hm => ?_,fun j hj => hset j (h.outside j hj),fun hn j => hset j (h.inactive hn j),h.refcount⟩
  simp only [hsome,Option.isSome_none,Bool.toNat_false,Option.isSome_some,Bool.toNat_true] at hm
  show t.l1Refcnt-1 = m
  omega

end StreamTable

def releasedTable (t : StreamTable) (sid : Nat) : StreamTable :=
  (t.setSte sid .zero).setRefcount (l1stdIdx sid) (t.refcount (l1stdIdx sid) - 1)

def configuredTable (t : StreamTable) (sid : Nat) : StreamTable :=
  (t.setRefcount (l1stdIdx sid) (t.refcount (l1stdIdx sid) + 1)).setSte sid ⟨true,false⟩

def toggledTable (t : StreamTable) (sid : Nat) (b : Bool) : StreamTable :=
  t.setSte sid { t.ste sid with v := b }

variable {t : StreamTable} {sid : Nat} {b : Bool} {e e' : Option Errno}

theorem changeSte_cases : t.changeSte sid b e e' = (t,some .einval) ∨
    (t.changeSte sid b e e').1 = toggledTable t sid b ∧
      ((t.changeSte sid b e e').2 ≠ none → e ≠ none ∨ b = true ∧ e' ≠ none) := by
  unfold StreamTable.changeSte
  split
  · exact .inl rfl
  split
  · exact .inl rfl
  refine .inr ?_
  cases e with
  | some x => exact ⟨rfl,fun _ => .inl (by simp)⟩
  | none =>
    refine ⟨rfl,fun h => ?_⟩
    cases b with
    | false => exact absurd rfl h
    | true => exact .inr ⟨rfl,h⟩

theorem releaseSte_cases : t.releaseSte sid e = (t,some .einval) ∨ t.releaseSte sid e = (releasedTable t sid,e) := by
  unfold StreamTable.releaseSte
  extract_lets k
  split
  · exact .inl rfl
  split
  · exact .inl rfl
  · split
    · exact .inl rfl
    · exact .inr rfl

theorem configureStream_cases : (∃ x, t.configureStream sid e = (t,some x)) ∨
    t.configureStream sid e = (configuredTable t sid,none) ∧ t.ready sid = true ∧ t.ste sid = .zero := by
  unfold StreamTable.configureStream
  extract_lets k t'
  split
  · exact .inl ⟨_,rfl⟩
  next hready =>
  split
  · exact .inl ⟨_,rfl⟩
  next hz =>
  cases e with
  | none => exact .inr ⟨rfl,by simpa using hready,by simpa using hz⟩
  | some x =>
    refine .inl ⟨x,?_⟩
    have hste : update (update t.ste sid ⟨true,false⟩) sid .zero = t.ste := by
      rw [update_idem,← not_not.mp hz,update_eq_self]
    have hcount : update (update t.refcount k (t.refcount k + 1)) k (t.refcount k + 1 - 1) = t.refcount := by
      rw [update_idem,Nat.add_sub_cancel,update_eq_self]
    simp only [t',StreamTable.setRefcount,StreamTable.setSte,update_self]
    rw [hste,hcount]

theorem released_configured (hz : t.ste sid = .zero) : releasedTable (configuredTable t sid) sid = t := by
  unfold releasedTable configuredTable
  simp only [StreamTable.setRefcount,StreamTable.setSte,update_self,update_idem,Nat.add_sub_cancel,update_eq_self]
  rw [← hz,update_eq_self]

end TfRmm.Smmu
