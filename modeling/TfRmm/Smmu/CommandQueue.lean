import Mathlib.Data.List.Infix
import Mathlib.Data.Int.ModEq
import TfRmm.Lib.Transition
import TfRmm.Smmu.Driver

namespace TfRmm.Smmu.CommandQueue

open TfRmm.Lib

variable {α : Type}

def cmdqConsErr : BitVec 32 := 0x7f000000

structure Tick where
  take : Bool
  err : BitVec 7
  deriving DecidableEq

structure Schedule where
  poll : Nat → List Tick
  store : List Tick
  publish : List Tick

structure Ring (α : Type) where
  log2size : Nat
  bound : log2size ≤ 19
  prod : BitVec 32
  rd : BitVec 32
  err : BitVec 7
  slot : Nat → α
  sent : List α
  seen : List α

namespace Ring

variable (q : Ring α)

def wrapBit : BitVec 32 := 1#32 <<< q.log2size

def cons : BitVec 32 := q.rd ||| q.err.setWidth 32 <<< 24

def index (r : BitVec 32) : Nat := (r &&& q.wrapBit-1).toNat

def next (r : BitVec 32) : BitVec 32 := r+1 &&& (q.wrapBit <<< 1)-1

def tick (t : Tick) : Ring α :=
  if t.take ∧ q.rd ≠ q.prod then
    { q with rd := q.next q.rd,err := t.err,seen := q.seen ++ [q.slot (q.index q.rd)] }
  else { q with err := t.err }

def ticks (ts : List Tick) : Ring α := ts.foldl tick q

def poll (ready : Ring α → Bool) (sch : Nat → List Tick) : Nat → Ring α → Ring α × Bool
  | 0, q => (q,false)
  | retries+1, q =>
    let q' := q.ticks (sch retries)
    if ready q' then (q',true) else poll ready sch retries q'

def write (prodReg : BitVec 32) (cmd : α) : Ring α :=
  { q with slot := Function.update q.slot (q.index prodReg) cmd }

def publish (prodReg : BitVec 32) (cmd : α) : Ring α :=
  { q with prod := q.next prodReg,sent := q.sent ++ [cmd] }

def sendCmd (cmd : α) (sch : Schedule) : Ring α × Option Errno :=
  match poll (fun q' => q'.cons ^^^ q.prod != q.wrapBit) sch.poll maxRetries q with
  | (q',false) => (q',some .etimedout)
  | (q',true) => ((((q'.ticks sch.store).write q.prod cmd).ticks sch.publish).publish q.prod cmd,none)

def waitCmdqEmpty (sch : Nat → List Tick) : Ring α × Option Errno :=
  match poll (fun q' => q'.cons &&& ~~~cmdqConsErr == q.prod) sch maxRetries q with
  | (q',false) => (q',some .etimedout)
  | (q',true) => (q',none)

end Ring

inductive Op (α : Type) where
  | hardware (t : Tick)
  | send (cmd : α) (sch : Schedule)
  | wait (sch : Nat → List Tick)

def Ring.apply (q : Ring α) : Op α → Ring α
  | .hardware t => q.tick t
  | .send cmd sch => (q.sendCmd cmd sch).1
  | .wait sch => (q.waitCmdqEmpty sch).1

structure Fifo (base : Nat) (q : Ring α) : Prop where
  prod : q.prod.toNat = (base+q.sent.length) % 2 ^ (q.log2size+1)
  rd : q.rd.toNat = (base+q.seen.length) % 2 ^ (q.log2size+1)
  room : q.sent.length ≤ q.seen.length + 2 ^ q.log2size
  order : q.seen <+: q.sent
  kept : ∀ i c, q.seen.length ≤ i → q.sent[i]? = some c → q.slot ((base+i) % 2 ^ q.log2size) = c

def system (α : Type) : TransitionSystem (Ring α) (Op α) where
  init q := q.seen = [] ∧ ∃ base, Fifo base q
  step q op q' := q' = q.apply op

def Unmasked (q : Ring α) : Op α → Prop
  | .send _ sch => q.rd ^^^ q.prod ≠ q.wrapBit ∨ q.err = 0 ∧ ∀ n, ∀ t ∈ sch.poll n, t.err = 0
  | _ => True

variable {q q' : Ring α} {base : Nat} {ts : List Tick} {sch : Schedule} {cmd : α}

theorem wrapBit_toNat (q : Ring α) : q.wrapBit.toNat = 2 ^ q.log2size := by
  have hlt : 2 ^ q.log2size < 2 ^ 32 := Nat.pow_lt_pow_right (by omega) (by have := q.bound; omega)
  rw [Ring.wrapBit,BitVec.toNat_shiftLeft,BitVec.toNat_ofNat,Nat.one_mod_eq_one.2 (by omega),Nat.one_shiftLeft,
    Nat.mod_eq_of_lt hlt]

theorem toNat_mask {w : BitVec 32} {k : Nat} (r : BitVec 32) (hw : w.toNat = 2 ^ k) :
    (r &&& w-1).toNat = r.toNat % 2 ^ k := by
  have hpos := Nat.two_pow_pos k
  have h1 : (w-1).toNat = 2 ^ k - 1 := by
    rw [BitVec.toNat_sub_of_le (by rw [BitVec.le_def]; simp; omega),hw]
    rfl
  rw [BitVec.toNat_and,h1,Nat.and_two_pow_sub_one_eq_mod]

theorem index_toNat (r : BitVec 32) : q.index r = r.toNat % 2 ^ q.log2size :=
  toNat_mask r (wrapBit_toNat q)

theorem next_toNat (r : BitVec 32) : (q.next r).toNat = (r.toNat+1) % 2 ^ (q.log2size+1) := by
  have hb := q.bound
  have hw : (q.wrapBit <<< 1).toNat = 2 ^ (q.log2size+1) := by
    have hlt : 2 ^ (q.log2size+1) < 2 ^ 32 := Nat.pow_lt_pow_right (by omega) (by omega)
    rw [BitVec.toNat_shiftLeft,wrapBit_toNat,Nat.shiftLeft_eq,← pow_succ,Nat.mod_eq_of_lt hlt]
  rw [Ring.next,toNat_mask _ hw,BitVec.toNat_add]
  exact Nat.mod_mod_of_dvd _ (pow_dvd_pow 2 (by omega))

theorem xor_two_pow {x n : Nat} (hx : x < 2 ^ (n+1)) : x ^^^ 2 ^ n = (x + 2 ^ n) % 2 ^ (n+1) := by
  refine Nat.eq_of_testBit_eq fun i => ?_
  rw [Nat.testBit_xor,Nat.testBit_two_pow,Nat.testBit_mod_two_pow,add_comm x]
  rcases Nat.lt_trichotomy i n with h | rfl | h
  · rw [Nat.testBit_two_pow_add_gt h]
    simp [show i < n+1 by omega,show ¬n = i by omega]
  · rw [Nat.testBit_two_pow_add_eq]
    simp
  · have hlow : x.testBit i = false :=
      Nat.testBit_lt_two_pow (hx.trans_le (Nat.pow_le_pow_right (by omega) (by omega)))
    simp [hlow,show ¬i < n+1 by omega,show ¬n = i by omega]

theorem mod_gap {a b n : Nat} (hab : a ≤ b) (h : b ≤ a + 2 ^ n) : b % 2 ^ (n+1) = a % 2 ^ (n+1) ↔ b = a := by
  constructor
  · intro hm
    have hd : 2 ^ (n+1) ∣ b - a := (Nat.modEq_iff_dvd' hab).1 hm.symm
    have hz := Nat.eq_zero_of_dvd_of_lt hd (by have := Nat.two_pow_pos n; rw [pow_succ]; omega)
    omega
  · rintro rfl
    rfl

theorem rd_lt (h : Fifo base q) : q.rd.toNat < 2 ^ (q.log2size+1) := by
  rw [h.rd]
  exact Nat.mod_lt _ (Nat.two_pow_pos _)

theorem empty_iff (h : Fifo base q) : q.rd = q.prod ↔ q.seen.length = q.sent.length := by
  have hlen := h.order.length_le
  have hroom := h.room
  rw [← BitVec.toNat_inj,h.rd,h.prod,eq_comm,mod_gap (by omega) (by omega)]
  omega

theorem full_iff (h : Fifo base q) : q.rd ^^^ q.prod = q.wrapBit ↔ q.sent.length = q.seen.length + 2 ^ q.log2size := by
  have hlen := h.order.length_le
  have hroom := h.room
  have hx : q.rd.toNat ^^^ q.prod.toNat = 2 ^ q.log2size ↔
      q.prod.toNat = (q.rd.toNat + 2 ^ q.log2size) % 2 ^ (q.log2size+1) := by
    rw [← xor_two_pow (rd_lt h)]
    constructor
    · intro he
      rw [← he,← Nat.xor_assoc,Nat.xor_self,Nat.zero_xor]
    · intro he
      rw [he,← Nat.xor_assoc,Nat.xor_self,Nat.zero_xor]
  rw [← BitVec.toNat_inj,BitVec.toNat_xor,wrapBit_toNat,hx,h.rd,h.prod,Nat.mod_add_mod,eq_comm,
    mod_gap (by omega) (by rw [add_assoc]; omega)]
  omega

theorem cons_masked (h : Fifo base q) : q.cons &&& ~~~cmdqConsErr = q.rd := by
  have herr : ∀ e : BitVec 7, e.setWidth 32 <<< 24 &&& ~~~cmdqConsErr = 0 := by decide
  have hlow : ∀ i : Fin 20, (~~~cmdqConsErr).getLsbD i = true := by decide
  have hlt : q.rd.toNat < 2 ^ 20 :=
    (rd_lt h).trans_le (Nat.pow_le_pow_right (by omega) (by have := q.bound; omega))
  rw [Ring.cons,BitVec.and_comm,BitVec.and_or_distrib_left,BitVec.and_comm _ (_ <<< _),herr]
  rw [show (0 : BitVec 32) = 0#32 from rfl,BitVec.or_zero]
  refine BitVec.eq_of_getLsbD_eq fun i _ => ?_
  rw [BitVec.getLsbD_and]
  by_cases hi : i < 20
  · rw [hlow ⟨i,hi⟩,Bool.true_and]
  · have hz : q.rd.getLsbD i = false :=
      Nat.testBit_lt_two_pow (hlt.trans_le (Nat.pow_le_pow_right (by omega) (by omega)))
    rw [hz,Bool.and_false]

theorem cons_of_err (h : q.err = 0) : q.cons = q.rd := by
  simp [Ring.cons,h]

structure Ran (q q' : Ring α) : Prop where
  log2size : q'.log2size = q.log2size
  prod : q'.prod = q.prod
  slot : q'.slot = q.slot
  sent : q'.sent = q.sent
  seen : q.seen.length ≤ q'.seen.length
  fifo : ∀ base, Fifo base q → Fifo base q'

theorem Ran.trans {q'' : Ring α} (h : Ran q q') (h' : Ran q' q'') : Ran q q'' :=
  ⟨h'.log2size.trans h.log2size,h'.prod.trans h.prod,h'.slot.trans h.slot,h'.sent.trans h.sent,h.seen.trans h'.seen,
    fun base hf => h'.fifo base (h.fifo base hf)⟩

theorem Fifo.consume (h : Fifo base q) (hne : q.rd ≠ q.prod) (e : BitVec 7) :
    Fifo base { q with rd := q.next q.rd,err := e,seen := q.seen ++ [q.slot (q.index q.rd)] } := by
  have hlt : q.seen.length < q.sent.length :=
    Nat.lt_of_le_of_ne h.order.length_le fun he => hne ((empty_iff h).2 he)
  have hslot : q.slot (q.index q.rd) = q.sent[q.seen.length] := by
    rw [index_toNat,h.rd,Nat.mod_mod_of_dvd _ (pow_dvd_pow 2 (by omega))]
    exact h.kept _ _ le_rfl (List.getElem?_eq_getElem hlt)
  refine ⟨h.prod,?_,?_,?_,fun i c hi hc => ?_⟩
  · rw [next_toNat,h.rd,Nat.mod_add_mod,List.length_append,List.length_singleton,add_assoc]
  · have := h.room
    simp
    omega
  · rw [hslot]
    obtain ⟨rest,hrest⟩ := h.order
    rw [List.prefix_iff_eq_take]
    simp [List.take_add_one,List.getElem?_eq_getElem hlt,← List.prefix_iff_eq_take.1 h.order]
  · exact h.kept i c (by simp at hi; omega) hc

theorem ran_tick (q : Ring α) (t : Tick) : Ran q (q.tick t) := by
  unfold Ring.tick
  split
  next hc => exact ⟨rfl,rfl,rfl,rfl,by simp,fun base h => h.consume hc.2 t.err⟩
  next => exact ⟨rfl,rfl,rfl,rfl,le_rfl,fun base h => ⟨h.prod,h.rd,h.room,h.order,h.kept⟩⟩

theorem ran_ticks (q : Ring α) (ts : List Tick) : Ran q (q.ticks ts) := by
  induction ts generalizing q with
  | nil => exact ⟨rfl,rfl,rfl,rfl,le_rfl,fun _ h => h⟩
  | cons t ts ih => exact (ran_tick q t).trans (ih (q.tick t))

theorem ticks_err (q : Ring α) (h : q.err = 0) (ht : ∀ t ∈ ts, t.err = 0) : (q.ticks ts).err = 0 := by
  induction ts generalizing q with
  | nil => exact h
  | cons t ts ih =>
    refine ih (q.tick t) ?_ fun u hu => ht u (List.mem_cons_of_mem _ hu)
    have := ht t List.mem_cons_self
    unfold Ring.tick
    split <;> exact this

theorem poll_spec (ready : Ring α → Bool) (sch : Nat → List Tick) (n : Nat) (q : Ring α) {b : Bool}
    (h : Ring.poll ready sch n q = (q',b)) :
    ∃ ts, q' = q.ticks ts ∧ (∀ t ∈ ts, ∃ n, t ∈ sch n) ∧ (b = true → ready q' = true) := by
  induction n generalizing q with
  | zero =>
    cases h
    exact ⟨[],rfl,nofun,nofun⟩
  | succ n ih =>
    simp only [Ring.poll] at h
    split at h
    next hr =>
      cases h
      exact ⟨sch n,rfl,fun t ht => ⟨n,ht⟩,fun _ => hr⟩
    next =>
    obtain ⟨ts,rfl,hts,hb⟩ := ih _ h
    refine ⟨sch n ++ ts,(List.foldl_append ..).symm,fun t ht => ?_,hb⟩
    exact (List.mem_append.1 ht).elim (fun ht => ⟨n,ht⟩) (hts t)

theorem Fifo.write (h : Fifo base q) (hroom : q.sent.length < q.seen.length + 2 ^ q.log2size) (cmd : α) :
    Fifo base (q.write q.prod cmd) := by
  refine ⟨h.prod,h.rd,h.room,h.order,fun i c hi hc => ?_⟩
  have hlt : i < q.sent.length := (List.getElem?_eq_some_iff.1 hc).1
  have hi : q.seen.length ≤ i := hi
  refine (Function.update_of_ne ?_ ..).trans (h.kept i c hi hc)
  rw [index_toNat,h.prod,Nat.mod_mod_of_dvd _ (pow_dvd_pow 2 (by omega))]
  intro he
  have hd := (Nat.modEq_iff_dvd' (by omega)).1 he
  have hz := Nat.eq_zero_of_dvd_of_lt (show 2 ^ q.log2size ∣ _ from hd) (by omega)
  omega

theorem Fifo.publish (h : Fifo base q) (hroom : q.sent.length < q.seen.length + 2 ^ q.log2size) (cmd : α)
    (hs : q.slot (q.index q.prod) = cmd) : Fifo base (q.publish q.prod cmd) := by
  refine ⟨?_,h.rd,?_,h.order.trans (List.prefix_append _ _),fun i c hi hc => ?_⟩
  · simp only [Ring.publish]
    rw [next_toNat,h.prod,Nat.mod_add_mod,List.length_append,List.length_singleton,add_assoc]
  · simp only [Ring.publish,List.length_append,List.length_singleton]
    omega
  · simp only [Ring.publish] at hc hi ⊢
    rcases Nat.lt_trichotomy i q.sent.length with hl | rfl | hl
    · rw [List.getElem?_append_left hl] at hc
      exact h.kept i c hi hc
    · rw [List.getElem?_concat_length] at hc
      cases hc
      rw [← hs,index_toNat,h.prod,Nat.mod_mod_of_dvd _ (pow_dvd_pow 2 (by omega))]
    · rw [List.getElem?_eq_none (by simp; omega)] at hc
      cases hc

theorem Fifo.room_of_poll (h : Fifo base q) (hu : Unmasked q (.send cmd sch)) (hts : ∀ t ∈ ts, ∃ n, t ∈ sch.poll n)
    (hr : (q.ticks ts).cons ^^^ q.prod ≠ q.wrapBit) :
    (q.ticks ts).sent.length < (q.ticks ts).seen.length + 2 ^ (q.ticks ts).log2size := by
  have hran := ran_ticks q ts
  have hf := hran.fifo base h
  refine Nat.lt_of_le_of_ne hf.room fun he => ?_
  rcases hu with hu | ⟨he0,hp⟩
  · refine hu ((full_iff h).2 (le_antisymm h.room ?_))
    rw [← hran.sent,← hran.log2size,he]
    exact Nat.add_le_add_right hran.seen _
  have hz := ticks_err q he0 fun t ht => (hts t ht).elim fun n hn => hp n t hn
  have hfull := (full_iff hf).2 he
  rw [cons_of_err hz,← hran.prod,hfull,Ring.wrapBit,hran.log2size] at hr
  exact hr rfl

theorem Fifo.sendCmd (h : Fifo base q) (hu : Unmasked q (.send cmd sch)) : Fifo base (q.sendCmd cmd sch).1 := by
  unfold Ring.sendCmd
  split
  next q₁ hq =>
    obtain ⟨ts,rfl,-,-⟩ := poll_spec _ _ _ _ hq
    exact (ran_ticks q ts).fifo base h
  next q₁ hq =>
  obtain ⟨ts,rfl,hts,hr⟩ := poll_spec _ _ _ _ hq
  have hroom := h.room_of_poll hu hts (by simpa using hr rfl)
  have hs := ran_ticks (q.ticks ts) sch.store
  have hran := (ran_ticks q ts).trans hs
  have hlt := hroom.trans_le (Nat.add_le_add_right hs.seen _)
  rw [← hs.sent,← hs.log2size] at hlt
  have hw := (hran.fifo base h).write hlt cmd
  rw [hran.prod] at hw
  have hp := ran_ticks (((q.ticks ts).ticks sch.store).write q.prod cmd) sch.publish
  have hprod := hp.prod.trans hran.prod
  have hpub := (hp.fifo base hw).publish ?_ cmd ?_
  · rwa [hprod] at hpub
  · rw [hp.sent,hp.log2size]
    exact hlt.trans_le (Nat.add_le_add_right hp.seen _)
  · rw [hp.slot,hprod,index_toNat,hp.log2size,Ring.write,index_toNat]
    exact Function.update_self ..

structure Sends (q : Ring α) (cmd : α) (r : Ring α × Option Errno) : Prop where
  accepted : r.2 = none → r.1.sent = q.sent ++ [cmd] ∧ r.1.prod = q.next q.prod ∧ r.1.slot = (q.write q.prod cmd).slot
  refused : r.2 ≠ none → r.1.sent = q.sent ∧ r.1.prod = q.prod ∧ r.1.slot = q.slot

theorem sends (q : Ring α) (cmd : α) (sch : Schedule) : Sends q cmd (q.sendCmd cmd sch) := by
  unfold Ring.sendCmd
  split
  next q₁ hq =>
    obtain ⟨ts,rfl,-,-⟩ := poll_spec _ _ _ _ hq
    have hran := ran_ticks q ts
    exact ⟨nofun,fun _ => ⟨hran.sent,hran.prod,hran.slot⟩⟩
  next q₁ hq =>
  obtain ⟨ts,rfl,-,-⟩ := poll_spec _ _ _ _ hq
  have hran := (ran_ticks q ts).trans (ran_ticks _ sch.store)
  have hp := ran_ticks (((q.ticks ts).ticks sch.store).write q.prod cmd) sch.publish
  refine ⟨fun _ => ⟨?_,?_,?_⟩,fun h => absurd rfl h⟩
  · simp only [Ring.publish,hp.sent]
    exact congrArg (· ++ [cmd]) hran.sent
  · have hl := hp.log2size.trans hran.log2size
    simp only [Ring.publish,Ring.next,Ring.wrapBit,hl]
  · refine hp.slot.trans ?_
    simp only [Ring.write,Ring.index,Ring.wrapBit,hran.slot,hran.log2size]

theorem waitCmdqEmpty_spec (q : Ring α) (sch : Nat → List Tick) :
    Ran q (q.waitCmdqEmpty sch).1 ∧ ((q.waitCmdqEmpty sch).2 = none →
      (q.waitCmdqEmpty sch).1.cons &&& ~~~cmdqConsErr = q.prod) := by
  unfold Ring.waitCmdqEmpty
  split
  next q₁ hq =>
    obtain ⟨ts,rfl,-,-⟩ := poll_spec _ _ _ _ hq
    exact ⟨ran_ticks q ts,nofun⟩
  next q₁ hq =>
    obtain ⟨ts,rfl,-,hr⟩ := poll_spec _ _ _ _ hq
    exact ⟨ran_ticks q ts,fun _ => by simpa using hr rfl⟩

theorem Fifo.apply (h : Fifo base q) {op : Op α} (hu : Unmasked q op) : Fifo base (q.apply op) := by
  cases op with
  | hardware t => exact (ran_tick q t).fifo base h
  | send cmd sch => exact h.sendCmd hu
  | wait sch => exact (waitCmdqEmpty_spec q sch).1.fifo base h

theorem command_queue_fifo (h : (system α).ReachableUnder Unmasked q) :
    (∃ base, Fifo base q) ∧ (∀ cmd sch, Sends q cmd (q.sendCmd cmd sch)) ∧
      ∀ sch, (q.waitCmdqEmpty sch).2 = none → (q.waitCmdqEmpty sch).1.seen = q.sent := by
  have hinv : ∃ base, Fifo base q := by
    refine TransitionSystem.ReachableUnder.invariant (T := system α) (fun _ hs => hs.2) ?_ h
    rintro s op t ⟨base,hi⟩ hu rfl
    exact ⟨base,hi.apply hu⟩
  refine ⟨hinv,sends q,fun sch hw => ?_⟩
  obtain ⟨base,hf⟩ := hinv
  obtain ⟨hran,hz⟩ := waitCmdqEmpty_spec q sch
  have hf' := hran.fifo base hf
  have he := hz hw
  rw [cons_masked hf'] at he
  rw [← hran.sent]
  exact hf'.order.eq_of_length ((empty_iff hf').1 (he.trans hran.prod.symm))

def fullRing (err : BitVec 7) : Ring Nat := ⟨0,by decide,1,0,err,fun _ => 7,[7],[]⟩

theorem fullRing_initial (err : BitVec 7) : (system Nat).init (fullRing err) := by
  refine ⟨rfl,0,rfl,rfl,le_refl 1,List.nil_prefix,fun i c _ hc => ?_⟩
  cases i with
  | zero => simpa [fullRing] using hc
  | succ i => simp [fullRing] at hc

def idle : Schedule := ⟨fun _ => [],[],[]⟩

def drainedRing : Ring Nat := (fullRing 0).apply (.hardware ⟨true,0⟩)

theorem drainedRing_reachable : (system Nat).ReachableUnder Unmasked drainedRing :=
  .next (l := .hardware ⟨true,0⟩) (.initial (fullRing_initial 0)) trivial rfl

theorem drainedRing_accepts : (drainedRing.sendCmd 9 idle).2 = none := by
  simp [drainedRing,Ring.apply,Ring.tick,Ring.sendCmd,maxRetries,Ring.poll,Ring.ticks,idle,fullRing,Ring.cons,
    Ring.wrapBit,Ring.next]

theorem command_queue_fifo_drained : (∃ base, Fifo base (drainedRing.apply (.send 9 idle))) ∧
    (drainedRing.apply (.send 9 idle)).sent = [7,9] ∧ (drainedRing.apply (.send 9 idle)).seen = [7] := by
  have hu : Unmasked drainedRing (.send 9 idle) := .inl (by decide)
  refine ⟨(command_queue_fifo (.next (l := .send 9 idle) drainedRing_reachable hu rfl)).1,?_,?_⟩
  · exact (((command_queue_fifo drainedRing_reachable).2.1 9 idle).accepted drainedRing_accepts).1
  · simp [drainedRing,Ring.apply,Ring.tick,Ring.sendCmd,maxRetries,Ring.poll,Ring.ticks,idle,fullRing,Ring.cons,
      Ring.wrapBit,Ring.next,Ring.index,Ring.write,Ring.publish]

theorem full_queue_overwritten : ∃ q, (system Nat).Reachable q ∧ q.sent = [7,9] ∧ q.seen = [] ∧ q.slot 0 = 9 ∧
    (q.waitCmdqEmpty idle.poll).2 = none := by
  refine ⟨(fullRing 1).apply (.send 9 idle),
    (TransitionSystem.ReachableUnder.initial (fullRing_initial 1)).next trivial rfl,?_⟩
  simp [Ring.apply,Ring.sendCmd,Ring.waitCmdqEmpty,maxRetries,Ring.poll,Ring.ticks,idle,fullRing,
    Ring.cons,Ring.wrapBit,Ring.index,Ring.next,cmdqConsErr,Ring.write,Ring.publish]

end TfRmm.Smmu.CommandQueue
