import TfRmm.Tdisp.System

namespace TfRmm.Tdisp

open TfRmm.Lib TfRmm.Comm

def Await.Fits (op : VdevOp) : Await → Prop
  | .version | .capabilities | .unlockedState | .lock | .lockedState => op = .lock
  | .report => op = .getReport
  | .startState | .start | .runState => op = .start
  | .stop | .stopState => op = .unlock
  | .measurements => op = .getMeas
  | .last => True

def App.Ended (op : VdevOp) (tdi : List UInt8) (x : Nonce) (a : App) : Prop :=
  match op with
  | .lock => a.answer = some (tdi,.configLocked) ∧ a.returned = some x
  | .start => a.answer = some (tdi,.run)
  | .unlock => a.answer = some (tdi,.configUnlocked)
  | _ => True

structure App.Held (op : VdevOp) (x y : Nonce) (a : App) : Prop where
  param : op ≠ .getMeas → a.info.read (paramAt infoBase) 4 = paramTdisp
  nonce : op = .lock ∨ op = .start → a.info.read (nonceAt infoBase) 64 = y.1
  output : y ≠ x → a.info (outputAt infoBase) ≠ 0
  own : op ≠ .lock → y = x

def App.Aims (op : VdevOp) (tdi : List UInt8) (y : Nonce) (e : Prop) (a : App) : Next → Prop
  | .call w => w.Fits op ∧ w ≠ .last ∧ (w = .lockedState → a.returned = some y)
  | .done b => b = true → a.Ended op tdi y ∨ e

def App.Sends (op : VdevOp) (x : Nonce) (a : App) : Prop :=
  (op ≠ .start → a.sent = none) ∧ ∀ n, a.sent = some n → n = x.1

variable {w : Await} {rep : Reply} {n : Next} {l : List UInt8} {debug : Bool} {f : Func} {ts : Nat → Turn}

namespace App

variable {op : VdevOp} {tdi : List UInt8} {x y : Nonce} {a b : App} {e : Prop}

theorem output_nonce (a : App) (c : UInt8) :
    (a.output c).info.read (nonceAt infoBase) 64 = a.info.read (nonceAt infoBase) 64 :=
  Memory.read_write_of_disjoint (.inl (by decide))

theorem output_param (a : App) (c : UInt8) :
    (a.output c).info.read (paramAt infoBase) 4 = a.info.read (paramAt infoBase) 4 :=
  Memory.read_write_of_disjoint (.inl (by decide))

theorem Held.cleared (h : a.Held op x y) (hop : op ≠ .lock) : (a.output 0).Held op x y where
  param hm := (output_param a 0).trans (h.param hm)
  nonce hn := (output_nonce a 0).trans (h.nonce hn)
  output hne := absurd (h.own hop) hne
  own := h.own

theorem Held.answered (h : a.Held op x y) (n : InterfaceState) : (a.answered tdi n).Held op x y :=
  ⟨h.param,h.nonce,h.output,h.own⟩

theorem Held.locked (h : a.Held .lock x y) (n : Nonce) :
    ({ a with info := a.info.write (nonceAt infoBase) n.1,returned := some n }.output 1).Held .lock x n where
  param hm := by
    rw [output_param]
    exact (Memory.read_write_of_disjoint (.inl (by decide))).trans (h.param hm)
  nonce _ := by
    rw [output_nonce]
    exact Memory.read_write n.2
  output _ := by
    have hbyte : ∀ m : Memory, m.write (outputAt infoBase) [1] (outputAt infoBase) = 1 := fun m =>
      (Memory.write_of_inside (le_refl _) (by simp)).trans (by simp)
    simp [App.output,hbyte]
  own hne := absurd rfl hne

theorem next_sent (h : a.next tdi w rep = some (b,n)) : b.sent = a.sent := by
  unfold next at h
  split at h <;> (try split_ifs at h) <;> (try cases h) <;> rfl

theorem next_call_stop (h : a.next tdi w rep = some (b,.call .stop)) : w = .stop ∧ rep = .again := by
  unfold next at h
  split at h <;> (try split_ifs at h) <;> cases h
  exact ⟨rfl,rfl⟩

theorem next_aims (h : a.next tdi w rep = some (b,n)) (ha : a.Held op x y) (hw : w.Fits op) (hlast : w ≠ .last)
    (hret : w = .lockedState → a.returned = some y) (hstop : w = .stop → rep = .again ∨ rep = .done ∨ e) : ∃ z, b.Held op x
    z ∧ b.Aims op tdi z e n := by
  unfold next at h
  split at h
  case h_1 =>
    cases h
    exact ⟨y,ha,hw,hlast,hret⟩
  case h_2 | h_3 =>
    cases h
    exact ⟨y,ha,hw,nofun,nofun⟩
  case h_4 =>
    split_ifs at h
    · cases h
      exact ⟨y,ha.answered _,nofun⟩
    · cases h
      exact ⟨y,ha.answered _,hw,nofun,nofun⟩
  case h_5 m =>
    cases h
    cases hw
    exact ⟨m,ha.locked m,rfl,nofun,fun _ => rfl⟩
  case h_6 m =>
    cases h
    cases hw
    refine ⟨y,ha.answered _,fun hm => .inl ⟨?_,hret rfl⟩⟩
    obtain rfl := of_decide_eq_true hm
    rfl
  case h_7 =>
    cases h
    cases hw
    exact ⟨y,ha.cleared nofun,fun _ => .inl trivial⟩
  case h_8 =>
    split_ifs at h
    cases h
    exact ⟨y,ha.answered _,hw,nofun,nofun⟩
  case h_9 =>
    cases h
    cases hw
    exact ⟨y,ha.cleared nofun,rfl,nofun,nofun⟩
  case h_10 m =>
    cases h
    cases hw
    refine ⟨y,ha.answered _,fun hm => .inl ?_⟩
    obtain rfl := of_decide_eq_true hm
    rfl
  case h_11 =>
    cases h
    exact ⟨y,ha,hw,nofun,nofun⟩
  case h_12 rep hagain hdone =>
    cases h
    cases hw
    refine ⟨y,ha.cleared nofun,fun _ => .inr ?_⟩
    rcases hstop rfl with rfl | rfl | he
    · exact (hagain rfl).elim
    · exact absurd rfl hdone
    · exact he
  case h_13 m =>
    cases h
    cases hw
    refine ⟨y,(ha.answered _).cleared nofun,fun hm => .inl ?_⟩
    obtain rfl := of_decide_eq_true hm
    rfl
  case h_14 =>
    cases h
    cases hw
    exact ⟨y,ha,fun _ => .inl trivial⟩
  case h_15 =>
    cases h
    exact ⟨y,ha,nofun⟩

end App

def App.Func.op : App.Func → VdevOp
  | .getMeasurements => .getMeas
  | .lock => .lock
  | .report => .getReport
  | .start => .start
  | .stop => .unlock

structure App.Placed (op : VdevOp) (tdi : List UInt8) (x : Nonce) (a : App) : Prop where
  flag : a.page (outputAt enterBase) = 0
  sends : a.Sends op x
  fits : ∀ w l, a.frame = some (w,l) → w.Fits op ∧ (op ≠ .getMeas → l = tdi)
  returned : ∀ l, a.frame = some (.lockedState,l) → a.returned = some x
  ended : ∀ l, a.frame = some (.last,l) → a.Ended op tdi x

structure Landed (op : VdevOp) (tdi : List UInt8) (x z : Nonce) (e : Prop) (r : Status × App) :
    Prop where
  placed : r.2.Placed op tdi z
  source : ∃ b d page, App.Held op x z b ∧ r.2.page = copyBackExitArgs b.info d page
  success : r.1 = .success → r.2.Ended op tdi z ∨ e
  frame : r.2.frame.isSome ↔ r.1 = .blocked

namespace App

variable {op : VdevOp} {tdi : List UInt8} {x y z : Nonce} {a b : App} {e : Prop} {t : Turn}
variable {r : Status × App}

theorem Held.sends (h : a.Held op x z) (hs : a.Sends op x) : a.Sends op z := by
  refine ⟨hs.1,fun n hn => ?_⟩
  by_cases hop : op = .lock
  · rw [hs.1 (by rw [hop]; nofun)] at hn
    cases hn
  · rw [h.own hop]
    exact hs.2 n hn

theorem finish_landed {b : Bool} (ha : a.Held op x z) (hs : a.Sends op x) (hend : b = true → a.Ended op tdi z ∨ e)
    (he : e → t.failed = true) : Landed op tdi x z e (a.finish t tdi b) := by
  unfold finish
  split_ifs with hcond hb
  · obtain ⟨hb,-,hfail⟩ := hcond
    have hended : a.Ended op tdi z := (hend hb).resolve_right fun h => by
      rw [he h] at hfail
      cases hfail
    refine ⟨⟨copyBackExitArgs_output_enter,ha.sends hs,?_,nofun,fun _ _ => hended⟩,⟨a,_,_,ha,rfl⟩,nofun,by simp⟩
    intro w l hf
    cases hf
    exact ⟨trivial,fun _ => rfl⟩
  · exact ⟨⟨copyBackExitArgs_output_enter,ha.sends hs,nofun,nofun,nofun⟩,⟨a,_,_,ha,rfl⟩,fun _ => hend hb,by simp⟩
  · exact ⟨⟨copyBackExitArgs_output_enter,ha.sends hs,nofun,nofun,nofun⟩,⟨a,_,_,ha,rfl⟩,nofun,by simp⟩

theorem send_landed (ha : a.Held op x z) (hs : a.Sends op x) (hw : w.Fits op) (hlast : w ≠ .last)
    (hret : w = .lockedState → a.returned = some z) : Landed op tdi x z e (a.send t tdi w) := by
  have hsent : App.Sends op z (a.send t tdi w).2 := by
    by_cases hst : w = .start
    · subst hst
      cases hw
      refine ⟨fun h => absurd rfl h,fun n hn => ?_⟩
      simp only [send,if_pos] at hn
      cases hn
      exact ha.nonce (.inr rfl)
    · have heq : (a.send t tdi w).2.sent = a.sent := if_neg hst
      simpa only [Sends,heq] using ha.sends hs
  refine ⟨⟨copyBackExitArgs_output_enter,hsent,?_,?_,?_⟩,⟨a,_,_,ha,rfl⟩,nofun,by simp [send]⟩
  · intro w' l hf
    cases hf
    exact ⟨hw,fun _ => rfl⟩
  · intro l hf
    cases hf
    exact hret rfl
  · intro l hf
    cases hf
    exact absurd rfl hlast

theorem drive_landed (h : a.drive t tdi n = some r) (ha : a.Held op x y) (haim : a.Aims op tdi y e n) (hs : a.Sends op x)
    (he : e → t.failed = true) (hstop : n = .call .stop → t.sends = true ∨ e) : ∃ z, Landed op tdi x z e r := by
  cases n with
  | done b =>
    cases h
    exact ⟨y,finish_landed ha hs haim he⟩
  | call w =>
    obtain ⟨hw,hlast,hret⟩ := haim
    simp only [drive] at h
    split_ifs at h with hsend
    · cases h
      exact ⟨y,send_landed ha hs hw hlast hret⟩
    obtain ⟨⟨c,n⟩,hc,rfl⟩ := Option.map_eq_some_iff.mp h
    have hfail : w = .stop → Reply.fail = .again ∨ Reply.fail = .done ∨ e := fun hws =>
      .inr (.inr ((hstop (congrArg _ hws)).resolve_left hsend))
    obtain ⟨z,hz,hzn⟩ := next_aims hc ha hw hlast hret hfail
    have hcs : c.Sends op x := by
      simpa only [Sends,next_sent hc] using hs
    refine ⟨z,?_⟩
    cases n with
    | done b => exact finish_landed hz hcs hzn he
    | call w' => exact finish_landed hz hcs nofun he

theorem resume_landed (h : a.resume t = some r) (hf : a.frame = some (w,l)) (hl : op ≠ .getMeas → l = tdi)
    (hp : a.Placed op tdi x) (ha : a.copyEnter.Held op x x) (he : e → t.failed = true)
    (hstop : w = .stop → t.result .stop = .done ∨ t.result .stop = .again ∧ t.sends = true ∨ e) : ∃ z, Landed op l x z e r
    := by
  obtain ⟨hw,-⟩ := hp.fits w l hf
  simp only [resume,hf] at h
  split_ifs at h with hlast
  · cases h
    subst hlast
    have hended : a.Ended op l x := by
      by_cases hm : op = .getMeas
      · rw [hm]
        exact trivial
      · rw [hl hm]
        exact hp.ended l hf
    exact ⟨x,⟨copyBackExitArgs_output_enter,hp.sends,nofun,nofun,nofun⟩,⟨_,_,_,ha,rfl⟩,fun _ => .inl hended,by simp⟩
  · obtain ⟨⟨c,n⟩,hc,hd⟩ := Option.bind_eq_some_iff.mp h
    have hs : c.Sends op x := by
      have hsent : c.sent = a.sent := Eq.trans (next_sent hc) rfl
      simpa only [Sends,hsent] using hp.sends
    have hstop' : w = .stop → t.result w = .again ∨ t.result w = .done ∨ e := by
      rintro rfl
      rcases hstop rfl with h | h | h
      exacts [.inr (.inl h),.inl h.1,.inr (.inr h)]
    have hret : w = .lockedState → a.copyEnter.returned = some x := by
      rintro rfl
      exact hp.returned l hf
    obtain ⟨z,hz,hzn⟩ := next_aims hc ha hw hlast hret hstop'
    refine drive_landed hd hz hzn hs he fun hn => ?_
    subst hn
    obtain ⟨rfl,hagain⟩ := next_call_stop hc
    rcases hstop rfl with h | h | h
    · rw [hagain] at h
      cases h
    · exact .inl h.2
    · exact .inr h

theorem main_call (h : a.main debug t f = some (.call w)) : w.Fits f.op ∧ w ≠ .last ∧ w ≠ .lockedState := by
  cases f with
  | getMeasurements =>
    cases h
    exact ⟨rfl,nofun,nofun⟩
  | start =>
    simp only [main] at h
    split_ifs at h <;> cases h <;> exact ⟨rfl,nofun,nofun⟩
  | lock | report | stop =>
    simp only [main] at h
    split_ifs at h
    cases h
    exact ⟨rfl,nofun,nofun⟩

theorem main_done {b : Bool} (h : a.main debug t f = some (.done b)) : b = false := by
  cases f <;> simp only [main] at h
  case getMeasurements => cases h
  all_goals
    split_ifs at h
    all_goals cases h
    all_goals rfl

theorem run_landed (h : a.run debug f t = some r) (ha : a.begun.Held f.op x x) (he : e → t.failed = true)
    (hstop : f = .stop → t.sends = true ∨ e) : ∃ z, Landed f.op (a.begun.info.read (tdiAt infoBase) 4) x z e r := by
  simp only [run] at h
  split_ifs at h
  obtain ⟨n,hn,hd⟩ := Option.bind_eq_some_iff.mp h
  have hs : a.begun.Sends f.op x := ⟨fun _ => rfl,nofun⟩
  refine drive_landed hd ha ?_ hs he ?_
  · cases n with
    | done b =>
      intro hb
      rw [main_done hn] at hb
      cases hb
    | call w =>
      obtain ⟨hw,hlast,hret⟩ := main_call hn
      exact ⟨hw,hlast,fun h => absurd h hret⟩
  · rintro rfl
    apply hstop
    have hfit := (main_call hn).1
    cases f <;> first | rfl | cases hfit

theorem next_fail (a : App) (l : List UInt8) (w : Await) : ∃ b s, a.next l w .fail = some (b,.done s) := by
  cases w <;> exact ⟨_,_,rfl⟩

theorem finish_failed (hfail : t.failed = true) (a : App) (l : List UInt8) (s : Bool) :
    (a.finish t l s).2.frame = none := by
  unfold finish
  rw [if_neg fun h => by rw [hfail] at h; exact absurd h.2.2 nofun]

structure Aborted (a b : App) : Prop where
  flag : b.page (outputAt enterBase) = 0
  sent : b.sent = a.sent
  frame : ∀ f, b.frame = some f → a.frame = some f ∧ f.1 ≠ .lockedState ∧ f.1 ≠ .last

theorem finish_aborted {s : Bool} (hfail : t.failed = true) (hsent : b.sent = a.sent) : Aborted a (b.finish t l s).2 := by
  refine ⟨?_,?_,fun f hf => ?_⟩
  · unfold finish
    split_ifs <;> exact copyBackExitArgs_output_enter
  · unfold finish
    split_ifs <;> exact hsent
  · rw [finish_failed hfail] at hf
    cases hf

theorem resume_aborted (h : a.resume t = some r) (hfail : t.failed = true) : Aborted a r.2 := by
  cases hf : a.frame with
  | none =>
    simp only [resume,hf] at h
    cases h
  | some f =>
    obtain ⟨w,l⟩ := f
    simp only [resume,hf] at h
    split_ifs at h with hlast
    · cases h
      exact ⟨copyBackExitArgs_output_enter,rfl,nofun⟩
    obtain ⟨⟨c,n⟩,hc,hd⟩ := Option.bind_eq_some_iff.mp h
    have hsent : c.sent = a.sent := Eq.trans (next_sent hc) rfl
    cases n with
    | done b =>
      cases hd
      exact finish_aborted hfail hsent
    | call w' =>
      have hw : w = .report ∨ w = .measurements := by
        by_contra hne
        rw [not_or] at hne
        rw [show t.result w = .fail from if_pos ⟨hfail,hne⟩] at hc
        obtain ⟨b,s,hb⟩ := next_fail a.copyEnter l w
        rw [hb] at hc
        cases hc
      have hw' : w' = w := by
        rcases hw with rfl | rfl
        all_goals
          unfold next at hc
          split at hc <;> (try split_ifs at hc) <;> cases hc <;> first | rfl | contradiction
      subst hw'
      simp only [drive] at hd
      split_ifs at hd
      · cases hd
        refine ⟨copyBackExitArgs_output_enter,?_,?_⟩
        · rcases hw with rfl | rfl <;> exact hsent
        · intro f hf'
          cases hf'
          rcases hw with rfl | rfl <;> exact ⟨hf,nofun,nofun⟩
      · obtain ⟨⟨c',n'⟩,hc',rfl⟩ := Option.map_eq_some_iff.mp hd
        have hsent' : c'.sent = a.sent := (next_sent hc').trans hsent
        cases n' <;> exact finish_aborted hfail hsent'

theorem Aborted.placed (h : Aborted a b) (hp : a.Placed op tdi x) : b.Placed op tdi x where
  flag := h.flag
  sends := by simpa only [Sends,h.sent] using hp.sends
  fits w l hf := hp.fits w l (h.frame _ hf).1
  returned l hf := absurd rfl (h.frame _ hf).2.1
  ended l hf := absurd rfl (h.frame _ hf).2.2

theorem abortLoop_placed (n : Nat) (h : abortLoop ts n a = some b) (hp : a.Placed op tdi x) : b.Placed op tdi x := by
  induction n generalizing a with
  | zero =>
    cases h
    exact hp
  | succ n ih =>
    simp only [abortLoop] at h
    split_ifs at h
    · obtain ⟨r,hr,hn⟩ := Option.bind_eq_some_iff.mp h
      exact ih hn ((resume_aborted hr rfl).placed hp)
    · cases h
      exact hp

theorem abortLoop_rest (n : Nat) (h : abortLoop ts n a = some b) (hf : a.frame = none) : b = a := by
  cases n with
  | zero => exact (Option.some.inj h).symm
  | succ n =>
    simp only [abortLoop,hf] at h
    exact (Option.some.inj h).symm

end App

variable {s t : Sys} {v : Nat} {vd : Vdev} {a : App} {f : App.Func} {z : Nonce} {n : Option Nonce}
    {r : Status × App × Option Nonce} {i : Turn}

theorem Vdev.op_of_func (h : vd.func = some f) : vd.core.op = f.op := by
  unfold Vdev.func at h
  split at h <;> cases h <;> assumption

theorem Vdev.params_of_nonce (h : vd.core.op = .lock ∨ vd.core.op = .start) :
    vd.params = .tdisp vd.tdi (some vd.nonce) := by
  unfold Vdev.params
  rcases h with h | h <;> rw [h]

theorem Vdev.params_of_func (h : vd.func = some f) (hop : vd.core.op ≠ .getMeas) : ∃ n, vd.params = .tdisp vd.tdi n := by
  unfold Vdev.params
  have hf := Vdev.op_of_func h
  cases f <;> rw [hf] at hop ⊢
  case getMeasurements => exact absurd rfl hop
  all_goals exact ⟨_,rfl⟩

theorem held_copyEnter (h : vd.func = some f) (hflag : a.page (outputAt enterBase) = 0) :
    ({ a with page := enterPage a.page vd.params }.copyEnter).Held vd.core.op vd.nonce vd.nonce where
  param hop := by
    obtain ⟨n,hn⟩ := Vdev.params_of_func h hop
    rw [hn]
    exact copyEnterArgs_param.trans (enterPage_head a.page vd.tdi n).1
  nonce hop := by
    rw [Vdev.params_of_nonce hop]
    have hvalid := enterPage_valid a.page vd.tdi vd.nonce
    refine (copyEnterArgs_nonce (enterPage_head a.page vd.tdi _).1 ?_ ?_).trans
      (enterPage_nonce a.page vd.tdi vd.nonce)
    · rw [hvalid]
      decide
    · rw [enterPage_output,hflag]
  output h := absurd rfl h
  own _ := rfl

theorem tdi_copyEnter (h : vd.func = some f) (hop : vd.core.op ≠ .getMeas) :
    ({ a with page := enterPage a.page vd.params }.copyEnter).info.read (tdiAt infoBase) 4 = le 4 vd.tdi := by
  obtain ⟨n,hn⟩ := Vdev.params_of_func h hop
  rw [hn]
  exact (copyEnterArgs_tdi (enterPage_head a.page vd.tdi n).1).trans (enterPage_head a.page vd.tdi n).2

theorem exitNonce_getD {b : App} {d : Option Digest} {page : Memory} (hb : b.Held vd.core.op vd.nonce z)
    (h : exitNonce (copyBackExitArgs b.info d page) vd.params = some n) : n.getD vd.nonce = z := by
  by_cases hop : vd.core.op = .lock ∨ vd.core.op = .start
  · have hparam := hb.param (by rcases hop with h | h <;> rw [h] <;> nofun)
    rw [Vdev.params_of_nonce hop] at h
    simp only [exitNonce,copyBackExitArgs_param,copyBackExitArgs_output hparam,hparam] at h
    rw [if_neg (not_not_intro rfl)] at h
    split_ifs at h with h2
    · cases h
      exact Subtype.ext ((copyBackExitArgs_nonce hparam h2.2).trans (hb.nonce hop))
    · cases h
      by_contra hne
      exact h2 ⟨rfl,hb.output fun hz => hne hz.symm⟩
  · have hn : n = none := by
      rw [not_or] at hop
      unfold Vdev.params at h
      split at h
      · exact absurd ‹_› hop.1
      · exact absurd ‹_› hop.2
      · simp only [exitNonce] at h
        split_ifs at h with h1 h2
        · cases h2.1
        · exact (Option.some.inj h).symm
      · simp only [exitNonce] at h
        split_ifs at h with h1 h2
        · cases h2.1
        · exact (Option.some.inj h).symm
      · exact (Option.some.inj h).symm
      · exact (Option.some.inj h).symm
    rw [hn]
    exact (hb.own fun hl => hop (.inl hl)).symm

structure Vdev.Sound (l : Option Nonce) (vd : Vdev) : Prop where
  busy : vd.core.commState ≠ .idle → ∃ f, vd.func = some f
  nonce : vd.core.rmiState = .locked → l = some vd.nonce
  locking : vd.core.commState ≠ .idle → vd.core.op = .lock → vd.core.rmiState = .unlocked
  starting : vd.core.commState ≠ .idle → vd.core.op = .start → vd.core.rmiState = .locked

structure Inv (s : Sys) : Prop where
  flag : s.app.page (outputAt enterBase) = 0
  vdevs : ∀ v vd, s.vdevs v = some vd → vd.Sound (s.locked v)
  active : ∀ v vd, s.vdevs v = some vd → vd.core.commState = .active →
    s.app.frame.isSome ∧ s.owner = some v
  owned : s.app.frame.isSome → ∃ v vd, s.owner = some v ∧ s.runner = some v ∧
    s.vdevs v = some vd ∧ vd.core.commState = .active ∧
    s.app.Placed vd.core.op (le 4 vd.tdi) vd.nonce
  sent : ∀ v n, s.runner = some v → s.app.sent = some n → ∃ m, s.locked v = some m ∧ n = m.1

theorem Vdev.Sound.sent_of_placed {l : Option Nonce} {n : List UInt8} (h : vd.Sound l) (hb : vd.core.commState ≠ .idle)
    (hz : vd.core.op ≠ .lock → z = vd.nonce) (hp : a.Placed vd.core.op (le 4 vd.tdi) z) (hn : a.sent = some n) : vd.core.op
    = .start ∧ ∃ m, l = some m ∧ n = m.1 := by
  have hop : vd.core.op = .start := by
    by_contra hne
    rw [hp.sends.1 hne] at hn
    cases hn
  refine ⟨hop,vd.nonce,h.nonce (h.starting hb hop),?_⟩
  rw [← hz (by rw [hop]; nofun)]
  exact hp.sends.2 n hn

theorem Landed.retag {op : VdevOp} {l tdi : List UInt8} {x z : Nonce} {e : Prop} {r : Status × App}
    (h : Landed op l x z e r) (hl : op ≠ .getMeas → l = tdi) : Landed op tdi x z e r := by
  by_cases hm : op = .getMeas
  · subst hm
    exact ⟨⟨h.placed.flag,h.placed.sends,fun w l hf => ⟨(h.placed.fits w l hf).1,fun hm => absurd rfl hm⟩,
      h.placed.returned,fun _ _ => trivial⟩,h.source,fun _ => .inl trivial,h.frame⟩
  · rw [← hl hm]
    exact h

structure Served (vd : Vdev) (z : Nonce) (r : Status × App × Option Nonce) : Prop where
  placed : r.2.1.Placed vd.core.op (le 4 vd.tdi) z
  nonce : r.2.2.getD vd.nonce = z
  own : vd.core.op ≠ .lock → z = vd.nonce
  success : r.1 = .success → r.2.1.Ended vd.core.op (le 4 vd.tdi) z
  frame : r.2.1.frame.isSome ↔ r.1 = .blocked

theorem Landed.served {r : Status × App} (h : Landed vd.core.op (le 4 vd.tdi) vd.nonce z False r)
    (hn : exitNonce r.2.page vd.params = some n) : Served vd z (r.1,r.2,n) := by
  obtain ⟨b,d,page,hb,hpage⟩ := h.source
  rw [hpage] at hn
  exact ⟨h.placed,exitNonce_getD hb hn,hb.own,fun hs => (h.success hs).resolve_right id,h.frame⟩

theorem communicate_run (h : a.communicate debug vd.params (some f) i = some r) (hf : vd.func = some f)
    (hflag : a.page (outputAt enterBase) = 0) (hstop : vd.core.op = .unlock → i.sends = true) : ∃ z, Served vd z r := by
  obtain ⟨q,hq,hr⟩ := Option.bind_eq_some_iff.mp h
  obtain ⟨n,hn,rfl⟩ := Option.map_eq_some_iff.mp hr
  have hop := Vdev.op_of_func hf
  have hheld := held_copyEnter hf hflag
  rw [hop] at hheld
  obtain ⟨z,hz⟩ := App.run_landed hq ⟨hheld.param,hheld.nonce,hheld.output,hheld.own⟩
    False.elim fun hs => .inl (hstop (by rw [hop,hs]; rfl))
  rw [← hop] at hz
  exact ⟨z,(hz.retag fun hm => tdi_copyEnter hf hm).served hn⟩

theorem communicate_resume (h : a.communicate debug vd.params none i = some r) (hf : vd.func = some f)
    (hp : a.Placed vd.core.op (le 4 vd.tdi) vd.nonce)
    (hstop : ∀ l, a.frame = some (.stop,l) →
      i.failed = false ∧ (i.reply = .done ∨ i.reply = .again ∧ i.sends = true)) :
    ∃ z, Served vd z r := by
  obtain ⟨q,hq,hr⟩ := Option.bind_eq_some_iff.mp h
  obtain ⟨n,hn,rfl⟩ := Option.map_eq_some_iff.mp hr
  cases hfr : a.frame with
  | none =>
    simp only [App.resume,hfr] at hq
    cases hq
  | some p =>
    obtain ⟨w,l⟩ := p
    have hl := (hp.fits w l hfr).2
    have hplaced : App.Placed vd.core.op (le 4 vd.tdi) vd.nonce { a with page := enterPage a.page vd.params } :=
      ⟨(enterPage_output _ _).trans hp.flag,hp.sends,hp.fits,hp.returned,hp.ended⟩
    have hresult : w = .stop → i.result .stop = .done ∨ i.result .stop = .again ∧ i.sends = true ∨ False := by
      rintro rfl
      obtain ⟨hfail,hrep⟩ := hstop l hfr
      have hres : i.result .stop = i.reply := by
        unfold Turn.result
        rw [if_neg fun h => by rw [hfail] at h; exact absurd h.1 (by simp)]
      rw [hres]
      exact hrep.imp id .inl
    obtain ⟨z,hz⟩ := App.resume_landed hq hfr hl hplaced (held_copyEnter hf hp.flag) False.elim hresult
    exact ⟨z,(hz.retag hl).served hn⟩

open Function
open Comm.Vdev (setCommState settle)

def Cmd.stopAnswered (s : Sys) : Cmd → Bool
  | .communicate v i =>
    match s.vdevs v with
    | none => true
    | some vd =>
      if vd.core.op ≠ .unlock then true
      else if vd.core.commState = .active then
        match s.app.frame with
        | some (.stop,_) => !i.turn.failed && (i.turn.reply = .done || i.turn.reply = .again && i.turn.sends)
        | _ => true
      else i.turn.sends
  | _ => true

def confirms : VdevState → Option (VdevOp × InterfaceState)
  | .locked => some (.lock,.configLocked)
  | .started => some (.start,.run)
  | .unlocked => some (.unlock,.configUnlocked)
  | _ => none

structure Follows (s : Sys) (c : Cmd) (t : Sys) : Prop where
  changes : ∀ v vd vd' op st, s.vdevs v = some vd → t.vdevs v = some vd' →
    vd'.core.rmiState ≠ vd.core.rmiState → confirms vd'.core.rmiState = some (op,st) →
    vd.core.op = op ∧ t.runner = some v ∧ t.app.answer = some (le 4 vd.tdi,st)
  sent : ∀ v n, t.runner = some v → t.app.sent = some n → ∃ m, t.locked v = some m ∧ n = m.1
  nonce : ∀ v vd vd', s.vdevs v = some vd → t.vdevs v = some vd' → vd'.nonce ≠ vd.nonce →
    (∃ valid meas, c = .start v .lock valid meas) ∨ vd.core.op = .lock ∧ ∃ i, c = .communicate v i

variable {c : Cmd} {vd' : Vdev} {i : Call}

variable {u : Nat} {op : VdevOp} {meas : MeasParams} {l : Option Nonce} {rc : Status}

theorem vdevs_update {ud' : Vdev} (hv : s.vdevs v = some vd) (ht : t.vdevs = update s.vdevs v (some vd'))
    (hu : t.vdevs u = some ud') : u ≠ v ∧ s.vdevs u = some ud' ∨ u = v ∧ ud' = vd' := by
  rw [ht] at hu
  by_cases huv : u = v
  · subst huv
    rw [update_self] at hu
    exact .inr ⟨rfl,(Option.some.inj hu).symm⟩
  · rw [update_of_ne huv] at hu
    exact .inl ⟨huv,hu⟩

structure Moves (s : Sys) (c : Cmd) (v : Nat) (vd vd' : Vdev) (t : Sys) : Prop where
  vdevs : t.vdevs = update s.vdevs v (some vd')
  locked : ∀ u, u ≠ v → t.locked u = s.locked u
  sound : vd'.Sound (t.locked v)
  flag : t.app.page (outputAt enterBase) = 0
  active : ∀ u ud, t.vdevs u = some ud → ud.core.commState = .active →
    t.app.frame.isSome ∧ t.owner = some u
  owned : t.app.frame.isSome → ∃ v vd, t.owner = some v ∧ t.runner = some v ∧
    t.vdevs v = some vd ∧ vd.core.commState = .active ∧
    t.app.Placed vd.core.op (le 4 vd.tdi) vd.nonce
  sent : ∀ v n, t.runner = some v → t.app.sent = some n → ∃ m, t.locked v = some m ∧ n = m.1
  changes : ∀ op st, vd'.core.rmiState ≠ vd.core.rmiState →
    confirms vd'.core.rmiState = some (op,st) →
    vd.core.op = op ∧ t.runner = some v ∧ t.app.answer = some (le 4 vd.tdi,st)
  nonce : vd'.nonce ≠ vd.nonce →
    (∃ valid meas, c = .start v .lock valid meas) ∨ vd.core.op = .lock ∧ ∃ i, c = .communicate v i

theorem Moves.inv (h : Inv s) (hv : s.vdevs v = some vd) (hm : Moves s c v vd vd' t) : Inv t where
  flag := hm.flag
  vdevs u ud hu := by
    rcases vdevs_update hv hm.vdevs hu with ⟨huv,hs⟩ | ⟨rfl,rfl⟩
    · rw [hm.locked u huv]
      exact h.vdevs u ud hs
    · exact hm.sound
  active := hm.active
  owned := hm.owned
  sent := hm.sent

theorem Moves.follows (hv : s.vdevs v = some vd) (hm : Moves s c v vd vd' t) : Follows s c t where
  changes u ud ud' op st hu hu' hne hc := by
    rcases vdevs_update hv hm.vdevs hu' with ⟨-,hs⟩ | ⟨rfl,rfl⟩
    · cases hu.symm.trans hs
      exact absurd rfl hne
    · cases hu.symm.trans hv
      exact hm.changes op st hne hc
  sent := hm.sent
  nonce u ud ud' hu hu' hne := by
    rcases vdevs_update hv hm.vdevs hu' with ⟨-,hs⟩ | ⟨rfl,rfl⟩
    · cases hu.symm.trans hs
      exact absurd rfl hne
    · cases hu.symm.trans hv
      exact hm.nonce hne

def Steps (s : Sys) (c : Cmd) (t : Sys) : Prop := Inv t ∧ Follows s c t

theorem Inv.steps_self (h : Inv s) (c : Cmd) : Steps s c s := by
  refine ⟨h,fun v vd vd' op st h1 h2 h3 _ => ?_,h.sent,fun v vd vd' h1 h2 h3 => ?_⟩
  all_goals
    cases h1.symm.trans h2
    exact absurd rfl h3

theorem Moves.steps (h : Inv s) (hv : s.vdevs v = some vd) (hm : Moves s c v vd vd' t) : Steps s c t :=
  ⟨hm.inv h hv,hm.follows hv⟩

theorem Inv.rest_of_owner {ud : Vdev} (h : Inv s) (ho : ¬(s.app.frame.isSome ∧ s.owner ≠ some v)) (hu : s.vdevs u = some ud)
    (ha : ud.core.commState = .active) : u = v := by
  obtain ⟨hf,hown⟩ := h.active u ud hu ha
  by_contra hne
  exact ho ⟨hf,by rw [hown]; exact fun h => hne (Option.some.inj h)⟩

theorem Vdev.Sound.request (h : vd.Sound l)
    (hallow : Sys.vdevAllows op vd.core.rmiState = true) : (vd.request op meas).Sound l := by
  refine ⟨fun _ => ?_,fun hr => ?_,fun _ hop => ?_,fun _ hop => ?_⟩
  · cases op
    case none | init => cases hallow
    all_goals exact ⟨_,rfl⟩
  · have hne : op ≠ .lock := by
      rintro rfl
      have hr' : vd.core.rmiState = .locked := hr
      rw [hr'] at hallow
      cases hallow
    exact (h.nonce hr).trans (congrArg some (if_neg hne).symm)
  · have hop' : op = .lock := hop
    subst hop'
    exact eq_of_beq hallow
  · have hop' : op = .start := hop
    subst hop'
    exact eq_of_beq hallow

theorem Vdev.Sound.failed : vd.failed.Sound l :=
  ⟨fun h => absurd rfl h,nofun,fun h => absurd rfl h,fun h => absurd rfl h⟩

theorem Inv.aside (h : Inv s) (hv : s.vdevs v = some vd) (hidle : vd.core.commState ≠ .active) (hs : vd'.Sound (s.locked v))
    (hidle' : vd'.core.commState ≠ .active)
    (hr : ∀ op st, vd'.core.rmiState ≠ vd.core.rmiState → confirms vd'.core.rmiState ≠ some (op,st))
    (hn : vd'.nonce ≠ vd.nonce → ∃ valid meas, c = .start v .lock valid meas) : Steps s c (s.setVdev v vd') := by
  refine Moves.steps h hv ⟨rfl,fun _ _ => rfl,hs,h.flag,fun u ud hu ha => ?_,fun hf => ?_,h.sent,
    fun op st hne hc => absurd hc (hr op st hne),fun hne => .inl (hn hne)⟩
  · rcases vdevs_update hv rfl hu with ⟨-,hu⟩ | ⟨rfl,rfl⟩
    exacts [h.active u ud hu ha,absurd ha hidle']
  obtain ⟨w,wd,ho,hrun,hw,hact,hp⟩ := h.owned hf
  have hne : w ≠ v := by
    rintro rfl
    cases hw.symm.trans hv
    exact hidle hact
  exact ⟨w,wd,ho,hrun,(update_of_ne hne _ _).trans hw,hact,hp⟩

theorem start_steps {valid : Bool} (h : Inv s)
    (ht : s.start v op valid meas = some t) : Steps s (.start v op valid meas) t := by
  unfold Sys.start at ht
  split at ht
  · cases ht
    exact h.steps_self _
  next vd hv =>
  split_ifs at ht with hcond
  · cases ht
    exact h.steps_self _
  cases ht
  simp only [not_or,Bool.not_eq_false,not_not] at hcond
  obtain ⟨-,hidle,hallow⟩ := hcond
  refine h.aside hv (by rw [hidle]; nofun) ((h.vdevs v vd hv).request hallow) nofun
    (fun _ _ hne => absurd rfl hne) fun hne => ?_
  by_cases hop : op = .lock
  · exact ⟨valid,meas,by rw [hop]⟩
  · exact absurd (if_neg hop) hne

theorem Inv.aborted (h : Inv s) (hv : s.vdevs v = some vd)
    (hown : ¬(s.app.frame.isSome ∧ s.owner ≠ some v)) (ha : s.app.abortOperation ts = some a) :
    a.page (outputAt enterBase) = 0 ∧
      (∀ u n, s.runner = some u → a.sent = some n → ∃ m, s.locked u = some m ∧ n = m.1) ∧
      (a.frame.isSome → s.owner = some v ∧ s.runner = some v ∧ vd.core.commState = .active ∧
        a.Placed vd.core.op (le 4 vd.tdi) vd.nonce) := by
  by_cases hf : s.app.frame.isSome
  · obtain ⟨w,wd,ho,hrun,hw,hact,hp⟩ := h.owned hf
    have hwv : w = v := by
      by_contra hne
      exact hown ⟨hf,by rw [ho]; exact fun h => hne (Option.some.inj h)⟩
    subst hwv
    cases hw.symm.trans hv
    have hp' := App.abortLoop_placed _ ha hp
    refine ⟨hp'.flag,fun u n hu hn => ?_,fun _ => ⟨ho,hrun,hact,hp'⟩⟩
    cases hrun.symm.trans hu
    exact ((h.vdevs _ _ hv).sent_of_placed (by rw [hact]; nofun) (fun _ => rfl) hp' hn).2
  · rw [Option.not_isSome_iff_eq_none] at hf
    obtain rfl := App.abortLoop_rest _ ha hf
    exact ⟨h.flag,h.sent,fun hf' => by rw [hf] at hf'; cases hf'⟩

theorem abort_steps (h : Inv s) (ht : s.abort v ts = some t) : Steps s (.abort v ts) t := by
  unfold Sys.abort at ht
  split at ht
  · cases ht
    exact h.steps_self _
  next vd hv =>
  split_ifs at ht with hidle hown
  · cases ht
    exact h.steps_self _
  · cases ht
    have hact : vd.core.commState ≠ .active := fun ha => hown.2 (h.active v vd hv ha).2
    exact h.aside hv hact Vdev.Sound.failed nofun nofun fun hne => absurd rfl hne
  · obtain ⟨a,ha,rfl⟩ := Option.map_eq_some_iff.mp ht
    obtain ⟨hflag,hsent,hplaced⟩ := h.aborted hv hown ha
    split_ifs with hf
    · obtain ⟨ho,hrun,hact,hp⟩ := hplaced hf
      refine Moves.steps h hv ⟨(update_eq_self_iff.mpr hv.symm).symm,fun _ _ => rfl,
        h.vdevs v vd hv,hflag,fun u ud hu hact' => ⟨hf,?_⟩,
        fun _ => ⟨v,vd,ho,hrun,hv,hact,hp⟩,hsent,fun _ _ hne => absurd rfl hne,
        fun hne => absurd rfl hne⟩
      exact (h.active u ud hu hact').2
    · refine Moves.steps h hv ⟨rfl,fun _ _ => rfl,Vdev.Sound.failed,hflag,
        fun u ud hu hact => ?_,fun hf' => absurd hf' hf,hsent,nofun,fun hne => absurd rfl hne⟩
      rcases vdevs_update hv rfl hu with ⟨hne,hu⟩ | ⟨rfl,rfl⟩
      · exact absurd (h.rest_of_owner hown hu hact) hne
      · cases hact

theorem settle_cases (h : s.settle v vd rc a = some t) : a.frame.isSome ∧ rc ≠ .success ∧ t = { s with
          app := a
          owner := some v
          vdevs := update s.vdevs v (some { vd with core := { vd.core with commState := .active } })
          runner := some v } ∨
      a.frame = none ∧ rc = .error ∧ t = { s with
          app := a
          owner := none
          vdevs := update s.vdevs v (some vd.failed)
          runner := some v } ∨
      a.frame = none ∧ rc = .success ∧ ∃ core,settle { vd.core with commState := .idle } = some core ∧
        t = { s with
          app := a
          owner := none
          vdevs := update s.vdevs v (some { vd with core := core })
          runner := some v
          locked :=
            if vd.core.op = .lock then update s.locked v a.returned else s.locked } := by
  obtain ⟨core,hc,ht⟩ := Option.bind_eq_some_iff.mp h
  obtain ⟨core',hc',rfl⟩ := Option.map_eq_some_iff.mp ht
  cases hf : a.frame with
  | none =>
    cases rc with
    | blocked =>
      simp only [setCommState,hf] at hc
      cases hc
    | error =>
      simp only [setCommState,hf] at hc
      cases hc
      cases hc'
      exact .inr (.inl ⟨rfl,rfl,by simp [Vdev.failed]⟩)
    | success =>
      simp only [setCommState,hf] at hc
      cases hc
      exact .inr (.inr ⟨rfl,rfl,core',hc',by simp⟩)
  | some f =>
    refine .inl ?_
    cases rc with
    | success =>
      simp only [setCommState,hf] at hc
      cases hc
    | blocked | error =>
      simp only [setCommState,hf] at hc
      cases hc
      cases hc'
      exact ⟨rfl,nofun,by simp⟩

theorem settle_core {core : Comm.Vdev} {f : App.Func}
    (h : settle { vd.core with commState := .idle } = some core) (hf : vd.func = some f)
    (hend : a.Ended vd.core.op (le 4 vd.tdi) z) :
    core.commState = .idle ∧ (∀ op st, core.rmiState ≠ vd.core.rmiState → confirms core.rmiState = some (op,st) →
        vd.core.op = op ∧ a.answer = some (le 4 vd.tdi,st)) ∧
      (core.rmiState = .locked → vd.core.op = .lock ∧ a.returned = some z ∨
          vd.core.op ≠ .lock ∧ vd.core.rmiState = .locked) := by
  have hop := Vdev.op_of_func hf
  unfold settle at h
  cases f <;> rw [show vd.core.op = _ from hop] at hend h ⊢ <;> simp only [App.Func.op] at hend h
  case getMeasurements | report =>
    cases h
    exact ⟨rfl,fun _ _ hne => absurd rfl hne,fun hl => .inr ⟨nofun,hl⟩⟩
  case lock =>
    cases h
    refine ⟨rfl,fun op st _ hc => ?_,fun _ => .inl ⟨rfl,hend.2⟩⟩
    cases hc
    exact ⟨rfl,hend.1⟩
  case start =>
    cases h
    refine ⟨rfl,fun op st _ hc => ?_,nofun⟩
    cases hc
    exact ⟨rfl,hend⟩
  case stop =>
    split_ifs at h
    cases h
    refine ⟨rfl,fun op st _ hc => ?_,nofun⟩
    cases hc
    exact ⟨rfl,hend⟩

theorem settle_steps (ht : s.settle v { vd with nonce := z } rc a = some t) (h : Inv s) (hv : s.vdevs v = some vd)
    (hb : vd.core.commState ≠ .idle) (hown : ¬(s.app.frame.isSome ∧ s.owner ≠ some v))
    (hp : a.Placed vd.core.op (le 4 vd.tdi) z) (hz : vd.core.op ≠ .lock → z = vd.nonce)
    (hend : rc = .success → a.Ended vd.core.op (le 4 vd.tdi) z) : Steps s (.communicate v i) t := by
  have hs := h.vdevs v vd hv
  obtain ⟨f,hf⟩ := hs.busy hb
  have hnonce : z ≠ vd.nonce → (∃ valid meas, Cmd.communicate v i = .start v .lock valid meas) ∨
      vd.core.op = .lock ∧ ∃ j, Cmd.communicate v i = .communicate v j := fun hne =>
    .inr ⟨by_contra fun hop => hne (hz hop),i,rfl⟩
  have hsent : ∀ u n, some v = some u → a.sent = some n → ∃ m, s.locked u = some m ∧ n = m.1 := fun u n hu hn => by
    cases hu
    exact (hs.sent_of_placed hb hz hp hn).2
  have hrest : ∀ {vd'' : Vdev} u ud, update s.vdevs v (some vd'') u = some ud →
      vd''.core.commState ≠ .active → ud.core.commState ≠ .active := by
    intro vd'' u ud hu hidle hact
    rcases vdevs_update (t := s.setVdev v vd'') hv rfl hu with ⟨hne,hu⟩ | ⟨rfl,rfl⟩
    · exact hne (h.rest_of_owner hown hu hact)
    · exact hidle hact
  rcases settle_cases ht with ⟨hfr,-,rfl⟩ | ⟨hfr,-,rfl⟩ | ⟨hfr,hrc,core,hc,rfl⟩
  · refine Moves.steps h hv ⟨rfl,fun _ _ => rfl,⟨fun _ => ⟨f,hf⟩,fun hl => ?_,
      fun _ => hs.locking hb,fun _ => hs.starting hb⟩,hp.flag,fun u ud hu hact => ⟨hfr,?_⟩,
      fun _ => ⟨v,_,rfl,rfl,update_self ..,rfl,hp⟩,hsent,
      fun _ _ hne => absurd rfl hne,hnonce⟩
    · have hop : vd.core.op ≠ .lock := fun hop => by
        have hr : vd.core.rmiState = .locked := hl
        rw [hs.locking hb hop] at hr
        cases hr
      rw [hz hop]
      exact hs.nonce hl
    · rcases vdevs_update hv rfl hu with ⟨hne,hu⟩ | ⟨rfl,rfl⟩
      · exact absurd (h.rest_of_owner hown hu hact) hne
      · rfl
  · refine Moves.steps h hv ⟨rfl,fun _ _ => rfl,Vdev.Sound.failed,hp.flag,
      fun u ud hu hact => absurd hact (hrest u ud hu nofun),fun hf' => ?_,hsent,nofun,hnonce⟩
    rw [hfr] at hf'
    cases hf'
  · obtain ⟨hidle,hchange,hlock⟩ := settle_core hc hf (hend hrc)
    have hlocked : vd.core.op ≠ .lock → (if vd.core.op = .lock then update s.locked v a.returned else s.locked) =
          s.locked := fun hop => if_neg hop
    refine Moves.steps h hv ⟨rfl,fun u hu => ?_,⟨fun hb => absurd hidle hb,fun hl => ?_,
      fun hb => absurd hidle hb,fun hb => absurd hidle hb⟩,hp.flag,
      fun u ud hu hact => absurd hact (hrest u ud hu (by rw [hidle]; nofun)),fun hf' => ?_,
      fun u n hu hn => ?_,fun op st hne hc => ?_,hnonce⟩
    · by_cases hop : vd.core.op = .lock
      · simp only [if_pos hop,update_of_ne hu]
      · simp only [if_neg hop]
    · rcases hlock hl with ⟨hop,hret⟩ | ⟨hop,hr⟩
      · simp only [if_pos hop,update_self,hret]
      · simp only [if_neg hop,hs.nonce hr,hz hop]
    · rw [hfr] at hf'
      cases hf'
    · cases hu
      obtain ⟨hop,hm⟩ := hs.sent_of_placed hb hz hp hn
      simp only [hlocked (by rw [hop]; nofun)]
      exact hm
    · obtain ⟨hop,hans⟩ := hchange op st hne hc
      exact ⟨hop,rfl,hans⟩

theorem finish_steps {r : Status × App × Option Nonce} (h : Inv s) (hv : s.vdevs v = some vd)
    (hb : vd.core.commState ≠ .idle) (hown : ¬(s.app.frame.isSome ∧ s.owner ≠ some v)) (hr : Served vd z r)
    (ht : s.finish v vd i r = some t) : Steps s (.communicate v i) t := by
  simp only [Sys.finish,hr.nonce] at ht
  split_ifs at ht with hcopied hrc
  · exact settle_steps ht h hv hb hown hr.placed hr.own hr.success
  · exact settle_steps ht h hv hb hown hr.placed hr.own nofun
  · obtain ⟨a,ha,ht⟩ := Option.bind_eq_some_iff.mp ht
    exact settle_steps ht h hv hb hown (App.abortLoop_placed _ ha hr.placed) hr.own nofun

theorem communicate_steps (h : Inv s) (hg : (Cmd.communicate v i).stopAnswered s = true)
    (ht : s.communicate debug v i = some t) : Steps s (.communicate v i) t := by
  unfold Sys.communicate at ht
  split at ht
  · cases ht
    exact h.steps_self _
  next vd hv =>
  simp only [Cmd.stopAnswered,hv] at hg
  split_ifs at ht with hcond hown hact
  · cases ht
    exact h.steps_self _
  · cases ht
    exact h.steps_self _
  · rw [not_or] at hcond
    obtain ⟨f,hf⟩ := (h.vdevs v vd hv).busy hcond.1
    obtain ⟨w,wd,ho,-,hw,-,hp⟩ := h.owned (h.active v vd hv hact).1
    cases ho.symm.trans (h.active v vd hv hact).2
    cases hw.symm.trans hv
    obtain ⟨r,hr,ht⟩ := Option.bind_eq_some_iff.mp ht
    obtain ⟨z,hz⟩ := communicate_resume hr hf hp fun l hfr => by
      have hop : vd.core.op = .unlock := (hp.fits _ _ hfr).1
      simpa [hop,hact,hfr] using hg
    exact finish_steps h hv hcond.1 hown hz ht
  · rw [not_or] at hcond
    split at ht
    · cases ht
    next f hf =>
    obtain ⟨r,hr,ht⟩ := Option.bind_eq_some_iff.mp ht
    obtain ⟨z,hz⟩ := communicate_run hr hf h.flag fun hop => by
      simpa [hop,hact] using hg
    exact finish_steps h hv hcond.1 hown hz ht

theorem exec_steps (h : Inv s) (hg : c.stopAnswered s = true) (ht : s.exec debug c = some t) : Steps s c t := by
  cases c with
  | start v op valid meas => exact start_steps h ht
  | communicate v i => exact communicate_steps h hg ht
  | abort v ts => exact abort_steps h ht

theorem Inv.init (h : s.Initial) : Inv s := by
  obtain ⟨hframe,hsent,⟨info,d,page,hpage⟩,hvdevs⟩ := h
  refine ⟨?_,fun v vd hv => ?_,fun v vd hv ha => ?_,fun hf => ?_,fun v n _ hn => ?_⟩
  · rw [hpage,copyBackExitArgs_output_enter]
  · obtain ⟨hr,hc,ho⟩ := hvdevs v vd hv
    refine ⟨fun hb => absurd hc hb,fun hl => ?_,fun hb => absurd hc hb,fun hb => absurd hc hb⟩
    rw [hr] at hl
    cases hl
  · rw [(hvdevs v vd hv).2.1] at ha
    cases ha
  · rw [hframe] at hf
    cases hf
  · rw [hsent] at hn
    cases hn

def sampleVdev : Vdev where
  core := ⟨0,.unlocked,.idle,.none,0⟩
  tdiId := 3
  nonce := .zero
  meas := ⟨List.replicate 33 0,List.length_replicate⟩

def sampleSys : Sys where
  app := ⟨fun _ => 0,copyBackExitArgs (fun _ => 0) none fun _ => 0,none,none,none,none⟩
  owner := none
  vdevs := update (fun _ => none) 0 (some sampleVdev)
  runner := none
  locked _ := none

theorem sampleSys_initial : sampleSys.Initial := by
  refine ⟨rfl,rfl,⟨fun _ => 0,none,fun _ => 0,rfl⟩,fun v vd hv => ?_⟩
  by_cases hv0 : v = 0
  · subst hv0
    cases hv
    exact ⟨rfl,rfl,rfl⟩
  · simp [sampleSys,hv0] at hv

def answering (rep : Reply) (failed : Bool) : Cmd :=
  let turn : Turn := ⟨failed,rep,true,true,false,none,id⟩
  .communicate 0 ⟨true,true,turn,true,true,fun _ => turn⟩

def Sys.runs (debug : Bool) : Sys → List Cmd → Option Sys
  | s, [] => some s
  | s, c :: cs => if c.stopAnswered s then (s.exec debug c).bind fun t => runs debug t cs else none

theorem reachable_of_runs {g : Sys → Cmd → Prop} {cs : List Cmd} (hg : ∀ s c, c.stopAnswered s = true → g s c)
    (hs : (system debug).ReachableUnder g s) (h : s.runs debug cs = some t) : (system debug).ReachableUnder g t := by
  induction cs generalizing s with
  | nil =>
    cases h
    exact hs
  | cons c cs ih =>
    simp only [Sys.runs] at h
    split_ifs at h with hc
    obtain ⟨u,hu,ht⟩ := Option.bind_eq_some_iff.mp h
    exact ih (hs.next (hg s c hc) hu) ht

def lockCommands : List Cmd :=
  [.start 0 .lock true sampleVdev.meas,answering .done false,answering .done false,
    answering .done false,answering (.state .configUnlocked) false,
    answering (.nonce ⟨List.replicate 64 7,List.length_replicate⟩) false]

def unlockCommands : List Cmd :=
  lockCommands ++ [answering (.state .configLocked) false,.start 0 .unlock true sampleVdev.meas,answering .done false]

theorem transitions_follow {debug : Bool} {s t : Sys} {c : Cmd}
    (hs : (system debug).ReachableUnder (fun s c => c.stopAnswered s = true) s)
    (hg : c.stopAnswered s = true) (ht : s.exec debug c = some t) : Follows s c t := by
  have hinv : Inv s := hs.invariant (fun _ h => Inv.init h) (fun _ _ _ h hg ht => (exec_steps h hg ht).1)
  exact (exec_steps hinv hg ht).2

theorem lockCommands_runs : ((sampleSys.runs true lockCommands).bind fun s =>
      (s.exec true (answering (.state .configLocked) false)).map fun t =>
        ((answering (.state .configLocked) false).stopAnswered s,(t.vdevs 0).map fun vd => (vd.core.rmiState,vd.nonce.1))) =
      some (true,some (.locked,List.replicate 64 7)) := by
  decide +kernel

theorem transitions_follow_locking : ∃ s t, (system true).ReachableUnder (fun s c => c.stopAnswered s = true) s ∧
    ((t.vdevs 0).map fun vd => (vd.core.rmiState,vd.nonce.1)) = some (.locked,List.replicate 64 7) ∧
    Follows s (answering (.state .configLocked) false) t := by
  obtain ⟨s,hs,ht⟩ := Option.bind_eq_some_iff.mp lockCommands_runs
  obtain ⟨t,ht,heq⟩ := Option.map_eq_some_iff.mp ht
  rw [Prod.mk.injEq] at heq
  have hreach := reachable_of_runs (fun _ _ h => h) (.initial sampleSys_initial) hs
  exact ⟨s,t,hreach,heq.2,transitions_follow hreach heq.1 ht⟩

theorem unlockCommands_runs : ((sampleSys.runs true unlockCommands).bind fun s =>
      (s.exec true (answering .done true)).map fun t =>
        ((s.vdevs 0).map fun vd => vd.core.rmiState,(t.vdevs 0).map fun vd => vd.core.rmiState,t.app.answer)) =
      some (some .locked,some .unlocked,none) := by
  decide +kernel

theorem stop_failure_unlocks : ∃ s c t, (system true).Reachable s ∧ s.exec true c = some t ∧ ¬Follows s c t := by
  obtain ⟨s,hs,ht⟩ := Option.bind_eq_some_iff.mp unlockCommands_runs
  obtain ⟨t,ht,heq⟩ := Option.map_eq_some_iff.mp ht
  simp only [Prod.mk.injEq,Option.map_eq_some_iff] at heq
  obtain ⟨⟨vd,hv,hr⟩,⟨vd',hv',hr'⟩,hans⟩ := heq
  refine ⟨s,_,t,reachable_of_runs (fun _ _ _ => trivial) (.initial sampleSys_initial) hs,ht,fun hf => ?_⟩
  have hc := (hf.changes 0 vd vd' .unlock .configUnlocked hv hv' (by rw [hr,hr']; nofun) (by rw [hr']; rfl)).2.2
  rw [hans] at hc
  cases hc

end TfRmm.Tdisp
