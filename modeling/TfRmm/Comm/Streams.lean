import Mathlib.Data.Finset.Prod
import Mathlib.Data.Finset.Range
import Mathlib.Data.Finset.Card
import Mathlib.Tactic.CasesM
import TfRmm.Comm.Commands

namespace TfRmm.Comm

variable {a b c : Pdev} {id : Nat} {e : AppExit}

namespace Pdev

structure Alike (pd pd' : Pdev) : Prop where
  category : pd'.category = pd.category
  rmiState : pd'.rmiState = pd.rmiState
  commState : pd'.commState = pd.commState
  op : pd'.op = pd.op
  opStreamType : pd'.opStreamType = pd.opStreamType
  streamAux : pd'.streamAux = pd.streamAux
  streamCount : pd'.streamCount = pd.streamCount
  operation : pd'.operation = pd.operation

theorem Alike.refl (pd : Pdev) : Alike pd pd := ⟨rfl,rfl,rfl,rfl,rfl,rfl,rfl,rfl⟩

theorem Alike.trans (h : Alike a b) (k : Alike b c) : Alike a c :=
  ⟨k.category.trans h.category,k.rmiState.trans h.rmiState,k.commState.trans h.commState,
    k.op.trans h.op,k.opStreamType.trans h.opStreamType,k.streamAux.trans h.streamAux,
    k.streamCount.trans h.streamCount,k.operation.trans h.operation⟩

variable {pd pd' : Pdev} {i : Exchange} {r : Status × Pdev}

theorem leaveApp_alike (pd : Pdev) (id : Nat) (e : AppExit) :
    Alike pd (pd.leaveApp id e).2 ∧ (pd.leaveApp id e).2.opState = pd.opState := by
  cases e <;> exact ⟨⟨rfl,rfl,rfl,rfl,rfl,rfl,rfl,rfl⟩,rfl⟩

theorem appRun_alike (h : pd.appRun id e = some r) : Alike pd r.2 ∧ r.2.opState = pd.opState := by
  unfold appRun at h
  split at h
  · cases h
  · cases h
    exact leaveApp_alike pd id e

theorem appResume_alike (h : pd.appResume id e = some r) : Alike pd r.2 ∧ r.2.opState = pd.opState := by
  unfold appResume at h
  split at h
  · cases h
    obtain ⟨ha,ho⟩ := leaveApp_alike { pd with foreign := pd.foreign || pd.task != id } id e
    refine ⟨.trans ?_ ha,ho⟩
    exact ⟨rfl,rfl,rfl,rfl,rfl,rfl,rfl,rfl⟩
  · cases h

theorem abortAppOperation_alike (pd : Pdev) (id : Nat) (u : Bool) : Alike pd (pd.abortAppOperation id u) := by
  unfold abortAppOperation
  split <;> exact ⟨rfl,rfl,rfl,rfl,rfl,rfl,rfl,rfl⟩

theorem abortAppOperation_opState (pd : Pdev) (id : Nat) (u : Bool) : (pd.abortAppOperation id u).opState = pd.opState := by
  unfold abortAppOperation
  split <;> rfl

theorem abortAppIfOwner_alike (pd : Pdev) (o : Owner) (id : Nat) (u : Bool) : Alike pd (pd.abortAppIfOwner o id u).2 := by
  unfold abortAppIfOwner
  split
  · exact ⟨rfl,rfl,rfl,rfl,rfl,rfl,rfl,rfl⟩
  split
  · exact .refl pd
  split
  · exact (abortAppOperation_alike pd id true).trans ⟨rfl,rfl,rfl,rfl,rfl,rfl,rfl,rfl⟩
  · exact abortAppOperation_alike pd id false

inductive Progress (pd : Pdev) (r : Status × Pdev) : Prop
  | same (h : r.2.opState = pd.opState)
  | readies (c : pd.category = .rootPort) (h : r.2.opState = .rpReady)
  | answers (c : pd.category = .endpoint) (h : r.2.opState = .epReady)
  | connects (c : pd.category = .rootPort) (w : pd.op ≠ .stop) (h : r.1 = .success)
      (o : r.2.opState = .rpConnected)

theorem dispatchReadyRp_alike (h : pd.dispatchReadyRp i = some r) (hc : pd.category = .rootPort) (hw : pd.op ≠ .stop) :
    Alike pd r.2 ∧ Progress pd r := by
  unfold dispatchReadyRp at h
  split at h
  · cases h
  · cases h
  · split at h <;> cases h
    · exact ⟨.refl pd,.same rfl⟩
    · exact ⟨⟨rfl,rfl,rfl,rfl,rfl,rfl,rfl,rfl⟩,.readies hc rfl⟩
  · split at h <;> cases h <;> exact ⟨.refl pd,.same rfl⟩
  · split at h <;> cases h
    · exact ⟨.refl pd,.same rfl⟩
    · exact ⟨⟨rfl,rfl,rfl,rfl,rfl,rfl,rfl,rfl⟩,.connects hc hw rfl rfl⟩

theorem dispatchReadyEp_alike (h : pd.dispatchReadyEp i = some r) : Alike pd r.2 ∧ Progress pd r := by
  unfold dispatchReadyEp at h
  split at h
  · cases h
  · cases h
    exact ⟨.refl pd,.same rfl⟩
  · cases h
    exact ⟨.refl pd,.same rfl⟩
  · split at h
    · exact (appRun_alike h).imp_right .same
    · cases h
  · cases h
    exact ⟨.refl pd,.same rfl⟩

theorem copyDigest_cases {known : CacheType → Bool} {r' : Status × Pdev} (h : copyDigest known i r = some r') :
    r'.2 = r.2 ∧ (r'.1 = r.1 ∨ i.digest = false ∧ r'.1 = .error) := by
  unfold copyDigest at h
  split at h
  · cases h
    exact ⟨rfl,.inl rfl⟩
  split at h
  · cases h
  split at h
  · cases h
    exact ⟨rfl,.inl rfl⟩
  · next hd =>
    cases h
    exact ⟨rfl,.inr ⟨by simpa using (not_or.mp hd).2,rfl⟩⟩

theorem copyDigest_isSome {known : CacheType → Bool} (hk : known i.digestType = true) (r : Status × Pdev) :
    ∃ r', copyDigest known i r = some r' := by
  unfold copyDigest
  split
  · exact ⟨_,rfl⟩
  rw [if_neg (by simp [hk])]
  split <;> exact ⟨_,rfl⟩

theorem run_digest_alike {known : CacheType → Bool} (h : (pd.appRun id e).bind (copyDigest known i) = some r) :
    Alike pd r.2 ∧ Progress pd r := by
  obtain ⟨q,hq,hd⟩ := Option.bind_eq_some_iff.mp h
  obtain ⟨ha,ho⟩ := appRun_alike hq
  have hr := (copyDigest_cases hd).1
  exact ⟨hr ▸ ha,.same (hr ▸ ho)⟩

theorem dispatchEp_alike (h : pd.dispatchEp i = some r) (hc : pd.category = .endpoint) : Alike pd r.2 ∧ Progress pd r := by
  unfold dispatchEp at h
  split at h
  · obtain ⟨q,hq,hd⟩ := Option.bind_eq_some_iff.mp h
    obtain ⟨ha,ho⟩ := appResume_alike hq
    unfold resumeEp at hd
    split at hd
    · have hr := (copyDigest_cases hd).1
      refine ⟨?_,.answers hc (congrArg Pdev.opState hr)⟩
      rw [hr]
      exact ha.trans ⟨rfl,rfl,rfl,rfl,rfl,rfl,rfl,rfl⟩
    · have hr := (copyDigest_cases hd).1
      exact ⟨hr ▸ ha,.same (hr ▸ ho)⟩
  split at h
  · exact run_digest_alike h
  split at h
  · exact run_digest_alike h
  · exact run_digest_alike h
  · exact dispatchReadyEp_alike h
  · cases h

theorem dispatchRp_alike (h : pd.dispatchRp i = some r) (hc : pd.category = .rootPort) : Alike pd r.2 ∧ Progress pd r := by
  unfold dispatchRp at h
  split at h
  · cases h
    exact ⟨.refl pd,.same rfl⟩
  next hw =>
  split at h
  · exact dispatchReadyRp_alike h hc hw
  · cases h
    exact ⟨.refl pd,.same rfl⟩
  · cases h

theorem dispatch_alike (h : pd.dispatch i = some r) : Alike pd r.2 ∧ Progress pd r := by
  unfold dispatch at h
  split at h
  · next hc => exact dispatchRp_alike h hc
  · next hc => exact dispatchEp_alike h hc

theorem copyout_alike (i : Exchange) (r : Status × Pdev) : Alike r.2 (copyout i r).2 := by
  unfold copyout
  split
  · exact .refl _
  split
  · exact abortAppOperation_alike ..
  · exact .refl _

theorem copyout_opState (i : Exchange) (r : Status × Pdev) : (copyout i r).2.opState = r.2.opState := by
  unfold copyout
  split
  · rfl
  split
  · exact abortAppOperation_opState ..
  · rfl

theorem copyout_status (i : Exchange) (r : Status × Pdev) : (copyout i r).1 = r.1 ∨ (copyout i r).1 = .error := by
  unfold copyout
  split
  · exact .inl rfl
  split <;> exact .inr rfl

structure Frame (pd pd' : Pdev) : Prop where
  category : pd'.category = pd.category
  opStreamType : pd'.opStreamType = pd.opStreamType
  streamAux : pd'.streamAux = pd.streamAux
  streamCount : pd'.streamCount = pd.streamCount
  operation : pd'.operation = pd.operation

theorem Alike.frame (h : Alike pd pd') : Frame pd pd' :=
  ⟨h.category,h.opStreamType,h.streamAux,h.streamCount,h.operation⟩

theorem Frame.trans (h : Frame a b) (k : Frame b c) : Frame a c :=
  ⟨k.category.trans h.category,k.opStreamType.trans h.opStreamType,k.streamAux.trans h.streamAux,
    k.streamCount.trans h.streamCount,k.operation.trans h.operation⟩

def Live (pd : Pdev) : Prop := pd.commState = .pending ∨ pd.commState = .active

inductive Goes (pd pd' : Pdev) : Prop
  | stays (r : pd'.rmiState = pd.rmiState) (c : pd'.commState = pd.commState) (o : pd'.op = pd.op)
  | waits (l : pd.Live) (r : pd'.rmiState = pd.rmiState) (c : pd'.commState = .active)
      (o : pd'.op = pd.op)
  | stops (l : pd.Live) (w : pd.op = .stop) (r : pd'.rmiState = .stopped)
      (c : pd'.commState = .idle ∨ pd'.commState = .error) (o : pd'.op = .none)
  | fails (n : pd.commState ≠ .idle) (r : pd'.rmiState = .error) (c : pd'.commState = .idle)
      (o : pd'.op = pd.op.finish)
  | succeeds (l : pd.Live) (w : pd.op ≠ .stop)
      (r : (pd.rmiState = .new ∧ pd'.rmiState = (if pd.category = .rootPort then .ready else .needsKey)) ∨
        (pd.rmiState = .hasKey ∧ pd'.rmiState = .ready) ∨
        (pd.rmiState ≠ .new ∧ pd.rmiState ≠ .hasKey ∧ pd'.rmiState = pd.rmiState))
      (c : pd'.commState = .idle) (o : pd'.op = pd.op.finish)

theorem Goes.of_alike (ha : Alike pd a) (h : Goes a pd') : Goes pd pd' := by
  have hl : a.Live → pd.Live := by
    unfold Live
    rw [ha.commState]
    exact id
  cases h with
  | stays r c o => exact .stays (r.trans ha.rmiState) (c.trans ha.commState) (o.trans ha.op)
  | waits l r c o => exact .waits (hl l) (r.trans ha.rmiState) c (o.trans ha.op)
  | stops l w r c o => exact .stops (hl l) (ha.op ▸ w) r c o
  | fails n r c o => exact .fails (ha.commState ▸ n) r c (ha.op ▸ o)
  | succeeds l w r c o =>
    refine .succeeds (hl l) (ha.op ▸ w) ?_ c (ha.op ▸ o)
    rw [ha.rmiState,ha.category] at r
    exact r

theorem complete_goes {rc : Status} {u : Bool} (h : pd.complete rc u = some pd') :
    Frame pd pd' ∧ Goes pd pd' ∧ pd.Live ∧ (pd'.opState = pd.opState ∨ pd.op = .stop ∧ pd'.op = .none) ∧
      (rc ≠ .blocked → pd.op ≠ .stop → pd'.op = .none ∨ pd'.op = .streamComplete) := by
  unfold complete at h
  split at h
  case isFalse => cases h
  next hl =>
  have hfin : pd.op.finish = .none ∨ pd.op.finish = .streamComplete := by
    unfold PdevOp.finish
    split
    · exact .inr rfl
    · exact .inl rfl
  cases rc with
  | blocked =>
    cases h
    exact ⟨⟨rfl,rfl,rfl,rfl,rfl⟩,.waits hl rfl rfl rfl,hl,.inl rfl,fun hb => absurd rfl hb⟩
  | error =>
    simp only at h
    split at h
    · next hs =>
      split at h <;> cases h
      · exact ⟨⟨rfl,rfl,rfl,rfl,rfl⟩,.stops hl hs rfl (.inr rfl) rfl,hl,.inr ⟨hs,rfl⟩,fun _ hn => absurd hs hn⟩
      · exact ⟨⟨rfl,rfl,rfl,rfl,rfl⟩,.waits hl rfl rfl rfl,hl,.inl rfl,fun _ hn => absurd hs hn⟩
    · cases h
      refine ⟨⟨rfl,rfl,rfl,rfl,rfl⟩,.fails ?_ rfl rfl rfl,hl,.inl rfl,fun _ _ => hfin⟩
      rcases hl with hl | hl <;> rw [hl] <;> decide
  | success =>
    simp only at h
    split at h
    · next hs =>
      split at h <;> cases h
      exact ⟨⟨rfl,rfl,rfl,rfl,rfl⟩,.stops hl hs rfl (.inl rfl) rfl,hl,.inr ⟨hs,rfl⟩,fun _ hn => absurd hs hn⟩
    next hs =>
    cases h
    refine ⟨⟨rfl,rfl,rfl,rfl,rfl⟩,.succeeds hl hs ?_ rfl rfl,hl,.inl rfl,fun _ _ => hfin⟩
    cases hr : pd.rmiState <;> simp [completeOperation,hr]

inductive Advance (pd pd' : Pdev) : Prop
  | same (h : pd'.opState = pd.opState)
  | readies (c : pd.category = .rootPort) (h : pd'.opState = .rpReady)
  | answers (c : pd.category = .endpoint) (h : pd'.opState = .epReady)
  | ends (h : pd'.op = .none ∨ pd'.op = .streamComplete)
      (o : pd.op = .stop ∨ pd.category = .rootPort ∧ pd'.opState = .rpConnected)

theorem communicate_goes (h : pd.communicate i = some pd') : Frame pd pd' ∧ Goes pd pd' ∧ Advance pd pd' := by
  unfold communicate at h
  split at h
  · cases h
    exact ⟨(Alike.refl pd).frame,.stays rfl rfl rfl,.same rfl⟩
  split at h
  · cases h
    exact ⟨(Alike.refl pd).frame,.stays rfl rfl rfl,.same rfl⟩
  obtain ⟨r,hr,hf⟩ := Option.bind_eq_some_iff.mp h
  obtain ⟨ha,hp⟩ := dispatch_alike hr
  have hb := ha.trans (copyout_alike i r)
  have ho := copyout_opState i r
  have hst := copyout_status i r
  generalize copyout i r = w at hf hb ho hst
  unfold finish at hf
  have hc : Alike pd { w.2 with yieldOwner := if w.2.unwound then none else some .pdev } :=
    hb.trans ⟨rfl,rfl,rfl,rfl,rfl,rfl,rfl,rfl⟩
  obtain ⟨f,g,_,o,e⟩ := complete_goes hf
  refine ⟨hc.frame.trans f,g.of_alike hc,?_⟩
  rcases o with o | ⟨w,o⟩
  case inr => exact .ends (.inl o) (.inl (hc.op.symm.trans w))
  have o' : pd'.opState = r.2.opState := o.trans ho
  cases hp with
  | same h => exact .same (o'.trans h)
  | readies c h => exact .readies c (o'.trans h)
  | answers c h => exact .answers c (o'.trans h)
  | connects c w h d =>
    refine .ends (e ?_ (hc.op ▸ w)) (.inr ⟨c,o'.trans d⟩)
    rcases hst with hst | hst
    · rw [hst,h]
      decide
    · rw [hst]
      decide

end Pdev

namespace Pdev

def Up (pd : Pdev) : Prop := pd.rmiState = .ready ∨ pd.rmiState = .error

def Engaged (pd : Pdev) : Prop := pd.op.isStream ∨ pd.op = .streamComplete

structure Shape (p : Nat) (pd : Pdev) : Prop where
  table : pd.category = .endpoint → pd.streamAux = some p
  never : pd.op ≠ .keyPurge ∧ pd.op ≠ .streamAborted
  idle : pd.commState = .idle → pd.op = .none ∨ pd.op = .streamComplete
  awaits : pd.op = .streamComplete → pd.commState = .idle
  streams : pd.op.isStream → pd.Live
  engaged : pd.Engaged → pd.Up ∧ pd.streamAux.isSome ∧ pd.opStreamType = ncoh
  stopping : pd.op = .stop → pd.Live ∧ pd.streamCount = 0 ∧ pd.rmiState ≠ .new ∧
    pd.rmiState ≠ .stopped
  quiet : pd.op = .none → pd.Live → pd.rmiState = .new ∨ pd.rmiState = .hasKey
  failed : pd.commState = .error → pd.rmiState = .stopped
  stopped : pd.rmiState = .stopped → pd.op = .none ∧ ¬pd.Live
  counted : 0 < pd.streamCount → pd.Up
  unshared : pd.category = .rootPort → ¬pd.Engaged → pd.streamAux = none
  keyless : pd.category = .rootPort → pd.rmiState ≠ .needsKey ∧ pd.rmiState ≠ .hasKey

variable {pd pd' : Pdev} {p : Nat}

theorem not_engaged_of_none (h : pd.op = .none) : ¬pd.Engaged := by
  unfold Engaged
  rw [h]
  decide

theorem not_engaged_of_stop (h : pd.op = .stop) : ¬pd.Engaged := by
  unfold Engaged
  rw [h]
  decide

theorem finish_of_engaged (h : pd.op.isStream) : pd.op.finish = .streamComplete := by
  simp [PdevOp.finish,h]

theorem finish_of_not (h : ¬pd.op.isStream) : pd.op.finish = .none := by
  simp [PdevOp.finish,h]

theorem Live.not_idle (h : pd.Live) : pd.commState ≠ .idle := by
  rcases h with h | h <;> rw [h] <;> decide

theorem not_live_of_idle (h : pd.commState = .idle) : ¬pd.Live := fun hl => hl.not_idle h

theorem not_live_of_error (h : pd.commState = .error) : ¬pd.Live := by
  unfold Live
  rw [h]
  decide

theorem Engaged.congr (ho : pd'.op = pd.op) : pd'.Engaged ↔ pd.Engaged := by
  unfold Engaged
  rw [ho]

theorem Live.congr (hc : pd'.commState = pd.commState) : pd'.Live ↔ pd.Live := by
  unfold Live
  rw [hc]

section

variable (h : pd.Shape p) (f : Frame pd pd')

include h f

theorem Shape.stays (r : pd'.rmiState = pd.rmiState)
    (c : pd'.commState = pd.commState) (o : pd'.op = pd.op) : pd'.Shape p := by
  cases pd'
  obtain ⟨rfl,rfl,rfl,rfl⟩ := f
  subst r c o
  exact ⟨h.table,h.never,h.idle,h.awaits,h.streams,h.engaged,h.stopping,h.quiet,h.failed,h.stopped,h.counted,h.unshared,
    h.keyless⟩

theorem Shape.waits (l : pd.Live) (r : pd'.rmiState = pd.rmiState) (c : pd'.commState = .active) (o : pd'.op = pd.op) :
    pd'.Shape p := by
  cases pd'
  obtain ⟨rfl,rfl,rfl,rfl⟩ := f
  subst r c o
  refine ⟨h.table,h.never,nofun,fun ho => ?_,fun _ => .inr rfl,h.engaged,fun ho => ⟨.inr rfl,(h.stopping ho).2⟩,
    fun ho _ => h.quiet ho l,nofun,fun hr => ?_,h.counted,h.unshared,h.keyless⟩
  · exact absurd (h.awaits ho) l.not_idle
  · exact absurd l (h.stopped hr).2

theorem Shape.rests (n : pd.commState ≠ .idle) (c : pd'.commState = .idle) (o : pd'.op = pd.op.finish) (hu : pd.Up → pd'.Up)
    (hs : pd'.rmiState ≠ .stopped) (hk : pd.category = .rootPort → pd'.rmiState ≠ .needsKey ∧ pd'.rmiState ≠ .hasKey) :
    pd'.Shape p := by
  have hn : ¬pd'.Live := not_live_of_idle c
  have hop : pd.op.isStream ∧ pd'.op = .streamComplete ∨ ¬pd.op.isStream ∧ pd'.op = .none := by
    by_cases hs : pd.op.isStream
    · exact .inl ⟨hs,o.trans (finish_of_engaged hs)⟩
    · exact .inr ⟨hs,o.trans (finish_of_not hs)⟩
  have hne : ¬pd.op.isStream → ¬pd.Engaged := by
    rintro hs (hs' | hs')
    · exact hs hs'
    · exact n (h.awaits hs')
  cases pd'
  obtain ⟨rfl,rfl,rfl,rfl⟩ := f
  refine ⟨h.table,?_,?_,?_,?_,?_,?_,?_,?_,?_,?_,?_,?_⟩
  · rcases hop with ⟨_,ho⟩ | ⟨_,ho⟩ <;> rw [ho] <;> decide
  · exact fun _ => hop.symm.imp (·.2) (·.2)
  · exact fun _ => c
  · rcases hop with ⟨_,ho⟩ | ⟨_,ho⟩ <;> rw [ho] <;> exact nofun
  · intro he
    rcases hop with ⟨hs',_⟩ | ⟨_,ho⟩
    · obtain ⟨u,a,t⟩ := h.engaged (.inl hs')
      exact ⟨hu u,a,t⟩
    · exact absurd he (not_engaged_of_none ho)
  · rcases hop with ⟨_,ho⟩ | ⟨_,ho⟩ <;> rw [ho] <;> exact nofun
  · exact fun _ hl => absurd hl hn
  · rw [c]
    nofun
  · exact fun hr => absurd hr hs
  · exact fun hc => hu (h.counted hc)
  · intro hc he
    rcases hop with ⟨_,ho⟩ | ⟨hs',_⟩
    · exact absurd (.inr ho) he
    · exact h.unshared hc (hne hs')
  · exact hk

theorem Shape.stops (w : pd.op = .stop) (r : pd'.rmiState = .stopped) (c : pd'.commState = .idle ∨ pd'.commState = .error)
    (o : pd'.op = .none) : pd'.Shape p := by
  have hn : ¬pd'.Live := by
    rcases c with c | c
    · exact not_live_of_idle c
    · exact not_live_of_error c
  cases pd'
  obtain ⟨rfl,rfl,rfl,rfl⟩ := f
  subst r o
  refine ⟨h.table,⟨nofun,nofun⟩,fun _ => .inl rfl,nofun,nofun,fun h' => absurd h' (not_engaged_of_none rfl),nofun,
    fun _ hl => absurd hl hn,fun _ => rfl,fun _ => ⟨rfl,hn⟩,?_,fun hc _ => h.unshared hc (not_engaged_of_stop w),
    fun _ => ⟨nofun,nofun⟩⟩
  rw [(h.stopping w).2.1]
  nofun

theorem Shape.goes (g : Goes pd pd') : pd'.Shape p := by
  cases g with
  | stays r c o => exact h.stays f r c o
  | waits l r c o => exact h.waits f l r c o
  | stops l w r c o => exact h.stops f w r c o
  | fails n r c o =>
    refine h.rests f n c o (fun _ => .inr r) ?_ fun _ => ?_
    all_goals
      rw [r]
      decide
  | succeeds l w r c o =>
    have hns : pd.rmiState ≠ .stopped := fun hs => (h.stopped hs).2 l
    refine h.rests f l.not_idle c o ?_ ?_ fun hc => ?_
    · rintro (hu | hu) <;> simp only [hu,reduceCtorEq,false_and,false_or,ne_eq,not_false_eq_true,true_and] at r
      · exact .inl r
      · exact .inr r
    · rcases r with ⟨_,r⟩ | ⟨_,r⟩ | ⟨_,_,r⟩ <;> rw [r]
      · split <;> decide
      · decide
      · exact hns
    · rcases r with ⟨_,r⟩ | ⟨_,r⟩ | ⟨_,_,r⟩ <;> rw [r]
      · rw [if_pos hc]
        decide
      · decide
      · exact h.keyless hc

end

end Pdev

def StreamState.op : StreamState → PdevOp
  | .connecting => .connect
  | .disconnecting => .disconnect
  | .keyRefreshing => .keyRefresh
  | .keyPurging => .keyPurge
  | .connected | .disconnected => .none

theorem StreamState.isStream_op {r : StreamState} (h : r.op ≠ .none) : r.op.isStream := by
  cases r <;> first | rfl | exact absurd rfl h

namespace Sys

def Names (s : Sys) (k : Nat × Nat) (p : Nat) : Prop := k.1 = p ∨ (s.streams k).pd2 = p

instance (s : Sys) (k : Nat × Nat) (p : Nat) : Decidable (s.Names k p) :=
  inferInstanceAs (Decidable (_ ∨ _))

def naming (s : Sys) (size p : Nat) : Finset (Nat × Nat) :=
  (Finset.range size ×ˢ Finset.range streamTypeCount).filter fun k =>
    (s.streams k).taken = true ∧ s.Names k p

structure Inv (size : Nat) (s : Sys) : Prop where
  shape : ∀ {p pd}, s.pdevs p = some pd → p < size ∧ pd.Shape p
  taken : ∀ {k}, (s.streams k).taken → k.2 = ncoh ∧ (s.streams k).state ≠ .disconnected ∧
    (s.streams k).state ≠ .keyPurging ∧
    (∃ pd, s.pdevs k.1 = some pd ∧ pd.category = .endpoint) ∧
    ∃ pd, s.pdevs (s.streams k).pd2 = some pd ∧ pd.category = .rootPort
  counts : ∀ {p pd}, s.pdevs p = some pd → pd.streamCount = (s.naming size p).card
  held : ∀ {p pd}, s.pdevs p = some pd → pd.Engaged →
    ∃ e, pd.streamAux = some e ∧ (s.streams (e,ncoh)).taken ∧ s.Names (e,ncoh) p

def Keeps (s t : Sys) : Prop :=
  ∀ k, (t.streams k).taken = (s.streams k).taken ∧ (t.streams k).state = (s.streams k).state ∧
    (t.streams k).pd2 = (s.streams k).pd2

variable {s t : Sys} {size p : Nat} {pd pd' : Pdev} {k : Nat × Nat}

theorem Keeps.of_eq (h : t.streams = s.streams) : Keeps s t := fun k => by
  rw [h]
  exact ⟨rfl,rfl,rfl⟩

theorem Keeps.names (h : Keeps s t) : t.Names k p ↔ s.Names k p := by
  unfold Names
  rw [(h k).2.2]

theorem Keeps.naming (h : Keeps s t) : t.naming size p = s.naming size p := by
  unfold Sys.naming
  congr 1
  funext k
  rw [(h k).1,h.names]

theorem mem_naming : k ∈ s.naming size p ↔ k.1 < size ∧ k.2 < streamTypeCount ∧ (s.streams k).taken ∧ s.Names k p := by
  simp only [naming,Finset.mem_filter,Finset.mem_product,Finset.mem_range,and_assoc]

theorem Inv.mem_naming (h : s.Inv size) (ht : (s.streams k).taken) (hn : s.Names k p) : k ∈ s.naming size p := by
  obtain ⟨h2,_,_,⟨pd,hp,_⟩,_⟩ := h.taken ht
  refine Sys.mem_naming.mpr ⟨(h.shape hp).1,?_,ht,hn⟩
  rw [h2]
  decide

theorem Inv.count_pos (h : s.Inv size) (hp : s.pdevs p = some pd) (ht : (s.streams k).taken)
    (hn : s.Names k p) : 0 < pd.streamCount := by
  rw [h.counts hp]
  exact Finset.card_pos.mpr ⟨k,h.mem_naming ht hn⟩

theorem Inv.engaged_count (h : s.Inv size) (hp : s.pdevs p = some pd) (he : pd.Engaged) : 0 < pd.streamCount := by
  obtain ⟨e,_,ht,hn⟩ := h.held hp he
  exact h.count_pos hp ht hn

theorem update_some_cases {α : Type} {f g : Nat → Option α} {a x : Nat} {b c : α}
    (hg : g = Function.update f a (some b)) (h : g x = some c) : x = a ∧ c = b ∨ x ≠ a ∧ f x = some c := by
  rw [hg] at h
  by_cases hx : x = a
  · subst hx
    rw [Function.update_self] at h
    exact .inl ⟨rfl,(Option.some.inj h).symm⟩
  · rw [Function.update_of_ne hx] at h
    exact .inr ⟨hx,h⟩

theorem of_update {α : Type} {f g : Nat → Option α} {a : Nat} {b : α} {P : Nat → α → Prop}
    (hg : g = Function.update f a (some b)) (hb : P a b) (hf : ∀ x c, x ≠ a → f x = some c → P x c) :
    ∀ x c, g x = some c → P x c := fun x c h => by
  obtain ⟨rfl,rfl⟩ | ⟨hx,h⟩ := update_some_cases hg h
  · exact hb
  · exact hf x c hx h

theorem exists_update (f : Nat → Option Pdev) {a x : Nat} {b : Pdev} {P : Pdev → Prop} (hb : x = a → P b)
    (h : ∃ c, f x = some c ∧ P c) : ∃ c, Function.update f a (some b) x = some c ∧ P c := by
  by_cases hx : x = a
  · subst hx
    exact ⟨b,Function.update_self ..,hb rfl⟩
  · rw [Function.update_of_ne hx]
    exact h

theorem Inv.one (h : s.Inv size) (hp : s.pdevs p = some pd) (hsh : pd'.Shape p) (hcat : pd'.category = pd.category)
    (hcnt : pd'.streamCount = pd.streamCount) (he : pd'.Engaged → pd.Engaged ∧ pd'.streamAux = pd.streamAux)
    (ht : t.pdevs = Function.update s.pdevs p (some pd')) (hk : Keeps s t) : t.Inv size := by
  have hcats : ∀ {x c}, (∃ d, s.pdevs x = some d ∧ d.category = c) → ∃ d, t.pdevs x = some d ∧ d.category = c := by
    intro x c hd
    rw [ht]
    refine exists_update _ ?_ hd
    rintro rfl
    obtain ⟨d,hd,hc⟩ := hd
    rw [hp] at hd
    cases hd
    exact hcat.trans hc
  refine ⟨?_,?_,?_,?_⟩
  · exact @(of_update ht ⟨(h.shape hp).1,hsh⟩ fun x c _ hx => h.shape hx)
  · intro k htk
    rw [(hk k).1] at htk
    obtain ⟨h2,h3,h4,h5,h6⟩ := h.taken htk
    rw [(hk k).2.1,(hk k).2.2]
    exact ⟨h2,h3,h4,hcats h5,hcats h6⟩
  · simp only [hk.naming]
    refine @(of_update ht ?_ fun x c _ hx => h.counts hx)
    rw [hcnt]
    exact h.counts hp
  · refine @(of_update ht (fun hc => ?_) fun x c _ hx hc => ?_)
    · obtain ⟨hc,ha⟩ := he hc
      obtain ⟨e,h1,h2,h3⟩ := h.held hp hc
      exact ⟨e,ha.trans h1,((hk _).1).trans h2,hk.names.mpr h3⟩
    · obtain ⟨e,h1,h2,h3⟩ := h.held hx hc
      exact ⟨e,h1,((hk _).1).trans h2,hk.names.mpr h3⟩

end Sys

theorem Pdev.Goes.engaged {pd pd' : Pdev} (g : Pdev.Goes pd pd') (he : pd'.Engaged) : pd.Engaged := by
  have hfin : pd'.op = pd.op.finish → pd.Engaged := fun ho => by
    by_cases hs : pd.op.isStream
    · exact .inl hs
    · rw [Pdev.finish_of_not hs] at ho
      exact absurd he (Pdev.not_engaged_of_none ho)
  cases g with
  | stays r c o | waits l r c o => exact (Pdev.Engaged.congr o).mp he
  | stops l w r c o => exact absurd he (Pdev.not_engaged_of_none o)
  | fails n r c o | succeeds l w r c o => exact hfin o

namespace Sys

variable {s t : Sys} {size p : Nat} {pd pd' : Pdev}

theorem Inv.goes (h : s.Inv size) (hp : s.pdevs p = some pd) (f : Pdev.Frame pd pd') (g : Pdev.Goes pd pd')
    (ht : t.pdevs = Function.update s.pdevs p (some pd')) (hk : Keeps s t) : t.Inv size :=
  h.one hp ((h.shape hp).2.goes f g) f.category f.streamCount (fun he => ⟨g.engaged he,f.streamAux⟩) ht hk

theorem Inv.congr (h : s.Inv size) (hp : t.pdevs = s.pdevs) (hk : t.streams = s.streams) : t.Inv size := by
  cases t
  subst hp hk
  exact ⟨h.shape,h.taken,h.counts,h.held⟩

end Sys

open Function

variable {pd pd' : Pdev}

namespace Sys

variable {s t : Sys} {size p q : Nat} {a' b' : Pdev} {k : Nat × Nat} {st : Stream}

theorem naming_erase (h : t.streams = update s.streams k st) (x : Nat) :
    (t.naming size x).erase k = (s.naming size x).erase k := by
  ext k'
  simp only [Finset.mem_erase,mem_naming,Names,h]
  refine and_congr_right fun hk => ?_
  rw [update_of_ne hk]

theorem card_erase_add {α : Type*} [DecidableEq α] (F : Finset α) (x : α) :
    (F.erase x).card + (if x ∈ F then 1 else 0) = F.card := by
  split
  · next h => exact Finset.card_erase_add_one h
  · next h => rw [Finset.erase_eq_of_notMem h,Nat.add_zero]

theorem naming_card (h : t.streams = update s.streams k st) (hk : k.1 < size)
    (hty : k.2 < streamTypeCount) (x : Nat) :
    (t.naming size x).card + (if (s.streams k).taken ∧ s.Names k x then 1 else 0) =
      (s.naming size x).card + (if st.taken ∧ (k.1 = x ∨ st.pd2 = x) then 1 else 0) := by
  have ht := card_erase_add (t.naming size x) k
  have hs := card_erase_add (s.naming size x) k
  rw [naming_erase h] at ht
  have hms : k ∈ s.naming size x ↔ (s.streams k).taken ∧ s.Names k x := by
    simp only [mem_naming,hk,hty,true_and]
  have hmt : k ∈ t.naming size x ↔ st.taken ∧ (k.1 = x ∨ st.pd2 = x) := by
    simp only [mem_naming,hk,hty,true_and,Names,h,update_self]
  simp only [hms] at hs
  simp only [hmt] at ht
  omega

structure Joint (s t : Sys) (p q : Nat) (a b a' b' : Pdev) (st : Stream) : Prop where
  pdevs : t.pdevs = update (update s.pdevs p (some a')) q (some b')
  streams : t.streams = update s.streams (p,ncoh) st
  first : s.pdevs p = some a
  second : s.pdevs q = some b
  ne : p ≠ q
  pd2 : st.pd2 = q
  held : (s.streams (p,ncoh)).taken → (s.streams (p,ncoh)).pd2 = q

section Joint

variable (j : Joint s t p q a b a' b' st)
include j

theorem Joint.self : t.streams (p,ncoh) = st := by
  rw [j.streams,update_self]

theorem Joint.other (hk : k ≠ (p,ncoh)) : t.streams k = s.streams k := by
  rw [j.streams,update_of_ne hk]

theorem Joint.cases {x : Nat} {c : Pdev} (hx : t.pdevs x = some c) :
    x = q ∧ c = b' ∨ x = p ∧ c = a' ∨ x ≠ p ∧ x ≠ q ∧ s.pdevs x = some c := by
  rcases update_some_cases j.pdevs hx with hx | ⟨hxq,hx⟩
  · exact .inl hx
  · rcases update_some_cases rfl hx with hx | ⟨hxp,hx⟩
    · exact .inr (.inl hx)
    · exact .inr (.inr ⟨hxp,hxq,hx⟩)

theorem Inv.held_ne (h : s.Inv size) {x : Nat} {c : Pdev} (hx : s.pdevs x = some c)
    (hc : c.Engaged) (hxp : x ≠ p) (hxq : x ≠ q) {e : Nat} (he : c.streamAux = some e) : (e,ncoh) ≠ (p,ncoh) := by
  obtain ⟨e',h1,h2,h3⟩ := h.held hx hc
  rw [he] at h1
  cases h1
  intro hek
  cases hek
  rcases h3 with h3 | h3
  · exact hxp h3.symm
  · exact hxq (h3.symm.trans (j.held h2))

theorem Inv.two (h : s.Inv size) (hca : a'.category = .endpoint) (hcb : b'.category = .rootPort)
    (hca₀ : a.category = .endpoint) (hcb₀ : b.category = .rootPort) (ha : a'.Shape p) (hb : b'.Shape q)
    (hlive : st.taken → st.state ≠ .disconnected ∧ st.state ≠ .keyPurging)
    (hna : a'.streamCount+(if (s.streams (p,ncoh)).taken then 1 else 0) =
      a.streamCount + (if st.taken then 1 else 0))
    (hnb : b'.streamCount+(if (s.streams (p,ncoh)).taken then 1 else 0) =
      b.streamCount + (if st.taken then 1 else 0))
    (hea : a'.Engaged → st.taken) (heb : b'.Engaged → b'.streamAux = some p ∧ st.taken) :
    t.Inv size := by
  have hcats : ∀ {x c}, (∃ d, s.pdevs x = some d ∧ d.category = c) → ∃ d, t.pdevs x = some d ∧ d.category = c := by
    intro x c hd
    rw [j.pdevs]
    refine exists_update _ ?_ (exists_update _ ?_ hd)
    · rintro rfl
      obtain ⟨d,hd,hc⟩ := hd
      rw [j.second] at hd
      cases hd
      rw [hcb,← hc,hcb₀]
    · rintro rfl
      obtain ⟨d,hd,hc⟩ := hd
      rw [j.first] at hd
      cases hd
      rw [hca,← hc,hca₀]
  refine ⟨?_,?_,?_,?_⟩
  · intro x c hx
    rcases j.cases hx with ⟨rfl,rfl⟩ | ⟨rfl,rfl⟩ | ⟨_,_,hx⟩
    · exact ⟨(h.shape j.second).1,hb⟩
    · exact ⟨(h.shape j.first).1,ha⟩
    · exact h.shape hx
  · intro k hk
    by_cases hkk : k = (p,ncoh)
    · subst hkk
      rw [j.self] at hk ⊢
      rw [j.pd2]
      exact ⟨rfl,(hlive hk).1,(hlive hk).2,hcats ⟨a,j.first,hca₀⟩,hcats ⟨b,j.second,hcb₀⟩⟩
    · rw [j.other hkk] at hk ⊢
      obtain ⟨h2,h3,h4,h5,h6⟩ := h.taken hk
      exact ⟨h2,h3,h4,hcats h5,hcats h6⟩
  · intro x c hx
    have hcard := naming_card j.streams (h.shape j.first).1 (by change ncoh < streamTypeCount; decide) x
    have hnm : (s.streams (p,ncoh)).taken → (s.Names (p,ncoh) x ↔ p = x ∨ q = x) := fun hk => by
      unfold Names
      rw [j.held hk]
    rw [j.pd2] at hcard
    rcases j.cases hx with ⟨rfl,rfl⟩ | ⟨rfl,rfl⟩ | ⟨hxp,hxq,hx⟩
    · have hb := h.counts j.second
      by_cases hk : (s.streams (p,ncoh)).taken <;> simp_all
      omega
    · have ha := h.counts j.first
      by_cases hk : (s.streams (x,ncoh)).taken <;> simp_all
      omega
    · have hc := h.counts hx
      by_cases hk : (s.streams (p,ncoh)).taken <;> simp_all [Ne.symm hxp,Ne.symm hxq]
  · intro x c hx hc
    rcases j.cases hx with ⟨rfl,rfl⟩ | ⟨rfl,rfl⟩ | ⟨hxp,hxq,hx⟩
    · obtain ⟨h1,h2⟩ := heb hc
      refine ⟨p,h1,?_,.inr ?_⟩ <;> rw [j.self]
      · exact h2
      · exact j.pd2
    · refine ⟨x,ha.table hca,?_,.inl rfl⟩
      rw [j.self]
      exact hea hc
    · obtain ⟨e,h1,h2,h3⟩ := h.held hx hc
      have hne := h.held_ne j hx hc hxp hxq h1
      refine ⟨e,h1,?_,?_⟩
      · rw [j.other hne]
        exact h2
      · unfold Names
        rw [j.other hne]
        exact h3

end Joint

def Party (s : Sys) (k : Nat × Nat) (id p : Nat) : Prop :=
  ∃ pd, s.pdevs p = some pd ∧ pd.streamAux = some k.1 ∧ pd.operation = id ∧
    (pd.op = (s.streams k).state.op ∨ pd.op = .streamComplete)

structure Matched (s : Sys) : Prop where
  parties : ∀ {k}, (s.streams k).taken → (s.streams k).state.op ≠ .none →
    ∃ id, s.Party k id k.1 ∧ s.Party k id (s.streams k).pd2
  bound : ∀ {p pd e}, s.pdevs p = some pd → pd.Engaged → pd.streamAux = some e →
    (s.streams (e,ncoh)).state.op ≠ .none

structure Progressing (s : Sys) : Prop where
  progress : ∀ {p pd e}, s.pdevs p = some pd → pd.op.isStream → pd.streamAux = some e →
    (s.streams (e,ncoh)).opState ≠ .none ∧
      (pd.category = .rootPort → (s.streams (e,ncoh)).opState ≠ .rpConnected)
  ready : ∀ {p pd}, s.pdevs p = some pd → pd.op = .connect ∨ pd.op = .keyRefresh →
    pd.rmiState = .ready

theorem Party.engaged (h : s.Party k id p) (hk : (s.streams k).state.op ≠ .none)
    (hp : s.pdevs p = some a) : a.Engaged ∧ a.streamAux = some k.1 := by
  obtain ⟨pd,h1,h2,_,h4⟩ := h
  rw [hp] at h1
  cases h1
  refine ⟨?_,h2⟩
  rcases h4 with h4 | h4
  · left
    rw [h4]
    exact StreamState.isStream_op hk
  · exact .inr h4

theorem Matched.two (j : Joint s t p q a b a' b' st) (h : s.Inv size) (hm : s.Matched)
    (hfa : a.Engaged → a.streamAux = some p) (hfb : b.Engaged → b.streamAux = some p)
    (hparty : st.taken → st.state.op ≠ .none → a'.streamAux = some p ∧ b'.streamAux = some p ∧
      a'.operation = b'.operation ∧ a'.op = st.state.op ∧ b'.op = st.state.op)
    (haux : a'.streamAux = some p) (hauxb : b'.Engaged → b'.streamAux = some p)
    (hea : a'.Engaged → st.state.op ≠ .none) (heb : b'.Engaged → st.state.op ≠ .none) :
    t.Matched := by
  have htp : t.pdevs p = some a' := by
    rw [j.pdevs,update_of_ne j.ne,update_self]
  have htq : t.pdevs q = some b' := by
    rw [j.pdevs,update_self]
  constructor
  · intro k hk hop
    by_cases hkk : k = (p,ncoh)
    · subst hkk
      rw [j.self] at hk hop ⊢
      obtain ⟨h1,h2,h3,h4,h5⟩ := hparty hk hop
      rw [j.pd2]
      refine ⟨a'.operation,⟨a',htp,h1,rfl,.inl ?_⟩,⟨b',htq,h2,h3.symm,.inl ?_⟩⟩
      · rw [j.self]
        exact h4
      · rw [j.self]
        exact h5
    · rw [j.other hkk] at hk hop ⊢
      obtain ⟨id,h1,h2⟩ := hm.parties hk hop
      have h2k := (h.taken hk).1
      have hk1 : ∀ {x}, s.Party k id x → t.Party k id x := by
        intro x hx
        have hnot : ∀ {y c}, s.pdevs y = some c → (c.Engaged → c.streamAux = some p) → x ≠ y := by
          rintro y c hy hc rfl
          obtain ⟨he,hx⟩ := hx.engaged hop hy
          rw [hc he] at hx
          cases hx
          exact hkk (Prod.ext rfl h2k)
        have hxp := hnot j.first hfa
        have hxq := hnot j.second hfb
        obtain ⟨c,hc,hr⟩ := hx
        refine ⟨c,?_,?_⟩
        · rw [j.pdevs,update_of_ne hxq,update_of_ne hxp]
          exact hc
        · rw [j.other hkk]
          exact hr
      exact ⟨id,hk1 h1,hk1 h2⟩
  · intro x c e hx hc he
    rcases j.cases hx with ⟨rfl,rfl⟩ | ⟨rfl,rfl⟩ | ⟨hxp,hxq,hx⟩
    · rw [hauxb hc] at he
      cases he
      rw [j.self]
      exact heb hc
    · rw [haux] at he
      cases he
      rw [j.self]
      exact hea hc
    · rw [j.other (h.held_ne j hx hc hxp hxq he)]
      exact hm.bound hx hc he

theorem Progressing.two (j : Joint s t p q a b a' b' st) (h : s.Inv size) (hg : s.Progressing)
    (haux : a'.streamAux = some p) (hauxb : b'.op.isStream → b'.streamAux = some p)
    (hst : a'.op.isStream ∨ b'.op.isStream → st.opState = .start)
    (hra : a'.op = .connect ∨ a'.op = .keyRefresh → a'.rmiState = .ready)
    (hrb : b'.op = .connect ∨ b'.op = .keyRefresh → b'.rmiState = .ready) : t.Progressing := by
  constructor
  · intro x c e hx ho he
    rcases j.cases hx with ⟨rfl,rfl⟩ | ⟨rfl,rfl⟩ | ⟨hxp,hxq,hx⟩
    · rw [hauxb ho] at he
      cases he
      rw [j.self,hst (.inr ho)]
      exact ⟨nofun,fun _ => nofun⟩
    · rw [haux] at he
      cases he
      rw [j.self,hst (.inl ho)]
      exact ⟨nofun,fun _ => nofun⟩
    · rw [j.other (h.held_ne j hx (.inl ho) hxp hxq he)]
      exact hg.progress hx ho he
  · intro x c hx ho
    rcases j.cases hx with ⟨rfl,rfl⟩ | ⟨rfl,rfl⟩ | ⟨_,_,hx⟩
    · exact hrb ho
    · exact hra ho
    · exact hg.ready hx ho

theorem Progressing.aside (hg : s.Progressing)
    (hst : ∀ {x pd}, s.pdevs x = some pd → pd.op.isStream → ∀ {e}, pd.streamAux = some e →
      (t.streams (e,ncoh)).opState = (s.streams (e,ncoh)).opState)
    (ht : ∀ {x pd}, t.pdevs x = some pd → pd.op.isStream → s.pdevs x = some pd) :
    t.Progressing := by
  constructor
  · intro x c e hx ho he
    have hx := ht hx ho
    rw [hst hx ho he]
    exact hg.progress hx ho he
  · intro x c hx ho
    refine hg.ready (ht hx ?_) ho
    rcases ho with ho | ho <;> rw [ho] <;> rfl

theorem Party.goes (h : s.Party k id p) (hsh : pd.Shape p) (hk : (s.streams k).state.op ≠ .none) (hp : s.pdevs p = some pd)
    (f : Pdev.Frame pd pd') (g : Pdev.Goes pd pd') (ht : t.pdevs p = some pd')
    (hst : (t.streams k).state = (s.streams k).state) : t.Party k id p := by
  obtain ⟨c,h1,h2,h3,h4⟩ := h
  rw [hp] at h1
  cases h1
  refine ⟨pd',ht,f.streamAux.trans h2,f.operation.trans h3,?_⟩
  rw [hst]
  have hfin : pd.commState ≠ .idle → pd'.op = pd.op.finish → pd'.op = .streamComplete := fun hn ho => by
    rcases h4 with h4 | h4
    · rw [ho]
      apply Pdev.finish_of_engaged
      rw [h4]
      exact StreamState.isStream_op hk
    · exact absurd (hsh.awaits h4) hn
  cases g with
  | stays r c o | waits l r c o => exact o ▸ h4
  | stops l w r c o =>
    rw [w] at h4
    rcases h4 with h4 | h4
    · have := StreamState.isStream_op hk
      rw [← h4] at this
      cases this
    · cases h4
  | fails n r c o => exact .inr (hfin n o)
  | succeeds l w r c o => exact .inr (hfin l.not_idle o)

theorem Party.congr (h : s.Party k id p) (hp : t.pdevs p = s.pdevs p)
    (hst : (t.streams k).state = (s.streams k).state) : t.Party k id p := by
  unfold Party
  rw [hp,hst]
  exact h

theorem Goes.stream (g : Pdev.Goes pd pd') (ho : pd'.op.isStream) : pd'.op = pd.op ∧ pd'.rmiState = pd.rmiState := by
  have hfin : pd'.op = pd.op.finish → False := fun hf => by
    rw [hf] at ho
    unfold PdevOp.finish at ho
    split at ho <;> cases ho
  cases g with
  | stays r c o | waits l r c o => exact ⟨o,r⟩
  | stops l w r c o =>
    rw [o] at ho
    cases ho
  | fails n r c o | succeeds l w r c o => exact (hfin o).elim

theorem Progressing.goes (hg : s.Progressing) (hp : s.pdevs p = some pd)
    (f : Pdev.Frame pd pd') (g : Pdev.Goes pd pd')
    (ht : t.pdevs = update s.pdevs p (some pd'))
    (hst : ∀ {x c e}, s.pdevs x = some c → c.op.isStream → (x = p → pd'.op.isStream) →
    c.streamAux = some e → (s.streams (e,ncoh)).opState ≠ .none →
    (c.category = .rootPort → (s.streams (e,ncoh)).opState ≠ .rpConnected) →
    (t.streams (e,ncoh)).opState ≠ .none ∧
    (c.category = .rootPort → (t.streams (e,ncoh)).opState ≠ .rpConnected)) :
    t.Progressing := by
  constructor
  · intro x c e hx ho he
    rcases update_some_cases ht hx with ⟨rfl,rfl⟩ | ⟨hxp,hx⟩
    · have ho' := (Goes.stream g ho).1 ▸ ho
      have he' := f.streamAux ▸ he
      obtain ⟨h1,h2⟩ := hg.progress hp ho' he'
      rw [f.category]
      exact hst hp ho' (fun _ => ho) he' h1 h2
    · obtain ⟨h1,h2⟩ := hg.progress hx ho he
      exact hst hx ho (fun h => absurd h hxp) he h1 h2
  · refine @(of_update ht (fun ho => ?_) fun x c _ hx => hg.ready hx)
    have hs : pd'.op.isStream := by
      rcases ho with ho | ho <;> rw [ho] <;> rfl
    obtain ⟨h1,h2⟩ := Goes.stream g hs
    rw [h2]
    exact hg.ready hp (h1 ▸ ho)

theorem Matched.keeps (hm : s.Matched) (hk : Keeps s t)
    (hx : ∀ {k id x}, (s.streams k).state.op ≠ .none → s.Party k id x → t.Party k id x)
    (hb : ∀ {x c e}, t.pdevs x = some c → c.Engaged → c.streamAux = some e →
      (s.streams (e,ncoh)).state.op ≠ .none) : t.Matched := by
  constructor
  · intro k htk hop
    rw [(hk k).1] at htk
    rw [(hk k).2.1] at hop
    obtain ⟨id,h1,h2⟩ := hm.parties htk hop
    rw [(hk k).2.2]
    exact ⟨id,hx hop h1,hx hop h2⟩
  · intro x c e h1 hc he
    rw [(hk _).2.1]
    exact hb h1 hc he

theorem Matched.goes (h : s.Inv size) (hm : s.Matched) (hp : s.pdevs p = some pd) (f : Pdev.Frame pd pd')
    (g : Pdev.Goes pd pd') (ht : t.pdevs = update s.pdevs p (some pd')) (hk : Keeps s t) : t.Matched := by
  refine hm.keeps hk (fun {k _ x} hop hx => ?_) fun hx hc he => ?_
  · by_cases hxp : x = p
    · subst hxp
      refine hx.goes (h.shape hp).2 hop hp f g ?_ (hk k).2.1
      rw [ht,update_self]
    · refine hx.congr ?_ (hk k).2.1
      rw [ht,update_of_ne hxp]
  · rcases update_some_cases ht hx with ⟨rfl,rfl⟩ | ⟨_,hx⟩
    · exact hm.bound hp (g.engaged hc) (f.streamAux ▸ he)
    · exact hm.bound hx hc he

theorem Matched.aside (hm : s.Matched) (hk : Keeps s t)
    (hs : ∀ {x pd}, s.pdevs x = some pd → pd.Engaged → t.pdevs x = some pd)
    (ht : ∀ {x pd}, t.pdevs x = some pd → pd.Engaged → s.pdevs x = some pd) : t.Matched := by
  refine hm.keeps hk (fun {k _ x} hop hx => ?_) fun hx hc => hm.bound (ht hx hc) hc
  have hx' := hx
  obtain ⟨c,hc,_⟩ := hx
  exact hx'.congr ((hs hc (hx'.engaged hop hc).1).trans hc.symm) (hk k).2.1

end Sys

end TfRmm.Comm
