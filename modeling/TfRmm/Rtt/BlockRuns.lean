import TfRmm.Rtt.BlockCalls

namespace TfRmm.Rtt

open TfRmm.S2tt

variable {cfg : Config} {h : Nat} {c c₀ : MapCtx} {s s₀ s' : Rmm} {irqs : Irqs} {st : Status}

structure Others (cfg : Config) (h : Nat) (c : MapCtx) (s s' : Rmm) : Prop where
  op : (s'.sro h).op = (s.sro h).op
  entry : s'.entry c.llt c.index = s.entry c.llt c.index
  held : ∀ q st, (SroOp.map c).Holds q st → (s'.granule q).state = (s.granule q).state ∧ s'.content q = s.content q
  pin : 0 < (s'.granule c.llt).refcount
  indirect : (s'.rd c.rd).indirectS2ap = (s.rd c.rd).indirectS2ap
  layout : s'.Layout cfg

structure Progress where
  state : Rmm
  drain : Drain
  drift : Int
  log : Nat → List (GranuleState × GranuleState)
  start : Rmm × MapCtx

def Progress.begun (h : Nat) (s : Rmm) (c : MapCtx) : Progress where
  state := s.stampMap h c
  drain := .yielded
  drift := 0
  log := fun _ => []
  start := (s.stampMap h c,c)

def Progress.call (cfg : Config) (h : Nat) (p : Progress) (c : MapCtx) (s : Rmm) (irqs : Irqs) : Progress :=
  let r := s.mapResume cfg (s.rd c.rd).indirectS2ap h irqs c
  { state := r.1
    drain := r.2.2
    drift := p.drift+((s.granule c.llt).refcount - (p.state.granule c.llt).refcount)
    log := fun q =>
      if (r.1.granule q).state = (s.granule q).state then p.log q
      else p.log q ++ [((s.granule q).state,(r.1.granule q).state)]
    start := if c.rollback then p.start else (s,c) }

inductive BlockRun (cfg : Config) (h : Nat) (s₀ : Rmm) (c₀ : MapCtx) : Progress → Prop where
  | stamped : BlockRun cfg h s₀ c₀ (.begun h s₀ c₀)
  | call {p : Progress} {c : MapCtx} {s : Rmm} (run : BlockRun cfg h s₀ c₀ p) (hy : p.drain = .yielded)
      (hop : (p.state.sro h).op = .map c) (ho : Others cfg h c p.state s) (irqs : Irqs) :
      BlockRun cfg h s₀ c₀ (p.call cfg h c s irqs)

structure Logged (c : MapCtx) (log : Nat → List (GranuleState × GranuleState)) : Prop where
  coarse : c.coarse = true → ∀ q,
    log q = if InBlock c.pa (mapSize c.level) q then [(.delegated,.partialUnit)] else []
  held : c.coarse = false → ∀ q, InBlock c.pa c.pendingOff q → log q = [(.delegated,c.mem.mappedState)]
  rest : c.coarse = false → ∀ q, ¬ InBlock c.pa c.pendingOff q → log q = [] ∨
    c.rollback = true ∧ log q = [(.delegated,c.mem.mappedState),(c.mem.mappedState,.delegated)]

structure Live (cfg : Config) (h : Nat) (s₀ : Rmm) (c₀ : MapCtx) (p : Progress) (c : MapCtx) : Prop where
  op : (p.state.sro h).op = .map c
  same : c₀.Same c
  ok : c.Ok cfg
  entry : p.state.entry c₀.llt c₀.index = (s₀.entry c₀.llt c₀.index).setDrainPending h
  ref : ((p.state.granule c₀.llt).refcount : Int) = (s₀.granule c₀.llt).refcount + 1 + p.drift
  indirect : (p.state.rd c₀.rd).indirectS2ap = (s₀.rd c₀.rd).indirectS2ap
  held : ∀ q st, (SroOp.map c).Holds q st → (p.state.granule q).state = st
  room : c.coarse = true → c.pendingOff < mapSize c.level ∧ c.rollback = false
  zero : c.mem = .data → ∀ q, InBlock c.pa c.pendingOff q → p.state.content q = 0
  kind : c.mem = .dev → c.pendingOff ≠ 0 →
    c.cohType = cfg.bank c.pa ∧ ∀ q, InBlock c.pa c.pendingOff q → cfg.bank q = cfg.bank c.pa
  log : Logged c p.log
  stop : c.rollback = true → c₀.Same p.start.2 ∧ p.start.1.Stops cfg p.start.2 c.retErr

structure BlockMapped (cfg : Config) (s₀ : Rmm) (c₀ : MapCtx) (p : Progress) : Prop where
  entry : p.state.entry c₀.llt c₀.index =
    Rmm.assignedForm (s₀.rd c₀.rd).indirectS2ap c₀.mem (s₀.entry c₀.llt c₀.index) c₀.pa
  ref : ((p.state.granule c₀.llt).refcount : Int) = (s₀.granule c₀.llt).refcount + 1 + p.drift
  state : ∀ q, InBlock c₀.pa (mapSize c₀.level) q → (p.state.granule q).state = c₀.mem.mappedState
  moves : ∀ q, InBlock c₀.pa (mapSize c₀.level) q → p.log q = [(.delegated,c₀.mem.mappedState)] ∨
    c₀.mem = .data ∧ p.log q = [(.delegated,.partialUnit),(.partialUnit,.data)]
  outside : ∀ q, ¬ InBlock c₀.pa (mapSize c₀.level) q → p.log q = []
  zeroed : c₀.mem = .data → ∀ q, InBlock c₀.pa (mapSize c₀.level) q → p.state.content q = 0
  kind : c₀.mem = .dev → ∀ q, InBlock c₀.pa (mapSize c₀.level) q → cfg.bank q = cfg.bank c₀.pa

structure BlockRestored (cfg : Config) (s₀ : Rmm) (c₀ : MapCtx) (p : Progress) (st : Status) : Prop where
  entry : p.state.entry c₀.llt c₀.index = s₀.entry c₀.llt c₀.index
  ref : ((p.state.granule c₀.llt).refcount : Int) = (s₀.granule c₀.llt).refcount + p.drift
  moves : ∀ q, p.log q = [] ∨ p.log q = [(.delegated,c₀.mem.mappedState),(c₀.mem.mappedState,.delegated)]
  error : c₀.Same p.start.2 ∧ p.start.1.Stops cfg p.start.2 st

theorem Mem.mappedState_ne_delegated (mem : Mem) : mem.mappedState ≠ .delegated ∧ mem.mappedState ≠ .partialUnit := by
  cases mem <;> simp [Mem.mappedState]

theorem clear_setDrainPending (e : S2tte) (h : Nat) : (e.setDrainPending h).clearDrainPending = e.clearDrainPending := by
  cases e <;> rfl

section Calls

variable {p : Progress} (l : Live cfg h s₀ c₀ p c) (ho : Others cfg h c p.state s)

include l ho

theorem Live.call_end (irqs : Irqs) : CallEnd cfg h s c (p.call cfg h c s irqs).state (p.call cfg h c s irqs).drain := by
  refine Rmm.mapResume_end ho.layout l.ok (ho.op.trans l.op) (fun hco q hq => ?_) l.room (fun hd q hq => ?_) l.kind
  · have hh : (SroOp.map c).Holds q .partialUnit := (holds_coarse hco).mpr ⟨hq,rfl⟩
    rw [(ho.held q _ hh).1]
    exact l.held q _ hh
  · obtain ⟨st,hh⟩ := l.ok.holds hq
    rw [(ho.held q _ hh).2]
    exact l.zero hd q hq

theorem Live.entry_now : s.entry c.llt c.index = (s₀.entry c₀.llt c₀.index).setDrainPending h := by
  rw [ho.entry,l.same.llt,l.same.index]
  exact l.entry

omit ho in
theorem Live.ref_now {d : Int} (hd : d = p.drift+((s.granule c.llt).refcount - (p.state.granule c.llt).refcount)) :
    ((s.granule c₀.llt).refcount : Int) = (s₀.granule c₀.llt).refcount + 1 + d := by
  have := l.ref
  rw [l.same.llt] at hd
  omega

theorem Live.indirect_now : (s.rd c.rd).indirectS2ap = (s₀.rd c₀.rd).indirectS2ap := by
  rw [ho.indirect,l.same.rd]
  exact l.indirect

theorem Live.held_now (hco : c.coarse = false) {q : Nat} (hq : InBlock c.pa c.pendingOff q) :
    (s.granule q).state = c.mem.mappedState := by
  have hh : (SroOp.map c).Holds q c.mem.mappedState := (holds_fine hco).mpr ⟨hq,rfl⟩
  rw [(ho.held q _ hh).1]
  exact l.held q _ hh

theorem Live.unit_now (hco : c.coarse = true) {q : Nat} (hq : InBlock c.pa (mapSize c.level) q) :
    (s.granule q).state = .partialUnit := by
  have hh : (SroOp.map c).Holds q .partialUnit := (holds_coarse hco).mpr ⟨hq,rfl⟩
  rw [(ho.held q _ hh).1]
  exact l.held q _ hh

theorem Live.log_moved (hco : c.coarse = false) {hi : Nat} {t : Rmm} (hm : Moved c.mem c.pa c.pendingOff hi s t)
    (hf : c.rollback = true → hi ≤ c.pendingOff) {f : Nat → List (GranuleState × GranuleState)}
    (hlog : ∀ q, f q = if (t.granule q).state = (s.granule q).state then p.log q
      else p.log q ++ [((s.granule q).state,(t.granule q).state)]) (q : Nat) :
    (InBlock c.pa hi q → f q = [(.delegated,c.mem.mappedState)]) ∧
      (¬ InBlock c.pa hi q → f q = [] ∨ (c.rollback = true ∨ hi < c.pendingOff) ∧
        f q = [(.delegated,c.mem.mappedState),(c.mem.mappedState,.delegated)]) := by
  have hne := c.mem.mappedState_ne_delegated.1
  have hup : InBlock (c.pa+c.pendingOff) (hi-c.pendingOff) q → f q = [(.delegated,c.mem.mappedState)] :=
    fun hq => by
      obtain ⟨h1,h2⟩ := hm.up q hq
      have hnot : ¬ InBlock c.pa c.pendingOff q := fun hin => by
        omega
      rw [hlog q,h1,h2,if_neg hne]
      rcases l.log.rest hco q hnot with hl | ⟨hr,_⟩
      · rw [hl]
        rfl
      have := hf hr
      omega
  have hdown : InBlock (c.pa+hi) (c.pendingOff-hi) q →
      f q = [(.delegated,c.mem.mappedState),(c.mem.mappedState,.delegated)] := fun hq => by
    have hin : InBlock c.pa c.pendingOff q := ⟨by omega,by have := hq.1; have := hq.2.1; omega,hq.2.2⟩
    rw [hlog q,hm.down q hq,l.held_now ho hco hin,if_neg (Ne.symm hne),l.log.held hco q hin]
    rfl
  refine ⟨fun hq => ?_,fun hq => ?_⟩
  · by_cases hin : InBlock c.pa c.pendingOff q
    · have hsame := hm.rest q (fun hu => by have := hu.1; have := hin.2.1; omega)
        fun hd => by have := hd.1; have := hq.2.1; omega
      rw [hlog q,if_pos hsame]
      exact l.log.held hco q hin
    · refine hup ⟨?_,?_,hq.2.2⟩
      · by_contra hlt
        exact hin ⟨hq.1,by omega,hq.2.2⟩
      · have := hq.2.1
        by_contra hlt
        exact hin ⟨hq.1,by omega,hq.2.2⟩
  · by_cases hin : InBlock c.pa c.pendingOff q
    · have hge : c.pa+hi ≤ q := by
        by_contra hlt
        exact hq ⟨hin.1,by omega,hin.2.2⟩
      have := hin.2.1
      exact .inr ⟨.inr (by omega),hdown ⟨hge,by omega,hin.2.2⟩⟩
    · have hsame := hm.rest q (fun hu => hq ⟨by omega,by have := hu.1; have := hu.2.1; omega,hu.2.2⟩)
        fun hd => hin ⟨by omega,by have := hd.1; have := hd.2.1; omega,hd.2.2⟩
      rw [hlog q,if_pos hsame]
      exact (l.log.rest hco q hin).imp_right fun hr => ⟨.inl hr.1,hr.2⟩

omit l ho in
theorem MapCtx.Same.trans {c' : MapCtx} (h : c₀.Same c) (h' : c.Same c') : c₀.Same c' :=
  ⟨h'.mem.trans h.mem,h'.llt.trans h.llt,h'.rd.trans h.rd,h'.pa.trans h.pa,h'.index.trans h.index,h'.level.trans h.level,
    h'.ipa.trans h.ipa,h'.initBase.trans h.initBase⟩

theorem Live.paused {c' : MapCtx} (hs : (p.call cfg h c s irqs).state = s') (a : At cfg h s c s' c') :
    Live cfg h s₀ c₀ (p.call cfg h c s irqs) c' := by
  subst hs
  have hco := a.fine
  have hm := a.moved
  have hlog := l.log_moved ho hco hm a.back fun _ => rfl
  refine ⟨a.op,l.same.trans a.same,a.ok,?_,?_,?_,fun q st hq => ?_,fun hx => ?_,fun hd q hq => ?_,fun hd hne => ?_,
    ⟨fun hx => ?_,fun _ q hq => ?_,fun _ q hq => ?_⟩,fun hr => ?_⟩
  · have := a.here
    rw [l.entry_now ho,l.same.llt,l.same.index] at this
    exact this
  · have h1 := a.ref
    have h2 := l.ref_now (s := s) rfl
    rw [l.same.llt] at h1
    rw [h1]
    exact h2
  · have := l.indirect_now ho
    rw [l.same.rd] at this
    rw [a.kept.rd]
    exact this
  · obtain ⟨hin,rfl⟩ := (holds_fine a.coarse).mp hq
    rw [a.same.pa] at hin
    rw [a.same.mem]
    by_cases hlt : InBlock (c.pa+c.pendingOff) (c'.pendingOff-c.pendingOff) q
    · exact (hm.up q hlt).2
    have hlow : InBlock c.pa c.pendingOff q := by
      refine ⟨hin.1,?_,hin.2.2⟩
      by_contra hge
      exact hlt ⟨by omega,by omega,hin.2.2⟩
    rw [hm.rest q hlt fun hd => by have := hd.1; have := hin.2.1; omega]
    exact l.held_now ho hco hlow
  · rw [a.coarse] at hx
    cases hx
  · rw [a.same.mem] at hd
    rw [a.same.pa] at hq
    exact a.zero hd q hq
  · rw [a.same.mem] at hd
    rw [a.same.pa]
    exact a.kind hd hne
  · rw [a.coarse] at hx
    cases hx
  · rw [a.same.pa] at hq
    rw [a.same.mem]
    exact (hlog q).1 hq
  · rw [a.same.pa] at hq
    rw [a.same.mem]
    refine ((hlog q).2 hq).imp_right fun hr => ⟨?_,hr.2⟩
    cases hx : c'.rollback with
    | true => rfl
    | false =>
      obtain ⟨h1,h2⟩ := a.forward hx
      rcases hr.1 with hr | hr
      · rw [h1] at hr
        cases hr
      · omega
  · rcases a.stop hr with ⟨hr',he⟩ | ⟨hr',hst⟩
    · have : (p.call cfg h c s irqs).start = p.start := if_pos hr'
      rw [this,he]
      exact l.stop hr'
    · have : (p.call cfg h c s irqs).start = (s,c) := if_neg (by rw [hr']; simp)
      rw [this]
      exact ⟨l.same,hst⟩

theorem Live.zeroing {c' : MapCtx} (hs : (p.call cfg h c s irqs).state = s') (z : Zeroing cfg h s c s' c')
    (hlt : c'.pendingOff < mapSize c.level) : Live cfg h s₀ c₀ (p.call cfg h c s irqs) c' := by
  have hlog : ∀ q, (p.call cfg h c s irqs).log q = if (s'.granule q).state = (s.granule q).state then p.log q
      else p.log q ++ [((s.granule q).state,(s'.granule q).state)] := fun q => by
    rw [← hs]
    rfl
  subst hs
  refine ⟨z.op,l.same.trans z.same,z.ok,?_,?_,?_,fun q st hq => ?_,fun _ => ⟨by rw [z.same.level]; exact hlt,z.forward⟩,
    fun _ q hq => ?_,fun hd => ?_,⟨fun _ q => ?_,fun hx => ?_,fun hx => ?_⟩,fun hr => ?_⟩
  · have := z.here
    rw [l.entry_now ho,l.same.llt,l.same.index] at this
    exact this
  · have h1 := z.ref
    have h2 := l.ref_now (s := s) rfl
    rw [l.same.llt] at h1
    rw [h1]
    exact h2
  · have := l.indirect_now ho
    rw [l.same.rd] at this
    rw [z.kept.rd]
    exact this
  · obtain ⟨hin,rfl⟩ := (holds_coarse z.coarse).mp hq
    rw [z.same.pa,z.same.level] at hin
    exact z.unit q hin
  · rw [z.same.pa] at hq
    exact z.zero q hq
  · rw [z.ok.data z.coarse] at hd
    cases hd
  · rw [z.same.pa,z.same.level,hlog]
    have hfresh : c.coarse = false → ¬ InBlock c.pa c.pendingOff q → p.log q = [] := fun hco hno =>
      (l.log.rest hco q hno).resolve_right fun hr => absurd (hr.1.symm.trans z.began) (by simp)
    by_cases hq : InBlock c.pa (mapSize c.level) q
    · rw [if_pos hq,z.unit q hq]
      cases hco : c.coarse with
      | true =>
        rw [l.unit_now ho hco hq,if_pos rfl,l.log.coarse hco q]
        exact if_pos hq
      | false =>
        obtain ⟨h0,hdel⟩ := z.claimed hco
        rw [hdel q hq,if_neg (by simp),hfresh hco fun hin => by have := hin.1; have := hin.2.1; omega]
        rfl
    · rw [if_neg hq,z.rest q hq,if_pos rfl]
      cases hco : c.coarse with
      | true =>
        rw [l.log.coarse hco q]
        exact if_neg hq
      | false =>
        have := l.ok.off
        exact hfresh hco fun hin => hq ⟨hin.1,by omega,hin.2.2⟩
  · rw [z.coarse] at hx
    cases hx
  · rw [z.coarse] at hx
    cases hx
  · rw [z.forward] at hr
    cases hr

theorem Live.done (hs : (p.call cfg h c s irqs).state = s') (f : Done cfg h s c s') :
    BlockMapped cfg s₀ c₀ (p.call cfg h c s irqs) := by
  have hlog : ∀ q, (p.call cfg h c s irqs).log q = if (s'.granule q).state = (s.granule q).state then p.log q
      else p.log q ++ [((s.granule q).state,(s'.granule q).state)] := fun q => by
    rw [← hs]
    rfl
  subst hs
  have hmem := l.same.mem
  have hpa := l.same.pa
  have hlev := l.same.level
  have hfine : c.coarse = false → ∀ q, (InBlock c.pa (mapSize c.level) q →
      (p.call cfg h c s irqs).log q = [(.delegated,c.mem.mappedState)]) ∧
      (¬ InBlock c.pa (mapSize c.level) q → (p.call cfg h c s irqs).log q = [] ∨
        (c.rollback = true ∨ mapSize c.level < c.pendingOff) ∧
          (p.call cfg h c s irqs).log q = [(.delegated,c.mem.mappedState),(c.mem.mappedState,.delegated)]) :=
    fun hco q => l.log_moved ho hco (f.moved hco) (fun hr => absurd (hr.symm.trans f.forward) (by simp)) hlog q
  refine ⟨?_,?_,fun q hq => ?_,fun q hq => ?_,fun q hq => ?_,fun hd q hq => ?_,fun hd q hq => ?_⟩
  · have := f.here
    rw [l.entry_now ho,l.indirect_now ho,l.same.llt,l.same.index,hmem,hpa] at this
    rw [this]
    unfold Rmm.assignedForm
    rw [clear_setDrainPending]
  · have h1 := f.ref
    have h2 := l.ref_now (s := s) rfl
    rw [l.same.llt] at h1
    rw [h1]
    exact h2
  · rw [← hpa,← hlev] at hq
    cases hco : c.coarse with
    | true =>
      rw [f.state hco q hq,← hmem,l.ok.data hco]
      rfl
    | false =>
      have hm := f.moved hco
      by_cases hup : InBlock (c.pa+c.pendingOff) (mapSize c.level - c.pendingOff) q
      · rw [(hm.up q hup).2,hmem]
      have hlow : InBlock c.pa c.pendingOff q := by
        refine ⟨hq.1,?_,hq.2.2⟩
        by_contra hge
        exact hup ⟨by omega,by omega,hq.2.2⟩
      have := l.ok.off
      rw [hm.rest q hup fun hd => by have := hd.1; have := hd.2.1; omega,l.held_now ho hco hlow,hmem]
  · rw [← hpa,← hlev] at hq
    cases hco : c.coarse with
    | true =>
      have hdata := l.ok.data hco
      refine .inr ⟨hmem.symm.trans hdata,?_⟩
      rw [hlog,f.state hco q hq,l.unit_now ho hco hq,if_neg (by simp),l.log.coarse hco q,if_pos hq]
      rfl
    | false =>
      rw [← hmem]
      exact .inl ((hfine hco q).1 hq)
  · rw [← hpa,← hlev] at hq
    cases hco : c.coarse with
    | true =>
      rw [hlog,f.rest q hq,if_pos rfl,l.log.coarse hco q]
      exact if_neg hq
    | false =>
      rcases (hfine hco q).2 hq with hl | ⟨hr | hr,_⟩
      · exact hl
      · rw [f.forward] at hr
        cases hr
      · have := l.ok.off
        omega
  · rw [← hpa,← hlev] at hq
    rw [← hmem] at hd
    exact f.zero hd q hq
  · rw [← hpa,← hlev] at hq
    rw [← hmem] at hd
    rw [← hpa]
    exact f.kind hd q hq

theorem Live.undone (hclear : (s₀.entry c₀.llt c₀.index).clearDrainPending = s₀.entry c₀.llt c₀.index)
    (hs : (p.call cfg h c s irqs).state = s') (f : Undone cfg h s c s' st) :
    BlockRestored cfg s₀ c₀ (p.call cfg h c s irqs) st := by
  have hm : Moved c.mem c.pa c.pendingOff 0 s (p.call cfg h c s irqs).state := by
    rw [hs]
    exact f.moved
  have hno : ∀ q, ¬ InBlock c.pa 0 q := fun q hq => by omega
  refine ⟨?_,?_,fun q => ?_,?_⟩
  · have := f.here
    rw [l.entry_now ho,l.same.llt,l.same.index,clear_setDrainPending,hclear] at this
    rw [hs]
    exact this
  · have h1 := f.ref
    have h2 := l.ref_now (s := s) rfl
    rw [l.same.llt] at h1
    have h3 := ho.pin
    rw [l.same.llt] at h3
    rw [hs,h1]
    show ((_-1 : Nat) : Int) = _+(p.drift+_)
    omega
  · have := (l.log_moved ho f.fine hm (fun _ => Nat.zero_le _) (fun _ => rfl) q).2
      (hno q)
    rw [l.same.mem] at this
    exact this.imp_right And.right
  · rcases f.stop with ⟨hr,he⟩ | ⟨hr,hst⟩
    · have : (p.call cfg h c s irqs).start = p.start := if_pos hr
      rw [this,he]
      exact l.stop hr
    · have : (p.call cfg h c s irqs).start = (s,c) := if_neg (by rw [hr]; simp)
      rw [this]
      exact ⟨l.same,hst⟩

end Calls

variable {rd : Rd} {g : MapRange} {i outTop pa : Nat} {p : Progress}

theorem CallEnd.kept {s' : Rmm} {d : Drain} (e : CallEnd cfg h s c s' d) : Kept h c s s' := by
  cases e with
  | paused a => exact a.kept
  | zeroing z _ => exact z.kept
  | done f | undone f => exact f.kept

theorem Live.begun (hok : c₀.Ok cfg) (hco : c₀.coarse = false) (hr : c₀.rollback = false) (h0 : c₀.pendingOff = 0) :
    Live cfg h s₀ c₀ (.begun h s₀ c₀) c₀ := by
  have hno : ∀ q, ¬ InBlock c₀.pa c₀.pendingOff q := fun q hq => by omega
  refine ⟨by simp [Progress.begun,Rmm.stampMap,Rmm.putMap],⟨rfl,rfl,rfl,rfl,rfl,rfl,rfl,rfl⟩,hok,?_,?_,rfl,fun q st hq => ?_,
    fun hx => ?_,fun _ q hq => absurd hq (hno q),fun _ hne => absurd h0 hne,
    ⟨fun hx => ?_,fun _ q hq => absurd hq (hno q),fun _ q _ => .inl rfl⟩,fun hx => ?_⟩
  · exact (Rmm.setEntry_entry ..).trans (if_pos ⟨rfl,rfl⟩)
  · simp [Progress.begun,Rmm.stampMap,Rmm.putMap]
  · exact absurd ((holds_fine hco).mp hq).1 (hno q)
  · rw [hco] at hx
    cases hx
  · rw [hco] at hx
    cases hx
  · rw [hr] at hx
    cases hx

structure Outcome (cfg : Config) (h : Nat) (s₀ : Rmm) (c₀ : MapCtx) (p : Progress) : Prop where
  yielded : p.drain = .yielded → ∃ c, Live cfg h s₀ c₀ p c
  mapped : p.drain = .mapped → BlockMapped cfg s₀ c₀ p
  failed : ∀ st, p.drain = .failed st → BlockRestored cfg s₀ c₀ p st

theorem Live.outcome (hclear : (s₀.entry c₀.llt c₀.index).clearDrainPending = s₀.entry c₀.llt c₀.index)
    (l : Live cfg h s₀ c₀ p c) (ho : Others cfg h c p.state s) : Outcome cfg h s₀ c₀ (p.call cfg h c s irqs) := by
  have he := l.call_end ho irqs
  generalize hs : (p.call cfg h c s irqs).state = s' at he
  generalize hd : (p.call cfg h c s irqs).drain = d at he
  cases he with
  | paused a => refine ⟨fun _ => ⟨_,l.paused ho hs a⟩,fun hx => ?_,fun st hx => ?_⟩ <;> rw [hd] at hx <;> cases hx
  | zeroing z hlt =>
    refine ⟨fun _ => ⟨_,l.zeroing ho hs z hlt⟩,fun hx => ?_,fun st hx => ?_⟩ <;> rw [hd] at hx <;> cases hx
  | done f => refine ⟨fun hx => ?_,fun _ => l.done ho hs f,fun st hx => ?_⟩ <;> rw [hd] at hx <;> cases hx
  | undone f =>
    refine ⟨fun hx => ?_,fun hx => ?_,fun st hx => ?_⟩ <;> rw [hd] at hx <;> cases hx
    exact l.undone ho hclear hs f

theorem BlockRun.outcome (hok : c₀.Ok cfg) (hco : c₀.coarse = false) (hr : c₀.rollback = false)
    (h0 : c₀.pendingOff = 0) (hclear : (s₀.entry c₀.llt c₀.index).clearDrainPending = s₀.entry c₀.llt c₀.index)
    (run : BlockRun cfg h s₀ c₀ p) : Outcome cfg h s₀ c₀ p := by
  induction run with
  | stamped => exact ⟨fun _ => ⟨_,Live.begun hok hco hr h0⟩,nofun,fun st hx => (by cases hx)⟩
  | call run hy hop ho irqs ih =>
    obtain ⟨c,l⟩ := ih.yielded hy
    rw [l.op] at hop
    cases hop
    exact l.outcome hclear ho

theorem popped_aligned {delegated irq : Bool} {level : Int} {top : Nat} {blocks rest : List Block}
    (hp : mapPopNextBlock rd delegated level outTop top irq blocks = .block pa rest) : pa % mapSize level = 0 := by
  unfold mapPopNextBlock at hp
  split at hp
  · split at hp <;> cases hp
  split at hp
  · cases hp
  split at hp
  · cases hp
  split at hp
  · cases hp
  split at hp
  · cases hp
  split at hp
  · cases hp
  next hal =>
  split at hp
  · cases hp
  · cases hp
    simpa using hal

theorem stamped_plain {mem : Mem} {e : S2tte} {level : Int} (hs : s.mapOneEntry cfg mem e pa level = .stamp) :
    e.isUnassigned = true ∧ e.clearDrainPending = e := by
  have hclear : ∀ {e : S2tte}, e.drainPending = false → e.clearDrainPending = e := fun {e} hp => by
    cases e <;> first | rfl | (rename_i m; cases m <;> first | rfl | cases hp)
  cases mem with
  | data =>
    simp only [Rmm.mapOneEntry,Rmm.dataMapOneEntry] at hs
    split at hs
    · split at hs
      · cases hs
      · split at hs
        · cases hs
        · split at hs <;> cases hs
    · split at hs
      · cases hs
      next hu =>
      split at hs
      · cases hs
      next hp => exact ⟨by simpa using hu,hclear (by simpa using hp)⟩
  | dev =>
    simp only [Rmm.mapOneEntry,Rmm.devMapOneEntry] at hs
    split at hs
    · cases hs
    next hu =>
    split at hs
    · cases hs
    next hp =>
      refine ⟨?_,hclear (by simpa using hp)⟩
      cases e <;> first | rfl | simp [S2tte.isUnassignedEmpty,S2tte.isUnassignedDestroyed,S2tte.isUnassignedRipas] at hu

section Frame

variable {n : Nat} {indirect : Bool}

theorem mapRollbackPending_rd : (Rmm.mapRollbackPending h n irqs c s).1.rd = s.rd := by
  induction n generalizing irqs c s with
  | zero => rfl
  | succ n ih =>
    simp only [Rmm.mapRollbackPending]
    split
    · rfl
    split
    · rfl
    · exact ih

theorem mapZeroCoarse_rd : (Rmm.mapZeroCoarse h n irqs c s).1.rd = s.rd := by
  induction n generalizing irqs c s with
  | zero => rfl
  | succ n ih =>
    simp only [Rmm.mapZeroCoarse]
    split
    · rfl
    split
    · rfl
    · exact ih

theorem mapDrainPending_rd : (Rmm.mapDrainPending cfg indirect h n irqs c s).1.rd = s.rd := by
  induction n generalizing irqs c s with
  | zero => rfl
  | succ n ih =>
    simp only [Rmm.mapDrainPending]
    split
    · rfl
    split
    · have hz := @mapZeroCoarse_rd h c s irqs ((mapSize c.level - c.pendingOff) / granuleSize)
      split <;> rename_i hr <;> rw [hr] at hz <;> exact hz
    split
    · rfl
    split
    · exact mapRollbackPending_rd
    split
    · exact mapRollbackPending_rd
    split
    · exact mapRollbackPending_rd
    split
    · exact ih
    · refine ih.trans ?_
      split <;> rfl

theorem mapResume_rd : (s.mapResume cfg indirect h irqs c).1.rd = s.rd := by
  unfold Rmm.mapResume
  split
  · exact mapRollbackPending_rd
  · exact mapDrainPending_rd

end Frame

structure Turn where
  left : Nat
  index : Nat
  outTop : Nat
  blocks : List Block
  irqs : Irqs
  state : Rmm

namespace Turn

variable {t t' : Turn} {rest : List Block} {r : Prepared}

def run (cfg : Config) (rd : Rd) (g : MapRange) (h : Nat) (t : Turn) : Rmm × Nat × Drain :=
  Rmm.mapRange cfg rd g h t.left t.index t.outTop t.blocks t.irqs t.state

def next (g : MapRange) (t : Turn) (rest : List Block) (irqs : Irqs) (s : Rmm) : Turn where
  left := t.left-1
  index := t.index+1
  outTop := t.outTop + mapSize g.level
  blocks := rest
  irqs := irqs
  state := s

structure Takes (cfg : Config) (rd : Rd) (g : MapRange) (t : Turn) (pa : Nat) (rest : List Block) (r : Prepared) :
    Prop where
  left : 0 < t.left
  block : mapPopNextBlock rd true g.level t.outTop g.top t.irqs.sample.1 t.blocks = .block pa rest
  region : ¬ cfg.regionSize < mapSize g.level
  allowed : g.allowed pa = true
  entry : t.state.mapOneEntry cfg g.mem (t.state.entry g.llt t.index) pa g.level = r

def resume (cfg : Config) (rd : Rd) (g : MapRange) (h : Nat) (t : Turn) (pa : Nat) : Rmm × Irqs × Drain :=
  (t.state.stampMap h (g.ctx pa t.outTop t.index)).mapResume cfg rd.indirectS2ap h t.irqs.sample.2
    (g.ctx pa t.outTop t.index)

inductive Next (cfg : Config) (rd : Rd) (g : MapRange) (h : Nat) : Turn → Turn → Prop where
  | ready {t : Turn} {pa : Nat} {rest : List Block} (ht : t.Takes cfg rd g pa rest .ready) :
      Next cfg rd g h t (t.next g rest t.irqs.sample.2 t.state)
  | mapped {t : Turn} {pa : Nat} {rest : List Block} (ht : t.Takes cfg rd g pa rest .stamp)
      (hd : (t.resume cfg rd g h pa).2.2 = .mapped) :
      Next cfg rd g h t (t.next g rest (t.resume cfg rd g h pa).2.1 (t.resume cfg rd g h pa).1)

theorem Takes.run_eq (ht : t.Takes cfg rd g pa rest r) : t.run cfg rd g h = match r with
    | .refuse st => (t.state,t.outTop,.failed st)
    | .ready => (t.next g rest t.irqs.sample.2 t.state).run cfg rd g h
    | .stamp => match t.resume cfg rd g h pa with
      | (s',_,.failed st) => (s',t.outTop,.failed st)
      | (s',_,.yielded) => (s',t.outTop,.yielded)
      | (s',irqs',.mapped) => (t.next g rest irqs' s').run cfg rd g h := by
  obtain ⟨_ | n,i,outTop,blocks,irqs,s⟩ := t
  · exact absurd ht.left (lt_irrefl _)
  simp only [run,Rmm.mapRange,ht.block,if_neg ht.region,ht.allowed,ht.entry,next,resume]
  cases r <;> rfl

theorem Next.run_eq (hn : Next cfg rd g h t t') : t.run cfg rd g h = t'.run cfg rd g h := by
  cases hn with
  | ready ht => exact ht.run_eq
  | mapped ht hd =>
    rw [ht.run_eq]
    generalize t.resume cfg rd g h _ = x at hd
    obtain ⟨s',irqs',d⟩ := x
    cases hd
    rfl

theorem Next.rd_eq (hn : Next cfg rd g h t t') : t'.state.rd = t.state.rd := by
  cases hn with
  | ready => rfl
  | mapped => exact mapResume_rd

theorem reach (hr : Relation.ReflTransGen (Next cfg rd g h) t t') :
    t.run cfg rd g h = t'.run cfg rd g h ∧ t'.state.rd = t.state.rd := by
  induction hr with
  | refl => exact ⟨rfl,rfl⟩
  | tail _ hn ih => exact ⟨ih.1.trans hn.run_eq,hn.rd_eq.trans ih.2⟩

theorem Takes.ok (ht : t.Takes cfg rd g pa rest r) : (g.ctx pa t.outTop t.index).Ok cfg :=
  ⟨nofun,nofun,popped_aligned ht.block,Nat.le_of_not_lt ht.region,Nat.zero_le _,rfl,nofun⟩

theorem Takes.outcome (ht : t.Takes cfg rd g pa rest .stamp) (run : BlockRun cfg h t.state (g.ctx pa t.outTop t.index) p) :
    Outcome cfg h t.state (g.ctx pa t.outTop t.index) p :=
  run.outcome ht.ok rfl rfl rfl (stamped_plain ht.entry).2

end Turn

def Untouched (t₀ i₀ : Nat) (s s' : Rmm) : Prop := ∀ t j, t ≠ t₀ ∨ j ≠ i₀ → s'.entry t j = s.entry t j

theorem stampMap_untouched : Untouched c.llt c.index s (s.stampMap h c) := fun t j hne => by
  refine (Rmm.setEntry_entry ..).trans (if_neg fun he => ?_)
  exact hne.elim (fun hn => hn he.1) fun hn => hn he.2

theorem Outcome.untouched (o : Outcome cfg h s₀ c₀ p) (hy : p.drain = .yielded) (hop : (p.state.sro h).op = .map c)
    (ho : Others cfg h c p.state s) : Untouched c₀.llt c₀.index s (p.call cfg h c s irqs).state := by
  obtain ⟨c',l⟩ := o.yielded hy
  rw [l.op] at hop
  cases hop
  intro t j hne
  rw [← l.same.llt,← l.same.index] at hne
  exact (l.call_end ho _).kept.entry t j hne

structure Assigned (indirect : Bool) (e : S2tte) (pa : Nat) (e' : S2tte) : Prop where
  form : e' = .assigned e.getRipas pa (e.ap.get indirect false)
  perm : e'.ap.perm = e.ap.perm
  ap : e.ap.get indirect false = e.ap → e'.ap = e.ap

theorem assigned_of_form {indirect : Bool} {e e' : S2tte} (hclear : e.clearDrainPending = e)
    (hf : e' = Rmm.assignedForm indirect .data e pa) : Assigned indirect e pa e' := by
  have hform : e' = .assigned e.getRipas pa (e.ap.get indirect false) := by
    rw [hf]
    unfold Rmm.assignedForm
    rw [hclear]
    rfl
  refine ⟨hform,?_,fun hap => ?_⟩
  · rw [hform]
    unfold Ap.get
    cases indirect <;> rfl
  · rw [hform]
    exact hap

namespace MapCommand

variable {m : MapCommand} {t : Turn} {rest : List Block}

structure Stamps (cfg : Config) (s : Rmm) (m : MapCommand) (h : Nat) (g : MapRange) (t : Turn) (pa : Nat) : Prop where
  swept : ∃ i bs, s.mapEntry cfg m = .ok (h,g,i,bs) ∧ Relation.ReflTransGen (Turn.Next cfg (s.rd m.rdAddr) g h)
    ⟨s2ttesPerS2tt-i,i,m.base,bs,m.irqs,s.setSro h ⟨.reserved,.idle⟩⟩ t
  taken : ∃ rest, t.Takes cfg (s.rd m.rdAddr) g pa rest .stamp

def firstCall (cfg : Config) (h : Nat) (g : MapRange) (t : Turn) (pa : Nat) : Progress :=
  (Progress.begun h t.state (g.ctx pa t.outTop t.index)).call cfg h (g.ctx pa t.outTop t.index)
    (t.state.stampMap h (g.ctx pa t.outTop t.index)) t.irqs.sample.2

theorem entry_range {i : Nat} {bs : List Block} (he : s.mapEntry cfg m = .ok (h,g,i,bs)) :
    g.mem = m.mem ∧ g.rdAddr = m.rdAddr ∧ g.base = m.base ∧ g.allowed = m.allowed ∧ m.owned = true ∧ m.vdev = .success ∧
      ∃ d ds, m.descs = some (d :: ds) ∧ g.level = d.level := by
  unfold Rmm.mapEntry at he
  split at he
  · cases he
  dsimp only at he
  split at he
  · cases he
  split at he
  · cases he
  rename_i hv
  split at he
  · cases he
  rename_i hval
  split at he
  · cases he
  rename_i ho
  split at he
  · cases he
  cases he
  exact ⟨rfl,rfl,rfl,rfl,by simpa using ho,by simpa using hv,(validated_of_ok hval).desc⟩

theorem Stamps.resume_eq (hs : m.Stamps cfg s h g t pa) : t.resume cfg (s.rd m.rdAddr) g h pa =
    (t.state.stampMap h (g.ctx pa t.outTop t.index)).mapResume cfg (t.state.rd g.rdAddr).indirectS2ap h t.irqs.sample.2
      (g.ctx pa t.outTop t.index) := by
  obtain ⟨i,bs,he,hreach⟩ := hs.swept
  rw [Turn.resume,(Turn.reach hreach).2,(entry_range he).2.1]
  rfl

theorem Stamps.exec_eq (hs : m.Stamps cfg s h g t pa) :
    s.rttMap cfg m = Rmm.mapEnd h m.base (t.run cfg (s.rd m.rdAddr) g h) := by
  obtain ⟨i,bs,he,hreach⟩ := hs.swept
  rw [← (Turn.reach hreach).1]
  unfold Rmm.rttMap
  rw [he]
  rfl

end MapCommand

structure Reports (cfg : Config) (s : Rmm) (m : MapCommand) (h : Nat) (g : MapRange) (t : Turn) (pa : Nat) (p : Progress) :
    Prop where
  failed : ∀ st, p.drain = .failed st → s.rttMap cfg m = (p.state.sroRelease h,mapPartialProgress st t.outTop m.base)
  yielded : p.drain = .yielded → s.rttMap cfg m = (p.state.sroSeal h,{ status := .incomplete,x1 := h })
  mapped : p.drain = .mapped → ∃ t', Turn.Next cfg (s.rd m.rdAddr) g h t t' ∧ t'.state = p.state ∧
    s.rttMap cfg m = Rmm.mapEnd h m.base (t'.run cfg (s.rd m.rdAddr) g h)

theorem MapCommand.Stamps.reports {m : MapCommand} {t : Turn} (hs : m.Stamps cfg s h g t pa) :
    Reports cfg s m h g t pa (firstCall cfg h g t pa) := by
  obtain ⟨rest,ht⟩ := hs.taken
  have hrun := hs.exec_eq
  have hres := hs.resume_eq
  have hstate : (firstCall cfg h g t pa).state = (t.resume cfg (s.rd m.rdAddr) g h pa).1 := by rw [hres]; rfl
  have hdrain : (firstCall cfg h g t pa).drain = (t.resume cfg (s.rd m.rdAddr) g h pa).2.2 := by rw [hres]; rfl
  refine ⟨fun st hd => ?_,fun hd => ?_,fun hd => ?_⟩
  · rw [hrun,ht.run_eq,hstate]
    rw [hdrain] at hd
    generalize t.resume cfg (s.rd m.rdAddr) g h pa = x at hd
    obtain ⟨s',irqs',d⟩ := x
    cases hd
    rfl
  · rw [hrun,ht.run_eq,hstate]
    rw [hdrain] at hd
    generalize t.resume cfg (s.rd m.rdAddr) g h pa = x at hd
    obtain ⟨s',irqs',d⟩ := x
    cases hd
    rfl
  · rw [hdrain] at hd
    have hn := Turn.Next.mapped ht hd
    exact ⟨_,hn,hstate.symm,by rw [hrun,hn.run_eq]⟩

structure Continues (cfg : Config) (h : Nat) (c₀ : MapCtx) (p : Progress) (s' : Rmm) (res : Result) : Prop where
  failed : ∀ st, p.drain = .failed st → s' = p.state.sroRelease h ∧ res = mapPartialProgress st c₀.ipa c₀.initBase
  yielded : p.drain = .yielded → s' = p.state.sroSeal h ∧ res = Status.incomplete.result
  mapped : p.drain = .mapped → s' = p.state.sroRelease h ∧ res = { status := .success,x1 := c₀.ipa + mapSize c₀.level }

theorem Outcome.continues (o : Outcome cfg h s₀ c₀ p) (hy : p.drain = .yielded) (hop : (p.state.sro h).op = .map c)
    (hop' : s.sealedOp h = .map c) {sch : Schedule} {s' : Rmm} {res : Result} (hc : s.opContinue cfg h sch = some (s',res)) :
    Continues cfg h c₀ (p.call cfg h c s sch.irqs) s' res := by
  obtain ⟨c',l⟩ := o.yielded hy
  rw [l.op] at hop
  cases hop
  unfold Rmm.opContinue at hc
  rw [hop'] at hc
  simp only [Rmm.mapContinue] at hc
  split at hc
  · cases hc
  have hstate : (p.call cfg h c s sch.irqs).state = (s.mapResume cfg (s.rd c.rd).indirectS2ap h sch.irqs c).1 := rfl
  have hdrain : (p.call cfg h c s sch.irqs).drain = (s.mapResume cfg (s.rd c.rd).indirectS2ap h sch.irqs c).2.2 := rfl
  rw [l.same.ipa,l.same.initBase,l.same.level] at hc
  generalize s.mapResume cfg (s.rd c.rd).indirectS2ap h sch.irqs c = x at hc hstate hdrain
  obtain ⟨s₁,irqs₁,d⟩ := x
  refine ⟨fun st hd => ?_,fun hd => ?_,fun hd => ?_⟩ <;> rw [hdrain] at hd <;> cases hd <;> cases hc <;>
    exact ⟨by rw [hstate],rfl⟩

def ZeroedPrefix (h : Nat) (p : Progress) : Prop :=
  ∃ c, (p.state.sro h).op = .map c ∧ ∀ q, InBlock c.pa c.pendingOff q →
    p.state.content q = 0 ∧ (p.state.granule q).state = if c.coarse then .partialUnit else .data

theorem Live.zeroed_prefix (l : Live cfg h s₀ c₀ p c) (hd : c₀.mem = .data) : ZeroedPrefix h p := by
  have hmem := l.same.mem.trans hd
  refine ⟨c,l.op,fun q hq => ⟨l.zero hmem q hq,?_⟩⟩
  split
  next hco =>
    have := l.ok.off
    exact l.held q _ ((holds_coarse hco).mpr ⟨⟨hq.1,by omega,hq.2.2⟩,rfl⟩)
  next hco =>
    rw [l.held q _ ((holds_fine (by simpa using hco)).mpr ⟨hq,rfl⟩),hmem]
    rfl

structure Settled (cfg : Config) (s : Rmm) (m : MapCommand) (h : Nat) (g : MapRange) (t : Turn) (pa : Nat) (p : Progress) :
    Prop where
  restored : ∀ st, p.drain = .failed st → BlockRestored cfg t.state (g.ctx pa t.outTop t.index) p st
  stamped : Untouched g.llt t.index t.state (t.state.stampMap h (g.ctx pa t.outTop t.index))
  others : ∀ c s' irqs, p.drain = .yielded → (p.state.sro h).op = .map c → Others cfg h c p.state s' →
    Untouched g.llt t.index s' (p.call cfg h c s' irqs).state
  entered : Reports cfg s m h g t pa (MapCommand.firstCall cfg h g t pa)
  continued : ∀ c s₁ sch s' res, p.drain = .yielded → (p.state.sro h).op = .map c → s₁.sealedOp h = .map c →
    s₁.opContinue cfg h sch = some (s',res) → Continues cfg h (g.ctx pa t.outTop t.index) (p.call cfg h c s₁ sch.irqs) s' res

theorem MapCommand.Stamps.settled {m : MapCommand} {t : Turn} (hs : m.Stamps cfg s h g t pa)
    (o : Outcome cfg h t.state (g.ctx pa t.outTop t.index) p) : Settled cfg s m h g t pa p where
  restored := o.failed
  stamped := stampMap_untouched (c := g.ctx pa t.outTop t.index)
  others := fun _ _ _ hy hop ho => o.untouched hy hop ho
  entered := hs.reports
  continued := fun _ _ _ _ _ hy hop hop' hc => o.continues hy hop hop' hc

theorem Rmm.Layout.of_fine (hf : ∀ q, s.tracking q = .fine) : s.Layout cfg := by
  refine ⟨fun q q' hq => ?_,fun q q' hq => ?_⟩ <;> rw [hf] at hq <;> cases hq

theorem Others.nobody (hf : ∀ q, s.tracking q = .fine) (hp : 0 < (s.granule c.llt).refcount) : Others cfg h c s s :=
  ⟨rfl,rfl,fun _ _ _ => ⟨rfl,rfl⟩,hp,rfl,.of_fine hf⟩

def plainConfig (b : Bank) : Config where
  bank := fun _ => some b
  regionLevel := 2
  region_le := by decide
  sroCount := 1
  vmidCount := 1
  hash := fun _ => 0

def plainRmm : Rmm where
  granule := fun q => ⟨if q = 0x200000 then .delegated else if q = 0x2000 then .rtt else .ns,0⟩
  tracking := fun _ => .fine
  moving := fun _ => false
  entry := fun _ _ => .unassigned .empty ⟨3,0⟩ none
  rd := fun _ => plainRd
  vdev := fun _ => ⟨0x1000,[(0x200000,0x400000)]⟩
  vmidUsed := fun _ => false
  sro := fun _ => ⟨.reserved,.idle⟩
  content := fun _ => 7
  origin := fun _ => ⟨0,0,0,0⟩
  cached := fun _ => False

def blockRmm : Rmm :=
  { plainRmm with
    granule := fun q => ⟨if q = 0x200000 then .delegated else if q = 0x5000 then .rd else if q = 0x6000 then .vdev else .rtt,0⟩
    rd := fun _ => { plainRd with geo := ⟨30,2,Geometry.valid_two_levels⟩ }
    vdev := fun _ => ⟨0x5000,[(0x200000,0x400000)]⟩
    sro := fun _ => ⟨.free,.idle⟩ }

def blockTurn (level : Int) (irqs : Irqs) : Turn where
  left := 512
  index := 0
  outTop := 0
  blocks := [⟨0x200000,level,true⟩]
  irqs := irqs
  state := blockRmm.setSro 0 ⟨.reserved,.idle⟩

def dataRange : MapRange := ⟨.data,0x5000,0x1000,2,0,0x200000,fun _ => true⟩

theorem blockInVdevRange_iff {ranges : List (Nat × Nat)} {size : Nat} :
    Rmm.blockInVdevRange ranges size pa = true ↔ ∃ r ∈ ranges, r.1 ≤ pa ∧ pa+size ≤ r.2 := by
  simp [Rmm.blockInVdevRange]

def devConfig : Config :=
  { plainConfig .conventional with bank := fun q => some (if q = 0x200000 then .devCoherent else .conventional) }

def devBlockRmm : Rmm := { blockRmm with rd := fun _ => { plainRd with geo := ⟨21,3,Geometry.valid_one_table⟩ } }

def devRange : MapRange := ⟨.dev,0x5000,0x1000,3,0,0x1000,Rmm.blockInVdevRange [(0x200000,0x400000)] (mapSize 3)⟩

end TfRmm.Rtt
