import TfRmm.Lifecycle.Steps

namespace TfRmm.Lifecycle

open TfRmm.Lib

open Sys

variable {s s' : Sys} {c x d : Nat} {op : Op} {pc' : Pc}

theorem holders_congr (f : Pc → Option Nat) (ha : s.apply c op = some s') (x : Nat) :
    (s'.setCpu c pc').holders f x = (s.setCpu c pc').holders f x := by
  obtain ⟨hcpu,hcpus,-,-⟩ := apply_fixed ha
  simp only [Sys.holders,Sys.setCpu,hcpu,hcpus]

theorem no_holder {f : Pc → Option Nat} {st : GranuleState} (hf : ∀ c, f (s.cpu c) = some x → s.state x = st)
    (hx : s.state x ≠ st) : s.holders f x = 0 :=
  tally_eq_zero fun c _ => beq_false_of_ne fun hc => hx (hf c hc)

inductive Moves (s s' : Sys) (x : Nat) : Op → Prop where
  | stays {op : Op} : s'.state x = s.state x → Moves s s' x op
  | begin : s.state x = .delegated → s'.state x = .partialObject → Moves s s' x (.begin x)
  | abandon : s.state x = .partialObject → s'.state x = .delegated → Moves s s' x (.abandon x)
  | publish : s.state x = .partialObject → s'.state x = .recObject → Moves s s' x (.publish x)
  | retire : s.state x = .recObject → s'.state x = .partialObject → Moves s s' x (.retire x)
  | dissolve : s.state x = .rd → s'.state x = .partialObject → Moves s s' x (.dissolve x)
  | newRealm : s.state x = .partialObject → s'.state x = .rd → Moves s s' x (.newRealm x)

theorem moves_of_apply (h : Inv s) (hp : op.Pre s (s.cpu c)) (ha : s.apply c op = some s') (x : Nat) : Moves s s' x op := by
  have hne : ∀ {g} st, x ≠ g → (s.lockTo g st).state x = s.state x := by
    intro g st hx
    rw [lockTo_state,if_neg hx]
  have heq : ∀ st, (s.lockTo x st).state x = st := fun st => by
    rw [lockTo_state,if_pos rfl]
  cases op <;> simp only [apply] at ha
  case acquire g st =>
    split at ha
    · cases ha
      refine .stays ?_
      by_cases hx : x = g <;> simp [state,setGran,hx]
    · cases ha
  case release g | report g =>
    cases ha
    refine .stays ((lockTo_state x : (s.lockTo g (s.state g)).state x = _).trans ?_)
    split
    · next hx => rw [hx]
    · rfl
  case begin g =>
    cases ha
    by_cases hx : x = g
    · subst hx
      exact .begin (held_state h hp) (heq _)
    · exact .stays (hne _ hx)
  case abandon g =>
    cases ha
    by_cases hx : x = g
    · subst hx
      exact .abandon (held_state h hp) (heq _)
    · exact .stays (hne _ hx)
  case publish g =>
    cases ha
    by_cases hx : x = g
    · subst hx
      exact .publish (held_state h hp.1) (heq _)
    · exact .stays (hne _ hx)
  case retire g =>
    cases ha
    by_cases hx : x = g
    · subst hx
      exact .retire (held_state h hp.1) (heq _)
    · exact .stays (hne _ hx)
  case dissolve g =>
    cases ha
    by_cases hx : x = g
    · subst hx
      exact .dissolve (held_state h hp.1) (heq _)
    · exact .stays (hne _ hx)
  case newRealm g =>
    cases ha
    by_cases hx : x = g
    · subst hx
      exact .newRealm (held_state h hp) (heq _)
    · exact .stays (hne _ hx)
  case takeRef g | dropRef g | putRd g | addRec g d mpidr runnable =>
    cases ha
    exact .stays (Sys.setRefcount_state _ x)
  all_goals
    cases ha
    exact .stays rfl

theorem Moves.rec_after (h : Moves s s' x op) (hx : s'.state x = .recObject) :
    s.state x = .recObject ∨ (op = .publish x ∧ s.state x = .partialObject) := by
  cases h with
  | stays hs => exact .inl (hs ▸ hx)
  | publish h1 _ => exact .inr ⟨rfl,h1⟩
  | begin _ h2 | abandon _ h2 | retire _ h2 | dissolve _ h2 | newRealm _ h2 =>
    rw [h2] at hx
    cases hx

theorem Moves.rd_after (h : Moves s s' x op) (hx : s'.state x = .rd) :
    s.state x = .rd ∨ (op = .newRealm x ∧ s.state x = .partialObject) := by
  cases h with
  | stays hs => exact .inl (hs ▸ hx)
  | newRealm h1 _ => exact .inr ⟨rfl,h1⟩
  | begin _ h2 | abandon _ h2 | retire _ h2 | dissolve _ h2 | publish _ h2 =>
    rw [h2] at hx
    cases hx

theorem refcount_after (ha : s.apply c op = some s') (x : Nat)
    (hx : op ≠ .takeRef x ∧ op ≠ .dropRef x ∧ op ≠ .putRd x ∧ ∀ g m r, op ≠ .addRec g x m r) :
    s'.refcount x = s.refcount x := by
  obtain ⟨h1,h2,h3,h4⟩ := hx
  have hset : ∀ g n, x ≠ g → (s.setGran g { s.gran g with refcount := n }).refcount x = s.refcount x := by
    intro g n hg
    rw [Sys.setRefcount_refcount,if_neg hg]
  cases op <;> simp only [apply] at ha
  case acquire g st =>
    split at ha
    · cases ha
      by_cases hx : x = g <;> simp [Sys.refcount,setGran,hx]
    · cases ha
  case release g | report g =>
    cases ha
    exact (Sys.lockTo_refcount x : (s.lockTo g (s.state g)).refcount x = _)
  case begin g | abandon g | publish g | retire g | dissolve g | newRealm g =>
    cases ha
    exact Sys.lockTo_refcount x
  case takeRef g =>
    cases ha
    exact hset g _ fun hg => h1 (hg ▸ rfl)
  case dropRef g =>
    cases ha
    exact hset g _ fun hg => h2 (hg ▸ rfl)
  case putRd g =>
    cases ha
    exact hset g _ fun hg => h3 (hg ▸ rfl)
  case addRec g d mpidr runnable =>
    cases ha
    exact hset d _ fun hg => h4 g mpidr runnable (hg ▸ rfl)
  all_goals
    cases ha
    rfl

theorem addRec_refcount {g m : Nat} {r : Bool} (ha : s.apply c (.addRec g d m r) = some s') (x : Nat) :
    s'.refcount x = s.refcount x + if x = d then 1 else 0 := by
  cases ha
  apply (Sys.setRefcount_refcount _ x).trans
  split
  · next hx => exact congrArg (fun y => s.refcount y + 1) hx.symm
  · rfl

theorem ref_state (h : Inv s) (c : Nat) (hx : (s.cpu c).refs = some x) : s.state x = .recObject := (h.view c).refs x hx

theorem users_after (h : Inv s) (hc : c < s.cpus) (fit : Fits s (s.cpu c) op pc') (ha : s.apply c op = some s')
    (hx : s'.state x = .recObject) : s'.refcount x = (s'.setCpu c pc').holders Pc.refs x := by
  have hp := fit.pre
  rw [holders_congr _ ha]
  rcases (moves_of_apply h hp ha x).rec_after hx with hst | ⟨rfl,hst⟩
  · have hold := h.users x hst
    have hrd : s.state x ≠ .rd := by
      rw [hst]
      decide
    have hput : op ≠ .putRd x := by
      rintro rfl
      exact hrd ((h.view c).drops x hp)
    have hadd : ∀ g m r, op ≠ .addRec g x m r := by
      rintro g m r rfl
      exact hrd (held_state h hp.2.1)
    cases op
    case takeRef g =>
      cases ha
      rw [holders_take hc hp.2.2.1 fit.refs,← hold]
      apply (Sys.setRefcount_refcount _ x).trans
      split
      · next hg => rw [hg]
      · rfl
    case dropRef g =>
      cases ha
      have hh := holders_drop (x := x) hc hp.1 fit.refs
      apply (Sys.setRefcount_refcount _ x).trans
      split at hh
      · next hg =>
          subst hg
          rw [if_pos rfl]
          omega
      · next hg =>
          rw [if_neg hg]
          omega
    all_goals
      rw [holders_same hc fit.refs,← hold]
      exact refcount_after ha x ⟨by simp,by simp,hput,hadd⟩
  · rw [holders_same hc fit.refs,no_holder (ref_state h) (by rw [hst]; decide),
      refcount_after ha x ⟨by simp,by simp,by simp,by simp⟩]
    exact h.fresh x (by rw [hst]; decide) (by rw [hst]; decide)

theorem fresh_after (h : Inv s) (hp : op.Pre s (s.cpu c)) (ha : s.apply c op = some s')
    (hr : s'.state x ≠ .recObject) (hd : s'.state x ≠ .rd) : s'.refcount x = 0 := by
  cases moves_of_apply h hp ha x with
  | stays hs =>
    rw [hs] at hr hd
    rw [refcount_after ha x,h.fresh x hr hd]
    refine ⟨?_,?_,?_,?_⟩
    · rintro rfl
      exact hr (held_state h hp.1)
    · rintro rfl
      exact hr (ref_state h c hp.1)
    · rintro rfl
      exact hd ((h.view c).drops x hp)
    · rintro g m r rfl
      exact hd (held_state h hp.2.1)
  | begin h1 _ | abandon h1 _ =>
    rw [refcount_after ha x ⟨by simp,by simp,by simp,by simp⟩]
    exact h.fresh x (by rw [h1]; decide) (by rw [h1]; decide)
  | retire _ _ | dissolve _ _ =>
    rw [refcount_after ha x ⟨by simp,by simp,by simp,by simp⟩]
    exact hp.2.1
  | publish _ h2 => exact absurd h2 hr
  | newRealm _ h2 => exact absurd h2 hd

theorem recs_after (h : Inv s) (hp : op.Pre s (s.cpu c)) (ha : s.apply c op = some s')
    (hx : s'.state x = .recObject) : x < s'.granules ∧ s'.state (s'.recs x).rd = .rd := by
  obtain ⟨-,-,hn,hrecs⟩ := apply_fixed ha
  rw [hn,hrecs]
  rcases (moves_of_apply h hp ha x).rec_after hx with hst | ⟨rfl,hst⟩
  · obtain ⟨hlt,hrd⟩ := h.recs x hst
    rw [rd_kept hp (not_addRec_of_state h hp (by rw [hst]; decide)),kept h hp ha (.inr hrd) (h.member_pos hst)]
    exact ⟨hlt,hrd⟩
  have hrd := (h.view c).adds _ hp.2.1
  refine ⟨hp.2.2,?_⟩
  rw [← hrd]
  exact kept h hp ha (.inr hrd) (h.adds_pos hp.2.1)

theorem owns_of_state {y : Nat} (h : s.state y ≠ .recObject) : s.owns d y = false := by
  simp [owns,h]

section

variable (h : Inv s) (hp : op.Pre s (s.cpu c)) (ha : s.apply c op = some s')

include h hp ha

theorem owns_after {y : Nat} (h1 : op ≠ .publish y) (h2 : op ≠ .retire y) : s'.owns d y = s.owns d y := by
  obtain ⟨-,-,-,hrecs⟩ := apply_fixed ha
  cases moves_of_apply h hp ha y with
  | stays hs =>
    by_cases hst : s.state y = .recObject
    · simp only [owns,hs,hst,hrecs,rd_kept hp (not_addRec_of_state h hp (by rw [hst]; decide))]
    · rw [owns_of_state hst,owns_of_state (by rwa [hs])]
  | begin ho hn | abandon ho hn | dissolve ho hn | newRealm ho hn =>
    rw [owns_of_state (by rw [hn]; decide),owns_of_state (by rw [ho]; decide)]
  | publish _ _ => exact absurd rfl h1
  | retire _ _ => exact absurd rfl h2

theorem members_same (h1 : ∀ y, op ≠ .publish y) (h2 : ∀ y, op ≠ .retire y) : s'.members d = s.members d := by
  obtain ⟨-,-,hn,-⟩ := apply_fixed ha
  unfold Sys.members
  rw [hn]
  exact tally_congr fun y _ => owns_after h hp ha (h1 y) (h2 y)

theorem members_update {g : Nat} (hop : op = .publish g ∨ op = .retire g) (hg : g < s.granules) :
    s'.members d + (s.owns d g).toNat = s.members d + (s'.owns d g).toNat := by
  obtain ⟨-,-,hn,-⟩ := apply_fixed ha
  have hu := tally_update (p := id) (f := s.owns d) (a := s'.owns d g) hg
  rw [← hn] at hu
  have heq : tally id (Function.update (s.owns d) g (s'.owns d g)) s'.granules = s'.members d := by
    refine tally_congr fun y _ => ?_
    by_cases hy : y = g
    · rw [hy,Function.update_self]
    rw [Function.update_of_ne hy]
    refine congrArg id (owns_after h hp ha ?_ ?_).symm
    all_goals
      rintro rfl
      rcases hop with h0 | h0 <;> cases h0
      exact hy rfl
  rw [heq] at hu
  simpa [Sys.members,hn] using hu

end

theorem toNat_owns {y : Nat} (h : s.state y = .recObject) : (s.owns d y).toNat = if d = (s.recs y).rd then 1 else 0 := by
  simp only [owns,h]
  by_cases hd : d = (s.recs y).rd
  · simp [← hd]
  · simp [hd,beq_false_of_ne (Ne.symm hd)]

theorem rds_after (h : Inv s) (hc : c < s.cpus) (fit : Fits s (s.cpu c) op pc') (ha : s.apply c op = some s')
    (hd : s'.state d = .rd) :
    s'.refcount d = s'.members d + (s'.setCpu c pc').holders Pc.adds d + (s'.setCpu c pc').holders Pc.drops d := by
  have hp := fit.pre
  rw [holders_congr _ ha,holders_congr _ ha]
  rcases (moves_of_apply h hp ha d).rd_after hd with hst | ⟨rfl,hst⟩
  · have hold := h.rds d hst
    have htake : op ≠ .takeRef d := by
      rintro rfl
      cases hst.symm.trans (held_state h hp.1)
    have hdrop : op ≠ .dropRef d := by
      rintro rfl
      cases hst.symm.trans (ref_state h c hp.1)
    cases op
    case publish g =>
      have hu := members_update (d := d) h hp ha (.inl rfl) hp.2.2
      have hg := held_state h hp.1
      have hg' : s'.state g = .recObject := by
        cases ha
        exact (lockTo_state g).trans (if_pos rfl)
      have hrecs : s'.recs g = s.recs g := by
        cases ha
        rfl
      have hh := holders_drop (x := d) hc hp.2.1 fit.adds
      rw [toNat_owns hg',owns_of_state (by rw [hg]; decide),hrecs] at hu
      rw [refcount_after ha d ⟨by simp,by simp,by simp,by simp⟩,holders_same hc fit.drops,hold]
      simp only [Bool.toNat_false] at hu
      omega
    case retire g =>
      have hg := held_state h hp.1
      have hu := members_update (d := d) h hp ha (.inr rfl) (h.recs g hg).1
      have hg' : s'.state g = .partialObject := by
        cases ha
        exact (lockTo_state g).trans (if_pos rfl)
      have hh := holders_take (x := d) hc hp.2.2 fit.drops
      rw [toNat_owns hg,owns_of_state (by rw [hg']; decide)] at hu
      rw [refcount_after ha d ⟨by simp,by simp,by simp,by simp⟩,holders_same hc fit.adds,hold]
      simp only [Bool.toNat_false] at hu
      omega
    case addRec g d' mpidr runnable =>
      rw [members_same h hp ha (by simp) (by simp),holders_same hc fit.drops,
        holders_take hc hp.2.2.2.1 fit.adds,addRec_refcount ha,hold]
      omega
    case putRd d' =>
      rw [members_same h hp ha (by simp) (by simp),holders_same hc fit.adds]
      have hh := holders_drop (x := d) hc hp fit.drops
      cases ha
      apply (Sys.setRefcount_refcount _ d).trans
      split at hh
      · next hdd =>
          subst hdd
          rw [if_pos rfl]
          omega
      · next hdd =>
          rw [if_neg hdd]
          omega
    all_goals
      rw [members_same h hp ha (by simp) (by simp),holders_same hc fit.adds,holders_same hc fit.drops,← hold]
      exact refcount_after ha d ⟨htake,hdrop,by simp,by simp⟩
  · have hne : s.state d ≠ .rd := by
      rw [hst]
      decide
    have hmem : s.members d = 0 := by
      refine tally_eq_zero fun y _ => ?_
      by_cases hy : s.state y = .recObject
      · have hrd : (s.recs y).rd ≠ d := fun h0 => hne (h0 ▸ (h.recs y hy).2)
        simp [owns,hrd]
      · exact owns_of_state hy
    rw [members_same h hp ha (by simp) (by simp),holders_same hc fit.adds,holders_same hc fit.drops,hmem,
      no_holder (fun c => (h.view c).adds d) hne,no_holder (fun c => (h.view c).drops d) hne,
      refcount_after ha d ⟨by simp,by simp,by simp,by simp⟩]
    exact h.fresh d (by rw [hst]; decide) hne

theorem word_same (ha : s.apply c op = some s') (h1 : ∀ y, op ≠ .count y) (h2 : ∀ y, op ≠ .uncount y)
    (h3 : ∀ y st, op ≠ .setState y st) (h4 : ∀ y, op ≠ .newRealm y) : s'.word x = s.word x := by
  cases op <;> simp only [apply] at ha
  case acquire =>
    split at ha
    · cases ha
      rfl
    · cases ha
  case count d => exact absurd rfl (h1 d)
  case uncount d => exact absurd rfl (h2 d)
  case setState d st => exact absurd rfl (h3 d st)
  case newRealm d => exact absurd rfl (h4 d)
  case addRec g d mpidr runnable | removeRec d mpidr =>
    cases ha
    exact Sys.setMap_word _ x
  all_goals
    cases ha
    rfl

theorem newRealm_rds (ha : s.apply c (.newRealm d) = some s') :
    s'.rds = Function.update s.rds d ⟨packSc .new 0,fun _ => none,s.realms⟩ := by
  cases ha
  rfl

theorem word_after (h : Inv s) (hc : c < s.cpus) (fit : Fits s (s.cpu c) op pc') (ha : s.apply c op = some s')
    (hd : s'.state d = .rd) : Packed (s'.word d) ((s'.setCpu c pc').holders Pc.counted d) := by
  have hp := fit.pre
  rw [holders_congr _ ha]
  rcases (moves_of_apply h hp ha d).rd_after hd with hst | ⟨rfl,hst⟩
  · have hold := h.word d hst
    cases op
    case count d' =>
      rw [holders_take hc hp.2.1 fit.counted]
      cases ha
      rw [Sys.setWord_word]
      split
      · next hdd =>
          rw [hdd]
          exact (count_word h hp).2.1
      · exact hold
    case uncount d' =>
      have hh := holders_drop (x := d) hc hp fit.counted
      cases ha
      rw [Sys.setWord_word]
      split at hh
      · next hdd =>
          rw [if_pos hdd,Nat.eq_sub_of_add_eq hh,hdd]
          exact (uncount_word h hc hp).2.1
      next hdd =>
        rw [if_neg hdd]
        rw [Nat.add_zero] at hh
        rwa [hh]
    case setState d' st =>
      rw [holders_same hc fit.counted]
      cases ha
      rw [Sys.setWord_word]
      split
      · next hdd =>
          rw [hdd]
          exact (setState_word h hp).2.1
      · exact hold
    case newRealm d' =>
      rw [holders_same hc fit.counted]
      have hdd : d ≠ d' := by
        rintro rfl
        cases hst.symm.trans (held_state h hp)
      have hw : s'.word d = s.word d := by
        rw [word,newRealm_rds ha,Function.update_of_ne hdd,word]
      rwa [hw]
    all_goals
      rw [holders_same hc fit.counted]
      have hw : s'.word d = s.word d := word_same ha (by simp) (by simp) (by simp) (by simp)
      rwa [hw]
  · have hw : s'.word d = packSc .new 0 := by
      rw [word,newRealm_rds ha,Function.update_self]
    have hne : s.state d ≠ .rd := by
      rw [hst]
      decide
    rw [holders_same hc fit.counted,no_holder (fun _ => h.counted_rd) hne,hw]
    exact .fresh

theorem id_same (ha : s.apply c op = some s') (h : ∀ y, op ≠ .newRealm y) :
    (s'.rds x).id = (s.rds x).id ∧ s'.realms = s.realms := by
  cases op <;> simp only [apply] at ha
  case acquire =>
    split at ha
    · cases ha
      exact ⟨rfl,rfl⟩
    · cases ha
  case newRealm d => exact absurd rfl (h d)
  case count d | uncount d | setState d st =>
    cases ha
    exact ⟨Sys.setWord_id _ x,rfl⟩
  case addRec g d mpidr runnable | removeRec d mpidr =>
    cases ha
    exact ⟨Sys.setMap_id _ x,rfl⟩
  all_goals
    cases ha
    exact ⟨rfl,rfl⟩

open Function
open RealmState (code systemOff zombie)

variable {t : Sys} {c' g i v : Nat} {a : Act}

theorem unpackState_le {w : Nat} (h : w < 2 ^ 64) : unpackState w ≤ zombie.code := by
  simp only [unpackState,rdStateShift,code]
  omega

theorem counted_started (h : Inv s) (hd : (s.cpu c).counted = some d) : unpackState (s.word d) ≤ systemOff.code := by
  have hc : c < s.cpus := h.busy fun h0 => by rw [h0] at hd; cases hd
  have hw := h.word d (h.counted_rd hd)
  have hpos := Sys.holders_pos hc hd
  have hle := unpackState_le hw.wide
  have hz : unpackState (s.word d) ≠ zombie.code := fun h0 => by
    have := hw.stopped (.inr h0)
    omega
  simp only [code] at hle hz ⊢
  omega

theorem forward (h : Inv s) (hc : c < s.cpus) (hp : op.Pre s (s.cpu c)) (ha : s.apply c op = some s')
    (hd : s.state d = .rd) : unpackState (s.word d) ≤ unpackState (s'.word d) := by
  have hset : ∀ d' w, (d = d' → unpackState (s.word d) ≤ unpackState w) →
      unpackState (s.word d) ≤ unpackState ((s.setWord d' w).word d) := fun d' w hw => by
    rw [Sys.setWord_word]
    split
    · next hdd => exact hw hdd
    · exact Nat.le_refl _
  cases op
  case count d' =>
    cases ha
    refine hset d' _ fun hdd => ?_
    rw [hdd]
    exact Nat.le_of_eq (count_word h hp).2.2.symm
  case uncount d' =>
    cases ha
    refine hset d' _ fun hdd => ?_
    rw [hdd]
    exact Nat.le_of_eq (uncount_word h hc hp).2.2.symm
  case setState d' st =>
    cases ha
    refine hset d' _ fun hdd => ?_
    subst hdd
    rw [(setState_word h hp).2.2]
    rcases hp.2 with ⟨rfl,hnew⟩ | ⟨rfl,hcount⟩ | ⟨rfl,-⟩
    · rw [hnew]
      decide
    · exact counted_started h hcount
    · exact unpackState_le (h.word d hd).wide
  case newRealm d' =>
    have hdd : d ≠ d' := by
      rintro rfl
      cases hd.symm.trans (held_state h hp)
    exact Nat.le_of_eq (by rw [Sys.word,Sys.word,newRealm_rds ha,update_of_ne hdd])
  all_goals exact Nat.le_of_eq (congrArg unpackState (word_same ha (by simp) (by simp) (by simp) (by simp)).symm)

theorem terminated_after (ha : s.apply c op = some s') (hi : i ∈ s'.terminated) :
    i ∈ s.terminated ∨ ∃ d, op = .report d ∧ i = (s.rds d).id := by
  cases op <;> simp only [Sys.apply] at ha
  case acquire =>
    split at ha
    · cases ha
      exact .inl hi
    · cases ha
  case report d =>
    cases ha
    rcases List.mem_cons.mp hi with hi | hi
    · exact .inr ⟨d,rfl,hi⟩
    · exact .inl hi
  all_goals
    cases ha
    exact .inl hi

theorem identity_after (h : Inv s) (hp : op.Pre s (s.cpu c)) (ha : s.apply c op = some s') (hd : s'.state d = .rd) :
    (s.state d = .rd ∧ (s'.rds d).id = (s.rds d).id) ∨ (op = .newRealm d ∧ (s'.rds d).id = s.realms) := by
  rcases (moves_of_apply h hp ha d).rd_after hd with hst | ⟨rfl,hst⟩
  · left
    refine ⟨hst,?_⟩
    by_cases hn : ∃ y, op = .newRealm y
    · obtain ⟨y,rfl⟩ := hn
      have hdd : d ≠ y := by
        rintro rfl
        cases hst.symm.trans (held_state h hp)
      rw [newRealm_rds ha,update_of_ne hdd]
    · exact (id_same ha fun y hy => hn ⟨y,hy⟩).1
  · right
    refine ⟨rfl,?_⟩
    rw [newRealm_rds ha,update_self]

theorem realms_after (ha : s.apply c op = some s') :
    s.realms ≤ s'.realms ∧ ((∃ y, op = .newRealm y) → s'.realms = s.realms+1) := by
  by_cases hn : ∃ y, op = .newRealm y
  · obtain ⟨y,rfl⟩ := hn
    cases ha
    exact ⟨Nat.le_succ _,fun _ => rfl⟩
  · rw [(id_same (x := 0) ha fun y hy => hn ⟨y,hy⟩).2]
    exact ⟨Nat.le_refl _,fun h => absurd h hn⟩

theorem refs_after (h : Inv s) (fit : Fits s (s.cpu c) op pc') (hg : pc'.refs = some g) :
    (s.cpu c).refs = some g ∨ ∀ c', (s.cpu c').refs ≠ some g := by
  have hp := fit.pre
  rw [fit.refs] at hg
  cases op <;> simp only [Op.refs] at hg
  case takeRef g' =>
    cases hg
    exact .inr fun c' hc' => h.ref_pos hc' hp.2.1
  case dropRef => cases hg
  all_goals exact .inl hg

theorem alone_after (h : Inv s) (hcpu : s'.cpu = s.cpu) (fit : Fits s (s.cpu c) op pc')
    (h1 : ((s'.setCpu c pc').cpu x).refs = some g) (h2 : ((s'.setCpu c pc').cpu c').refs = some g) : x = c' := by
  simp only [Sys.setCpu,hcpu] at h1 h2
  by_cases hx : x = c <;> by_cases hc : c' = c
  · rw [hx,hc]
  · rw [hx,update_self] at h1
    rw [update_of_ne hc] at h2
    rcases refs_after h fit h1 with h0 | h0
    · rw [hx]
      exact h.alone c c' g h0 h2
    · exact absurd h2 (h0 c')
  · rw [update_of_ne hx] at h1
    rw [hc,update_self] at h2
    rcases refs_after h fit h2 with h0 | h0
    · rw [hc]
      exact h.alone x c g h1 h0
    · exact absurd h1 (h0 x)
  · rw [update_of_ne hx] at h1
    rw [update_of_ne hc] at h2
    exact h.alone x c' g h1 h2

theorem View.setCpu {pc : Pc} (h : View s c' pc) : View (s.setCpu c pc') c' pc :=
  ⟨h.held,h.refs,h.zero,h.home,h.adds,h.drops,h.knows,h.sound⟩

theorem Inv.apply (h : Inv s) (hc : c < s.cpus) (fit : Fits s (s.cpu c) op pc') (ha : s.apply c op = some s') :
    Inv (s'.setCpu c pc') := by
  obtain ⟨hcpu,hcpus,hn,hrecs⟩ := Sys.apply_fixed ha
  have hp := fit.pre
  have hr := realms_after ha
  have hid : ∀ d, s'.state d = .rd → (s'.rds d).id < s'.realms := fun d hd => by
    rcases identity_after h hp ha hd with ⟨hst,hi⟩ | ⟨rfl,hi⟩
    · rw [hi]
      exact Nat.lt_of_lt_of_le (h.ids d hst) hr.1
    · rw [hi,hr.2 ⟨d,rfl⟩]
      exact Nat.lt_succ_self _
  constructor
  case cpus =>
    show s'.cpus ≤ _
    rw [hcpus]
    exact h.cpus
  case quiet =>
    intro c' hc'
    have hc2 : s.cpus ≤ c' := hcpus ▸ hc'
    have hne : c' ≠ c := by omega
    show update s'.cpu c pc' c' = .idle
    rw [update_of_ne hne,hcpu]
    exact h.quiet c' hc2
  case view =>
    intro c'
    by_cases hne : c' = c
    · subst hne
      have hpc : (s'.setCpu c' pc').cpu c' = pc' := update_self ..
      rw [hpc]
      exact (view_own h fit ha).setCpu
    · have hpc : (s'.setCpu c pc').cpu c' = s.cpu c' := (update_of_ne hne ..).trans (by rw [hcpu])
      rw [hpc]
      exact (view_other h hc hp ha hne).setCpu
  case alone => exact fun x c' g h1 h2 => alone_after h hcpu fit h1 h2
  case users => exact fun x hx => users_after h hc fit ha hx
  case fresh => exact fun x hx hd => (fresh_after h hp ha hx hd : s'.refcount x = 0)
  case recs => exact fun x hx => (recs_after h hp ha hx : x < s'.granules ∧ s'.state (s'.recs x).rd = .rd)
  case rds => exact fun x hx => rds_after h hc fit ha hx
  case word => exact fun x hx => word_after h hc fit ha hx
  case ids => exact hid
  case apart =>
    intro d d' hd hd' heq
    rcases identity_after h hp ha hd with ⟨h1,hi⟩ | ⟨rfl,hi⟩ <;>
    rcases identity_after h hp ha hd' with ⟨h2,hj⟩ | ⟨hop,hj⟩
    · exact h.apart d d' h1 h2 (by rw [← hi,← hj]; exact heq)
    · have := h.ids d h1
      have h0 : (s'.rds d).id = (s'.rds d').id := heq
      omega
    · have := h.ids d' h2
      have h0 : (s'.rds d).id = (s'.rds d').id := heq
      omega
    · cases hop
      rfl
  case past =>
    intro i hi
    refine Nat.lt_of_lt_of_le ?_ hr.1
    rcases terminated_after ha hi with hi | ⟨d,rfl,rfl⟩
    · exact h.past i hi
    · exact h.ids d (held_state h hp.1)
  case terminated =>
    intro d hd hi
    have hle := unpackState_le (word_after h hc fit ha hd).wide
    have hwas : s.state d = .rd ∧ unpackState (s.word d) = zombie.code := by
      rcases identity_after h hp ha hd with ⟨hst,he⟩ | ⟨rfl,he⟩
      · refine ⟨hst,?_⟩
        rcases terminated_after ha hi with hi | ⟨d',rfl,hi⟩
        · exact h.terminated d hst (he ▸ hi)
        · have hdd : d = d' := h.apart d d' hst (held_state h hp.1) (he.symm.trans hi)
          subst hdd
          exact hp.2
      · rcases terminated_after ha hi with hi | ⟨d',hop,-⟩
        · have h1 := h.past _ hi
          have h2 : (s'.rds d).id < s.realms := h1
          omega
        · cases hop
    have hge := forward h hc hp ha hwas.1
    rw [hwas.2] at hge
    exact Nat.le_antisymm hle hge

theorem step_cases (h : s.step c a = some t) :
    c < s.cpus ∧ ∃ op pc' s', s.instr (s.cpu c) a = some (op,pc') ∧ s.apply c op = some s' ∧ t = s'.setCpu c pc' := by
  unfold Sys.step at h
  split at h
  case isTrue hc =>
    obtain ⟨⟨op,pc'⟩,hi,h⟩ := Option.bind_eq_some_iff.mp h
    obtain ⟨s',ha,rfl⟩ := Option.map_eq_some_iff.mp h
    exact ⟨hc,op,pc',s',hi,ha,rfl⟩
  case isFalse => cases h

theorem Inv.step (h : Inv s) (hs : s.step c a = some t) : Inv t := by
  obtain ⟨hc,op,pc',s',hi,ha,rfl⟩ := step_cases hs
  exact h.apply hc (instr_fits (h.view c) hi) ha

theorem Initial.inv (h : Initial s) : Inv s := by
  have hrec : ∀ g, s.state g ≠ .recObject := fun g h0 => by
    rcases h.state g with h1 | h1 <;> rw [h0] at h1 <;> cases h1
  have hrd : ∀ g, s.state g ≠ .rd := fun g h0 => by
    rcases h.state g with h1 | h1 <;> rw [h0] at h1 <;> cases h1
  constructor
  case cpus => exact h.cpus
  case quiet => exact fun c _ => h.cpu c
  case view =>
    intro c
    rw [h.cpu c]
    exact ⟨nofun,nofun,nofun,nofun,nofun,nofun,nofun,trivial⟩
  case alone =>
    intro c c' g h1
    rw [h.cpu c] at h1
    cases h1
  case users => exact fun g hg => absurd hg (hrec g)
  case fresh => exact fun g _ _ => h.refcount g
  case recs => exact fun g hg => absurd hg (hrec g)
  case rds | word | ids => exact fun d hd => absurd hd (hrd d)
  case apart => exact fun d _ hd => absurd hd (hrd d)
  case past =>
    intro i hi
    rw [h.terminated] at hi
    cases hi
  case terminated => exact fun d hd => absurd hd (hrd d)

theorem inv_of_reachable (h : system.Reachable s) : Inv s :=
  TransitionSystem.Reachable.invariant (T := system) (fun _ h0 => Initial.inv h0) (fun _ _ _ hi hs => Inv.step hi hs) h

def Sys.Later (s t : Sys) : Prop := Relation.ReflTransGen (system.GuardedStep fun _ _ => True) s t

theorem Inv.later (h : Inv s) (hl : s.Later t) : Inv t := by
  induction hl with
  | refl => exact h
  | tail _ hst ih =>
    obtain ⟨l,-,hs⟩ := hst
    exact ih.step hs

variable {u : Sys} {pc : Pc} {r : Rec}

theorem setRec_rd (hr : r.rd = (s.recs g).rd) : ((s.setRec g r).recs x).rd = (s.recs x).rd := by
  by_cases hx : x = g
  · simp [Sys.setRec,hx,hr]
  · simp [Sys.setRec,hx]

theorem setRec_mpidr (hr : r.mpidr = (s.recs g).mpidr) : ((s.setRec g r).recs x).mpidr = (s.recs x).mpidr := by
  by_cases hx : x = g
  · simp [Sys.setRec,hx,hr]
  · simp [Sys.setRec,hx]

theorem setRec_recs (h : x ≠ g) : (s.setRec g r).recs x = s.recs x := Function.update_of_ne h ..

theorem recEnter_setRec (hrefs : pc.refs ≠ some g) (hzero : pc.zero g = false) (hr : r.rd = (s.recs g).rd)
    (hm : r.mpidr = (s.recs g).mpidr) : (s.setRec g r).recEnter a pc = s.recEnter a pc := by
  cases pc
  case enterZero g' =>
    have hg : g ≠ g' := ne_of_beq_false hzero
    simp only [Sys.recEnter,setRec_recs hg.symm]
  case entered g' => simp only [Sys.recEnter,setRec_rd hr]
  case onLocked g' d m | running g' d =>
    have hg : g' ≠ g := by
      rintro rfl
      exact hrefs rfl
    simp only [Sys.recEnter,Sys.run,setRec_recs hg]
    rfl
  case pendingCheck g' d | prepare g' d | onPending g' d =>
    have hg : g' ≠ g := by
      rintro rfl
      exact hrefs rfl
    simp only [Sys.recEnter,setRec_recs hg]
  case affTarget g' d t m =>
    have hg : g' ≠ g := by
      rintro rfl
      exact hrefs rfl
    simp only [Sys.recEnter,setRec_recs hg,setRec_rd hr,setRec_mpidr hm]
    rfl
  case affZero g' d t =>
    have hg : g' ≠ g := by
      rintro rfl
      exact hrefs rfl
    have ht : g ≠ t := ne_of_beq_false hzero
    simp only [Sys.recEnter,setRec_recs hg,setRec_recs ht.symm]
  all_goals rfl

theorem psciComplete_setRec (hzero : pc.zero g = false) (hr : r.rd = (s.recs g).rd)
    (hm : r.mpidr = (s.recs g).mpidr) : (s.setRec g r).psciComplete a pc = s.psciComplete a pc := by
  cases pc
  case psciZero g' st denied =>
    have hg : g ≠ g' := ne_of_beq_false hzero
    simp only [Sys.psciComplete,setRec_recs hg.symm]
  case psciMatch g' t st =>
    have hg : g ≠ g' := ne_of_beq_false hzero
    simp only [Sys.psciComplete,setRec_recs hg.symm,setRec_rd hr,setRec_mpidr hm]
  case psciTarget g' t st =>
    have hg : g ≠ g' := ne_of_beq_false hzero
    simp only [Sys.psciComplete,setRec_recs hg.symm]
    rfl
  case psciTargetZero g' t st =>
    have hg : g' ≠ g ∧ t ≠ g := by
      constructor <;> rintro rfl <;> simp [Pc.zero] at hzero
    simp only [Sys.psciComplete,setRec_recs hg.1,setRec_recs hg.2]
  case psciOn g' t =>
    have hg : g' ≠ g := by
      rintro rfl
      simp [Pc.zero] at hzero
    simp only [Sys.psciComplete,setRec_recs hg]
  all_goals rfl

theorem recObjects_setRec (hr : r.rd = (s.recs g).rd) (hm : r.mpidr = (s.recs g).mpidr) :
    (s.setRec g r).recObjects pc = s.recObjects pc := by
  cases pc
  case destroyZero g' => simp only [Sys.recObjects,setRec_rd hr,setRec_mpidr hm]
  all_goals rfl

theorem instr_setRec (hrefs : pc.refs ≠ some g) (hzero : pc.zero g = false) (hr : r.rd = (s.recs g).rd)
    (hm : r.mpidr = (s.recs g).mpidr) : (s.setRec g r).instr pc a = s.instr pc a := by
  have hrealm : (s.setRec g r).realmCommands a pc = s.realmCommands a pc := by
    cases pc <;> rfl
  have hlookup : (s.setRec g r).lookup = s.lookup := by
    funext k
    cases k <;> rfl
  unfold Sys.instr
  split
  · rw [hlookup]
  · rfl
  · rw [recEnter_setRec hrefs hzero hr hm,psciComplete_setRec hzero hr hm,recObjects_setRec hr hm,hrealm]

theorem idle_view (h : Inv s) (hg : (s.cpu c).refs = some g) (hne : c' ≠ c) :
    (s.cpu c').refs ≠ some g ∧ (s.cpu c').zero g = false := by
  refine ⟨fun h0 => hne (h.alone c' c g h0 hg),?_⟩
  refine Bool.eq_false_iff.2 fun hz => ?_
  exact absurd ((h.view c').zero g hz) (h.ref_pos hg)

theorem recObject_kept (h : Inv s) (hg : (s.cpu c).refs = some g) (hs : s.step c' a = some t) : t.state g = .recObject := by
  obtain ⟨-,op,pc',s',hi,ha,rfl⟩ := step_cases hs
  have hp := (instr_fits (h.view c') hi).pre
  have hst := ref_state h c hg
  exact (kept h hp ha (.inl hst) (h.ref_pos hg)).trans hst

def Sys.Delivers (s : Sys) (c g : Nat) : Prop := ∃ g' d v, s.cpu c = .respTarget g' d g v

theorem unwritten (h : Inv s) (hg : (s.cpu c).refs = some g) (hne : c' ≠ c) (hd : ¬ s.Delivers c' g)
    (hs : s.step c' a = some t) : t.recs g = s.recs g := by
  obtain ⟨-,op,pc',s',hi,ha,rfl⟩ := step_cases hs
  have hp := (instr_fits (h.view c') hi).pre
  have hst := ref_state h c hg
  show s'.recs g = s.recs g
  rw [(Sys.apply_fixed ha).2.2.2]
  cases op
  case addRec g' d m r =>
    have hgg : g ≠ g' := by
      rintro rfl
      exact not_addRec_of_state h hp (by rw [hst]; decide) d m r rfl
    exact Function.update_of_ne hgg ..
  case writeRec g' r =>
    have hgg : g ≠ g' := by
      rintro rfl
      rcases hp.2.2 with h0 | h0
      · exact hne (h.alone c' c g h0 hg)
      · exact h.ref_pos hg h0.2
    exact Function.update_of_ne hgg ..
  case respond g' v =>
    have hgg : g ≠ g' := by
      rintro rfl
      obtain ⟨x,d,hx⟩ := hp
      exact hd ⟨x,d,v,hx⟩
    exact Function.update_of_ne hgg ..
  all_goals rfl

theorem delivered (hd : s.Delivers c g) (hs : s.step c a = some t) : ∃ v, t.recs g = { s.recs g with attest := v } := by
  obtain ⟨-,op,pc',s',hi,ha,rfl⟩ := step_cases hs
  obtain ⟨g',d,v,hpc⟩ := hd
  rw [hpc] at hi
  cases hi
  cases ha
  exact ⟨v,Function.update_self ..⟩

theorem setCpu_cpu : (s'.setCpu c pc').cpu c = pc' := Function.update_self ..

theorem carry (h : Inv s) (hs : s.step c a = some t) (hn : (t.cpu c).counted ≠ (s.cpu c).counted) (d : Nat) :
    unpackState (t.word d) = unpackState (s.word d) := by
  obtain ⟨hc,op,pc',s',hi,ha,rfl⟩ := step_cases hs
  have fit := instr_fits (h.view c) hi
  have hp := fit.pre
  rw [setCpu_cpu,fit.counted] at hn
  cases op
  case count d' =>
    cases ha
    apply (congrArg unpackState (Sys.setWord_word _ d)).trans
    split
    · next hd =>
        rw [hd]
        exact (count_word h hp).2.2
    · rfl
  case uncount d' =>
    cases ha
    apply (congrArg unpackState (Sys.setWord_word _ d)).trans
    split
    · next hd =>
        rw [hd]
        exact (uncount_word h hc hp).2.2
    · rfl
  all_goals exact absurd rfl hn

theorem admitted (h : Inv s) (hs : s.step c a = some t) (hn : (s.cpu c).counted = none)
    (hd : (t.cpu c).counted = some d) : unpackState (s.word d) = RealmState.active.code := by
  obtain ⟨-,op,pc',s',hi,ha,rfl⟩ := step_cases hs
  have fit := instr_fits (h.view c) hi
  have hp := fit.pre
  rw [setCpu_cpu,fit.counted,hn] at hd
  cases op <;> simp only [Op.counted] at hd
  case count d' =>
    cases hd
    exact hp.1
  all_goals cases hd

theorem balanced (h : Inv s) (hs : s.step c a = some t) (hg : (s.cpu c).refs = some g) (hn : (t.cpu c).refs = none) :
    (s.cpu c).counted = none ∧ t.refcount g + 1 = s.refcount g := by
  obtain ⟨-,op,pc',s',hi,ha,rfl⟩ := step_cases hs
  have fit := instr_fits (h.view c) hi
  have hp := fit.pre
  rw [setCpu_cpu,fit.refs,hg] at hn
  cases op <;> simp only [Op.refs] at hn
  case dropRef g' =>
    have hgg : g = g' := Option.some.inj (hg.symm.trans hp.1)
    subst hgg
    have hpos := h.ref_pos hg
    cases ha
    refine ⟨hp.2,?_⟩
    rw [show ((s.dropRefcount g).setCpu c pc').refcount g = s.refcount g - 1 from
      (Sys.setRefcount_refcount _ g).trans (if_pos rfl)]
    omega
  all_goals cases hn

structure Tracks (i d v : Nat) (t : Sys) : Prop where
  known : i < t.realms
  ahead : ∀ d', t.state d' = .rd → (t.rds d').id = i → d' = d ∧ v ≤ unpackState (t.word d')

theorem Tracks.step (ht : Tracks i d v s) (h : Inv s) (hs : s.step c a = some t) : Tracks i d v t := by
  obtain ⟨hc,op,pc',s',hi,ha,rfl⟩ := step_cases hs
  have hp := (instr_fits (h.view c) hi).pre
  refine ⟨Nat.lt_of_lt_of_le ht.known (realms_after ha).1,fun d' hd' hid => ?_⟩
  rcases identity_after h hp ha hd' with ⟨hst,he⟩ | ⟨rfl,he⟩
  · obtain ⟨hdd,hv⟩ := ht.ahead d' hst (he.symm.trans hid)
    exact ⟨hdd,Nat.le_trans hv (forward h hc hp ha hst : _ ≤ unpackState (s'.word d'))⟩
  · have h1 : i = s.realms := hid.symm.trans he
    have h2 := ht.known
    omega

theorem Tracks.later (ht : Tracks i d v s) (h : Inv s) (hl : s.Later t) : Tracks i d v t := by
  induction hl with
  | refl => exact ht
  | tail hl hst ih =>
    obtain ⟨l,-,hs⟩ := hst
    exact ih.step (h.later hl) hs

theorem tracks_now (h : Inv s) (hd : s.state d = .rd) : Tracks (s.rds d).id d (unpackState (s.word d)) s := by
  refine ⟨h.ids d hd,fun d' hd' hid => ?_⟩
  have hdd := h.apart d' d hd' hd hid
  rw [hdd]
  exact ⟨rfl,Nat.le_refl _⟩

theorem not_counted_again (h : Inv s) (hd : s.state d = .rd) (hz : unpackState (s.word d) = RealmState.zombie.code)
    (hl : s.Later t) (hc : (t.cpu c).counted = some x) : (t.rds x).id ≠ (s.rds d).id := fun hid => by
  have ht := h.later hl
  have hge := (((tracks_now h hd).later h hl).ahead x (ht.counted_rd hc) hid).2
  have hle := counted_started ht hc
  rw [hz] at hge
  simp only [RealmState.code] at hge hle
  omega

structure Guarantees (s : Sys) : Prop where
  alone : ∀ c c' g, (s.cpu c).refs = some g → (s.cpu c').refs = some g → c = c'
  unread : ∀ c c' g a r, (s.cpu c).refs = some g → c' ≠ c → r.rd = (s.recs g).rd → r.mpidr = (s.recs g).mpidr →
    (s.setRec g r).instr (s.cpu c') a = s.instr (s.cpu c') a
  pinned : ∀ c c' g a t, (s.cpu c).refs = some g → s.step c' a = some t → t.state g = .recObject
  unwritten : ∀ c c' g a t, (s.cpu c).refs = some g → c' ≠ c → ¬ s.Delivers c' g → s.step c' a = some t →
    t.recs g = s.recs g
  delivered : ∀ c g a t, s.Delivers c g → s.step c a = some t → ∃ v, t.recs g = { s.recs g with attest := v }
  refcount : ∀ g, s.state g = .recObject → s.refcount g = s.holders Pc.refs g
  count : ∀ d, s.state d = .rd → s.word d < 2 ^ 64 ∧ unpackCount (s.word d) = s.holders Pc.counted d
  carry : ∀ c a t d, s.step c a = some t → (t.cpu c).counted ≠ (s.cpu c).counted →
    unpackState (t.word d) = unpackState (s.word d)
  balanced : ∀ c a t g, s.step c a = some t → (s.cpu c).refs = some g → (t.cpu c).refs = none →
    (s.cpu c).counted = none ∧ t.refcount g + 1 = s.refcount g
  forward : ∀ t d d', s.Later t → s.state d = .rd → t.state d' = .rd → (t.rds d').id = (s.rds d).id →
    d' = d ∧ unpackState (s.word d) ≤ unpackState (t.word d')
  counted : ∀ c g d, s.cpu c = .running g d → (s.recs g).rd = d ∧ s.state d = .rd ∧ (s.cpu c).counted = some d
  admitted : ∀ c a t d, s.step c a = some t → (s.cpu c).counted = none → (t.cpu c).counted = some d →
    unpackState (s.word d) = RealmState.active.code
  terminated : ∀ c a t u d c' d', s.cpu c = .terminateDone d → s.step c a = some t → t.Later u →
    (u.cpu c').counted = some d' → (u.rds d').id ≠ (s.rds d).id

theorem Sys.Later.head (hs : s.step c a = some t) (hl : t.Later u) : s.Later u :=
  Relation.ReflTransGen.head ⟨(c,a),trivial,hs⟩ hl

theorem rec_execution_and_realm_lifecycle (hr : system.Reachable s) : Guarantees s := by
  have h := inv_of_reachable hr
  constructor
  case alone => exact h.alone
  case unread =>
    intro c c' g a r hg hne hrd hm
    obtain ⟨h1,h2⟩ := idle_view h hg hne
    exact instr_setRec h1 h2 hrd hm
  case pinned => exact fun c c' g a t hg hs => recObject_kept h hg hs
  case unwritten => exact fun c c' g a t hg hne hd hs => unwritten h hg hne hd hs
  case delivered => exact fun c g a t hd hs => delivered hd hs
  case refcount => exact h.users
  case count => exact fun d hd => ⟨(h.word d hd).wide,(h.word d hd).count⟩
  case carry => exact fun c a t d hs hn => carry h hs hn d
  case balanced => exact fun c a t g hs hg hn => balanced h hs hg hn
  case forward => exact fun t d d' hl hd hd' hid => ((tracks_now h hd).later h hl).ahead d' hd' hid
  case counted =>
    intro c g d hc
    have hd : (s.cpu c).counted = some d := by rw [hc]; rfl
    exact ⟨(h.view c).home g d (by rw [hc]; rfl),h.counted_rd hd,hd⟩
  case admitted => exact fun c a t d hs hn hd => admitted h hs hn hd
  case terminated =>
    intro c a t u d c' d' hc hs hl hd
    have hknow : (s.cpu c).knows = some (d,RealmState.zombie.code) := by rw [hc]; rfl
    exact not_counted_again h (held_state h (Pc.knows_held hknow)) ((h.view c).knows _ _ hknow) (hl.head hs) hd

def Sys.runs (s : Sys) : List (Nat × Act) → Option Sys
  | [] => some s
  | l :: rest => (s.step l.1 l.2).bind fun t => t.runs rest

theorem reachable_runs {ls : List (Nat × Act)} (hs : system.Reachable s) (h : s.runs ls = some t) : system.Reachable t := by
  induction ls generalizing s with
  | nil =>
    cases h
    exact hs
  | cons l rest ih =>
    obtain ⟨u,hu,h⟩ := Option.bind_eq_some_iff.mp h
    exact ih (hs.next trivial hu) h

namespace Sample

def boot : Sys where
  cpus := 2
  granules := 4
  gran _ := ⟨none,.delegated,0⟩
  recs _ := ⟨0,0,false,false,0,0,0,0⟩
  rds _ := ⟨0,fun _ => none,0⟩
  cpu _ := .idle
  realms := 0
  terminated := []

theorem boot_initial : Initial boot :=
  ⟨by decide,fun _ => rfl,fun _ => .inl rfl,fun _ => rfl,fun _ => rfl,rfl⟩

def calls (c : Nat) (k : Call) (n : Nat) : List (Nat × Act) := (c,.call k) :: List.replicate n (c,.go)

def script : List (Nat × Act) :=
  calls 0 (.objectCreate 0) 1 ++ calls 0 (.realmCreate 0) 1 ++ calls 1 (.objectCreate 1) 1 ++
    calls 1 (.recCreate 1 0 7 true) 4 ++ calls 0 (.realmActivate 0) 4 ++ calls 0 (.recEnter 1) 8

def responding : List (Nat × Act) :=
  calls 0 (.objectCreate 0) 1 ++ calls 0 (.realmCreate 0) 1 ++ calls 0 (.objectCreate 1) 1 ++
    calls 0 (.recCreate 1 0 7 true) 4 ++ calls 1 (.objectCreate 2) 1 ++ calls 1 (.recCreate 2 0 8 true) 4 ++
    calls 0 (.realmActivate 0) 4 ++ calls 0 (.recEnter 1) 8 ++ calls 1 (.recEnter 2) 8 ++ [(1,.tokenResponse 1 5)]

end Sample

theorem rec_execution_and_realm_lifecycle_running :
    ∃ s, system.Reachable s ∧ s.cpu 0 = .running 1 0 ∧ s.refcount 1 = 1 ∧ Guarantees s := by
  have h : (Sample.boot.runs Sample.script).map (fun t => (t.cpu 0,t.refcount 1)) = some (.running 1 0,1) := by
    decide +kernel
  obtain ⟨t,ht,he⟩ := Option.map_eq_some_iff.mp h
  have hr := reachable_runs (.initial Sample.boot_initial) ht
  exact ⟨t,hr,congrArg Prod.fst he,congrArg Prod.snd he,rec_execution_and_realm_lifecycle hr⟩

theorem response_written_while_running : ∃ s t, system.Reachable s ∧ s.cpu 0 = .running 1 0 ∧ s.step 1 .go = some t ∧
    (t.recs 1).attest ≠ (s.recs 1).attest := by
  have h : (Sample.boot.runs Sample.responding).map
      (fun s => (s.cpu 0,(s.recs 1).attest,(s.step 1 .go).map fun t => (t.recs 1).attest)) =
      some (.running 1 0,0,some 5) := by
    decide +kernel
  obtain ⟨s,hs,he⟩ := Option.map_eq_some_iff.mp h
  simp only [Prod.mk.injEq] at he
  obtain ⟨t,ht,hv⟩ := Option.map_eq_some_iff.mp he.2.2
  refine ⟨s,t,reachable_runs (.initial Sample.boot_initial) hs,he.1,ht,?_⟩
  rw [hv,he.2.1]
  decide

theorem realm_refcount_exact (hr : system.Reachable s) :
    (∀ g, s.state g = .recObject → g < s.granules ∧ s.state (s.recs g).rd = .rd) ∧
    (∀ d, s.state d = .rd → s.refcount d = s.members d + s.holders Pc.adds d + s.holders Pc.drops d) ∧
    ∀ g, s.state g ≠ .recObject → s.state g ≠ .rd → s.refcount g = 0 :=
  have h := inv_of_reachable hr
  ⟨h.recs,h.rds,h.fresh⟩

theorem realm_refcount_exact_running : ∃ s, system.Reachable s ∧ s.state 0 = .rd ∧ s.refcount 0 = 1 ∧
    s.refcount 0 = s.members 0 + s.holders Pc.adds 0 + s.holders Pc.drops 0 := by
  have h : (Sample.boot.runs Sample.script).map (fun t => (t.state 0,t.refcount 0)) = some (.rd,1) := by
    decide +kernel
  obtain ⟨t,ht,he⟩ := Option.map_eq_some_iff.mp h
  simp only [Prod.mk.injEq] at he
  have hr := reachable_runs (.initial Sample.boot_initial) ht
  exact ⟨t,hr,he.1,he.2,(realm_refcount_exact hr).2.1 0 he.1⟩

end TfRmm.Lifecycle
