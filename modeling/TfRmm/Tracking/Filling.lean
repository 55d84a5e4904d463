import TfRmm.Tracking.Marker

namespace TfRmm.Tracking

open TfRmm.Lib

namespace Sys

def Live (s : Sys) (r : Nat) : Prop :=
  (s.regions r).state = .fine ∨ ∃ h c, s.ops h = some c ∧ c.active ∧ c.region = r

def Completing (s : Sys) (r : Nat) : Prop :=
  ∃ h c, s.ops h = some c ∧ c.active ∧ c.region = r ∧ c.run = .completing

end Sys

section Invariant

variable (size : Nat)

structure Held (s : Sys) (r p : Nat) : Prop where
  realm : (p / size = r → s.Live r) → s.pas p = .realm
  conv : s.conventional size p
  outside : p / size ≠ r → (s.regions (p / size)).state = .fine ∧ s.granule size p = .internal
  inside : p / size = r → (s.regions r).state = .fine → ¬ s.Completing r →
    s.granule size p = .internal

structure Stored (s : Sys) : Prop where
  held : ∀ r i p, (s.regions r).backing i = some p → Held size s r p
  inj : ∀ r i r' i' p, (s.regions r).backing i = some p →
    (s.regions r').backing i' = some p → r = r' ∧ i = i'

structure Agree (s : Sys) : Prop where
  fine : ∀ p, (s.regions (p / size)).state = .fine → s.conventional size p →
    s.granule size p = .delegated → s.pas p = .realm
  coarse : ∀ p, (s.regions (p / size)).state = .coarse → s.conventional size p →
    (s.regions (p / size)).coarse.state = .delegated → s.pas p = .realm

def Region.Unfine (r : Region) : Prop := r.state = .none ∨ r.state = .coarse

structure Apart (s : Sys) (r p : Nat) (v : Pas) : Prop where
  inside : p / size = r
  conv : s.conventional size p
  pas : s.pas p = v
  unmapped : ∀ i, (s.regions r).backing i ≠ some p
  self : selfDescribingState (s.regions r) = some .undelegated

def Ctx.inFlight (c : Ctx) : Nat := if c.gpi.isSome then 1 else 0

def Ctx.failures (c : Ctx) : Nat := if c.failedDonor.isSome then 1 else 0

structure Loaded (s : Sys) (c : Ctx) : Prop where
  target : c.target = .fine
  source : (s.regions c.region).Unfine
  count : c.requested = (s.regions c.region).metadataPages
  bound : c.transferred ≤ c.requested
  length : c.accepted.length = c.transferred
  unreported : c.reported = [] ∧ c.delivered = [] ∧ c.list = [] ∧ c.reclaimPage = 0 ∧
    c.failedDonor = none
  mapped : ∀ i, (s.regions c.region).backing i =
    if i < c.transferred-c.inFlight then c.accepted[i]? else none
  pending : ∀ p, c.gpi = some p → c.accepted.getLast? = some p ∧ Apart size s c.region p .ns

structure Filling (s : Sys) (c : Ctx) : Prop extends Loaded size s c where
  stage : c.callback = .donate ∧ c.gpi = none ∧ (c.run = .idle ∨ ∃ rest, c.run = .donating rest) ∨
    c.callback = .delegateContinue ∧ c.gpi.isSome ∧ c.run = .idle ∨
    c.callback = .continueSet ∧ c.gpi = none ∧ c.transferred = c.requested ∧ c.run = .idle

structure Draining (s : Sys) (c : Ctx) : Prop where
  stage : c.callback = .reclaim ∧ (c.run = .idle ∨ ∃ n, c.run = .reclaiming n) ∨
    c.callback = .finish ∧ c.run = .idle ∧ c.reclaimPage = c.requested
  source : (s.regions c.region).Unfine
  count : c.requested ≤ (s.regions c.region).metadataPages
  length : c.accepted.length = c.requested
  bound : c.reclaimPage + c.inFlight + c.failures ≤ c.requested
  mapped : ∀ i, (s.regions c.region).backing i =
    if c.reclaimPage+c.inFlight ≤ i ∧ i < c.requested-c.failures then c.accepted[i]? else none
  pending : ∀ p, c.gpi = some p → c.accepted[c.reclaimPage]? = some p ∧
    Apart size s c.region p .realm ∧ s.zeroed p
  failed : ∀ p, c.failedDonor = some p → c.requested = c.transferred ∧
    c.accepted[c.requested-1]? = some p ∧ Apart size s c.region p .ns
  distinct : c.accepted.Nodup
  ledger : c.reported.map Prod.fst = c.accepted.take c.reclaimPage ∧
    (Sro.AddrList.pages (c.delivered ++ c.list)).Perm c.reported

structure Installed (s : Sys) (c : Ctx) : Prop where
  run : c.run = .completing
  state : (s.regions c.region).state = .fine
  length : c.accepted.length = (s.regions c.region).metadataPages
  mapped : ∀ i, (s.regions c.region).backing i = c.accepted[i]?
  unreported : c.reported = [] ∧ c.delivered = [] ∧ c.list = [] ∧ c.reclaimPage = 0

structure Starting (s : Sys) (c : Ctx) : Prop where
  run : c.run = .starting
  target : c.target = .none ∨ c.target = .coarse
  state : (s.regions c.region).state = .fine
  fresh : c = reclaimCtx c.region c.target (s.regions c.region).metadataPages

def OpInv (s : Sys) (c : Ctx) : Prop :=
  Filling size s c ∨ Draining size s c ∨ Installed s c ∨ Starting s c

structure Inv (s : Sys) : Prop where
  marker : MarkerInv s
  base : ∀ r, (s.regions r).base = r*size
  agree : Agree size s
  stored : Stored size s
  op : ∀ h c, s.ops h = some c → c.active → OpInv size s c
  within : ∀ r i, (s.regions r).metadataPages ≤ i → (s.regions r).backing i = none
  full : ∀ r, (s.regions r).state = .fine → ∀ i, i < (s.regions r).metadataPages →
    ∃ p, (s.regions r).backing i = some p
  unowned : ∀ r, (s.regions r).state ≠ .fine → (∀ h, ¬ s.Owns (.op h) r) →
    (∀ i, (s.regions r).backing i = none) ∨
      ∀ i, i < (s.regions r).metadataPages → ∃ p, (s.regions r).backing i = some p
  syncing : ∀ cpu r target, s.calls cpu = some (.sync r target) → target ≠ .fine
  claiming : ∀ cpu r target current, s.calls cpu = some (.claiming r target current) →
    current ≠ target ∧ (target = .fine ∨ current = .fine) ∧ target ≠ .reserved
  claimed : ∀ cpu r target, s.calls cpu = some (.claimed r target) →
    target = .fine ∧ (s.regions r).Unfine ∨
      (target = .none ∨ target = .coarse) ∧ (s.regions r).state = .fine

structure Sys.Rely (s t : Sys) : Prop where
  others : s.Others t
  same : ∀ r, (t.regions r).layout = (s.regions r).layout ∧
    (t.regions r).base = (s.regions r).base ∧ (t.regions r).state = (s.regions r).state ∧
    (t.regions r).metadataPages = (s.regions r).metadataPages ∧
    (t.regions r).backing = (s.regions r).backing
  marked : ∀ p, (s.regions (p / size)).pending = true →
    t.pas p = s.pas p ∧ (s.pas p = .realm → t.zeroed p = s.zeroed p)
  coarse : ∀ r, (s.regions r).pending = true → (s.regions r).coarse.state = .ns →
    (t.regions r).coarse.state = .ns
  backing : ∀ p r i, (s.regions r).backing i = some p → (s.regions (p / size)).state = .fine →
    s.granule size p = .internal → t.granule size p = .internal ∧ t.pas p = s.pas p
  agree : Agree size s → Agree size t

def El3.Meets (s : Sys) : Label → Prop
  | .page h e => (e = .incomplete ∨ ∃ b, e = .complete b) →
      ∀ c p rest, s.ops h = some c → c.run = .donating ((p,.undelegated) :: rest) →
        s.pas p = .ns
  | _ => True

def transferSystem : TransitionSystem Sys Label where
  init s := (system size).init s ∧ (∀ r, (s.regions r).base = r*size) ∧ Agree size s ∧
    ∀ r, (s.regions r).state ≠ .fine ∧ ∀ i, (s.regions r).backing i = none
  step s l t := El3.Meets s l ∧ exec size s l = some t ∨ l = .others ∧ s.Rely size t

def Fresh (s : Sys) : Label → Prop
  | .page h _ => ∀ c p rest, s.ops h = some c → c.run = .donating ((p,.delegated) :: rest) →
      p / size = c.region → p ∉ c.accepted
  | _ => True

end Invariant

section Frames

variable {size : Nat} {s t : Sys} {c : Ctx} {r : Nat} {k : Nat}

structure Sys.SameFor (size : Nat) (s t : Sys) (r : Nat) : Prop where
  state : (t.regions r).state = (s.regions r).state
  metadataPages : (t.regions r).metadataPages = (s.regions r).metadataPages
  layout : (t.regions r).layout = (s.regions r).layout
  backing : (t.regions r).backing = (s.regions r).backing
  pas : ∀ p, p / size = r → (s.regions r).state ≠ .fine →
    t.pas p = s.pas p ∧ (s.pas p = .realm → t.zeroed p = s.zeroed p)
  self : selfDescribingState (s.regions r) = some .undelegated →
    selfDescribingState (t.regions r) = some .undelegated

theorem Sys.SameFor.conventional {r p : Nat} (h : s.SameFor size t r) (hp : p / size = r) :
    t.conventional size p = s.conventional size p := by
  subst hp
  simp only [Sys.conventional,h.layout]

theorem Region.Unfine.not_fine {r : Region} (h : r.Unfine) : r.state ≠ .fine := fun hf => by
  rcases h with h | h <;> rw [h] at hf <;> cases hf

theorem Apart.frame {r p : Nat} {v : Pas} (h : Apart size s r p v) (hs : s.SameFor size t r)
    (hne : (s.regions r).state ≠ .fine) : Apart size t r p v := by
  refine ⟨h.inside,?_,?_,?_,hs.self h.self⟩
  · rw [hs.conventional h.inside]
    exact h.conv
  · rw [(hs.pas p h.inside hne).1]
    exact h.pas
  · rw [hs.backing]
    exact h.unmapped

theorem OpInv.frame (h : OpInv size s c) (hs : s.SameFor size t c.region) : OpInv size t c := by
  have hu : (s.regions c.region).Unfine → (t.regions c.region).Unfine := by
    rw [Region.Unfine,Region.Unfine,hs.state]
    exact id
  rcases h with h | h | h | h
  · have hne := h.source.not_fine
    exact .inl ⟨⟨h.target,hu h.source,hs.metadataPages ▸ h.count,h.bound,h.length,h.unreported,hs.backing ▸ h.mapped,
      fun p hp => ⟨(h.pending p hp).1,(h.pending p hp).2.frame hs hne⟩⟩,h.stage⟩
  · have hne := h.source.not_fine
    refine .inr (.inl ⟨h.stage,hu h.source,hs.metadataPages ▸ h.count,h.length,h.bound,hs.backing ▸ h.mapped,
      fun p hp => ?_,fun p hp => ?_,h.distinct,h.ledger⟩)
    · obtain ⟨h₁,h₂,h₃⟩ := h.pending p hp
      exact ⟨h₁,h₂.frame hs hne,((hs.pas p h₂.inside hne).2 h₂.pas).trans h₃⟩
    · obtain ⟨h₁,h₂,h₃⟩ := h.failed p hp
      exact ⟨h₁,h₂,h₃.frame hs hne⟩
  · exact .inr (.inr (.inl ⟨h.run,hs.state.trans h.state,hs.metadataPages ▸ h.length,hs.backing ▸ h.mapped,h.unreported⟩))
  · exact .inr (.inr (.inr ⟨h.run,h.target,hs.state.trans h.state,hs.metadataPages ▸ h.fresh⟩))

theorem Stored.step (hi : Stored size s) (hsame : ∀ q, q ≠ r → (t.regions q).state = (s.regions q).state ∧
      (t.regions q).backing = (s.regions q).backing)
    (hlayout : ∀ q, (t.regions q).layout = (s.regions q).layout)
    (hlive : ∀ q, q ≠ r → t.Live q → s.Live q)
    (hcompl : ∀ q, q ≠ r → s.Completing q → t.Completing q)
    (hpas : ∀ p, (p / size = r → (s.regions r).state = .fine) → t.pas p = s.pas p)
    (hgran : ∀ q i p, q ≠ r → (s.regions q).backing i = some p →
      s.granule size p = .internal → t.granule size p = .internal)
    (hleave : ∀ q i p, q ≠ r → (s.regions q).backing i = some p → p / size = r → (t.regions r).state = .fine)
    (hown : ∀ i p, (t.regions r).backing i = some p → Held size t r p ∧
      (∀ j, (t.regions r).backing j = some p → j = i) ∧
      ∀ q j, q ≠ r → (s.regions q).backing j ≠ some p) : Stored size t := by
  refine ⟨fun q i p hb => ?_,fun q i q' i' p hb hb' => ?_⟩
  · by_cases hqr : q = r
    · subst hqr
      exact (hown i p hb).1
    · obtain ⟨hstate,hback⟩ := hsame q hqr
      rw [hback] at hb
      obtain ⟨hrealm,hconv,hout,hin⟩ := hi.held q i p hb
      refine ⟨fun hl => ?_,?_,fun hpq => ?_,fun hpq hf hnc => ?_⟩
      · rw [hpas p fun hpr => ?_]
        · exact hrealm fun hpq => hlive q hqr (hl hpq)
        · have := (hout (hpr.trans_ne (Ne.symm hqr))).1
          rwa [hpr] at this
      · simpa only [Sys.conventional,hlayout] using hconv
      · obtain ⟨hf,hg⟩ := hout hpq
        refine ⟨?_,hgran q i p hqr hb hg⟩
        by_cases hpr : p / size = r
        · rw [hpr]
          exact hleave q i p hqr hb hpr
        · rw [(hsame _ hpr).1]
          exact hf
      · rw [hstate] at hf
        exact hgran q i p hqr hb (hin hpq hf fun hc => hnc (hcompl q hqr hc))
  · by_cases hqr : q = r <;> by_cases hqr' : q' = r
    · subst hqr hqr'
      exact ⟨rfl,(hown i' p hb').2.1 i hb⟩
    · subst hqr
      rw [(hsame q' hqr').2] at hb'
      exact absurd hb' ((hown i p hb).2.2 q' i' hqr')
    · subst hqr'
      rw [(hsame q hqr).2] at hb
      exact absurd hb ((hown i' p hb').2.2 q i hqr)
    · rw [(hsame q hqr).2] at hb
      rw [(hsame q' hqr').2] at hb'
      exact hi.inj q i q' i' p hb hb'

structure LocalTo (size : Nat) (s t : Sys) (r : Nat) : Prop where
  others : ∀ q, q ≠ r → (t.regions q).state = (s.regions q).state ∧
    (t.regions q).coarse = (s.regions q).coarse ∧ (t.regions q).backing = (s.regions q).backing
  shape : ∀ q, (t.regions q).layout = (s.regions q).layout ∧
    (t.regions q).base = (s.regions q).base ∧
    (t.regions q).metadataPages = (s.regions q).metadataPages
  pas : ∀ p, (p / size = r → (s.regions r).state = .fine) → t.pas p = s.pas p
  zeroed : ∀ p, p / size ≠ r → (s.regions (p / size)).state ≠ .fine → t.zeroed p = s.zeroed p
  granule : ∀ q i p, q ≠ r → (s.regions q).backing i = some p →
    s.granule size p = .internal → t.granule size p = .internal
  leave : ∀ q i p, q ≠ r → (s.regions q).backing i = some p → p / size = r →
    (t.regions r).state = .fine

structure Settled (size : Nat) (s t : Sys) (r : Nat) : Prop where
  fine : ∀ p, p / size = r → (t.regions r).state = .fine → t.conventional size p →
    t.granule size p = .delegated → t.pas p = .realm
  coarse : ∀ p, p / size = r → (t.regions r).state = .coarse → t.conventional size p →
    (t.regions r).coarse.state = .delegated → t.pas p = .realm
  elsewhere : ∀ p, p / size ≠ r → t.granule size p = .delegated →
    s.granule size p = .delegated ∨ t.pas p = .realm
  held : ∀ i p, (t.regions r).backing i = some p → Held size t r p ∧
    (∀ j, (t.regions r).backing j = some p → j = i) ∧
    ∀ q j, q ≠ r → (s.regions q).backing j ≠ some p
  op : ∀ k e, t.ops k = some e → e.active → e.region = r → OpInv size t e
  within : ∀ i, (t.regions r).metadataPages ≤ i → (t.regions r).backing i = none
  full : (t.regions r).state = .fine → ∀ i, i < (t.regions r).metadataPages →
    ∃ p, (t.regions r).backing i = some p
  unowned : (t.regions r).state ≠ .fine → (∀ h, ¬ t.Owns (.op h) r) →
    (∀ i, (t.regions r).backing i = none) ∨
      ∀ i, i < (t.regions r).metadataPages → ∃ p, (t.regions r).backing i = some p

theorem LocalTo.sameFor {r q : Nat} (h : LocalTo size s t r) (hq : q ≠ r) : s.SameFor size t q := by
  obtain ⟨hstate,hcoarse,hback⟩ := h.others q hq
  obtain ⟨hlayout,-,hpages⟩ := h.shape q
  refine ⟨hstate,hpages,hlayout,hback,fun p hp hne => ?_,fun hself => ?_⟩
  · subst hp
    exact ⟨h.pas p fun hpr => absurd hpr hq,fun _ => h.zeroed p hq hne⟩
  · rw [selfDescribingState,hstate,hcoarse]
    exact hself

theorem LocalTo.agree (h : LocalTo size s t r) (hs : Settled size s t r) (ha : Agree size s) : Agree size t := by
  have hconv : ∀ p, t.conventional size p = s.conventional size p := fun p => by
    simp only [Sys.conventional,(h.shape _).1]
  refine ⟨fun p hf hc hg => ?_,fun p hf hc hg => ?_⟩
  · by_cases hp : p / size = r
    · rw [hp] at hf
      exact hs.fine p hp hf hc hg
    · obtain hg | hr := hs.elsewhere p hp hg
      · rw [h.pas p fun hpr => absurd hpr hp]
        rw [(h.others _ hp).1] at hf
        exact ha.fine p hf (hconv p ▸ hc) hg
      · exact hr
  · by_cases hp : p / size = r
    · rw [hp] at hf hg
      exact hs.coarse p hp hf hc hg
    · rw [(h.others _ hp).1] at hf
      rw [(h.others _ hp).2.1] at hg
      rw [h.pas p fun hpr => absurd hpr hp]
      exact ha.coarse p hf (hconv p ▸ hc) hg

theorem Inv.localStep (hi : Inv size s) (h : LocalTo size s t r) (hs : Settled size s t r)
    (hm : MarkerInv t)
    (hops : ∀ k e, e.region ≠ r → e.active → (t.ops k = some e ↔ s.ops k = some e))
    (hsyncing : ∀ cpu q target, t.calls cpu = some (.sync q target) → target ≠ .fine)
    (hclaiming : ∀ cpu q target current, t.calls cpu = some (.claiming q target current) →
      current ≠ target ∧ (target = .fine ∨ current = .fine) ∧ target ≠ .reserved)
    (hclaimed : ∀ cpu q target, t.calls cpu = some (.claimed q target) →
      q ≠ r ∧ s.calls cpu = some (.claimed q target) ∨ target = .fine ∧ (t.regions q).Unfine ∨
        (target = .none ∨ target = .coarse) ∧ (t.regions q).state = .fine) : Inv size t := by
  have hlive : ∀ q, q ≠ r → t.Live q → s.Live q := by
    rintro q hq (hf | ⟨k,e,hk,ha,rfl⟩)
    · rw [(h.others q hq).1] at hf
      exact .inl hf
    · exact .inr ⟨k,e,(hops k e hq ha).1 hk,ha,rfl⟩
  have hcompl : ∀ q, q ≠ r → s.Completing q → t.Completing q := by
    rintro q hq ⟨k,e,hk,ha,rfl,hrun⟩
    exact ⟨k,e,(hops k e hq ha).2 hk,ha,rfl,hrun⟩
  refine ⟨hm,fun q => ?_,h.agree hs hi.agree,?_,fun k e hk ha => ?_,fun q i => ?_,fun q hf i => ?_,
    fun q hf ho => ?_,hsyncing,hclaiming,fun cpu q target hcall => ?_⟩
  · rw [(h.shape q).2.1]
    exact hi.base q
  · exact hi.stored.step (fun q hq => ⟨(h.others q hq).1,(h.others q hq).2.2⟩)
      (fun q => (h.shape q).1) hlive hcompl h.pas h.granule h.leave hs.held
  · by_cases hr : e.region = r
    · exact hs.op k e hk ha hr
    · exact (hi.op k e ((hops k e hr ha).1 hk) ha).frame (h.sameFor hr)
  · by_cases hq : q = r
    · subst hq
      exact hs.within i
    · rw [(h.others q hq).2.2,(h.shape q).2.2]
      exact hi.within q i
  · by_cases hq : q = r
    · subst hq
      exact hs.full hf i
    · rw [(h.others q hq).1] at hf
      rw [(h.others q hq).2.2,(h.shape q).2.2]
      exact hi.full q hf i
  · by_cases hq : q = r
    · subst hq
      exact hs.unowned hf ho
    · rw [(h.others q hq).1] at hf
      rw [(h.others q hq).2.2,(h.shape q).2.2]
      apply hi.unowned q hf
      rintro k ⟨e,hk,ha,rfl⟩
      exact ho k ⟨e,(hops k e hq ha).2 hk,ha,rfl⟩
  · obtain ⟨hq,hcall⟩ | hcond := hclaimed cpu q target hcall
    · have := hi.claimed cpu q target hcall
      rwa [Region.Unfine,(h.others q hq).1]
    · exact hcond

theorem Inv.unclaimed (hi : Inv size s) (hc : s.ops k = some c) (ha : c.active) {cpu q : Nat} {target : TrState}
    (hcall : s.calls cpu = some (.claimed q target)) : q ≠ c.region := by
  rintro rfl
  cases hi.marker.unique (.call cpu) (.op k) c.region (.inl ⟨target,hcall⟩) ⟨c,hc,ha,rfl⟩

theorem Inv.opStep {c d : Ctx} {u : Sys} (hi : Inv size s) (hc : s.ops k = some c)
    (ha : c.active) (hops : u.ops = s.ops) (hcalls : u.calls = s.calls) (hd : d.region = c.region)
    (hm : MarkerInv (u.setOp k (some d))) (h : LocalTo size s (u.setOp k (some d)) c.region)
    (hs : Settled size s (u.setOp k (some d)) c.region) : Inv size (u.setOp k (some d)) := by
  have hcalls : (u.setOp k (some d)).calls = s.calls := hcalls
  refine hi.localStep h hs hm (fun k' e he _ => ?_) ?_ ?_ fun cpu q target hcall => ?_
  · by_cases hk : k' = k
    · subst hk
      have hnd : (u.setOp k' (some d)).ops k' = some d := by simp [Sys.setOp]
      rw [hnd,hc]
      constructor
      · intro hde
        exact absurd (Option.some.inj hde ▸ hd) he
      · intro hce
        exact absurd (Option.some.inj hce ▸ rfl) he
    · simp [Sys.setOp,hk,hops]
  · rw [hcalls]
    exact hi.syncing
  · rw [hcalls]
    exact hi.claiming
  · rw [hcalls] at hcall
    exact .inl ⟨hi.unclaimed hc ha hcall,hcall⟩

theorem Inv.only_op {k k' : Nat} {c e : Ctx} (hi : Inv size s) (hc : s.ops k = some c) (ha : c.active)
    (he : s.ops k' = some e) (hea : e.active) (hr : e.region = c.region) : k' = k := by
  cases hi.marker.unique (.op k') (.op k) c.region ⟨e,he,hea,hr⟩ ⟨c,hc,ha,rfl⟩
  rfl

theorem Inv.not_completing (hi : Inv size s) (hc : s.ops k = some c)
    (ha : c.active) (hrun : c.run ≠ .completing) : ¬ s.Completing c.region := by
  rintro ⟨k',e,he,hea,hr,hrun'⟩
  obtain rfl := hi.only_op hc ha he hea hr
  rw [Option.some.inj (he.symm.trans hc)] at hrun'
  exact hrun hrun'

theorem Stored.outside_fine (hi : Stored size s) {r q i p : Nat} (hq : q ≠ r)
    (hb : (s.regions q).backing i = some p) (hp : p / size = r) : (s.regions r).state = .fine := by
  have := ((hi.held q i p hb).outside (hp.trans_ne hq.symm)).1
  rwa [hp] at this

end Frames

open Function

variable {size : Nat} {s t u : Sys} {k r : Nat} {c d : Ctx}

theorem Held.mono {p : Nat} (h : Held size s r p) (hpas : (p / size = r → t.Live r) → t.pas p = .realm)
    (hlayout : (t.regions (p / size)).layout = (s.regions (p / size)).layout)
    (hout : p / size ≠ r → (t.regions (p / size)).state = (s.regions (p / size)).state ∧
      t.granule size p = s.granule size p)
    (hin : p / size = r → (t.regions r).state = .fine → ¬ t.Completing r →
      t.granule size p = .internal) : Held size t r p := by
  refine ⟨hpas,?_,fun hp => ?_,hin⟩
  · simpa only [Sys.conventional,hlayout] using h.conv
  · rw [(hout hp).1,(hout hp).2]
    exact h.outside hp

theorem LocalTo.ofUnfine (hi : Stored size s) (hu : (s.regions r).Unfine)
    (hreg : ∀ q, q ≠ r → (t.regions q).state = (s.regions q).state ∧
      (t.regions q).coarse = (s.regions q).coarse ∧ (t.regions q).backing = (s.regions q).backing)
    (hshape : ∀ q, (t.regions q).layout = (s.regions q).layout ∧ (t.regions q).base = (s.regions q).base ∧
      (t.regions q).metadataPages = (s.regions q).metadataPages)
    (hpas : ∀ p, p / size ≠ r → t.pas p = s.pas p)
    (hz : ∀ p, p / size ≠ r → (s.regions (p / size)).state ≠ .fine → t.zeroed p = s.zeroed p)
    (hgran : ∀ q i p, q ≠ r → (s.regions q).backing i = some p → p / size ≠ r →
      t.granule size p = s.granule size p) : LocalTo size s t r := by
  have hnot : ∀ q i p, q ≠ r → (s.regions q).backing i = some p → p / size ≠ r :=
    fun q i p hq hb hp => hu.not_fine (hi.outside_fine hq hb hp)
  refine ⟨hreg,hshape,fun p hp => hpas p fun hpr => hu.not_fine (hp hpr),hz,
    fun q i p hq hb hg => ?_,fun q i p hq hb hp => absurd hp (hnot q i p hq hb)⟩
  rw [hgran q i p hq hb (hnot q i p hq hb)]
  exact hg

theorem op_unique (hi : Inv size s) (hc : s.ops k = some c) (ha : c.active) (hops : u.ops = s.ops)
    (hop : d.active → OpInv size (u.setOp k (some d)) d) :
    ∀ k' e, (u.setOp k (some d)).ops k' = some e → e.active → e.region = c.region →
      OpInv size (u.setOp k (some d)) e := fun k' e he hea hr => by
  by_cases hk : k' = k
  · subst hk
    simp only [Sys.setOp,update_self] at he
    cases he
    exact hop hea
  · simp only [Sys.setOp,update_of_ne hk,hops] at he
    exact absurd (hi.only_op hc ha he hea hr) hk

theorem Settled.ofUnfine (hi : Inv size s) (hc : s.ops k = some c) (ha : c.active)
    (hops : u.ops = s.ops) (hd : d.region = c.region) (hda : d.active)
    (hu : (u.regions c.region).Unfine)
    (hcoarse : ∀ p, p / size = c.region → (u.regions c.region).state = .coarse →
      u.conventional size p → (u.regions c.region).coarse.state = .delegated → u.pas p = .realm)
    (helse : ∀ p, p / size ≠ c.region → u.granule size p = .delegated →
      s.granule size p = .delegated ∨ u.pas p = .realm)
    (hheld : ∀ i p, (u.regions c.region).backing i = some p →
      (u.pas p = .realm ∧ u.conventional size p ∧ (p / size ≠ c.region →
        (u.regions (p / size)).state = .fine ∧ u.granule size p = .internal)) ∧
      (∀ j, (u.regions c.region).backing j = some p → j = i) ∧
      ∀ q j, q ≠ c.region → (s.regions q).backing j ≠ some p)
    (hwithin : ∀ i, (u.regions c.region).metadataPages ≤ i → (u.regions c.region).backing i = none)
    (hop : OpInv size (u.setOp k (some d)) d) : Settled size s (u.setOp k (some d)) c.region := by
  refine ⟨fun p _ hf => absurd hf hu.not_fine,hcoarse,helse,fun i p hb => ?_,
    op_unique hi hc ha hops fun _ => hop,hwithin,fun hf => absurd hf hu.not_fine,fun _ ho => ?_⟩
  · obtain ⟨⟨hrealm,hconv,hout⟩,hrest⟩ := hheld i p hb
    exact ⟨⟨fun _ => hrealm,hconv,hout,fun _ hf => absurd hf hu.not_fine⟩,hrest⟩
  · exact absurd ⟨d,by simp [Sys.setOp],hda,hd⟩ (ho k)

theorem Stored.own (hi : Stored size s) {i p : Nat} (hb : (s.regions r).backing i = some p) : Held size s r p ∧
      (∀ j, (s.regions r).backing j = some p → j = i) ∧
      ∀ q j, q ≠ r → (s.regions q).backing j ≠ some p := by
  refine ⟨hi.held r i p hb,fun j hj => (hi.inj r j r i p hj hb).2,fun q j hq hj => hq (hi.inj q j r i p hj hb).1⟩

theorem live_of_op (hc : s.ops k = some c) (ha : c.active) : s.Live c.region :=
  .inr ⟨k,c,hc,ha,rfl⟩

theorem Inv.quietStep {z : Nat → Bool} (hi : Inv size s) (hc : s.ops k = some c) (ha : c.active)
    (hu : (s.regions c.region).Unfine) (hd : d.region = c.region) (hda : d.active)
    (hm : MarkerInv ({ s with zeroed := z }.setOp k (some d)))
    (hz : ∀ p, p / size ≠ c.region → (s.regions (p / size)).state ≠ .fine → z p = s.zeroed p)
    (hop : OpInv size ({ s with zeroed := z }.setOp k (some d)) d) :
    Inv size ({ s with zeroed := z }.setOp k (some d)) := by
  apply hi.opStep (u := { s with zeroed := z }) hc ha rfl rfl hd hm
  · exact .ofUnfine hi.stored hu (fun _ _ => ⟨rfl,rfl,rfl⟩) (fun _ => ⟨rfl,rfl,rfl⟩) (fun _ _ => rfl) hz
      fun _ _ _ _ _ _ => rfl
  refine .ofUnfine hi hc ha rfl hd hda hu (fun p hp hco hcv hg => ?_)
    (fun p _ hg => .inl hg) (fun i p hb => ?_) (hi.within c.region) hop
  · rw [← hp] at hco hg
    exact hi.agree.coarse p hco hcv hg
  · obtain ⟨hheld,hrest⟩ := hi.stored.own hb
    exact ⟨⟨hheld.realm fun _ => live_of_op hc ha,hheld.conv,hheld.outside⟩,hrest⟩

section Accept

structure Marked (size : Nat) (s w : Sys) (r p : Nat) : Prop where
  ops : w.ops = s.ops
  calls : w.calls = s.calls
  zeroed : w.zeroed = s.zeroed
  same : ∀ q, (w.regions q).state = (s.regions q).state ∧
    (w.regions q).coarse = (s.regions q).coarse ∧ (w.regions q).backing = (s.regions q).backing ∧
    (w.regions q).layout = (s.regions q).layout ∧ (w.regions q).base = (s.regions q).base ∧
    (w.regions q).metadataPages = (s.regions q).metadataPages
  granule : ∀ p', p' ≠ p → w.granule size p' = s.granule size p'
  pas : ∀ p', p' ≠ p → w.pas p' = s.pas p'
  realm : w.pas p = .realm
  conv : s.conventional size p
  inside : p / size = r → w.granule size p = s.granule size p
  outside : p / size ≠ r → (s.regions (p / size)).state = .fine ∧ w.granule size p = .internal ∧
    w.pas p = s.pas p
  fresh : ∀ q j, (s.regions q).backing j ≠ some p

theorem populate_regions (w : Sys) (c : Ctx) (i p q : Nat) : (populate w c i p).regions q = if q = c.region then
      { w.regions c.region with backing := update (w.regions c.region).backing i (some p) }
      else w.regions q :=
  Function.update_apply ..

theorem populate_same (w : Sys) (c : Ctx) (i p q : Nat) : ((populate w c i p).regions q).state = (w.regions q).state ∧
    ((populate w c i p).regions q).coarse = (w.regions q).coarse ∧ ((populate w c i p).regions q).layout =
    (w.regions q).layout ∧ ((populate w c i p).regions q).base = (w.regions q).base ∧
    ((populate w c i p).regions q).metadataPages = (w.regions q).metadataPages ∧ ((populate w c i p).regions q).fine =
    (w.regions q).fine := by
  rw [populate_regions]
  split
  next hq =>
    subst hq
    exact ⟨rfl,rfl,rfl,rfl,rfl,rfl⟩
  · exact ⟨rfl,rfl,rfl,rfl,rfl,rfl⟩

theorem populate_granule (w : Sys) (c : Ctx) (i p p' : Nat) : (populate w c i p).granule size p' = w.granule size p' := by
  rw [Sys.granule,(populate_same w c i p _).2.2.2.2.2]
  rfl

theorem populate_backing (w : Sys) (c : Ctx) (i p : Nat) : ((populate w c i p).regions c.region).backing =
      update (w.regions c.region).backing i (some p) := by
  rw [populate_regions,if_pos rfl]

theorem Inv.acceptStep {w : Sys} {i p : Nat} (hi : Inv size s) (hc : s.ops k = some c) (ha : c.active)
    (hu : (s.regions c.region).Unfine) (hw : Marked size s w c.region p) (hlt : i < (s.regions c.region).metadataPages)
    (hd : d.region = c.region) (hda : d.active) (hm : MarkerInv ((populate w c i p).setOp k (some d)))
    (hop : OpInv size ((populate w c i p).setOp k (some d)) d) : Inv size ((populate w c i p).setOp k (some d)) := by
  have hsame := fun q => populate_same w c i p q
  have hlive := live_of_op hc ha
  have hbackne : ∀ q, q ≠ c.region → ((populate w c i p).regions q).backing = (s.regions q).backing := fun q hq => by
    rw [populate_regions,if_neg hq]
    exact (hw.same q).2.2.1
  have hu' : ((populate w c i p).regions c.region).Unfine := by
    rw [Region.Unfine,(hsame _).1,(hw.same _).1]
    exact hu
  refine hi.opStep hc ha hw.ops hw.calls hd hm ?_ ?_
  · refine .ofUnfine hi.stored hu (fun q hq => ⟨(hsame q).1.trans (hw.same q).1,
      (hsame q).2.1.trans (hw.same q).2.1,hbackne q hq⟩)
      (fun q => ⟨(hsame q).2.2.1.trans (hw.same q).2.2.2.1,(hsame q).2.2.2.1.trans (hw.same q).2.2.2.2.1,
        (hsame q).2.2.2.2.1.trans (hw.same q).2.2.2.2.2⟩) (fun p' hp' => ?_) (fun p' hp' hne => ?_)
      fun q j p' hq hb _ => ?_
    · by_cases hpp : p' = p
      · subst hpp
        exact (hw.outside hp').2.2
      · exact hw.pas p' hpp
    · have hpp : p' ≠ p := by
        rintro rfl
        exact hne (hw.outside hp').1
      show update w.zeroed p false p' = s.zeroed p'
      rw [update_of_ne hpp,hw.zeroed]
    · have hpp : p' ≠ p := by
        rintro rfl
        exact hw.fresh q j hb
      exact (populate_granule w c i p p').trans (hw.granule p' hpp)
  · have hpas : ∀ p', s.pas p' = .realm → w.pas p' = .realm := fun p' hp' => by
      by_cases hpp : p' = p
      · rw [hpp]
        exact hw.realm
      · rw [hw.pas p' hpp]
        exact hp'
    have hconv : ∀ p', (populate w c i p).conventional size p' = s.conventional size p' := fun p' => by
      rw [Sys.conventional,(hsame _).2.2.1,(hw.same _).2.2.2.1]
      rfl
    refine .ofUnfine hi hc ha hw.ops hd hda hu' (fun p' hp' hco hcv hg => ?_)
      (fun p' hp' hg => ?_) (fun j p' hb => ?_) (fun j hj => ?_) hop
    · rw [(hsame _).1,(hw.same _).1] at hco
      rw [(hsame _).2.1,(hw.same _).2.1] at hg
      rw [hconv] at hcv
      rw [← hp'] at hco hg
      exact hpas p' (hi.agree.coarse p' hco hcv hg)
    · rw [populate_granule] at hg
      by_cases hpp : p' = p
      · subst hpp
        rw [(hw.outside hp').2.1] at hg
        cases hg
      · rw [hw.granule p' hpp] at hg
        exact .inl hg
    · rw [populate_backing,(hw.same _).2.2.1] at hb ⊢
      by_cases hj : j = i
      · subst hj
        rw [update_self] at hb
        cases hb
        refine ⟨⟨hw.realm,(hconv p).symm ▸ hw.conv,fun hp => ?_⟩,fun j' hb' => ?_,fun q j' _ => hw.fresh q j'⟩
        · rw [(hsame _).1,(hw.same _).1,populate_granule]
          exact ⟨(hw.outside hp).1,(hw.outside hp).2.1⟩
        · by_contra hne
          rw [update_of_ne hne] at hb'
          exact hw.fresh _ j' hb'
      · rw [update_of_ne hj] at hb
        have hpp : p' ≠ p := by
          rintro rfl
          exact hw.fresh _ j hb
        obtain ⟨hheld,huniq,hdisj⟩ := hi.stored.own hb
        refine ⟨⟨hpas p' (hheld.realm fun _ => hlive),(hconv p').symm ▸ hheld.conv,fun hp => ?_⟩,fun j' hb' => ?_,hdisj⟩
        · rw [(hsame _).1,(hw.same _).1,populate_granule,hw.granule p' hpp]
          exact hheld.outside hp
        by_cases hj' : j' = i
        · subst hj'
          rw [update_self] at hb'
          exact absurd (Option.some.inj hb').symm hpp
        · rw [update_of_ne hj'] at hb'
          exact huniq j' hb'
    · rw [(hsame _).2.2.2.2.1,(hw.same _).2.2.2.2.2] at hj
      rw [populate_backing,update_of_ne (by omega),(hw.same _).2.2.1]
      exact hi.within _ j hj

end Accept

end TfRmm.Tracking
