import Mathlib.Data.List.Infix
import TfRmm.Lib.Transition

namespace TfRmm.Exec.AttestToken

open TfRmm.Lib

def granuleSize : Nat := 4096

inductive Ret where
  | success
  | incomplete
  | errorInput
  | errorState
  | errorUnknown
  | fault
  deriving DecidableEq

inductive Sign where
  | invalidState
  | inProgress
  | success (len : Nat)
  | failed
  deriving DecidableEq

structure Round where
  sign : Sign
  irq : Bool
  pullFails : Bool
  deriving DecidableEq

inductive Phase where
  | notStarted
  | init
  | sign
  | create
  deriving DecidableEq

structure Rec where
  realmTokenLen : Nat
  ccaTokenCopiedLen : Nat
  ccaTokenLen : Nat
  phase : Phase
  heapTokenLen : Nat
  token : List UInt8
  buf : List UInt8
  written : List UInt8
  deriving DecidableEq

structure Event where
  ret : Ret
  length : Nat
  src : Nat
  dst : Nat
  bytes : List UInt8
  deriving DecidableEq

def Event.plain (ret : Ret) : Event := ⟨ret,0,0,0,[]⟩

structure Continue where
  ipa : Nat
  offset : BitVec 64
  size : BitVec 64
  inPar : Bool
  rounds : List Round
  mapped : Bool
  created : Bool
  deriving DecidableEq

inductive Op where
  | init (ctxInit realmToken : Bool) (token : List UInt8)
  | cont (c : Continue)
  deriving DecidableEq

namespace Rec

variable (r : Rec)

def handleInit (ctxInit realmToken : Bool) (token : List UInt8) : Rec × Event :=
  let r' := { r with realmTokenLen := 0,ccaTokenCopiedLen := 0,ccaTokenLen := 0,written := [] }
  if ctxInit then
    let r' := { r' with heapTokenLen := 0,phase := .init,token := token }
    if realmToken then ({ r' with phase := .sign },.plain .success) else (r',.plain .errorUnknown)
  else (r',.plain .errorUnknown)

def appSign : Sign → Rec
  | .success len => { r with heapTokenLen := len,phase := .create }
  | _ => r

def attestRealmTokenSign (x : Sign) : Rec × Sign :=
  let ret := if r.phase = .sign then x else .invalidState
  ({ r.appSign ret with realmTokenLen := (r.appSign ret).heapTokenLen },ret)

def signLoop : List Round → Rec → Option (Rec × Option Ret)
  | [], r => if r.realmTokenLen ≠ 0 then some (r,none) else none
  | x :: xs, r =>
    if r.realmTokenLen ≠ 0 then some (r,none)
    else
      let (r',ret) := r.attestRealmTokenSign x.sign
      if ret = .invalidState then some (r',some .errorState)
      else if ret = .failed then some (r',some .errorUnknown)
      else if x.irq then some (r',some .incomplete)
      else if x.pullFails then some (r',some .errorUnknown)
      else signLoop xs r'

def copy (c : Continue) (remaining : Nat) : Rec × Event :=
  let length := min c.size.toNat remaining
  let bytes := (r.buf.drop r.ccaTokenCopiedLen).take length
  let r' := { r with written := r.written ++ bytes }
  if remaining-length ≠ 0 then
    ({ r' with ccaTokenLen := remaining-length,ccaTokenCopiedLen := r.ccaTokenCopiedLen+length },
      ⟨.incomplete,length,r.ccaTokenCopiedLen,c.ipa+c.offset.toNat,bytes⟩)
  else ({ r' with realmTokenLen := 0 },⟨.success,length,r.ccaTokenCopiedLen,c.ipa+c.offset.toNat,bytes⟩)

def writeState (c : Continue) : Rec × Event :=
  if c.mapped = false then (r,.plain .fault)
  else if c.size = 0 then (r,.plain .incomplete)
  else if r.ccaTokenCopiedLen = 0 then
    if r.phase = .create ∧ c.created = true then
      copy { r with phase := .notStarted,buf := r.token,ccaTokenLen := r.token.length } c r.token.length
    else (r,.plain .errorInput)
  else r.copy c r.ccaTokenLen

def handleContinue (c : Continue) : Option (Rec × Event) :=
  if c.ipa % granuleSize ≠ 0 ∨ c.offset.toNat ≥ granuleSize ∨ (c.offset+c.size).toNat > granuleSize ∨
      c.offset + c.size < c.offset then some (r,.plain .errorInput)
  else if c.inPar = false then some (r,.plain .errorInput)
  else (signLoop c.rounds r).map fun
    | (r',some ret) => (r',.plain ret)
    | (r',none) => r'.writeState c

def step : Op → Option (Rec × Event)
  | .init a b token => some (r.handleInit a b token)
  | .cont c => r.handleContinue c

end Rec

def system : TransitionSystem Rec Op where
  init r := r.ccaTokenCopiedLen = 0 ∧ r.written = []
  step r op r' := ∃ ev, r.step op = some (r',ev)

def Rec.Stale (r : Rec) : Prop := r.realmTokenLen ≠ 0 ∧ r.ccaTokenCopiedLen ≠ 0 ∧ r.written = r.token

def Renewed (r : Rec) : Op → Prop
  | .init .. => True
  | .cont _ => ¬ r.Stale

structure Rec.Partial (r : Rec) : Prop where
  taken : r.written = r.token.take r.ccaTokenCopiedLen
  buf : r.buf = r.token
  more : r.ccaTokenLen ≠ 0
  rest : r.ccaTokenCopiedLen+r.ccaTokenLen = r.token.length

structure Inv (r : Rec) : Prop where
  part : r.written <+: r.token
  fresh : r.phase = .sign ∨ r.phase = .create → r.ccaTokenCopiedLen = 0 ∧ r.written = []
  rest : r.ccaTokenCopiedLen ≠ 0 → r.written = r.token ∨ r.Partial

structure Delivered (r : Rec) (c : Continue) (r' : Rec) (ev : Event) : Prop where
  token : r'.token = r.token
  appended : r'.written = r.written ++ ev.bytes
  part : r'.written <+: r.token
  length : ev.length = ev.bytes.length
  inside : ev.bytes ≠ [] → ev.dst = c.ipa+c.offset.toNat ∧ ev.length ≤ c.size.toNat ∧
    c.offset.toNat + c.size.toNat ≤ granuleSize
  read : ev.src+ev.length ≤ r.token.length
  last : ev.ret = .success → r'.written = r.token ∧ (r.token ≠ [] → ev.bytes ≠ [])
  only : ev.bytes ≠ [] → r'.written = r.token → ev.ret = .success

variable {r r' : Rec} {c : Continue} {ev : Event}

theorem Delivered.plain (hi : Inv r) (ht : r'.token = r.token) (hw : r'.written = r.written) {ret : Ret}
    (hr : ret ≠ .success) : Delivered r c r' (.plain ret) :=
  ⟨ht,by simp [Event.plain,hw],hw ▸ hi.part,rfl,fun h => absurd rfl h,by simp [Event.plain],fun h => absurd h hr,
    fun h => absurd rfl h⟩

structure Untouched (r r' : Rec) : Prop where
  token : r'.token = r.token
  written : r'.written = r.written
  copied : r'.ccaTokenCopiedLen = r.ccaTokenCopiedLen

theorem Inv.attestRealmTokenSign (hi : Inv r) (x : Sign) :
    Inv (r.attestRealmTokenSign x).1 ∧ Untouched r (r.attestRealmTokenSign x).1 := by
  unfold Rec.attestRealmTokenSign
  by_cases hs : r.phase = .sign
  · obtain ⟨hc,hw⟩ := hi.fresh (.inl hs)
    simp only [hs,if_true]
    cases x with
    | success len => exact ⟨⟨hi.part,fun _ => ⟨hc,hw⟩,fun hne => absurd hc hne⟩,rfl,rfl,rfl⟩
    | _ => exact ⟨⟨hi.part,fun _ => ⟨hc,hw⟩,fun hne => absurd hc hne⟩,rfl,rfl,rfl⟩
  · simp only [hs,if_false,Rec.appSign]
    exact ⟨⟨hi.part,hi.fresh,fun hne => (hi.rest hne).imp_right fun h => ⟨h.taken,h.buf,h.more,h.rest⟩⟩,rfl,rfl,rfl⟩

theorem signLoop_none {rounds : List Round} (h : Rec.signLoop rounds r = some (r',none)) : r'.realmTokenLen ≠ 0 := by
  induction rounds generalizing r with
  | nil =>
    simp only [Rec.signLoop] at h
    split at h
    next hl =>
      cases h
      exact hl
    · cases h
  | cons x xs ih =>
    simp only [Rec.signLoop] at h
    split at h
    next hl =>
      cases h
      exact hl
    iterate 4
      split at h
      · cases h
    exact ih h

theorem Inv.signLoop {rounds : List Round} {res : Option Ret} (hi : Inv r)
    (h : Rec.signLoop rounds r = some (r',res)) :
    Inv r' ∧ Untouched r r' ∧ res ≠ some .success ∧
      (res = none → r'.realmTokenLen = r.realmTokenLen ∨ r'.ccaTokenCopiedLen = 0) := by
  induction rounds generalizing r with
  | nil =>
    simp only [Rec.signLoop] at h
    split at h
    · cases h
      exact ⟨hi,⟨rfl,rfl,rfl⟩,nofun,fun _ => .inl rfl⟩
    · cases h
  | cons x xs ih =>
    simp only [Rec.signLoop] at h
    split at h
    · cases h
      exact ⟨hi,⟨rfl,rfl,rfl⟩,nofun,fun _ => .inl rfl⟩
    obtain ⟨hi',hu⟩ := hi.attestRealmTokenSign x.sign
    have hvalid : (r.attestRealmTokenSign x.sign).2 ≠ .invalidState → r.phase = .sign := fun hne => by
      by_contra hs
      exact hne (if_neg hs)
    generalize r.attestRealmTokenSign x.sign = q at h hi' hu hvalid
    split at h
    · cases h
      exact ⟨hi',hu,nofun,nofun⟩
    next hne =>
    split at h
    · cases h
      exact ⟨hi',hu,nofun,nofun⟩
    split at h
    · cases h
      exact ⟨hi',hu,nofun,nofun⟩
    split at h
    · cases h
      exact ⟨hi',hu,nofun,nofun⟩
    · obtain ⟨h1,h2,h3,-⟩ := ih hi' h
      refine ⟨h1,⟨h2.token.trans hu.token,h2.written.trans hu.written,h2.copied.trans hu.copied⟩,h3,fun _ => .inr ?_⟩
      rw [h2.copied,hu.copied]
      exact (hi.fresh (.inl (hvalid hne))).1

theorem Inv.copy (remaining : Nat) (hp : r.phase ≠ .sign ∧ r.phase ≠ .create)
    (hw : r.written = r.token.take r.ccaTokenCopiedLen) (hb : r.buf = r.token)
    (hrem : r.ccaTokenCopiedLen+remaining = r.token.length) (hsize : c.size.toNat ≠ 0)
    (hin : c.offset.toNat+c.size.toNat ≤ granuleSize) (hz : remaining = 0 → r.ccaTokenCopiedLen = 0) : Inv
    (r.copy c remaining).1 ∧ Delivered r c (r.copy c remaining).1 (r.copy c remaining).2 := by
  have hphase : ¬ (r.phase = .sign ∨ r.phase = .create) := not_or.2 hp
  have hbytes : r.written ++ (r.buf.drop r.ccaTokenCopiedLen).take (min c.size.toNat remaining) =
      r.token.take (r.ccaTokenCopiedLen + min c.size.toNat remaining) := by
    rw [hw,hb,List.take_add]
  have hlen : ((r.buf.drop r.ccaTokenCopiedLen).take (min c.size.toNat remaining)).length =
      min c.size.toNat remaining := by
    rw [List.length_take,List.length_drop,hb]
    omega
  have hpos : (r.buf.drop r.ccaTokenCopiedLen).take (min c.size.toNat remaining) ≠ [] ↔ remaining ≠ 0 := by
    rw [ne_eq,← List.length_eq_zero_iff,hlen]
    omega
  unfold Rec.copy
  simp only
  split
  next hmore =>
    refine ⟨⟨?_,fun h => absurd h hphase,fun _ => .inr ⟨hbytes,hb,hmore,?_⟩⟩,rfl,rfl,?_,hlen.symm,
      fun _ => ⟨rfl,Nat.min_le_left _ _,hin⟩,?_,nofun,fun _ he => ?_⟩
    · exact hbytes ▸ List.take_prefix _ _
    · simp only
      omega
    · exact hbytes ▸ List.take_prefix _ _
    · simp only
      omega
    · have := congrArg List.length (hbytes.symm.trans he)
      rw [List.length_take] at this
      omega
  next hdone =>
  have hall : r.written ++ (r.buf.drop r.ccaTokenCopiedLen).take (min c.size.toNat remaining) = r.token := by
    rw [hbytes]
    exact List.take_of_length_le (by omega)
  refine ⟨⟨hall ▸ List.prefix_refl _,fun h => absurd h hphase,fun _ => .inl hall⟩,rfl,rfl,hall ▸ List.prefix_refl _,
    hlen.symm,fun _ => ⟨rfl,Nat.min_le_left _ _,hin⟩,?_,fun _ => ⟨hall,fun hne => hpos.2 fun h0 => hne ?_⟩,fun _ _ => rfl⟩
  · simp only
    omega
  · rw [← List.length_eq_zero_iff]
    have := hz h0
    omega

theorem Inv.writeState (hi : Inv r) (hf : r.ccaTokenCopiedLen ≠ 0 → r.Partial)
    (hin : c.offset.toNat+c.size.toNat ≤ granuleSize) : Inv
    (r.writeState c).1 ∧ Delivered r c (r.writeState c).1 (r.writeState c).2 := by
  unfold Rec.writeState
  split
  · exact ⟨hi,.plain hi rfl rfl nofun⟩
  split
  · exact ⟨hi,.plain hi rfl rfl nofun⟩
  next hsize =>
  have hsize : c.size.toNat ≠ 0 := fun h => hsize (BitVec.eq_of_toNat_eq h)
  split
  next h0 =>
    split
    next hc =>
      have hw : r.written = r.token.take r.ccaTokenCopiedLen := by
        rw [(hi.fresh (.inr hc.1)).2,h0,List.take_zero]
      have := Inv.copy (r := { r with phase := .notStarted,buf := r.token,ccaTokenLen := r.token.length })
        r.token.length ⟨nofun,nofun⟩ hw rfl (by simp only; omega) hsize hin fun _ => h0
      exact ⟨this.1,this.2.token,this.2.appended,this.2.part,this.2.length,this.2.inside,this.2.read,this.2.last,
        this.2.only⟩
    · exact ⟨hi,.plain hi rfl rfl nofun⟩
  next hne =>
    have hp := hf hne
    exact Inv.copy _ ⟨fun h => hne (hi.fresh (.inl h)).1,fun h => hne (hi.fresh (.inr h)).1⟩ hp.taken hp.buf hp.rest
      hsize hin fun h => absurd h hp.more

theorem Inv.handleContinue (hi : Inv r) (hs : ¬ r.Stale) (h : r.handleContinue c = some (r',ev)) :
    Inv r' ∧ Delivered r c r' ev := by
  unfold Rec.handleContinue at h
  split at h
  · cases h
    exact ⟨hi,.plain hi rfl rfl nofun⟩
  next hok =>
  split at h
  · cases h
    exact ⟨hi,.plain hi rfl rfl nofun⟩
  have hin : c.offset.toNat+c.size.toNat ≤ granuleSize := by
    simp only [not_or,BitVec.lt_def,BitVec.toNat_add,granuleSize] at hok ⊢
    have := c.size.isLt
    omega
  obtain ⟨⟨r₁,res⟩,hloop,he⟩ := Option.map_eq_some_iff.1 h
  obtain ⟨hi₁,hu,hne,hl⟩ := hi.signLoop hloop
  cases res with
  | some ret =>
    cases he
    exact ⟨hi₁,.plain hi hu.token hu.written fun h => hne (congrArg some h)⟩
  | none =>
    have hf : r₁.ccaTokenCopiedLen ≠ 0 → r₁.Partial := fun hc => by
      have hlen := (hl rfl).resolve_right hc
      have hlen₁ : r₁.realmTokenLen ≠ 0 := signLoop_none hloop
      refine (hi₁.rest hc).resolve_left fun hw => hs ⟨hlen ▸ hlen₁,hu.copied ▸ hc,?_⟩
      rw [← hu.written,← hu.token]
      exact hw
    obtain ⟨hi',hd⟩ := hi₁.writeState hf hin
    rw [show r₁.writeState c = (r',ev) from he] at hi' hd
    exact ⟨hi',hd.token.trans hu.token,hu.written ▸ hd.appended,hu.token ▸ hd.part,hd.length,hd.inside,hu.token ▸ hd.read,
      hu.token ▸ hd.last,hu.token ▸ hd.only⟩

structure Restarted (ctxInit : Bool) (token : List UInt8) (r' : Rec) (ev : Event) : Prop where
  written : r'.written = []
  copied : r'.ccaTokenCopiedLen = 0
  token : ctxInit = true → r'.token = token
  silent : ev.bytes = []

theorem inv_init (a b : Bool) (token : List UInt8) :
    Inv (r.handleInit a b token).1 ∧ Restarted a token (r.handleInit a b token).1 (r.handleInit a b token).2 := by
  unfold Rec.handleInit
  split
  · split <;>
      exact ⟨⟨List.nil_prefix,fun _ => ⟨rfl,rfl⟩,fun h => absurd rfl h⟩,rfl,rfl,fun _ => rfl,rfl⟩
  next ha => exact ⟨⟨List.nil_prefix,fun _ => ⟨rfl,rfl⟩,fun h => absurd rfl h⟩,rfl,rfl,fun h => absurd h ha,rfl⟩

theorem Inv.step {op : Op} (hi : Inv r) (hg : Renewed r op) (h : r.step op = some (r',ev)) : Inv r' := by
  cases op with
  | init a b token =>
    obtain rfl : (r.handleInit a b token).1 = r' := congrArg Prod.fst (Option.some.inj h)
    exact (inv_init a b token).1
  | cont c => exact (hi.handleContinue hg h).1

theorem token_delivered (h : system.ReachableUnder Renewed r) : r.written <+: r.token ∧
    (∀ c r' ev, ¬ r.Stale → r.step (.cont c) = some (r',ev) → Delivered r c r' ev) ∧
    ∀ a b token, ∃ r' ev, r.step (.init a b token) = some (r',ev) ∧ Restarted a token r' ev := by
  have hi : Inv r := by
    refine TransitionSystem.ReachableUnder.invariant (T := system) ?_ ?_ h
    · rintro s ⟨h1,h2⟩
      exact ⟨h2 ▸ List.nil_prefix,fun _ => ⟨h1,h2⟩,fun h => absurd h1 h⟩
    · rintro s op t hi hg ⟨ev,hs⟩
      exact hi.step hg hs
  exact ⟨hi.part,fun c r' ev hg hs => (hi.handleContinue hg hs).2,fun a b token => ⟨_,_,rfl,(inv_init a b token).2⟩⟩

def sample : Rec := ⟨0,0,0,.notStarted,0,[],[],[]⟩

def wholeToken : Continue := ⟨0x1000,8,4,true,[⟨.inProgress,false,false⟩,⟨.success 1,false,false⟩],true,true⟩

theorem token_delivered_split : ∃ r r' ev, system.ReachableUnder Renewed r ∧ r.step (.cont wholeToken) = some (r',ev) ∧
    ev.bytes = [1,2,3,4] ∧ ev.ret = .incomplete ∧ Delivered r wholeToken r' ev := by
  have hr : system.ReachableUnder Renewed (sample.handleInit true true [1,2,3,4,5]).1 :=
    .next (l := .init true true [1,2,3,4,5]) (.initial ⟨rfl,rfl⟩) trivial ⟨_,rfl⟩
  exact ⟨_,_,_,hr,rfl,by decide,by decide,(token_delivered hr).2.1 wholeToken _ _ (fun h => h.1 rfl) rfl⟩

def Rec.runs : List Op → Rec → Option Rec
  | [], r => some r
  | op :: ops, r => (r.step op).bind fun q => runs ops q.1

theorem reachable_runs {ops : List Op} (hr : system.Reachable r) (h : Rec.runs ops r = some r') : system.Reachable r' := by
  induction ops generalizing r with
  | nil =>
    cases h
    exact hr
  | cons op ops ih =>
    obtain ⟨⟨q,ev⟩,hq,h⟩ := Option.bind_eq_some_iff.1 h
    exact ih (hr.next trivial ⟨ev,hq⟩) h

theorem last_chunk_repeated : ∃ r, system.Reachable r ∧ r.token = [1,2,3,4,5] ∧ r.written = [1,2,3,4,5,5] := by
  have hrun : (Rec.runs (.init true true [1,2,3,4,5] :: List.replicate 4 (.cont wholeToken)) sample).map
      (fun r => (r.token,r.written)) = some ([1,2,3,4,5],[1,2,3,4,5,5]) := by decide
  obtain ⟨r,hr,he⟩ := Option.map_eq_some_iff.1 hrun
  exact ⟨r,reachable_runs (.initial ⟨rfl,rfl⟩) hr,congrArg Prod.fst he,congrArg Prod.snd he⟩

end TfRmm.Exec.AttestToken
