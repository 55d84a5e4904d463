import TfRmm.Comm.Streams

namespace TfRmm.Comm

open Function

namespace Sys

variable {s t : Sys} {size p q : Nat} {pd pd' : Pdev} {g : Prop}

def Preserves (size : Nat) (g : Prop) (s t : Sys) : Prop :=
  t.Inv size ∧ (g → s.Matched → t.Matched) ∧ (s.Progressing → t.Progressing)

section

variable (h : s.Inv size)

include h

theorem Preserves.refl : Preserves size g s s := ⟨h,fun _ hm => hm,id⟩

theorem Preserves.goes (hp : s.pdevs p = some pd) (f : Pdev.Frame pd pd') (hg : Pdev.Goes pd pd')
    (ht : t.pdevs = update s.pdevs p (some pd')) (hk : t.streams = s.streams) : Preserves size g s t := by
  refine ⟨h.goes hp f hg ht (.of_eq hk),fun _ hm => hm.goes h hp f hg ht (.of_eq hk),fun hr => ?_⟩
  refine hr.goes hp f hg ht fun _ _ _ _ h1 h2 => ?_
  rw [hk]
  exact ⟨h1,h2⟩

theorem Preserves.alike (hp : s.pdevs p = some pd) (ha : Pdev.Alike pd pd') (ht : t.pdevs = update s.pdevs p (some pd'))
    (hk : t.streams = s.streams) : Preserves size g s t :=
  .goes h hp ha.frame (.stays ha.rmiState ha.commState ha.op) ht hk

theorem Preserves.congr (hp : t.pdevs = s.pdevs) (hk : t.streams = s.streams) : Preserves size g s t := by
  cases t
  subst hp hk
  exact ⟨h.congr rfl rfl,fun _ hm => hm.aside (.of_eq rfl) (fun hx _ => hx) fun hx _ => hx,
    fun hr => hr.aside (fun _ _ _ _ => rfl) fun hx _ => hx⟩

theorem Preserves.aside (hp : s.pdevs p = some pd) (hsh : pd'.Shape p) (hcat : pd'.category = pd.category)
    (hcnt : pd'.streamCount = pd.streamCount) (hn : ¬pd.Engaged) (hn' : ¬pd'.Engaged)
    (ht : t.pdevs = update s.pdevs p (some pd')) (hk : t.streams = s.streams) : Preserves size g s t := by
  have hback : ∀ {x c}, t.pdevs x = some c → c.Engaged → s.pdevs x = some c := by
    exact @(of_update ht (fun hc => absurd hc hn') fun x c _ hx _ => hx)
  refine ⟨h.one hp hsh hcat hcnt (fun he => absurd he hn') ht (.of_eq hk),
    fun _ hm => hm.aside (.of_eq hk) ?_ hback,fun hr => hr.aside ?_ fun hx ho => hback hx (.inl ho)⟩
  · intro x c hx hc
    rw [ht]
    by_cases hxp : x = p
    · subst hxp
      rw [hp] at hx
      cases hx
      exact absurd hc hn
    · rwa [update_of_ne hxp]
  · intro x c _ _ e _
    rw [hk]

theorem Inv.root_unique {a b : Pdev} {e : Nat} (hp : s.pdevs p = some a) (hq : s.pdevs q = some b)
    (hca : a.category = .rootPort) (hcb : b.category = .rootPort) (hea : a.Engaged) (heb : b.Engaged)
    (ha : a.streamAux = some e) (hb : b.streamAux = some e) : p = q := by
  have hself : ∀ {x c}, s.pdevs x = some c → c.category = .rootPort → c.Engaged →
      c.streamAux = some e → (s.streams (e,ncoh)).pd2 = x := by
    intro x c hx hc he hae
    obtain ⟨e',h1,h2,h3⟩ := h.held hx he
    rw [hae] at h1
    cases h1
    rcases h3 with h3 | h3
    · obtain ⟨_,_,_,⟨d,hd,hcd⟩,_⟩ := h.taken h2
      rw [h3,hx] at hd
      cases hd
      rw [hc] at hcd
      cases hcd
    · exact h3
  exact (hself hp hca hea ha).symm.trans (hself hq hcb heb hb)

theorem preserves_synced {i : Exchange} {e : Nat} (hp : s.pdevs p = some pd)
    (hae : pd.streamAux = some e) (hsy : syncs pd.op)
    (hc : { pd with opState := (s.streams (e,pd.opStreamType)).opState }.communicate i = some pd') :
    Preserves size g s ((s.setPdev p pd').setStream (e,pd.opStreamType)
      { s.streams (e,pd.opStreamType) with opState := pd'.opState }) := by
  obtain ⟨f,hg,adv⟩ := Pdev.communicate_goes hc
  have ha : Pdev.Alike pd { pd with opState := (s.streams (e,pd.opStreamType)).opState } :=
    ⟨rfl,rfl,rfl,rfl,rfl,rfl,rfl,rfl⟩
  have hen : pd.Engaged := by
    unfold Pdev.Engaged
    cases ho : pd.op <;> rw [ho] at hsy <;> first | exact .inl rfl | exact .inr rfl | cases hsy
  have hty : pd.opStreamType = ncoh := ((h.shape hp).2.engaged hen).2.2
  rw [hty] at hc adv ⊢
  have hf := ha.frame.trans f
  have hg' := hg.of_alike ha
  have hk : Keeps s ((s.setPdev p pd').setStream (e,ncoh) { s.streams (e,ncoh) with opState := pd'.opState }) := by
    intro k
    by_cases hk : k = (e,ncoh)
    · subst hk
      simp only [setStream,setPdev,update_self,and_self]
    · simp only [setStream,setPdev,update_of_ne hk,and_self]
  refine ⟨h.goes hp hf hg' rfl hk,fun _ hm => hm.goes h hp hf hg' rfl hk,fun hr => hr.goes hp hf hg' rfl ?_⟩
  intro x c e' hx ho hxp hce h1 h2
  by_cases hee : e' = e
  case neg =>
    simp only [setStream,setPdev]
    rw [update_of_ne fun hk => hee (congrArg Prod.fst hk)]
    exact ⟨h1,h2⟩
  subst hee
  simp only [setStream,setPdev,update_self]
  cases adv with
  | same ha =>
    rw [ha]
    exact ⟨h1,h2⟩
  | readies _ ha | answers _ ha =>
    rw [ha]
    exact ⟨nofun,fun _ => nofun⟩
  | ends ho' hend =>
    obtain ⟨hroot,hend⟩ := hend.resolve_left fun hs => Pdev.not_engaged_of_stop hs hen
    refine ⟨?_,fun hcat => ?_⟩
    · rw [hend]
      nofun
    · have hxp := hxp (h.root_unique hx hp hcat hroot (.inl ho) hen hce hae)
      rcases ho' with ho' | ho' <;> rw [ho'] at hxp <;> cases hxp

theorem preserves_communicate {i : Exchange} (he : s.pdevCommunicate p i = some t) : Preserves size g s t := by
  unfold pdevCommunicate at he
  split at he
  · cases he
    exact .refl h
  next pd hp =>
  split at he
  · cases he
    exact .refl h
  split at he
  · next hsy =>
    split at he
    · cases he
    next e hae =>
    obtain ⟨pd',hc,rfl⟩ := Option.map_eq_some_iff.mp he
    exact preserves_synced h hp hae hsy hc
  · obtain ⟨pd',hc,rfl⟩ := Option.map_eq_some_iff.mp he
    obtain ⟨f,hg,_⟩ := Pdev.communicate_goes hc
    exact .goes h hp f hg rfl rfl

end

theorem shape_key (id : Nat) (h : pd.Shape p) (hr : pd.rmiState = .needsKey) :
    ¬pd.Engaged ∧ { pd with rmiState := .hasKey,commState := .pending,operation := id }.Shape p := by
  have hu : ¬pd.Up := by
    unfold Pdev.Up
    rw [hr]
    decide
  have hn : ¬pd.Engaged := fun he => hu (h.engaged he).1
  refine ⟨hn,⟨h.table,h.never,nofun,?_,fun _ => .inl rfl,fun he => absurd he hn,?_,
    fun _ _ => .inr rfl,nofun,nofun,fun hc => absurd (h.counted hc) hu,h.unshared,?_⟩⟩
  · exact fun ho => absurd (.inr ho) hn
  · exact fun ho => ⟨.inl rfl,(h.stopping ho).2.1,nofun,nofun⟩
  · exact fun hc => absurd hr (h.keyless hc).1

theorem preserves_setPubkey {key accepted : Bool} (h : s.Inv size)
    (he : s.pdevSetPubkey p key accepted = some t) : Preserves size g s t := by
  unfold pdevSetPubkey at he
  split at he
  · cases he
    exact .refl h
  next pd hp =>
  split at he
  · cases he
    exact .refl h
  split at he
  · cases he
  split at he
  · obtain ⟨pd',hb,rfl⟩ := Option.map_eq_some_iff.mp he
    unfold Pdev.beginKey at hb
    split at hb
    · next hr =>
      cases hb
      obtain ⟨hn,hsh⟩ := shape_key s.clock (h.shape hp).2 hr
      exact .aside h hp hsh rfl rfl hn hn rfl rfl
    · cases hb
  · cases he
    exact .refl h

theorem shape_stop {id : Nat} (h : pd.Shape p) (hcnt : pd.streamCount = 0)
    (hn : ¬pd.Engaged) (hr : pd.rmiState ≠ .new)
    (hr' : pd.rmiState ≠ .stopped) :
    { pd with op := .stop,commState := .pending,operation := id }.Shape p := by
  have hne : ¬{ pd with op := .stop,commState := .pending,operation := id }.Engaged :=
    Pdev.not_engaged_of_stop rfl
  refine ⟨h.table,⟨nofun,nofun⟩,nofun,nofun,nofun,fun he => absurd he hne,
    fun _ => ⟨.inl rfl,hcnt,hr,hr'⟩,nofun,nofun,fun hs => absurd hs hr',?_,
    fun hca _ => h.unshared hca hn,h.keyless⟩
  intro hpos
  rw [show pd.streamCount = 0 from hcnt] at hpos
  cases hpos

theorem preserves_stop (h : s.Inv size) (he : s.pdevStop p = some t) : Preserves size g s t := by
  unfold pdevStop at he
  split at he
  · cases he
    exact .refl h
  next pd hp =>
  split at he
  · cases he
    exact .refl h
  next hr =>
  split at he
  · cases he
    exact .refl h
  next hc =>
  obtain ⟨pd',hb,rfl⟩ := Option.map_eq_some_iff.mp he
  unfold Pdev.start at hb
  split at hb
  case isFalse => cases hb
  cases hb
  simp only [not_or,not_not,not_lt,Nat.le_zero] at hc
  have hn : ¬pd.Engaged := fun hen => by
    have := h.engaged_count hp hen
    omega
  refine .aside h hp (shape_stop (h.shape hp).2 hc.2.1 hn ?_ ?_) rfl rfl hn (Pdev.not_engaged_of_stop rfl) rfl rfl <;>
  · intro hs
    rw [hs] at hr
    exact hr (by decide)

theorem commAbort_goes {pd pd' : Pdev} (hsh : pd.Shape p) (h : pd.commAbort = some pd') :
    Pdev.Frame pd pd' ∧ Pdev.Goes pd pd' := by
  unfold Pdev.commAbort at h
  split at h
  · cases h
  next hi =>
  split at h <;> cases h
  · next ho =>
    have ho : pd.op.isStream := ho.resolve_right fun hc => hi (hsh.awaits hc)
    exact ⟨⟨rfl,rfl,rfl,rfl,rfl⟩,.fails hi rfl rfl (Pdev.finish_of_engaged ho).symm⟩
  · next ho =>
    have ho : ¬pd.op.isStream := fun hc => ho (.inl hc)
    exact ⟨⟨rfl,rfl,rfl,rfl,rfl⟩,.fails hi rfl rfl (Pdev.finish_of_not ho).symm⟩

theorem preserves_abort {u : Bool} (h : s.Inv size) (he : s.pdevAbort p u = some t) : Preserves size g s t := by
  unfold pdevAbort at he
  split at he
  · cases he
    exact .refl h
  next pd hp =>
  split at he
  · cases he
    exact .refl h
  have ha := Pdev.abortAppIfOwner_alike pd .pdev pd.operation u
  split at he
  · next pd' hb =>
    rw [hb] at ha
    obtain ⟨pd'',hc,rfl⟩ := Option.map_eq_some_iff.mp he
    have hsh := (h.shape hp).2.stays ha.frame ha.rmiState ha.commState ha.op
    obtain ⟨f,hg⟩ := commAbort_goes hsh hc
    exact .goes h hp (ha.frame.trans f) (hg.of_alike ha) rfl rfl
  · next pd' hb =>
    rw [hb] at ha
    cases he
    exact .alike h hp ha rfl rfl

theorem Inv.free (h : s.Inv size) (hp : s.pdevs p = none) {k : Nat × Nat} (hk : (s.streams k).taken) : ¬s.Names k p := by
  obtain ⟨_,_,_,⟨a,ha,_⟩,⟨b,hb,_⟩⟩ := h.taken hk
  rintro (hn | hn)
  · rw [hn,hp] at ha
    cases ha
  · rw [hn,hp] at hb
    cases hb

theorem Inv.idle_free (h : s.Inv size) (hp : s.pdevs p = some pd) (hc : pd.streamCount = 0)
    {k : Nat × Nat} (hk : (s.streams k).taken) : ¬s.Names k p := fun hn => by
  have := h.count_pos hp hk hn
  omega

theorem preserves_remove (h : s.Inv size) (hp : s.pdevs p = some pd) (hr : pd.rmiState = .stopped)
    (ht : t.pdevs = update s.pdevs p none) (hk : t.streams = s.streams) : Preserves size g s t := by
  have hs := Keeps.of_eq hk
  have hsh := (h.shape hp).2
  have hc : pd.streamCount = 0 := by
    by_contra hc
    have hu := hsh.counted (Nat.pos_of_ne_zero hc)
    unfold Pdev.Up at hu
    rw [hr] at hu
    exact absurd hu (by decide)
  have hn : ¬pd.Engaged := Pdev.not_engaged_of_none (hsh.stopped hr).1
  have hother : ∀ {x c}, t.pdevs x = some c → x ≠ p ∧ s.pdevs x = some c := by
    intro x c hx
    rw [ht] at hx
    by_cases hxp : x = p
    · rw [hxp,update_self] at hx
      cases hx
    · rw [update_of_ne hxp] at hx
      exact ⟨hxp,hx⟩
  have hback : ∀ {x}, x ≠ p → t.pdevs x = s.pdevs x := by
    intro x hx
    rw [ht,update_of_ne hx]
  refine ⟨⟨?_,?_,?_,?_⟩,fun _ hm => hm.aside hs ?_ ?_,fun hr => hr.aside ?_ ?_⟩
  · exact fun hx => h.shape (hother hx).2
  · intro k htk
    rw [hk] at htk ⊢
    have hnk := h.idle_free hp hc htk
    obtain ⟨h2,h3,h4,h5,h6⟩ := h.taken htk
    refine ⟨h2,h3,h4,?_,?_⟩
    · rw [hback fun hx => hnk (.inl hx)]
      exact h5
    · rw [hback fun hx => hnk (.inr hx)]
      exact h6
  · intro x c hx
    rw [hs.naming]
    exact h.counts (hother hx).2
  · intro x c hx hc
    obtain ⟨e,h1,h2,h3⟩ := h.held (hother hx).2 hc
    exact ⟨e,h1,((hs _).1).trans h2,hs.names.mpr h3⟩
  · intro x c hx hc
    rw [hback]
    · exact hx
    rintro rfl
    rw [hp] at hx
    cases hx
    exact hn hc
  · exact fun hx _ => (hother hx).2
  · intro x c _ _ e _
    rw [hk]
  · exact fun hx _ => (hother hx).2

theorem preserves_destroy {r : Bool} (h : s.Inv size) (he : s.pdevDestroy p r = some t) : Preserves size g s t := by
  unfold pdevDestroy at he
  split at he
  · cases he
    exact .refl h
  next pd hp =>
  split at he
  · cases he
    exact .refl h
  next hr =>
  simp only [not_not] at hr
  split at he
  · cases he
    exact preserves_remove h hp hr rfl rfl
  split at he
  · cases he
    exact .refl h
  split at he
  · cases he
  · cases he
    exact preserves_remove h hp hr rfl rfl

theorem shape_fresh (c : Category) (p id : Nat) : (Pdev.fresh c p id).Shape p := by
  have hn : ¬(Pdev.fresh c p id).Engaged := Pdev.not_engaged_of_none rfl
  refine ⟨?_,⟨nofun,nofun⟩,nofun,nofun,nofun,fun he => absurd he hn,nofun,fun _ _ => .inl rfl,nofun,
    nofun,nofun,?_,fun _ => ⟨nofun,nofun⟩⟩
  · cases c
    · exact fun _ => rfl
    · nofun
  · cases c
    · nofun
    · exact fun _ _ => rfl

theorem preserves_create {c : Category} (h : s.Inv size) (he : s.pdevCreate size p c = some t) : Preserves size g s t := by
  unfold pdevCreate at he
  split at he
  case isFalse =>
    cases he
    exact .refl h
  next hcr =>
  obtain ⟨hlt,hp⟩ := hcr
  cases he
  have hn : ¬(Pdev.fresh c p s.clock).Engaged := Pdev.not_engaged_of_none rfl
  have hk : ∀ k, ((if k.1 = p then Stream.zero else s.streams k).taken ↔ (s.streams k).taken) := fun k => by
    split
    · next hkp => exact ⟨nofun,fun hk => absurd (.inl hkp) (h.free hp hk)⟩
    · exact Iff.rfl
  have hks : ∀ {k}, (s.streams k).taken → (if k.1 = p then Stream.zero else s.streams k) = s.streams k := by
    intro k hk
    rw [if_neg fun hkp => h.free hp hk (.inl hkp)]
  have hold : ∀ {x d}, s.pdevs x = some d → update s.pdevs p (some (Pdev.fresh c p s.clock)) x = some d := by
    intro x d hx
    rw [update_of_ne]
    · exact hx
    · rintro rfl
      rw [hp] at hx
      cases hx
  have hnm : ∀ x, naming { s with
      pdevs := update s.pdevs p (some (Pdev.fresh c p s.clock))
      streams := fun k => if k.1 = p then .zero else s.streams k
      clock := s.clock+1 } size x = s.naming size x := fun x => by
    ext k
    simp only [mem_naming,hk,Names]
    refine and_congr_right fun _ => and_congr_right fun _ => and_congr_right fun htk => ?_
    rw [hks htk]
  refine ⟨⟨?_,?_,?_,?_⟩,fun _ hm => ⟨?_,?_⟩,fun hr => hr.aside ?_ ?_⟩
  · exact @(of_update rfl ⟨hlt,shape_fresh c p s.clock⟩ fun x d _ hx => h.shape hx)
  · intro k htk
    have htk := (hk k).mp htk
    simp only [hks htk]
    obtain ⟨h2,h3,h4,⟨a,ha,hca⟩,⟨b,hb,hcb⟩⟩ := h.taken htk
    exact ⟨h2,h3,h4,⟨a,hold ha,hca⟩,⟨b,hold hb,hcb⟩⟩
  · simp only [hnm]
    refine @(of_update rfl ?_ fun x d _ hx => h.counts hx)
    symm
    refine Finset.card_eq_zero.mpr (Finset.eq_empty_of_forall_notMem fun k hk' => ?_)
    obtain ⟨_,_,htk,hnk⟩ := mem_naming.mp hk'
    exact h.free hp htk hnk
  · refine @(of_update rfl (fun hd => absurd hd hn) fun x d _ hx hd => ?_)
    obtain ⟨e,h1,h2,h3⟩ := h.held hx hd
    refine ⟨e,h1,(hk _).mpr h2,?_⟩
    simp only [Names,hks h2]
    exact h3
  · intro k htk hop
    have htk := (hk k).mp htk
    simp only [hks htk] at hop ⊢
    obtain ⟨id,h1,h2⟩ := hm.parties htk hop
    have hx : ∀ {x}, s.Party k id x → Party { s with
        pdevs := update s.pdevs p (some (Pdev.fresh c p s.clock))
        streams := fun k => if k.1 = p then .zero else s.streams k
        clock := s.clock+1 } k id x := by
      rintro x ⟨d,hd,hr⟩
      refine ⟨d,hold hd,?_⟩
      simp only [hks htk]
      exact hr
    exact ⟨id,hx h1,hx h2⟩
  · intro x d e hx hd hde
    rcases update_some_cases rfl hx with ⟨rfl,rfl⟩ | ⟨_,hx⟩
    · exact absurd hd hn
    obtain ⟨e',h1,h2,_⟩ := h.held hx hd
    rw [hde] at h1
    cases h1
    simp only [hks h2]
    exact hm.bound hx hd hde
  · intro x d hx hd e hde
    obtain ⟨e',h1,h2,_⟩ := h.held hx (.inl hd)
    rw [hde] at h1
    cases h1
    simp only [hks h2]
  · exact @(of_update rfl (fun hd => absurd (.inl hd) hn) fun x d _ hx _ => hx)

end Sys

variable {pd pd1 pd2 : Pdev} {k : Nat × Nat} {ty : Nat} {st' : Stream}

namespace Sys

variable {s t : Sys} {size p q n : Nat} {a b : Pdev} {st : Stream} {op : PdevOp} {g : Prop}

theorem shape_join {p : Nat} (e id n : Nat) (ht : pd.category = .endpoint → e = p) (hu : pd.Up)
    (ho : op.isStream) (hk : op ≠ .keyPurge) :
    { pd with
      op := op
      commState := .pending
      operation := id
      opStreamType := ncoh
      streamCount := n
      streamAux := some e }.Shape p := by
  have hne : op ≠ .none ∧ op ≠ .streamComplete ∧ op ≠ .streamAborted ∧ op ≠ .stop := by
    cases op <;> simp_all [PdevOp.isStream]
  have hr : pd.rmiState ≠ .stopped ∧ pd.rmiState ≠ .needsKey ∧ pd.rmiState ≠ .hasKey := by
    rcases hu with hu | hu <;> rw [hu] <;> decide
  refine ⟨fun hc => congrArg some (ht hc),⟨hk,hne.2.2.1⟩,nofun,fun h => absurd h hne.2.1,
    fun _ => .inl rfl,fun _ => ⟨hu,rfl,rfl⟩,fun h => absurd h hne.2.2.2,fun h => absurd h hne.1,
    nofun,fun h => absurd h hr.1,fun _ => hu,fun _ h => absurd (.inl ho) h,fun _ => hr.2⟩

theorem join_spec (h : s.join p q pd1 pd2 k op st n = some t) : t.pdevs = update (update s.pdevs p (some { pd1 with
        op := op
        commState := .pending
        operation := s.clock
        opStreamType := k.2
        streamCount := pd1.streamCount+n })) q (some
      { pd2 with
        op := op
        commState := .pending
        operation := s.clock
        opStreamType := k.2
        streamCount := pd2.streamCount+n
        streamAux := pd1.streamAux }) ∧
      t.streams = update s.streams k st := by
  unfold join at h
  obtain ⟨a',ha,h⟩ := Option.bind_eq_some_iff.mp h
  obtain ⟨b',hb,rfl⟩ := Option.map_eq_some_iff.mp h
  unfold Pdev.start at ha hb
  split at ha <;> cases ha
  split at hb <;> cases hb
  exact ⟨rfl,rfl⟩

theorem preserves_join (h : s.Inv size) (he : s.join p q a b (p,ncoh) op st n = some t) (hp : s.pdevs p = some a)
    (hq : s.pdevs q = some b) (hpq : p ≠ q) (hca : a.category = .endpoint) (hcb : b.category = .rootPort) (hua : a.Up)
    (hub : b.Up) (hop : st.state.op = op) (ho : op.isStream) (hk : op ≠ .keyPurge) (hst : st.taken) (hst2 : st.pd2 = q)
    (hold : (s.streams (p,ncoh)).taken → (s.streams (p,ncoh)).pd2 = q)
    (hn : n = if (s.streams (p,ncoh)).taken then 0 else 1) (hsp : st.opState = .start)
    (hra : op = .connect ∨ op = .keyRefresh → a.rmiState = .ready ∧ b.rmiState = .ready) (hg : g → ¬a.Engaged ∧ ¬b.Engaged)
    : Preserves size g s t := by
  obtain ⟨htp,hts⟩ := join_spec he
  have hta := (h.shape hp).2.table hca
  have hon : st.state.op ≠ .none := by
    rw [hop]
    rintro rfl
    cases ho
  have hlive : st.state ≠ .disconnected ∧ st.state ≠ .keyPurging := by
    refine ⟨fun hd => hon ?_,fun hd => hk ?_⟩
    · rw [hd]
      rfl
    · rw [← hop,hd]
      rfl
  have hcount : ∀ m : Nat, m + n + (if (s.streams (p,ncoh)).taken then 1 else 0) =
      m + (if st.taken then 1 else 0) := fun m => by
    rw [hn,if_pos hst]
    split <;> rfl
  have hsa := shape_join p s.clock (a.streamCount+n) (fun _ => rfl) hua ho hk
  have hsb := shape_join (p := q) p s.clock (b.streamCount+n) (fun hc => by
      rw [hcb] at hc
      cases hc) hub ho hk
  rw [hta] at htp
  have j := Joint.mk htp hts hp hq hpq hst2 hold
  refine ⟨h.two j hca hcb hca hcb hsa hsb (fun _ => hlive) (hcount _)
    (hcount _) (fun _ => hst) (fun _ => ⟨rfl,hst⟩),fun hgg hm => ?_,fun hr => ?_⟩
  case refine_2 =>
    exact hr.two j h rfl (fun _ => rfl) (fun _ => hsp) (fun ho => (hra ho).1) fun ho => (hra ho).2
  obtain ⟨hna,hnb⟩ := hg hgg
  exact hm.two j h (fun he => absurd he hna) (fun he => absurd he hnb)
    (fun _ _ => ⟨rfl,rfl,rfl,hop.symm,hop.symm⟩) rfl (fun _ => rfl) (fun _ => hon) (fun _ => hon)

theorem twoPdevs_spec (h : s.twoPdevs p q = some (pd1,pd2)) : p ≠ q ∧ s.pdevs p = some pd1 ∧ s.pdevs q = some pd2 := by
  unfold twoPdevs at h
  split at h
  · cases h
  next hpq =>
  split at h
  · next h1 h2 =>
    cases h
    exact ⟨hpq,h1,h2⟩
  · cases h

theorem Inv.first (h : s.Inv size) {e : Nat} (hp : s.pdevs p = some a) (ha : a.streamAux = some e)
    (ht : (s.streams (e,ty)).taken) (hn : (s.streams (e,ty)).pd2 ≠ p) : e = p ∧ ty = ncoh ∧ a.category = .endpoint := by
  obtain ⟨hty,_,_,⟨c,hc,hcc⟩,_⟩ := h.taken ht
  subst hty
  have hsh := (h.shape hp).2
  cases hcat : a.category with
  | endpoint =>
    have := hsh.table hcat
    rw [ha] at this
    exact ⟨Option.some.inj this,rfl,rfl⟩
  | rootPort =>
    by_cases hen : a.Engaged
    · obtain ⟨e',h1,_,h3⟩ := h.held hp hen
      rw [ha] at h1
      cases h1
      rcases h3 with h3 | h3
      · subst h3
        rw [hp] at hc
        cases hc
        rw [hcat] at hcc
        cases hcc
      · exact absurd h3 hn
    · rw [hsh.unshared hcat hen] at ha
      cases ha

theorem Inv.second (h : s.Inv size) (hq : s.pdevs q = some b)
    (ht : (s.streams k).taken) (hn : (s.streams k).pd2 = q) : b.category = .rootPort := by
  obtain ⟨_,_,_,_,⟨c,hc,hcc⟩⟩ := h.taken ht
  rw [hn,hq] at hc
  cases hc
  exact hcc

theorem preserves_connect (h : s.Inv size) (he : s.streamConnect p q ty = some t) : Preserves size g s t := by
  unfold streamConnect at he
  split at he
  · cases he
    exact .refl h
  next hty =>
  simp only [not_not] at hty
  subst hty
  split at he
  · cases he
    exact .refl h
  next a b htwo =>
  obtain ⟨hpq,hp,hq⟩ := twoPdevs_spec htwo
  split at he
  · cases he
    exact .refl h
  next hc =>
  simp only [not_or,not_not] at hc
  obtain ⟨hca,hra,hoa,_,hcb,hrb,hob,_⟩ := hc
  have hta := (h.shape hp).2.table hca
  split at he
  · cases he
  next e hae =>
  rw [hta] at hae
  cases hae
  split at he
  · cases he
    exact .refl h
  next hfree =>
  split at he
  · cases he
  · exact preserves_join h he hp hq hpq hca hcb (.inl hra) (.inl hrb) rfl rfl nofun rfl rfl
      (fun hk => absurd hk hfree) (by rw [if_neg hfree]) rfl (fun _ => ⟨hra,hrb⟩)
      (fun _ => ⟨Pdev.not_engaged_of_none hoa,Pdev.not_engaged_of_none hob⟩)

def Unengaged (s : Sys) (p : Nat) : Prop := ∀ pd, s.pdevs p = some pd → pd.op = .none

theorem preserves_disconnect (h : s.Inv size) (he : s.streamDisconnect p q k = some t) :
    Preserves size (s.Unengaged p ∧ s.Unengaged q) s t := by
  unfold streamDisconnect at he
  split at he
  · cases he
    exact .refl h
  split at he
  · cases he
    exact .refl h
  next a b htwo =>
  obtain ⟨hpq,hp,hq⟩ := twoPdevs_spec htwo
  split at he
  · cases he
  next e hae =>
  simp only at he
  split at he
  · cases he
    exact .refl h
  next hst =>
  simp only [not_or,not_not,Bool.not_eq_false] at hst
  obtain ⟨htk,_,hst2⟩ := hst
  obtain ⟨rfl,hty,hca⟩ := h.first hp hae htk (by rw [hst2]; exact hpq.symm)
  rw [hty] at he htk hst2
  split at he
  · cases he
    exact .refl h
  next hup =>
  simp only [not_or,not_and,not_not] at hup
  have hua : a.Up := or_iff_not_imp_left.mpr hup.1
  have hub : b.Up := or_iff_not_imp_left.mpr hup.2.2.1
  refine preserves_join h he hp hq hpq hca (h.second hq htk hst2) hua hub rfl rfl nofun ?_ ?_
    (fun _ => hst2) (by rw [if_pos htk]) rfl (fun ho => ho.elim nofun nofun) ?_
  · exact htk
  · exact hst2
  · exact fun hg => ⟨Pdev.not_engaged_of_none (hg.1 a hp),Pdev.not_engaged_of_none (hg.2 b hq)⟩

theorem preserves_keyRefresh (h : s.Inv size) (he : s.streamKeyRefresh p q k = some t) : Preserves size g s t := by
  unfold streamKeyRefresh at he
  split at he
  · cases he
    exact .refl h
  next a b htwo =>
  obtain ⟨hpq,hp,hq⟩ := twoPdevs_spec htwo
  split at he
  · cases he
    exact .refl h
  split at he
  · cases he
  next e hae =>
  simp only at he
  split at he
  · cases he
    exact .refl h
  next hst =>
  simp only [not_or,not_not,Bool.not_eq_false] at hst
  obtain ⟨htk,hst2⟩ := hst
  obtain ⟨rfl,hty,hca⟩ := h.first hp hae htk (by rw [hst2]; exact hpq.symm)
  rw [hty] at he htk hst2
  split at he
  · cases he
    exact .refl h
  next hup =>
  simp only [not_or,not_not] at hup
  obtain ⟨hra,hoa,_,hrb,hob,_⟩ := hup
  split at he
  · cases he
    exact .refl h
  refine preserves_join h he hp hq hpq hca (h.second hq htk hst2) (.inl hra) (.inl hrb) rfl rfl nofun
    ?_ ?_ (fun _ => hst2) (by rw [if_pos htk]) rfl (fun _ => ⟨hra,hrb⟩) ?_
  · exact htk
  · exact hst2
  · exact fun _ => ⟨Pdev.not_engaged_of_none hoa,Pdev.not_engaged_of_none hob⟩

theorem commit_cases {st : Stream} {c : Commit} (h : st.commit pd1 pd2 = some c) : match c with
    | .refused => True
    | .kept st' => st.state.op ≠ .none ∧ st'.taken = st.taken ∧ st'.pd2 = st.pd2 ∧ st'.state = .connected
    | .released st' => st.state.op ≠ .none ∧ st'.taken = false ∧ st'.pd2 = st.pd2 ∧ st'.state = .disconnected := by
  unfold Stream.commit at h
  split at h <;> rename_i hs <;> rw [hs]
  all_goals repeat' split at h
  all_goals cases h
  all_goals first | exact trivial | exact ⟨nofun,rfl,rfl,rfl⟩

theorem settle_spec (h : s.settle p q pd1 pd2 k st n = some t) : t.pdevs = update (update s.pdevs p (some
      { pd1 with op := .none,streamCount := pd1.streamCount-n })) q (some
      { pd2 with op := .none,streamCount := pd2.streamCount-n,streamAux := none }) ∧
      t.streams = update s.streams k { st with opState := .none } := by
  unfold settle at h
  obtain ⟨a',ha,h⟩ := Option.bind_eq_some_iff.mp h
  obtain ⟨b',hb,rfl⟩ := Option.map_eq_some_iff.mp h
  unfold Pdev.streamComplete at ha hb
  split at ha <;> cases ha
  split at hb <;> cases hb
  exact ⟨rfl,rfl⟩

theorem shape_settle (aux : Option Nat) (n : Nat) (h : pd.Shape p) (ho : pd.op = .streamComplete)
    (ht : pd.category = .endpoint → aux = some p) (hn : pd.category = .rootPort → aux = none) :
    { pd with op := .none,streamCount := n,streamAux := aux }.Shape p := by
  have hu := (h.engaged (.inr ho)).1
  have hc := h.awaits ho
  have hl := Pdev.not_live_of_idle hc
  have hne : ¬{ pd with op := .none,streamCount := n,streamAux := aux }.Engaged :=
    Pdev.not_engaged_of_none rfl
  have hr : pd.rmiState ≠ .stopped ∧ pd.rmiState ≠ .needsKey ∧ pd.rmiState ≠ .hasKey := by
    rcases hu with hu | hu <;> rw [hu] <;> decide
  exact ⟨ht,⟨nofun,nofun⟩,fun _ => .inl rfl,nofun,nofun,fun he => absurd he hne,nofun,
    fun _ h' => absurd h' hl,h.failed,fun h' => absurd h' hr.1,fun _ => hu,fun hc _ => hn hc,
    fun _ => hr.2⟩

theorem preserves_settle (h : s.Inv size) (hp : s.pdevs p = some a) (hq : s.pdevs q = some b) (hpq : p ≠ q)
    (hca : a.category = .endpoint) (hcb : b.category = .rootPort) (hoa : a.op = .streamComplete)
    (hob : b.op = .streamComplete) (htk : (s.streams (p,ncoh)).taken) (hst2 : (s.streams (p,ncoh)).pd2 = q)
    (hop : (s.streams (p,ncoh)).state.op ≠ .none) (hst : st.pd2 = q) (hso : st.state.op = .none)
    (hlive : st.taken → st.state ≠ .disconnected) (hn : n = if st.taken then 0 else 1)
    (he : s.settle p q a b (p,ncoh) st n = some t) : Preserves size g s t := by
  obtain ⟨htp,hts⟩ := settle_spec he
  have hta := (h.shape hp).2.table hca
  have hsa : { a with op := .none,streamCount := a.streamCount-n }.Shape p :=
    shape_settle a.streamAux (a.streamCount-n) (h.shape hp).2 hoa (fun _ => hta) fun hc => by
        rw [hca] at hc
        cases hc
  have hsb := shape_settle none (b.streamCount-n) (h.shape hq).2 hob (fun hc => by
      rw [hcb] at hc
      cases hc) fun _ => rfl
  have hcount : ∀ m : Nat, 0 < m → m - n + (if (s.streams (p,ncoh)).taken then 1 else 0) =
      m + (if st.taken then 1 else 0) := fun m hm => by
    rw [hn,if_pos htk]
    split <;> omega
  have hpa := h.count_pos hp htk (.inl rfl)
  have hpb := h.count_pos hq htk (.inr hst2)
  have hnea : ¬{ a with op := .none,streamCount := a.streamCount-n }.Engaged :=
    Pdev.not_engaged_of_none rfl
  have hneb : ¬{ b with op := .none,streamCount := b.streamCount-n,streamAux := none }.Engaged :=
    Pdev.not_engaged_of_none rfl
  have hpurge : st.state ≠ .keyPurging := fun hk => by
    rw [hk] at hso
    cases hso
  have j := Joint.mk htp hts hp hq hpq hst fun _ => hst2
  refine ⟨h.two j hca hcb hca hcb hsa hsb (fun hk => ⟨hlive hk,hpurge⟩) (hcount _ hpa) (hcount _ hpb) (fun h' => absurd h' hnea)
    (fun h' => absurd h' hneb),fun _ hm => ?_,fun hr => ?_⟩
  case refine_2 =>
    exact hr.two j h hta nofun (fun ho => ho.elim nofun nofun)
      (fun ho => ho.elim nofun nofun) fun ho => ho.elim nofun nofun
  obtain ⟨id,_,hb⟩ := hm.parties htk hop
  rw [hst2] at hb
  exact hm.two j h (fun _ => hta)
    (fun _ => (hb.engaged hop hq).2) (fun _ ho => absurd hso ho) hta (fun h' => absurd h' hneb)
    (fun h' => absurd h' hnea) (fun h' => absurd h' hneb)

theorem Inv.awaited (h : s.Inv size) (hp : s.pdevs p = some a)
    (ho : a.op ≠ .streamComplete → a.op = .streamAborted) : a.op = .streamComplete := by
  by_contra hne
  exact (h.shape hp).2.never.2 (ho hne)

theorem complete_spec (h : s.Inv size) (he : s.streamComplete p q k = some t) :
    t = s ∨ ∃ a b st n, p ≠ q ∧ s.pdevs p = some a ∧ s.pdevs q = some b ∧
      a.category = .endpoint ∧ b.category = .rootPort ∧ a.op = .streamComplete ∧
      b.op = .streamComplete ∧ k = (p,ncoh) ∧ (s.streams k).taken ∧ (s.streams k).pd2 = q ∧
      s.settle p q a b k st n = some t ∧
      ((s.streams k).commit a b = some (.kept st) ∧ n = 0 ∨
        (s.streams k).commit a b = some (.released st) ∧ n = 1) := by
  unfold streamComplete at he
  split at he
  · cases he
    exact .inl rfl
  next hk =>
  simp only [not_or,not_not] at hk
  split at he
  · cases he
    exact .inl rfl
  next a b htwo =>
  obtain ⟨hpq,hp,hq⟩ := twoPdevs_spec htwo
  split at he
  · cases he
  next e hae =>
  simp only at he
  split at he
  · cases he
    exact .inl rfl
  next hst =>
  simp only [not_or,not_not,Bool.not_eq_false] at hst
  obtain ⟨htk,hst2⟩ := hst
  obtain ⟨rfl,hty,hca⟩ := h.first hp hae htk (by rw [hst2]; exact hpq.symm)
  obtain ⟨k1,k2⟩ := k
  obtain ⟨_,rfl⟩ := hk
  subst hty
  split at he
  · cases he
    exact .inl rfl
  split at he
  · cases he
    exact .inl rfl
  next hops =>
  simp only [not_or,not_and,not_not] at hops
  have hoa := h.awaited hp hops.1
  have hob := h.awaited hq hops.2
  have hcb := h.second hq htk hst2
  split at he
  · cases he
  · cases he
    exact .inl rfl
  · next st hc => exact .inr ⟨a,b,st,0,hpq,hp,hq,hca,hcb,hoa,hob,rfl,htk,hst2,he,.inl ⟨hc,rfl⟩⟩
  · next st hc => exact .inr ⟨a,b,st,1,hpq,hp,hq,hca,hcb,hoa,hob,rfl,htk,hst2,he,.inr ⟨hc,rfl⟩⟩

theorem preserves_complete (h : s.Inv size) (he : s.streamComplete p q k = some t) : Preserves size g s t := by
  rcases complete_spec h he with rfl | ⟨a,b,st,n,hpq,hp,hq,hca,hcb,hoa,hob,rfl,htk,hst2,hset,⟨hc,rfl⟩ | ⟨hc,rfl⟩⟩
  · exact .refl h
  · obtain ⟨hop,h1,h2,h3⟩ := commit_cases hc
    rw [htk] at h1
    refine preserves_settle h hp hq hpq hca hcb hoa hob htk hst2 hop (h2.trans hst2) ?_ ?_ ?_ hset
    · rw [h3]
      rfl
    · rw [h3]
      exact fun _ => nofun
    · rw [if_pos h1]
  · obtain ⟨hop,h1,h2,h3⟩ := commit_cases hc
    refine preserves_settle h hp hq hpq hca hcb hoa hob htk hst2 hop (h2.trans hst2) ?_ ?_ ?_ hset
    · rw [h3]
      rfl
    · rw [h1]
      nofun
    · rw [h1]
      rfl

end Sys

namespace Sys

variable {s t : Sys} {size p q v : Nat} {g : Prop} {i : Exchange} {vd : Vdev} {a : Bool}

theorem dispatchVdev_alike {r : Status × Pdev} (h : pd.dispatchVdev i vd = some r) : Pdev.Alike pd r.2 := by
  have hrun : ∀ {id e}, (pd.appRun id e).bind (copyDigest CacheType.ofVdev i) = some r →
      Pdev.Alike pd r.2 := fun h => (Pdev.run_digest_alike h).1
  unfold Pdev.dispatchVdev at h
  split at h
  · obtain ⟨w,hw,hd⟩ := Option.bind_eq_some_iff.mp h
    rw [(Pdev.copyDigest_cases hd).1]
    exact (Pdev.appResume_alike hw).1
  split at h
  · exact hrun h
  · exact hrun h
  · exact hrun h
  · exact hrun h
  · cases h
    exact .refl pd
  · split at h
    · exact hrun h
    · cases h
  · cases h

theorem copyoutVdev_alike (i : Exchange) (vd : Vdev) (r : Status × Pdev) : Pdev.Alike r.2 (Pdev.copyoutVdev i vd r).2 := by
  unfold Pdev.copyoutVdev
  split
  · exact .refl _
  split
  · exact Pdev.abortAppOperation_alike ..
  · exact .refl _

theorem vdevCommunicate_alike {r : Pdev × Vdev} (h : pd.vdevCommunicate v vd i = some r) : Pdev.Alike pd r.1 := by
  unfold Pdev.vdevCommunicate at h
  split at h
  · cases h
    exact .refl pd
  split at h
  · cases h
    exact .refl pd
  obtain ⟨w,hw,h⟩ := Option.bind_eq_some_iff.mp h
  obtain ⟨vd',_,h⟩ := Option.bind_eq_some_iff.mp h
  obtain ⟨vd'',_,rfl⟩ := Option.map_eq_some_iff.mp h
  exact ((dispatchVdev_alike hw).trans (copyoutVdev_alike i vd w)).trans ⟨rfl,rfl,rfl,rfl,rfl,rfl,rfl,rfl⟩

section

variable (h : s.Inv size)

include h

theorem preserves_info (he : s.streamInfo p q k = some t) : Preserves size g s t := by
  unfold streamInfo at he
  split at he
  · cases he
    exact .refl h
  split at he
  · cases he
    exact .refl h
  split at he
  · cases he
  · cases he
    exact .refl h

theorem preserves_numVdevs {n : Nat} (hp : s.pdevs p = some pd)
    (ht : t.pdevs = Function.update s.pdevs p (some { pd with numVdevs := n }))
    (hk : t.streams = s.streams) : Preserves size g s t := by
  have ha : Pdev.Alike pd { pd with numVdevs := n } := ⟨rfl,rfl,rfl,rfl,rfl,rfl,rfl,rfl⟩
  exact .alike h hp ha ht hk

theorem preserves_vdevCreate {a b : Bool} (he : s.vdevCreate v p a b = some t) : Preserves size g s t := by
  unfold vdevCreate at he
  split at he
  case h_2 =>
    cases he
    exact .refl h
  next pd _ hp =>
  split at he
  · cases he
    exact .refl h
  split at he
  · cases he
  split at he
  · cases he
    exact .refl h
  split at he
  · cases he
    exact .refl h
  · cases he
    exact preserves_numVdevs h hp rfl rfl

theorem preserves_vdevBegin {op : VdevOp} (he : s.vdevBegin v p op a = some t) : Preserves size g s t := by
  unfold vdevBegin at he
  split at he
  · cases he
    exact .refl h
  split at he
  · cases he
    exact .refl h
  · cases he
    exact .congr h rfl rfl

theorem preserves_vdevCommunicate (he : s.vdevCommunicate v p a i = some t) : Preserves size g s t := by
  unfold vdevCommunicate at he
  split at he
  case h_2 =>
    cases he
    exact .refl h
  next vd pd _ hp =>
  split at he
  · cases he
    exact .refl h
  · obtain ⟨r,hr,rfl⟩ := Option.map_eq_some_iff.mp he
    exact .alike h hp (vdevCommunicate_alike hr) rfl rfl

theorem preserves_vdevAbort {u : Bool} (he : s.vdevAbort v p u = some t) : Preserves size g s t := by
  unfold vdevAbort at he
  split at he
  case h_2 =>
    cases he
    exact .refl h
  next vd pd _ hp =>
  split at he
  · cases he
    exact .refl h
  have ha := Pdev.abortAppIfOwner_alike pd (.vdev v) vd.operation u
  split at he
  all_goals
    next pd' hb =>
    rw [hb] at ha
    cases he
    exact .alike h hp ha rfl rfl

theorem preserves_vdevDestroy (he : s.vdevDestroy v p a = some t) : Preserves size g s t := by
  unfold vdevDestroy at he
  split at he
  case h_2 =>
    cases he
    exact .refl h
  next vd pd _ hp =>
  split at he
  · cases he
    exact .refl h
  split at he
  · cases he
    exact .refl h
  split at he
  · cases he
    exact .refl h
  · cases he
    exact preserves_numVdevs h hp rfl rfl

end

end Sys

def Cmd.Undisturbed (s : Sys) : Cmd → Prop
  | .streamDisconnect p q _ => s.Unengaged p ∧ s.Unengaged q
  | _ => True

namespace Sys

variable {s t : Sys} {size p q v : Nat}

theorem exec_preserves {c : Cmd} (h : s.Inv size) (he : s.exec size c = some t) : Preserves size (c.Undisturbed s) s t := by
  cases c with
  | pdevCreate p c => exact preserves_create h he
  | pdevCommunicate p i => exact preserves_communicate h he
  | pdevSetPubkey p a b => exact preserves_setPubkey h he
  | pdevStop p => exact preserves_stop h he
  | pdevAbort p u => exact preserves_abort h he
  | pdevDestroy p r => exact preserves_destroy h he
  | streamConnect p q ty => exact preserves_connect h he
  | streamDisconnect p q k => exact preserves_disconnect h he
  | streamKeyRefresh p q k => exact preserves_keyRefresh h he
  | streamInfo p q k => exact preserves_info h he
  | streamComplete p q k => exact preserves_complete h he
  | vdevCreate v p a b => exact preserves_vdevCreate h he
  | vdevBegin v p op a => exact preserves_vdevBegin h he
  | vdevCommunicate v p a i => exact preserves_vdevCommunicate h he
  | vdevAbort v p u => exact preserves_vdevAbort h he
  | vdevDestroy v p a => exact preserves_vdevDestroy h he

theorem inv_empty : Sys.empty.Inv size := by
  refine ⟨nofun,nofun,nofun,nofun⟩

theorem matched_of_reachable (h : (system size).ReachableUnder (fun s c => c.Undisturbed s) s) :
    s.Inv size ∧ s.Matched := by
  apply h.invariant
  · rintro _ rfl
    exact ⟨inv_empty,nofun,nofun⟩
  · exact fun _ _ _ hi hg he => ⟨(exec_preserves hi.1 he).1,(exec_preserves hi.1 he).2.1 hg hi.2⟩

def run (s : Sys) (size : Nat) : List Cmd → Option Sys
  | [] => some s
  | c :: cs => (s.exec size c).bind fun t => t.run size cs

theorem run_append {u : Sys} {as bs : List Cmd} (h : s.run size as = some t)
    (k : t.run size bs = some u) : s.run size (as ++ bs) = some u := by
  induction as generalizing s with
  | nil =>
    cases h
    exact k
  | cons c cs ih =>
    obtain ⟨w,hw,h⟩ := Option.bind_eq_some_iff.mp h
    exact Option.bind_eq_some_iff.mpr ⟨w,hw,ih h⟩

end Sys

def Cmd.Releasing : Cmd → Prop
  | .pdevAbort _ _ | .streamComplete _ _ _ | .streamDisconnect _ _ _ => True
  | _ => False

namespace Sys

variable {s t u : Sys} {size p id : Nat} {a b : Pdev}

def Leads (size : Nat) (s t : Sys) : Prop :=
  (∃ cs, (∀ c ∈ cs, c.Releasing) ∧ s.run size cs = some t) ∧ t.Inv size ∧ t.Matched

theorem Leads.refl (h : s.Inv size) (hm : s.Matched) : Leads size s s :=
  ⟨⟨[],nofun,rfl⟩,h,hm⟩

theorem Leads.trans (h : Leads size s t) (k : Leads size t u) : Leads size s u := by
  obtain ⟨⟨as,ha,hr⟩,_,_⟩ := h
  obtain ⟨⟨bs,hb,hr'⟩,hi⟩ := k
  refine ⟨⟨as ++ bs,fun c hc => ?_,run_append hr hr'⟩,hi⟩
  rcases List.mem_append.mp hc with hc | hc
  · exact ha c hc
  · exact hb c hc

theorem Leads.one {c : Cmd} (h : s.Inv size) (hm : s.Matched) (he : s.exec size c = some t)
    (hc : c.Releasing) (hg : c.Undisturbed s) : Leads size s t := by
  obtain ⟨hi,hm',_⟩ := exec_preserves h he
  refine ⟨⟨[c],fun d hd => List.mem_singleton.mp hd ▸ hc,?_⟩,hi,hm' hg hm⟩
  exact Option.bind_eq_some_iff.mpr ⟨t,he,rfl⟩

theorem abort_stream (size : Nat) (hp : s.pdevs p = some pd) (hsh : pd.Shape p) (ho : pd.op.isStream) :
    ∃ pd', s.exec size (.pdevAbort p true) = some (s.setPdev p pd') ∧ pd'.op = .streamComplete := by
  have hi := (hsh.streams ho).not_idle
  have hfst : (pd.abortAppIfOwner .pdev pd.operation true).1 = true := by
    unfold Pdev.abortAppIfOwner
    repeat' split
    all_goals first | rfl | contradiction
  have ha := Pdev.abortAppIfOwner_alike pd .pdev pd.operation true
  obtain ⟨pd',hb⟩ : ∃ pd', pd.abortAppIfOwner .pdev pd.operation true = (true,pd') :=
    ⟨_,Prod.ext hfst rfl⟩
  rw [hb] at ha
  have hc : pd'.commAbort = some { pd' with rmiState := .error,op := .streamComplete,commState := .idle } := by
    unfold Pdev.commAbort
    rw [if_neg (by rw [ha.commState]; exact hi),if_pos (.inl (by rw [ha.op]; exact ho))]
  refine ⟨{ pd' with rmiState := .error,op := .streamComplete,commState := .idle },?_,rfl⟩
  simp only [exec,pdevAbort,hp,if_neg hi,hb,hc,Option.map_some]

theorem leads_party (h : s.Inv size) (hm : s.Matched) (hk : (s.streams k).state.op ≠ .none) (hp : s.Party k id p) :
    ∃ t, Leads size s t ∧ t.streams = s.streams ∧ (∃ pd, t.pdevs p = some pd ∧ pd.op = .streamComplete) ∧
      ∀ x, x ≠ p → t.pdevs x = s.pdevs x := by
  obtain ⟨pd,hpd,_,_,ho⟩ := hp
  rcases ho with ho | ho
  · have hs : pd.op.isStream := by
      rw [ho]
      exact StreamState.isStream_op hk
    obtain ⟨pd',he,hc⟩ := abort_stream size hpd (h.shape hpd).2 hs
    refine ⟨_,.one h hm he trivial trivial,rfl,⟨pd',Function.update_self ..,hc⟩,fun x hx => ?_⟩
    exact Function.update_of_ne hx _ _
  · exact ⟨s,.refl h hm,rfl,⟨pd,hpd,ho⟩,fun _ _ => rfl⟩

theorem commit_total {st : Stream} (hoa : a.op = .streamComplete) (hob : b.op = .streamComplete)
    (hop : st.state.op ≠ .none) :
    (∃ st', st.commit a b = some (.kept st') ∧ st.state ≠ .disconnecting) ∨
      ∃ st', st.commit a b = some (.released st') := by
  unfold Stream.commit
  split
  all_goals rename_i hs
  · split
    · exact .inl ⟨_,rfl,by rw [hs]; decide⟩
    · exact .inr ⟨_,rfl⟩
  · split <;> exact .inl ⟨_,rfl,by rw [hs]; decide⟩
  · split <;> exact .inl ⟨_,rfl,by rw [hs]; decide⟩
  · rw [hoa,hob]
    split <;> exact .inr ⟨_,rfl⟩
  all_goals
    rw [hs] at hop
    exact absurd rfl hop

theorem Inv.ends (h : s.Inv size) (hk : (s.streams k).taken) (hp : s.pdevs k.1 = some a)
    (hq : s.pdevs (s.streams k).pd2 = some b) : ¬(streamTypeCount ≤ k.2 ∨ k.1 ≠ k.1) ∧
      s.twoPdevs k.1 (s.streams k).pd2 = some (a,b) ∧ a.streamAux = some k.1 := by
  obtain ⟨hty,_,_,⟨a₀,ha₀,hca⟩,⟨b₀,hb₀,hcb⟩⟩ := h.taken hk
  rw [hp] at ha₀
  cases ha₀
  rw [hq] at hb₀
  cases hb₀
  have hpq : k.1 ≠ (s.streams k).pd2 := fun he => by
    rw [he,hq] at hp
    cases hp
    rw [hca] at hcb
    cases hcb
  refine ⟨?_,?_,(h.shape hp).2.table hca⟩
  · rw [hty]
    simp [streamTypeCount,ncoh]
  · unfold twoPdevs
    rw [if_neg hpq,hp,hq]

theorem complete_stream (h : s.Inv size) (htk : (s.streams k).taken)
    (hop : (s.streams k).state.op ≠ .none) (hp : s.pdevs k.1 = some a)
    (hq : s.pdevs (s.streams k).pd2 = some b) (hoa : a.op = .streamComplete)
    (hob : b.op = .streamComplete) :
    ∃ t st, s.exec size (.streamComplete k.1 (s.streams k).pd2 k) = some t ∧
      t.streams = Function.update s.streams k st ∧ st.state.op = .none ∧
      ((s.streams k).state = .disconnecting → st.taken = false) := by
  obtain ⟨hk,htwo,hta⟩ := h.ends htk hp hq
  have hua := ((h.shape hp).2.engaged (.inr hoa)).1
  have hub := ((h.shape hq).2.engaged (.inr hob)).1
  have hia := (h.shape hp).2.awaits hoa
  have hib := (h.shape hq).2.awaits hob
  have hst : ¬((s.streams k).taken = false ∨ (s.streams k).pd2 ≠ (s.streams k).pd2) := by
    rw [htk]
    simp
  have hup : ¬((a.rmiState ≠ .error ∧ (a.rmiState ≠ .ready ∨ a.commState ≠ .idle)) ∨
      (b.rmiState ≠ .error ∧ (b.rmiState ≠ .ready ∨ b.commState ≠ .idle))) := by
    rcases hua with hua | hua <;> rcases hub with hub | hub <;> simp [hua,hub,hia,hib]
  have hops : ¬((a.op ≠ .streamComplete ∧ a.op ≠ .streamAborted) ∨
      (b.op ≠ .streamComplete ∧ b.op ≠ .streamAborted)) := by
    simp [hoa,hob]
  have hsettle : ∀ st n, ∃ t, s.settle k.1 (s.streams k).pd2 a b k st n = some t := fun st n => by
    unfold settle Pdev.streamComplete
    rw [if_pos (.inl hoa),if_pos (.inl hob)]
    exact ⟨_,rfl⟩
  rcases commit_total hoa hob hop with ⟨st,hc,hd⟩ | ⟨st,hc⟩
  · obtain ⟨t,ht⟩ := hsettle st 0
    obtain ⟨_,_,_,h3⟩ := commit_cases hc
    refine ⟨t,_,?_,(settle_spec ht).2,?_,fun h' => absurd h' hd⟩
    · simp only [exec,streamComplete,if_neg hk,htwo,hta,Prod.mk.eta,if_neg hst,if_neg hup,if_neg hops,hc]
      exact ht
    · rw [h3]
      rfl
  · obtain ⟨t,ht⟩ := hsettle st 1
    obtain ⟨_,h1,_,h3⟩ := commit_cases hc
    refine ⟨t,_,?_,(settle_spec ht).2,?_,fun _ => h1⟩
    · simp only [exec,streamComplete,if_neg hk,htwo,hta,Prod.mk.eta,if_neg hst,if_neg hup,if_neg hops,hc]
      exact ht
    · rw [h3]
      rfl

theorem leads_finish (h : s.Inv size) (hm : s.Matched) (htk : (s.streams k).taken)
    (hop : (s.streams k).state.op ≠ .none) :
    ∃ t st, Leads size s t ∧ t.streams = Function.update s.streams k st ∧ st.state.op = .none ∧
      ((s.streams k).state = .disconnecting → st.taken = false) := by
  obtain ⟨id,h1,h2⟩ := hm.parties htk hop
  obtain ⟨_,_,_,⟨a₀,ha₀,hca⟩,⟨b₀,hb₀,hcb⟩⟩ := h.taken htk
  have hpq : (s.streams k).pd2 ≠ k.1 := fun he => by
    rw [he,ha₀] at hb₀
    cases hb₀
    rw [hca] at hcb
    cases hcb
  obtain ⟨u,l1,hs1,⟨a,ha,hoa⟩,hx1⟩ := leads_party h hm hop h1
  have h2' : u.Party k id (u.streams k).pd2 := by
    rw [hs1]
    exact h2.congr (hx1 _ hpq) (by rw [hs1])
  obtain ⟨w,l2,hs2,⟨b,hb,hob⟩,hx2⟩ := leads_party l1.2.1 l1.2.2 (by rw [hs1]; exact hop) h2'
  rw [hs1] at hs2 hb hx2
  rw [← hs2] at htk hop hb ⊢
  have ha' : w.pdevs k.1 = some a := by
    rw [hx2 _ hpq.symm]
    exact ha
  obtain ⟨t,st,he,hst,h3,h4⟩ := complete_stream l2.2.1 htk hop ha' hb hoa hob
  exact ⟨t,st,(l1.trans l2).trans (.one l2.2.1 l2.2.2 he trivial trivial),hst,h3,h4⟩

end Sys

end TfRmm.Comm
