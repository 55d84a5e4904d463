import TfRmm.Comm.Release

namespace TfRmm.Comm

namespace Sys

variable {s t : Sys} {size p q id : Nat} {a b pd : Pdev} {k : Nat × Nat} {st : Stream}

def takens (s : Sys) (size : Nat) : Finset (Nat × Nat) :=
  (Finset.range size ×ˢ Finset.range streamTypeCount).filter fun k => (s.streams k).taken = true

def Transitional (s : Sys) (k : Nat × Nat) : Prop :=
  (s.streams k).taken ∧ (s.streams k).state.op ≠ .none

instance (s : Sys) (k : Nat × Nat) : Decidable (s.Transitional k) :=
  inferInstanceAs (Decidable (_ ∧ _))

def movings (s : Sys) (size : Nat) : Finset (Nat × Nat) :=
  (Finset.range size ×ˢ Finset.range streamTypeCount).filter fun k => s.Transitional k

theorem mem_takens : k ∈ s.takens size ↔ (k.1 < size ∧ k.2 < streamTypeCount) ∧ (s.streams k).taken := by
  simp only [takens,Finset.mem_filter,Finset.mem_product,Finset.mem_range]

theorem mem_movings : k ∈ s.movings size ↔ (k.1 < size ∧ k.2 < streamTypeCount) ∧ s.Transitional k := by
  simp only [movings,Finset.mem_filter,Finset.mem_product,Finset.mem_range]

theorem Inv.bounded (h : s.Inv size) (hk : (s.streams k).taken) : k.1 < size ∧ k.2 < streamTypeCount := by
  obtain ⟨hty,_,_,⟨a,ha,_⟩,_⟩ := h.taken hk
  refine ⟨(h.shape ha).1,?_⟩
  rw [hty]
  decide

theorem takens_update (size : Nat) (ht : t.streams = Function.update s.streams k st)
    (hk : (s.streams k).taken) : t.takens size ⊆ s.takens size := fun k' hk' => by
  rw [mem_takens] at hk' ⊢
  refine ⟨hk'.1,?_⟩
  by_cases hkk : k' = k
  · rw [hkk]
    exact hk
  · have := hk'.2
    rwa [ht,Function.update_of_ne hkk] at this

theorem movings_update (size : Nat) (ht : t.streams = Function.update s.streams k st)
    (hst : st.state.op = .none) : t.movings size ⊆ (s.movings size).erase k := fun k' hk' => by
  rw [mem_movings] at hk'
  obtain ⟨hb,hk1,hk2⟩ := hk'
  by_cases hkk : k' = k
  · rw [hkk,ht,Function.update_self] at hk2
    exact absurd hst hk2
  · rw [ht,Function.update_of_ne hkk] at hk1 hk2
    exact Finset.mem_erase.mpr ⟨hkk,mem_movings.mpr ⟨hb,hk1,hk2⟩⟩

theorem Inv.at_rest (h : s.Inv size) (hm : s.Matched) (hn : ∀ k, ¬s.Transitional k) (hk : (s.streams k).taken)
    (hp : s.pdevs p = some pd) (hnm : s.Names k p) : pd.op = .none ∧ pd.commState = .idle ∧ pd.Up := by
  have hsh := (h.shape hp).2
  have hpos := h.count_pos hp hk hnm
  have hu := hsh.counted hpos
  have hr : pd.rmiState ≠ .new ∧ pd.rmiState ≠ .hasKey ∧ pd.rmiState ≠ .stopped := by
    rcases hu with hu | hu <;> rw [hu] <;> decide
  have hne : ¬pd.Engaged := fun he => by
    obtain ⟨e,h1,h2,_⟩ := h.held hp he
    exact hn (e,ncoh) ⟨h2,hm.bound hp he h1⟩
  have ho : pd.op = .none := by
    cases ho : pd.op with
    | none => rfl
    | stop =>
      have := (hsh.stopping ho).2.1
      omega
    | streamComplete => exact absurd (.inr ho) hne
    | streamAborted => exact absurd ho hsh.never.2
    | _ => exact absurd (.inl (by rw [ho]; rfl)) hne
  refine ⟨ho,?_,hu⟩
  have hlive : ¬pd.Live := fun hl => by
    rcases hsh.quiet ho hl with hq | hq
    · exact hr.1 hq
    · exact hr.2.1 hq
  cases hc : pd.commState with
  | idle => rfl
  | pending => exact absurd (.inl hc) hlive
  | active => exact absurd (.inr hc) hlive
  | error => exact absurd (hsh.failed hc) hr.2.2

theorem disconnect_stream (h : s.Inv size) (hm : s.Matched) (hn : ∀ k, ¬s.Transitional k) (hk : (s.streams k).taken) :
    ∃ t, s.exec size (.streamDisconnect k.1 (s.streams k).pd2 k) = some t ∧
      (Cmd.streamDisconnect k.1 (s.streams k).pd2 k).Undisturbed s ∧
      t.streams = Function.update s.streams k { s.streams k with state := .disconnecting,opState := .start } := by
  obtain ⟨_,hnd,_,⟨a,ha,_⟩,⟨b,hb,_⟩⟩ := h.taken hk
  obtain ⟨hoa,hia,hua⟩ := h.at_rest hm hn hk ha (.inl rfl)
  obtain ⟨hob,hib,hub⟩ := h.at_rest hm hn hk hb (.inr rfl)
  have hconn : (s.streams k).state = .connected := by
    by_contra hc
    refine hn k ⟨hk,fun ho => ?_⟩
    cases hs : (s.streams k).state <;> rw [hs] at ho <;> first | exact hc hs | exact hnd hs | cases ho
  obtain ⟨hkk,htwo,hta⟩ := h.ends hk ha hb
  have hst : ¬((s.streams k).taken = false ∨ (s.streams k).state ≠ .connected ∨
      (s.streams k).pd2 ≠ (s.streams k).pd2) := by
    rw [hk,hconn]
    simp
  have hup : ¬((a.rmiState ≠ .ready ∧ a.rmiState ≠ .error) ∨ a.commState ≠ .idle ∨
      (b.rmiState ≠ .ready ∧ b.rmiState ≠ .error) ∨ b.commState ≠ .idle) := by
    rcases hua with hua | hua <;> rcases hub with hub | hub <;> simp [hua,hub,hia,hib]
  have hjoin : ∃ t, s.join k.1 (s.streams k).pd2 a b k .disconnect
      { s.streams k with state := .disconnecting,opState := .start } 0 = some t := by
    unfold join Pdev.start
    rw [if_pos ⟨hia,by simp⟩,if_pos ⟨hib,by simp⟩]
    exact ⟨_,rfl⟩
  obtain ⟨t,ht⟩ := hjoin
  refine ⟨t,?_,⟨?_,?_⟩,(join_spec ht).2⟩
  · simp only [exec,streamDisconnect,if_neg hkk,htwo,hta,Prod.mk.eta,if_neg hst,if_neg hup]
    exact ht
  · intro pd hpd
    rw [ha] at hpd
    cases hpd
    exact hoa
  · intro pd hpd
    rw [hb] at hpd
    cases hpd
    exact hob

theorem leads_released (n : Nat) (h : s.Inv size) (hm : s.Matched) (hn : (s.takens size).card + (s.movings size).card ≤ n) :
    ∃ t, Leads size s t ∧ ∀ k, (t.streams k).taken = false := by
  induction n using Nat.strong_induction_on generalizing s with
  | _ n ih =>
    by_cases hmv : ∃ k, s.Transitional k
    · obtain ⟨k,hk⟩ := hmv
      obtain ⟨t,st,hl,ht,hst,_⟩ := leads_finish h hm hk.1 hk.2
      have h1 := Finset.card_le_card (takens_update size ht hk.1)
      have h2 := Finset.card_le_card (movings_update size ht hst)
      have hmem : k ∈ s.movings size := mem_movings.mpr ⟨h.bounded hk.1,hk⟩
      have h3 := Finset.card_erase_lt_of_mem hmem
      obtain ⟨u,hu,hfree⟩ := ih ((t.takens size).card + (t.movings size).card) (by omega) hl.2.1 hl.2.2 le_rfl
      exact ⟨u,hl.trans hu,hfree⟩
    · have hmv : ∀ k, ¬s.Transitional k := fun k hk => hmv ⟨k,hk⟩
      by_cases htk : ∃ k, (s.streams k).taken = true
      · obtain ⟨k,hk⟩ := htk
        obtain ⟨w,he,hg,hw⟩ := disconnect_stream h hm hmv hk
        have hlw := Leads.one h hm he trivial hg
        have hwk : (w.streams k).taken = true ∧ (w.streams k).state = .disconnecting := by
          rw [hw,Function.update_self]
          exact ⟨hk,rfl⟩
        obtain ⟨t,st,hl,ht,hst,hrel⟩ := leads_finish hlw.2.1 hlw.2.2 hwk.1 (by rw [hwk.2]; nofun)
        have hrel := hrel hwk.2
        rw [hw,Function.update_idem] at ht
        have hmem : k ∈ s.takens size := mem_takens.mpr ⟨h.bounded hk,hk⟩
        have hnot : k ∉ t.takens size := fun hkt => by
          have := (mem_takens.mp hkt).2
          rw [ht,Function.update_self,hrel] at this
          cases this
        have h1 := Finset.card_lt_card (Finset.ssubset_iff_of_subset (takens_update size ht hk) |>.mpr ⟨k,hmem,hnot⟩)
        have h2 := Finset.card_le_card (movings_update size ht hst)
        have h3 := Finset.card_erase_le (s := s.movings size) (a := k)
        obtain ⟨u,hu,hfree⟩ := ih ((t.takens size).card + (t.movings size).card) (by omega) hl.2.1 hl.2.2 le_rfl
        exact ⟨u,(hlw.trans hl).trans hu,hfree⟩
      · refine ⟨s,.refl h hm,fun k => ?_⟩
        by_contra hk
        exact htk ⟨k,by simpa using hk⟩

def TakesPart (s : Sys) (k : Nat × Nat) (id p : Nat) : Prop :=
  ∃ pd, s.pdevs p = some pd ∧ pd.streamAux = some k.1 ∧ pd.opStreamType = k.2 ∧
    pd.operation = id ∧ (pd.op = (s.streams k).state.op ∨ pd.op = .streamComplete)

structure Consistent (size : Nat) (s : Sys) : Prop where
  one : ∀ p pd, s.pdevs p = some pd → pd.Engaged → ∃! k, s.Transitional k ∧ s.Names k p
  both : ∀ k, s.Transitional k →
    ∃ id, s.TakesPart k id k.1 ∧ s.TakesPart k id (s.streams k).pd2
  commits : ∀ p q k t, s.exec size (.streamComplete p q k) = some t → t ≠ s →
    s.Transitional k ∧ k.1 = p ∧ (s.streams k).pd2 = q ∧
    ∃ a b st, s.pdevs p = some a ∧ s.pdevs q = some b ∧ a.op = .streamComplete ∧
      b.op = .streamComplete ∧ a.streamAux = some p ∧ b.streamAux = some p ∧
      a.operation = b.operation ∧ t.streams k = { st with opState := .none } ∧
      ((s.streams k).commit a b = some (.kept st) ∨ (s.streams k).commit a b = some (.released st))
  counts : ∀ p pd, s.pdevs p = some pd → pd.streamCount = (s.naming size p).card
  named : ∀ k p, (s.streams k).taken → s.Names k p →
    k ∈ s.naming size p ∧ ∃ pd, s.pdevs p = some pd ∧ pd.rmiState ≠ .stopped
  releases : ∃ cs t, (∀ c ∈ cs, c.Releasing) ∧ s.run size cs = some t ∧
    ∀ k, (t.streams k).taken = false

theorem Inv.takesPart (h : s.Inv size) (hm : s.Matched) (hk : s.Transitional k) :
    ∃ id, s.TakesPart k id k.1 ∧ s.TakesPart k id (s.streams k).pd2 := by
  have hty := (h.taken hk.1).1
  obtain ⟨id,h1,h2⟩ := hm.parties hk.1 hk.2
  have hpart : ∀ {x}, s.Party k id x → s.TakesPart k id x := by
    intro x hx
    have hx' := hx
    obtain ⟨pd,hp,haux,hid,ho⟩ := hx
    have he := (hx'.engaged hk.2 hp).1
    exact ⟨pd,hp,haux,((h.shape hp).2.engaged he).2.2.trans hty.symm,hid,ho⟩
  exact ⟨id,hpart h1,hpart h2⟩

theorem Inv.party_of_names (h : s.Inv size) (hm : s.Matched) (hk : s.Transitional k)
    (hn : s.Names k p) (hp : s.pdevs p = some pd) : pd.streamAux = some k.1 ∧ k.2 = ncoh := by
  obtain ⟨id,h1,h2⟩ := hm.parties hk.1 hk.2
  refine ⟨?_,(h.taken hk.1).1⟩
  rcases hn with rfl | hn
  · exact (h1.engaged hk.2 hp).2
  · rw [hn] at h2
    exact (h2.engaged hk.2 hp).2

theorem Inv.unique (h : s.Inv size) (hm : s.Matched) (hp : s.pdevs p = some pd)
    (he : pd.Engaged) : ∃! k, s.Transitional k ∧ s.Names k p := by
  obtain ⟨e,h1,h2,h3⟩ := h.held hp he
  refine ⟨(e,ncoh),⟨⟨h2,hm.bound hp he h1⟩,h3⟩,?_⟩
  rintro k ⟨hk,hn⟩
  obtain ⟨haux,hty⟩ := h.party_of_names hm hk hn hp
  rw [h1] at haux
  exact Prod.ext (Option.some.inj haux).symm hty

theorem Inv.commits (h : s.Inv size) (hm : s.Matched)
    (he : s.exec size (.streamComplete p q k) = some t) (hne : t ≠ s) :
    s.Transitional k ∧ k.1 = p ∧ (s.streams k).pd2 = q ∧
    ∃ a b st, s.pdevs p = some a ∧ s.pdevs q = some b ∧ a.op = .streamComplete ∧
      b.op = .streamComplete ∧ a.streamAux = some p ∧ b.streamAux = some p ∧
      a.operation = b.operation ∧ t.streams k = { st with opState := .none } ∧
      ((s.streams k).commit a b = some (.kept st) ∨ (s.streams k).commit a b = some (.released st)) := by
  rcases complete_spec h he with rfl | ⟨a,b,st,n,_,hp,hq,hca,hcb,hoa,hob,rfl,htk,hst2,hset,hc⟩
  · exact absurd rfl hne
  have hop : (s.streams (p,ncoh)).state.op ≠ .none := by
    rcases hc with ⟨hc,_⟩ | ⟨hc,_⟩
    · exact (commit_cases hc).1
    · exact (commit_cases hc).1
  obtain ⟨id,⟨a₀,ha₀,haux,hida,_⟩,⟨b₀,hb₀,hbux,hidb,_⟩⟩ := hm.parties htk hop
  rw [hst2] at hb₀
  rw [show s.pdevs p = some a₀ from ha₀] at hp
  rw [hb₀] at hq
  cases hp
  cases hq
  refine ⟨⟨htk,hop⟩,rfl,hst2,a,b,st,ha₀,hb₀,hoa,hob,haux,hbux,hida.trans hidb.symm,?_,?_⟩
  · rw [(settle_spec hset).2,Function.update_self]
  · exact hc.imp (·.1) (·.1)

theorem Inv.named (h : s.Inv size) (hk : (s.streams k).taken) (hn : s.Names k p) :
    k ∈ s.naming size p ∧ ∃ pd, s.pdevs p = some pd ∧ pd.rmiState ≠ .stopped := by
  refine ⟨h.mem_naming hk hn,?_⟩
  obtain ⟨pd,hp⟩ : ∃ pd, s.pdevs p = some pd := by
    obtain ⟨_,_,_,⟨a,ha,_⟩,⟨b,hb,_⟩⟩ := h.taken hk
    rcases hn with rfl | hn
    · exact ⟨a,ha⟩
    · exact ⟨b,hn ▸ hb⟩
  refine ⟨pd,hp,?_⟩
  rcases (h.shape hp).2.counted (h.count_pos hp hk hn) with hu | hu <;> rw [hu] <;> decide

theorem streams_consistent (h : (system size).ReachableUnder (fun s c => c.Undisturbed s) s) : s.Consistent size := by
  obtain ⟨hi,hm⟩ := matched_of_reachable h
  refine ⟨fun p pd hp he => hi.unique hm hp he,fun k hk => hi.takesPart hm hk,
    fun p q k t he hne => hi.commits hm he hne,fun p pd hp => hi.counts hp,
    fun k p hk hn => hi.named hk hn,?_⟩
  obtain ⟨t,⟨⟨cs,hcs,hr⟩,_,_⟩,hfree⟩ := leads_released _ hi hm le_rfl
  exact ⟨cs,t,hcs,hr,hfree⟩

theorem reachable_of_run {cs : List Cmd} {guard : Sys → Cmd → Prop} (hg : ∀ c ∈ cs, ∀ s, guard s c)
    (h : (system size).ReachableUnder guard s) (hr : s.run size cs = some t) : (system size).ReachableUnder guard t := by
  induction cs generalizing s with
  | nil =>
    cases hr
    exact h
  | cons c cs ih =>
    obtain ⟨w,hw,hr⟩ := Option.bind_eq_some_iff.mp hr
    refine ih (fun d hd => hg d (List.mem_cons_of_mem _ hd)) (h.next (hg c List.mem_cons_self s) hw) hr

def sampleExchange (e : AppExit) : Exchange := ⟨true,false,e,true,true,true,.none⟩

def endpointUp (p : Nat) : List Cmd :=
  [.pdevCreate p .endpoint,.pdevCommunicate p (sampleExchange .success),.pdevSetPubkey p true true,
    .pdevCommunicate p (sampleExchange .success)]

def rootPortUp (q : Nat) : List Cmd :=
  [.pdevCreate q .rootPort,.pdevCommunicate q (sampleExchange .success)]

def connecting (p q : Nat) : List Cmd :=
  [.streamConnect p q ncoh,.pdevCommunicate q (sampleExchange .success),
    .pdevCommunicate p (sampleExchange .yield),.pdevCommunicate p (sampleExchange .success),
    .pdevCommunicate q (sampleExchange .success)]

theorem streams_consistent_connecting :
    ∃ s, (system 2).ReachableUnder (fun s c => c.Undisturbed s) s ∧ s.Transitional (0,ncoh) ∧ s.Consistent 2 := by
  have hrun : ((Sys.empty.run 2 (endpointUp 0 ++ rootPortUp 1 ++ connecting 0 1)).map fun s =>
      decide (s.Transitional (0,ncoh))) = some true := by
    decide +kernel
  obtain ⟨s,hs,ht⟩ := Option.map_eq_some_iff.mp hrun
  have hr : (system 2).ReachableUnder (fun s c => c.Undisturbed s) s := by
    refine reachable_of_run ?_ (.initial rfl) hs
    simp [endpointUp,rootPortUp,connecting,Cmd.Undisturbed]
  exact ⟨s,hr,of_decide_eq_true ht,streams_consistent hr⟩

def overtaken : List Cmd :=
  endpointUp 0 ++ rootPortUp 1 ++ endpointUp 2 ++ connecting 0 1 ++
    [.pdevCommunicate 0 (sampleExchange .success),.streamComplete 0 1 (0,ncoh)] ++ connecting 2 1 ++
    [.streamDisconnect 0 1 (0,ncoh)]

theorem disconnect_overtakes : ∃ s, (system 3).Reachable s ∧ ¬s.Consistent 3 := by
  have hrun : ((Sys.empty.run 3 overtaken).map fun s =>
      (decide (s.Transitional (2,ncoh)),(s.streams (2,ncoh)).pd2,(s.pdevs 1).map fun pd => (pd.op,pd.streamAux))) =
      some (true,1,some (.disconnect,some 0)) := by
    decide +kernel
  obtain ⟨s,hs,ht⟩ := Option.map_eq_some_iff.mp hrun
  simp only [Prod.mk.injEq,decide_eq_true_eq] at ht
  obtain ⟨hk,hq,hp⟩ := ht
  refine ⟨s,reachable_of_run (fun _ _ _ => trivial) (.initial rfl) hs,fun hc => ?_⟩
  obtain ⟨id,_,⟨pd,hpd,haux,_⟩⟩ := hc.both _ hk
  rw [hq] at hpd
  rw [hpd] at hp
  simp only [Option.map_some,Option.some.injEq,Prod.mk.injEq] at hp
  rw [hp.2] at haux
  cases haux

end Sys

end TfRmm.Comm
