import TfRmm.Lib.Field
import TfRmm.Sro.AuxLoops
import TfRmm.Tracking.IndexSpace

namespace TfRmm.Sro.Framework

open TfRmm.Lib TfRmm.Sro.AuxGranules TfRmm.Tracking.IndexSpace

def blockBytes (level : Nat) : Nat := 4096*blockPages level

def Encodes (size level : Nat) : Prop := size % blockBytes level = 0 ∧ size / blockBytes level ≤ 2 ^ 14-1

instance (size : Nat) : DecidablePred (Encodes size) := fun _ => inferInstanceAs (Decidable (_ ∧ _))

def rmiOpDonateReqEncode (size contig state : Nat) : Option Nat :=
  ([0,1,2,3].find? fun level => Encodes size level).map fun level =>
    (3-level) <<< 0 ||| (size / blockBytes level) <<< 2 ||| contig <<< 16 ||| state <<< 17

def ReqState.code : ReqState → Nat
  | .delegated => 0
  | .undelegated => 1
  | .conditional => 2

def DonateReq.encode (r : DonateReq) : Option Nat := rmiOpDonateReqEncode (r.pages*4096) r.contig.toNat r.state.code

def opDonateTransferSize (w : Nat) : Nat := blockBytes (3-field 0 2 w)*field 2 14 w

inductive Operation where
  | aux (granules : Fin (maxSroAuxGranules+1))
  | tracking (size : RegionSize) (conv dev : Bool)
  | smmu (log2bytes : Fin 30)

def metadataPages (s : RegionSize) (t : MemType) : Nat := fineStride s t*t.entrySize / 4096

def Operation.Owes (pending : Nat) : Operation → Prop
  | .aux granules => pending ≤ granules
  | .tracking s conv dev => pending ≤ conv.toNat*metadataPages s .conv+dev.toNat*metadataPages s .dev
  | .smmu log2bytes => pending = roundUp (2 ^ log2bytes.val) 4096 / 4096

structure Decodes (r : DonateReq) (w : Nat) : Prop where
  size : opDonateTransferSize w = r.pages*4096
  contig : field 16 1 w = r.contig.toNat
  state : field 17 2 w = r.state.code

structure Bounded (pages : Nat) (l : List HostDesc) : Prop where
  remaining : ∀ pre b post, blocks l = pre ++ b :: post →
    blockPages b.2.1 ≤ pages-(pre.map fun b => blockPages b.2.1).sum
  single : pages ≤ maxSroAuxGranules → ∀ b ∈ blocks l, b.2.1 = 3

variable {sz count contig state n : Nat} {r : DonateReq} {o : Operation}

theorem inplace_fields (hz : sz < 2 ^ 2) (hc : count < 2 ^ 14) (hg : contig < 2 ^ 1) (hs : state < 2 ^ 2) :
    let w := sz <<< 0 ||| count <<< 2 ||| contig <<< 16 ||| state <<< 17
    field 0 2 w = sz ∧ field 2 14 w = count ∧ field 16 1 w = contig ∧ field 17 2 w = state := by
  simp only [field_or]
  refine ⟨?_,?_,?_,?_⟩
  · rw [field_self hz,field_above (by decide),field_above (by decide),field_above (by decide)]
    simp
  · rw [field_below hz (by decide),field_self hc,field_above (by decide),field_above (by decide)]
    simp
  · rw [field_below hz (by decide),field_below hc (by decide),field_self hg,field_above (by decide)]
    simp
  · rw [field_below hz (by decide),field_below hc (by decide),field_below hg (by decide),field_self hs]
    simp

theorem Operation.Owes.encodes (h : o.Owes n) : ∃ level ∈ [0,1,2,3], Encodes (n*4096) level := by
  have hpage : n ≤ 192 → ∃ level ∈ [0,1,2,3], Encodes (n*4096) level := fun hn => by
    refine ⟨3,by decide,?_⟩
    simp only [Encodes,blockBytes,blockPages]
    omega
  cases o with
  | aux granules => exact hpage (le_trans h (granules.is_le.trans (by decide)))
  | tracking s conv dev => exact hpage (le_trans h (by cases s <;> cases conv <;> cases dev <;> decide))
  | smmu k =>
    obtain rfl : n = roundUp (2 ^ k.val) 4096 / 4096 := h
    clear hpage
    decide +revert

theorem encode_decodes (h : o.Owes r.pages) : ∃ w, r.encode = some w ∧ Decodes r w := by
  obtain ⟨level,hf⟩ : ∃ level, [0,1,2,3].find? (fun level => Encodes (r.pages*4096) level) = some level := by
    obtain ⟨level,hmem,he⟩ := h.encodes
    exact Option.isSome_iff_exists.1 (List.find?_isSome.2 ⟨level,hmem,decide_eq_true he⟩)
  obtain ⟨hmod,hcount⟩ : Encodes (r.pages*4096) level := by simpa using List.find?_some hf
  have hlevel : level ≤ 3 := (show ∀ level ∈ [0,1,2,3], level ≤ 3 by decide) level (List.mem_of_find?_eq_some hf)
  refine ⟨_,by rw [DonateReq.encode,rmiOpDonateReqEncode,hf]; rfl,?_⟩
  obtain ⟨h1,h2,h3,h4⟩ := @inplace_fields (3-level) (r.pages*4096 / blockBytes level) r.contig.toNat r.state.code
    (by omega) (by omega) (by cases r.contig <;> decide) (by cases r.state <;> decide)
  refine ⟨?_,h3,h4⟩
  rw [opDonateTransferSize,h1,h2,show 3-(3-level) = level by omega]
  exact Nat.mul_div_cancel' (Nat.dvd_of_mod_eq_zero hmod)

theorem donation_request_exact (h : o.Owes r.pages) : ∃ w, r.encode = some w ∧ Decodes r w ∧
    ∀ l total, addrListValidate l r.contig r.state = some total → total*4096 ≤ opDonateTransferSize w → Bounded r.pages l := by
  obtain ⟨w,he,hd⟩ := encode_decodes h
  refine ⟨w,he,hd,fun l total hv hle => ?_⟩
  rw [hd.size] at hle
  have hle := Nat.le_of_mul_le_mul_right hle (by decide)
  refine ⟨fun pre b post hl => ?_,fun hp b => block_single hv (hle.trans hp)⟩
  have := block_le hv hl
  omega

theorem donation_request_exact_aux : (Operation.aux 6).Owes 5 ∧
    ∃ w, DonateReq.encode ⟨5,false,.delegated⟩ = some w ∧ Decodes ⟨5,false,.delegated⟩ w ∧
      addrListValidate [⟨8,0,2,some .delegated⟩,⟨16,0,3,some .delegated⟩] false .delegated = some 5 ∧
      Bounded 5 [⟨8,0,2,some .delegated⟩,⟨16,0,3,some .delegated⟩] := by
  have h : (Operation.aux 6).Owes 5 := show 5 ≤ 6 by decide
  obtain ⟨w,he,hd,hb⟩ := @donation_request_exact ⟨5,false,.delegated⟩ _ h
  exact ⟨h,w,he,hd,rfl,hb _ 5 rfl hd.size.ge⟩

end TfRmm.Sro.Framework
