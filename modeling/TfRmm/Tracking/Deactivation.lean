import TfRmm.Tracking.IndexSpace
import TfRmm.Tracking.Region

namespace TfRmm.Tracking.IndexSpace

theorem Layout.Valid.top_aligned {l : Layout} {t : MemType} {b : Bank} (hv : l.Valid) (hb : b ∈ l.banks t) :
    (b.base+b.size) % 4096 = 0 := by
  have := hv.aligned t b hb
  omega

structure TrackingRegion where
  state : TrState
  pending : Bool
  coarse : Descriptor
  deriving DecidableEq

structure TrackingData where
  layout : Layout
  regions : Nat → TrackingRegion
  fine : MemType → Nat → Descriptor
  committed : MemType → Bool
  initialized : Bool
  published : Bool
  layoutLock : Bool

namespace TrackingData

variable (d : TrackingData)

def chunkTop (top addr : Nat) : Nat :=
  min top (addr / d.layout.size.bytes * d.layout.size.bytes + d.layout.size.bytes)

theorem lt_chunkTop {top addr : Nat} (h : addr < top) : addr < d.chunkTop top addr := by
  have hmod := Nat.mod_lt addr (bytes_pos d.layout.size)
  have hdiv := Nat.div_add_mod' addr d.layout.size.bytes
  unfold chunkTop
  omega

def chunkIsUndelegated (t : MemType) (r : TrackingRegion) (fineIdx granules : Nat) : Option Bool :=
  if r.pending then some false
  else match r.state with
    | .coarse => some (r.coarse.state == .ns)
    | .fine => some ((List.range granules).all fun i => (d.fine t (fineIdx+i)).state == .ns)
    | .none => some true
    | .reserved => none

def trackingBankIsUndelegated (b : Bank) (t : MemType) (addr : Nat) : Option Bool :=
  if _h : addr < b.base+b.size then
    match d.layout.findBank t addr,d.layout.regionIdx t addr,d.layout.granuleIdx t addr with
    | some found,some idx,some fineIdx =>
      if found = b then
        match d.chunkIsUndelegated t (d.regions idx) fineIdx ((d.chunkTop (b.base+b.size) addr - addr) / 4096) with
        | some true => trackingBankIsUndelegated b t (d.chunkTop (b.base+b.size) addr)
        | r => r
      else none
    | _,_,_ => none
  else some true
termination_by b.base+b.size-addr
decreasing_by
  have := d.lt_chunkTop _h
  omega

def banksAreUndelegated (t : MemType) : List Bank → Option Bool
  | [] => some true
  | b :: bs =>
    match d.trackingBankIsUndelegated b t b.base with
    | some true => banksAreUndelegated t bs
    | r => r

def clearCommitted : TrackingData :=
  { d with fine := fun t i => if d.committed t ∧ i < d.layout.numGranules t then ⟨.ns,0,false⟩ else d.fine t i }

def lockLayout (held : Bool) : TrackingData := { d with layoutLock := held }

def trackingRegionDeactivate : Option (Bool × TrackingData) :=
  if d.initialized then
    let d := d.lockLayout true
    match d.banksAreUndelegated .conv d.layout.conv with
    | some true =>
      match d.banksAreUndelegated .dev d.layout.dev with
      | some true =>
        some (true,{ d.clearCommitted with initialized := false, published := false, layoutLock := false })
      | some false => some (false,d.lockLayout false)
      | none => none
    | some false => some (false,d.lockLayout false)
    | none => none
  else none

def represented (t : MemType) (addr : Nat) : Option GranuleState := do
  let idx ← d.layout.regionIdx t addr
  match (d.regions idx).state with
  | .coarse => some (d.regions idx).coarse.state
  | .fine => (d.layout.fineAddrToIdx t addr).map fun i => (d.fine t i).state
  | _ => none

def Undelegated : Prop :=
  (∀ t addr s,addr % 4096 = 0 → d.represented t addr = some s → s = .ns) ∧
    ∀ i < d.layout.numRegions,(d.regions i).pending = false

structure Active : Prop where
  layout : d.layout.Valid
  initialized : d.initialized = true
  unlocked : d.layoutLock = false
  configured : ∀ i < d.layout.numRegions,(d.regions i).state ≠ .reserved

def Clear (t : MemType) (lo hi : Nat) : Prop :=
  (∀ a s,lo ≤ a → a < hi → a % 4096 = 0 → d.represented t a = some s → s = .ns) ∧
    ∀ a i,lo ≤ a → a < hi → d.layout.regionIdx t a = some i → (d.regions i).pending = false

variable {d : TrackingData} {t : MemType} {b : Bank} {addr top a idx : Nat}

theorem clear_empty (h : top ≤ addr) : d.Clear t addr top :=
  ⟨fun a s hlo hhi => by omega,fun a i hlo hhi => by omega⟩

theorem clear_split {mid : Nat} (hlo : addr ≤ mid) (hhi : mid ≤ top) :
    d.Clear t addr top ↔ d.Clear t addr mid ∧ d.Clear t mid top := by
  constructor
  · intro h
    exact ⟨⟨fun a s h1 h2 => h.1 a s h1 (by omega),fun a i h1 h2 => h.2 a i h1 (by omega)⟩,
      ⟨fun a s h1 => h.1 a s (by omega),fun a i h1 => h.2 a i (by omega)⟩⟩
  · rintro ⟨hl,hr⟩
    constructor
    · intro a s h1 h2
      rcases Nat.lt_or_ge a mid with h | h
      · exact hl.1 a s h1 h
      · exact hr.1 a s h h2
    · intro a i h1 h2
      rcases Nat.lt_or_ge a mid with h | h
      · exact hl.2 a i h1 h
      · exact hr.2 a i h h2

theorem chunkTop_le (d : TrackingData) (top addr : Nat) : d.chunkTop top addr ≤ top := min_le_left _ _

theorem chunkTop_aligned (h : top % 4096 = 0) : d.chunkTop top addr % 4096 = 0 := by
  have hg := bytes_granules d.layout.size
  have hregion : (addr / d.layout.size.bytes * d.layout.size.bytes + d.layout.size.bytes) % 4096 = 0 := by
    rw [← Nat.succ_mul,hg,← Nat.mul_assoc,Nat.mul_mod_left]
  unfold chunkTop
  rcases min_choice top (addr / d.layout.size.bytes * d.layout.size.bytes + d.layout.size.bytes) with hm | hm <;> rw [hm]
  · exact h
  · exact hregion

theorem div_of_chunk (hlo : addr ≤ a) (hhi : a < d.chunkTop top addr) :
    a / d.layout.size.bytes = addr / d.layout.size.bytes := by
  have hle := Nat.div_mul_le_self addr d.layout.size.bytes
  unfold chunkTop at hhi
  refine Nat.div_eq_of_lt_le (by omega) ?_
  rw [Nat.succ_mul]
  omega

theorem regionIdx_of_chunk (hv : d.layout.Valid) (hb : b ∈ d.layout.banks t) (ha : b.Has a)
    (hi : d.layout.regionIdx t addr = some idx) (hdiv : a / d.layout.size.bytes = addr / d.layout.size.bytes) :
    d.layout.regionIdx t a = some idx := by
  obtain ⟨j,hj⟩ := Option.isSome_iff_exists.mp ((Layout.regionIdx_isSome hv t a).mp ⟨b,hb,ha⟩)
  rw [hj,(Layout.regionIdx_eq hv hj).2,(Layout.regionIdx_eq hv hi).2,hdiv]

theorem slot_of_chunk (l : Layout) (t : MemType) (haddr : addr % 4096 = 0) (hlo : addr ≤ a)
    (hdiv : a / l.size.bytes = addr / l.size.bytes) : l.slot t a = l.slot t addr + (a-addr) / 4096 := by
  have hdvd : 4096 ∣ l.size.bytes := Nat.dvd_of_mod_eq_zero (by cases l.size <;> decide)
  have hmod : addr % l.size.bytes % 4096 = 0 := by rw [Nat.mod_mod_of_dvd _ hdvd,haddr]
  have ha := Nat.div_add_mod' a l.size.bytes
  have ha' := Nat.div_add_mod' addr l.size.bytes
  rw [hdiv] at ha
  unfold Layout.slot
  rw [hdiv]
  omega

theorem represented_eq (hv : d.layout.Valid) (hb : b ∈ d.layout.banks t) (ha : b.Has a) (halign : a % 4096 = 0)
    (hi : d.layout.regionIdx t a = some idx) : d.represented t a = match (d.regions idx).state with
      | .coarse => some (d.regions idx).coarse.state
      | .fine => some (d.fine t (d.layout.slot t a)).state
      | _ => none := by
  rw [represented,hi,(Layout.fineAddrToIdx_iff hv).mpr ⟨⟨b,hb,ha⟩,halign,rfl⟩]
  rfl

theorem chunkIsUndelegated_spec (hv : d.layout.Valid) (hb : b ∈ d.layout.banks t) (haddr : b.Has addr)
    (halign : addr % 4096 = 0) (hi : d.layout.regionIdx t addr = some idx) (hc : (d.regions idx).state ≠ .reserved) :
    ∃ x,d.chunkIsUndelegated t (d.regions idx) (d.layout.slot t addr)
      ((d.chunkTop (b.base+b.size) addr - addr) / 4096) = some x ∧
      (x = true ↔ d.Clear t addr (d.chunkTop (b.base+b.size) addr)) := by
  obtain ⟨hbase,htop⟩ := haddr
  have hlt := d.lt_chunkTop htop
  have hle := d.chunkTop_le (b.base+b.size) addr
  have hidx : ∀ a,addr ≤ a → a < d.chunkTop (b.base+b.size) addr → d.layout.regionIdx t a = some idx :=
    fun a h1 h2 => regionIdx_of_chunk hv hb ⟨by omega,by omega⟩ hi (div_of_chunk h1 h2)
  have hrep := fun a (h1 : addr ≤ a) (h2 : a < d.chunkTop (b.base+b.size) addr) (h3 : a % 4096 = 0) =>
    represented_eq hv hb ⟨by omega,by omega⟩ h3 (hidx a h1 h2)
  have hslot := fun a (h1 : addr ≤ a) (h2 : a < d.chunkTop (b.base+b.size) addr) =>
    slot_of_chunk d.layout t halign h1 (div_of_chunk h1 h2)
  unfold chunkIsUndelegated
  cases hp : (d.regions idx).pending with
  | true =>
    refine ⟨false,rfl,nofun,fun h => ?_⟩
    have := h.2 addr idx le_rfl hlt hi
    simp [hp] at this
  | false =>
  have hpending : ∀ a i,addr ≤ a → a < d.chunkTop (b.base+b.size) addr → d.layout.regionIdx t a = some i →
      (d.regions i).pending = false := by
    intro a i h1 h2 h
    obtain rfl := Option.some.inj ((hidx a h1 h2).symm.trans h)
    exact hp
  cases hs : (d.regions idx).state with
  | reserved => exact absurd hs hc
  | none =>
    refine ⟨true,rfl,fun _ => ⟨fun a s h1 h2 h3 h => ?_,hpending⟩,fun _ => rfl⟩
    rw [hrep a h1 h2 h3,hs] at h
    cases h
  | coarse =>
    refine ⟨_,rfl,fun hx => ⟨fun a s h1 h2 h3 h => ?_,hpending⟩,fun h => ?_⟩
    · rw [hrep a h1 h2 h3,hs] at h
      exact (Option.some.inj h).symm.trans (beq_iff_eq.mp hx)
    · exact beq_iff_eq.mpr (h.1 addr _ le_rfl hlt halign (by rw [hrep addr le_rfl hlt halign,hs]))
  | fine =>
    refine ⟨_,rfl,fun hx => ⟨fun a s h1 h2 h3 h => ?_,hpending⟩,fun h => ?_⟩
    · rw [hrep a h1 h2 h3,hs,hslot a h1 h2] at h
      have hmem : (a-addr) / 4096 ∈ List.range ((d.chunkTop (b.base+b.size) addr - addr) / 4096) := by
        have hend : d.chunkTop (b.base+b.size) addr % 4096 = 0 := chunkTop_aligned (hv.top_aligned hb)
        rw [List.mem_range]
        omega
      exact (Option.some.inj h).symm.trans (beq_iff_eq.mp (List.all_eq_true.mp hx _ hmem))
    · refine List.all_eq_true.mpr fun i hmem => beq_iff_eq.mpr ?_
      have hin := List.mem_range.mp hmem
      have h1 : addr ≤ addr+i*4096 := by omega
      have h2 : addr+i*4096 < d.chunkTop (b.base+b.size) addr := by omega
      refine h.1 (addr+i*4096) _ h1 h2 (by omega) ?_
      rw [hrep _ h1 h2 (by omega),hs,hslot _ h1 h2,show (addr+i*4096-addr) / 4096 = i by omega]

theorem trackingBankIsUndelegated_spec (hv : d.layout.Valid)
    (hc : ∀ i < d.layout.numRegions,(d.regions i).state ≠ .reserved) (hb : b ∈ d.layout.banks t) :
    ∀ addr,b.base ≤ addr → addr % 4096 = 0 →
      ∃ x,d.trackingBankIsUndelegated b t addr = some x ∧ (x = true ↔ d.Clear t addr (b.base+b.size)) := by
  intro addr
  induction hn : b.base+b.size-addr using Nat.strong_induction_on generalizing addr with
  | _ n ih =>
  intro hbase halign
  rw [trackingBankIsUndelegated]
  split
  case isFalse h => exact ⟨true,rfl,fun _ => clear_empty (by omega),fun _ => rfl⟩
  case isTrue h =>
  have hhas : b.Has addr := ⟨hbase,h⟩
  obtain ⟨idx,hidx⟩ := Option.isSome_iff_exists.mp ((Layout.regionIdx_isSome hv t addr).mp ⟨b,hb,hhas⟩)
  have hstate := hc idx ((Layout.exact_regions hv idx).mpr ⟨t,addr,hidx⟩)
  have hnext := d.lt_chunkTop h
  have hle := d.chunkTop_le (b.base+b.size) addr
  obtain ⟨x,hx,hclear⟩ := chunkIsUndelegated_spec hv hb hhas halign hidx hstate
  simp only [(Layout.findBank_iff hv).mpr ⟨hb,hhas⟩,hidx,Layout.granuleIdx_eq hv hb hhas,if_true,hx]
  rw [clear_split hnext.le hle]
  cases x with
  | false => exact ⟨false,rfl,nofun,fun h => hclear.mpr h.1⟩
  | true =>
    obtain ⟨y,hy,hrest⟩ := ih (b.base+b.size-d.chunkTop (b.base+b.size) addr) (by omega) _ rfl (by omega)
      (chunkTop_aligned (hv.top_aligned hb))
    exact ⟨y,hy,hrest.trans (and_iff_right (hclear.mp rfl)).symm⟩

theorem banksAreUndelegated_spec (hv : d.layout.Valid)
    (hc : ∀ i < d.layout.numRegions,(d.regions i).state ≠ .reserved) {bs : List Bank} (hbs : ∀ b ∈ bs,b ∈ d.layout.banks t) :
    ∃ x,d.banksAreUndelegated t bs = some x ∧ (x = true ↔ ∀ b ∈ bs,d.Clear t b.base (b.base+b.size)) := by
  induction bs with
  | nil => exact ⟨true,rfl,fun _ => nofun,fun _ => rfl⟩
  | cons b bs ih =>
    obtain ⟨hb,hrest⟩ := List.forall_mem_cons.mp hbs
    obtain ⟨x,hx,hclear⟩ := trackingBankIsUndelegated_spec hv hc hb b.base le_rfl (hv.aligned t b hb).1
    obtain ⟨y,hy,hall⟩ := ih hrest
    simp only [banksAreUndelegated,hx,List.forall_mem_cons]
    cases x with
    | false => exact ⟨false,rfl,nofun,fun h => hclear.mpr h.1⟩
    | true => exact ⟨y,hy,hall.trans (and_iff_right (hclear.mp rfl)).symm⟩

theorem undelegated_iff (hv : d.layout.Valid) : d.Undelegated ↔
    (∀ b ∈ d.layout.conv,d.Clear .conv b.base (b.base+b.size)) ∧ ∀ b ∈ d.layout.dev,d.Clear .dev b.base (b.base+b.size) := by
  have htypes : ((∀ b ∈ d.layout.conv,d.Clear .conv b.base (b.base+b.size)) ∧
      ∀ b ∈ d.layout.dev,d.Clear .dev b.base (b.base+b.size)) ↔
        ∀ t,∀ b ∈ d.layout.banks t,d.Clear t b.base (b.base+b.size) := by
    refine ⟨fun h t => ?_,fun h => ⟨h .conv,h .dev⟩⟩
    cases t with
    | conv => exact h.1
    | dev => exact h.2
  rw [htypes]
  constructor
  · intro h t b hb
    refine ⟨fun a s _ _ halign hs => h.1 t a s halign hs,fun a i _ _ hi => ?_⟩
    exact h.2 i ((Layout.exact_regions hv i).mpr ⟨t,a,hi⟩)
  · intro h
    constructor
    · intro t a s halign hs
      obtain ⟨i,hi,_⟩ := Option.bind_eq_some_iff.mp hs
      obtain ⟨b,hb,ha⟩ := (Layout.regionIdx_isSome hv t a).mpr (by rw [hi]; rfl)
      exact (h t b hb).1 a s ha.1 ha.2 halign hs
    · intro i hi
      obtain ⟨t,a,ha⟩ := (Layout.exact_regions hv i).mp hi
      obtain ⟨b,hb,hhas⟩ := (Layout.regionIdx_isSome hv t a).mpr (by rw [ha]; rfl)
      exact (h t b hb).2 a i hhas.1 hhas.2 ha

theorem lockLayout_released (h : d.layoutLock = false) : (d.lockLayout true).lockLayout false = d := by
  cases d
  cases h
  rfl

def withDevices (st : GranuleState) : TrackingData :=
  ⟨sharedRegion,fun _ => ⟨.fine,false,⟨.ns,0,false⟩⟩,fun t _ => ⟨if t = .dev then st else .ns,0,false⟩,
    fun _ => true,true,true,false⟩

theorem withDevices_active (st : GranuleState) : (withDevices st).Active :=
  ⟨sharedRegion_valid,rfl,rfl,fun _ _ => nofun⟩

theorem withDevices_represented {st s : GranuleState} (h : (withDevices st).represented t a = some s) :
    s = if t = .dev then st else .ns := by
  obtain ⟨i,_,h⟩ := Option.bind_eq_some_iff.mp h
  obtain ⟨j,_,h⟩ := Option.map_eq_some_iff.mp h
  exact h.symm

theorem withDevices_page (st : GranuleState) : (withDevices st).represented .dev 0x2000 = some st := by
  have hb : (⟨0x2000,0x1000⟩ : Bank) ∈ (withDevices st).layout.banks .dev := List.mem_singleton_self _
  have hhas : (⟨0x2000,0x1000⟩ : Bank).Has 0x2000 := ⟨by decide,by decide⟩
  obtain ⟨i,hi⟩ := Option.isSome_iff_exists.mp ((Layout.regionIdx_isSome sharedRegion_valid .dev 0x2000).mp ⟨_,hb,hhas⟩)
  rw [represented_eq sharedRegion_valid hb hhas (by decide) hi]
  rfl

end TrackingData

end TfRmm.Tracking.IndexSpace
