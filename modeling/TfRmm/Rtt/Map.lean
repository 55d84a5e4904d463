import TfRmm.Rtt.Structure

namespace TfRmm.Rtt

open TfRmm.S2tt

structure RipasRequest where
  ripas : Ripas
  changeDestroyed : Bool
  addr : Nat
  top : Nat
  deriving DecidableEq

variable (indirect : Bool) (req : RipasRequest) (level : Int)

def updateRipas (req : RipasRequest) (e : S2tte) : Option S2tte :=
  if !e.hasRipas then none
  else if e.drainPending then none
  else match req.ripas, e with
    | .ram, .unassigned .empty ap _ => some (.createUnassigned indirect .ram ap)
    | .ram, .unassigned .destroyed ap _ =>
      if req.changeDestroyed then some (.createUnassigned indirect .ram ap) else none
    | .ram, .assigned .empty pa ap => some (.createAssigned indirect .ram (roundDown pa (mapSize level)) ap)
    | .ram, .assigned .destroyed pa ap =>
      if req.changeDestroyed then
        some (.createAssigned indirect .ram (roundDown pa (mapSize level)) ap)
      else none
    | .ram, .assignedDev _ _ _ _ => none
    | .empty, .unassigned .ram ap _ => some (.createUnassigned indirect .empty ap)
    | .empty, .unassigned .destroyed ap _ => some (.createUnassigned indirect .empty ap)
    | .empty, .assigned .ram pa ap => some (.createAssigned indirect .empty (roundDown pa (mapSize level)) ap)
    | .empty, .assigned .destroyed pa ap => some (.createAssigned indirect .empty (roundDown pa (mapSize level)) ap)
    | .empty, .assignedDev .dev pa _ ap =>
      some (.createAssignedDev indirect .empty (roundDown pa (mapSize level)) 0 ap)
    | .empty, .assignedDev .destroyed pa _ ap =>
      some (.createAssignedDev indirect .empty (roundDown pa (mapSize level)) 0 ap)
    | _, _ => some e

def ripasNeedsTlbi : S2tte → Bool
  | .assigned r _ _ => req.ripas == .empty && (r == .ram || r == .destroyed)
  | .assignedDev r _ _ _ => req.ripas == .empty && (r == .dev || r == .destroyed)
  | _ => false

def RipasRequest.advance (res : Result) : RipasRequest :=
  if res.status = .success then { req with addr := res.x1 } else req

namespace Rmm

variable (cfg : Config) (s : Rmm) (rd : Rd) (rdAddr recAddr base top : Nat) (addr : Nat) (owner : Nat)

def notAuxMappings (addr size : Nat) : Nat → Nat → Nat
  | 0, off => off
  | n+1, off =>
    if size ≤ off then off
    else match s.findActive cfg .data (addr+off) .data with
      | .ok u => if 0 < (s.granule u.base).refcount then off else notAuxMappings addr size n (off+u.size)
      | .error _ => off

def invalidate (agent : Agent) (vmids : List Nat) (ipa : Nat) : Rmm :=
  { s with cached := fun c => s.cached c ∧ ¬ (c.agent = agent ∧ c.vmid ∈ vmids ∧ c.ipa = ipa) }

def tlbiVmids : List Nat :=
  if !rd.addrInPar addr || rd.indirectS2ap then rd.planeVmids else [rd.vmid 0]

def invalidatePageBlock : Rmm :=
  let s₁ := s.invalidate .cpu (tlbiVmids rd addr) addr
  if rd.daEnabled then s₁.invalidate .smmu (tlbiVmids rd addr) addr else s₁

def writeRipas (req : RipasRequest) (t i addr : Nat) (e : S2tte) : Rmm :=
  if ripasNeedsTlbi req (s.entry t i) then (s.setEntry t i e).invalidatePageBlock rd addr
  else s.setEntry t i e

def auxMapped (level : Int) (req : RipasRequest) (e : S2tte) : Option Nat :=
  let off := s.notAuxMappings cfg (e.pa level) (mapSize level) (mapSize level / granuleSize) 0
  if rd.rttTreePp && req.ripas == .empty && e.isAssignedRam && off < mapSize level then some off else none

def setRipasRange (rd : Rd) (t : Nat) (level : Int) (req : RipasRequest) (top : Nat) :
    Nat → Nat → Nat → Rmm → Rmm × Nat × Option Nat
  | 0, _, addr, s => (s,addr,none)
  | n+1, i, addr, s =>
    let e := s.entry t i
    if top < addr + mapSize level then
      (s,if e.hasRipas && e.getRipas == req.ripas then top else addr,none)
    else match s.auxMapped cfg rd level req e with
      | some off => (s,addr,some (addr+off))
      | none =>
        match updateRipas rd.indirectS2ap level req e with
        | some e' => setRipasRange rd t level req top n (i+1) (addr + mapSize level)
            (s.writeRipas rd req t i addr e')
        | none => (s,addr,none)

def setRipasWalk (running : Bool) (req : RipasRequest) : Except Result Walk :=
  let ret := s.findGranule cfg rdAddr .rd
  let retRec := s.findGranule cfg recAddr .recObject
  let rd := s.rd rdAddr
  let wi := s.walk rd 0 base pageLevel
  let e := s.walkEntry wi
  if top ≤ base ∨ top % granuleSize ≠ 0 then .error Status.errorInput.result
  else if ret ≠ .success then .error ret.result
  else if retRec ≠ .success then .error retRec.result
  else if running ∨ owner ≠ rdAddr then .error Status.errorRec.result
  else if base ≠ req.addr ∨ req.top < top then .error Status.errorInput.result
  else if !rd.validateMapAddr base pageLevel then .error Status.errorInput.result
  else if !rd.validateMapAddr base wi.lastLevel then
    if e.hasRipas && e.getRipas == req.ripas then
      .error { status := .success,
               x1 := min top (roundDown base (mapSize wi.lastLevel) + mapSize wi.lastLevel) }
    else .error (Status.errorRtt wi.lastLevel).result
  else .ok wi

def rttSetRipas (running : Bool) (req : RipasRequest) : Rmm × Result :=
  match s.setRipasWalk cfg rdAddr recAddr base top owner running req with
  | .error res => (s,res)
  | .ok wi =>
    match setRipasRange cfg (s.rd rdAddr) wi.llt wi.lastLevel req top (s2ttesPerS2tt-wi.index) wi.index base s with
    | (s',_,some off) => (s',{ status := .errorRttAux 0,x1 := off })
    | (s',addr,none) =>
      if base < addr then (s',{ status := .success,x1 := addr })
      else (s',(Status.errorRtt wi.lastLevel).result)

end Rmm

abbrev Irqs := List Bool

def Irqs.sample : Irqs → Bool × Irqs
  | [] => (false,[])
  | b :: irqs => (b,irqs)

structure Block where
  pa : Nat
  level : Int
  delegated : Bool
  deriving DecidableEq

structure RangeDesc where
  base : Nat
  level : Int
  count : Nat
  delegated : Bool
  deriving DecidableEq

def RangeDesc.blocks (d : RangeDesc) : List Block :=
  (List.range d.count).map fun i => ⟨(d.base + i * mapSize d.level) % 2 ^ 52,d.level,d.delegated⟩

inductive Drain where
  | mapped
  | yielded
  | failed (st : Status)
  deriving DecidableEq

inductive Prepared where
  | ready
  | stamp
  | refuse (st : Status)
  deriving DecidableEq

inductive Popped where
  | block (pa : Nat) (rest : List Block)
  | irq
  | stop (st : Status)
  deriving DecidableEq

def mapPopNextBlock (rd : Rd) (delegated : Bool) (level : Int) (outTop top : Nat) (irq : Bool) : List Block → Popped
  | [] => if irq then .irq else .stop .errorInput
  | b :: rest =>
    if irq then .irq
    else if b.delegated ≠ delegated then .stop .errorInput
    else if b.level ≠ level then .stop (.errorRtt level)
    else if top < outTop + mapSize level then .stop (.errorRtt level)
    else if b.pa % mapSize level ≠ 0 then .stop .errorInput
    else if rd.s2oaLimit < b.pa + mapSize level then .stop .errorInput
    else .block b.pa rest

def validateMapInputs (rd : Rd) (delegated mustBeInPar : Bool) (base top : Nat)
    (descs : Option (List RangeDesc)) : Except Status (Int × List Block) :=
  if rd.state ≠ .new ∧ rd.state ≠ .active then .error .errorRealm
  else if top ≤ base then .error .errorInput
  else match descs with
    | none => .error .errorInput
    | some [] => .error .errorInput
    | some (d :: ds) =>
      if d.delegated ≠ delegated ∨ top < granuleSize then .error .errorInput
      else if !(minBlockLevel ≤ d.level && d.level ≤ pageLevel && rd.validateMapAddr base d.level &&
          rd.validateMapAddr (top-granuleSize) pageLevel) then .error .errorInput
      else if (rd.addrInPar base && rd.addrInPar (top-granuleSize)) ≠ mustBeInPar then
        .error .errorInput
      else if top-base < mapSize d.level then .error (.errorRtt d.level)
      else .ok (d.level,(d :: ds).flatMap RangeDesc.blocks)

def mapPartialProgress (st : Status) (outTop base : Nat) : Result :=
  if base < outTop then { status := .success,x1 := outTop }
  else if st = .success then { status := .success,x1 := outTop }
  else st.result

namespace Rmm

variable (cfg : Config) (s : Rmm) (h : Nat) (e : S2tte) (indirect : Bool)

def putMap (c : MapCtx) : Rmm := s.setSro h ⟨.reserved,.map c⟩

def write (q page : Nat) : Rmm := { s with content := Function.update s.content q page }

def zeroPage (q : Nat) : Rmm := s.write q 0

def dataMapOneEntry (pa : Nat) (level : Int) : Prepared :=
  match e with
  | .assigned _ _ _ =>
    if e.pa level ≠ pa then .refuse (.errorRtt level)
    else match s.findActive cfg .data pa .data with
      | .error st => .refuse st
      | .ok u => if mapSize level < u.size ∨ pa % u.size ≠ 0 then .refuse (.errorTracking pa) else .ready
  | _ =>
    if !e.isUnassigned then .refuse (.errorRtt level)
    else if e.drainPending then .refuse .busy
    else .stamp

def devMapOneEntry (level : Int) : Prepared :=
  if !(e.isUnassignedEmpty || e.isUnassignedDestroyed) then .refuse (.errorRtt level)
  else if e.drainPending then .refuse .busy
  else .stamp

def mapOneEntry (mem : Mem) (e : S2tte) (pa : Nat) (level : Int) : Prepared :=
  match mem with
  | .data => s.dataMapOneEntry cfg e pa level
  | .dev => devMapOneEntry e level

def stampMap (c : MapCtx) : Rmm :=
  ((s.setEntry c.llt c.index ((s.entry c.llt c.index).setDrainPending h)).getRef c.llt 1).putMap h c

def mapAbort (c : MapCtx) : Rmm :=
  ((s.setEntry c.llt c.index (s.entry c.llt c.index).clearDrainPending).putRef c.llt 1).setSro h
    ⟨.reserved,.idle⟩

def assignedForm (mem : Mem) (e : S2tte) (pa : Nat) : S2tte :=
  match mem with
  | .data => .createAssignedUnchanged indirect e.clearDrainPending pa
  | .dev => .createAssignedDevUnchanged indirect e.clearDrainPending pa

def mapFinish (h : Nat) (c : MapCtx) : Rmm :=
  (s.setEntry c.llt c.index (assignedForm indirect c.mem (s.entry c.llt c.index) c.pa)).setSro h
    ⟨.reserved,.idle⟩

def mapRollbackPending (h : Nat) : Nat → Irqs → MapCtx → Rmm → Rmm × Irqs × Drain
  | 0, irqs, c, s => (s.mapAbort h c,irqs,.failed c.retErr)
  | n+1, irqs, c, s =>
    if c.pendingOff = 0 then (s.mapAbort h c,irqs,.failed c.retErr)
    else if irqs.sample.1 then (s,irqs.sample.2,.yielded)
    else
      let c' := { c with pendingOff := c.pendingOff-granuleSize }
      mapRollbackPending h n irqs.sample.2 c'
        ((s.setState (c.pa + c.pendingOff - granuleSize) .delegated).putMap h c')

def mapRollback (irqs : Irqs) (c : MapCtx) (st : Status) : Rmm × Irqs × Drain :=
  let c' := { c with rollback := true,retErr := st }
  mapRollbackPending h (c.pendingOff / granuleSize) irqs c' (s.putMap h c')

def mapZeroCoarse (h : Nat) : Nat → Irqs → MapCtx → Rmm → Rmm × Irqs × MapCtx × Bool
  | 0, irqs, c, s => (s,irqs,c,true)
  | n+1, irqs, c, s =>
    let c' := { c with pendingOff := c.pendingOff+granuleSize }
    let s' := (s.zeroPage (c.pa+c.pendingOff)).putMap h c'
    if n = 0 then (s',irqs,c',true)
    else if irqs.sample.1 then (s',irqs.sample.2,c',false)
    else mapZeroCoarse h n irqs.sample.2 c' s'

def publishCoarse (c : MapCtx) : Rmm :=
  (s.setRange c.pa (mapSize c.level) .data).putMap h { c with coarse := false }

def mapDrainPending (indirect : Bool) (h : Nat) : Nat → Irqs → MapCtx → Rmm → Rmm × Irqs × Drain
  | 0, irqs, c, s => (s.mapFinish indirect h c,irqs,.mapped)
  | n+1, irqs, c, s =>
    let size := mapSize c.level
    let addr := c.pa+c.pendingOff
    if size ≤ c.pendingOff then (s.mapFinish indirect h c,irqs,.mapped)
    else if c.coarse then
      match mapZeroCoarse h ((size-c.pendingOff) / granuleSize) irqs c s with
      | (s',irqs',_,false) => (s',irqs',.yielded)
      | (s',irqs',c',true) => ((s'.publishCoarse h c').mapFinish indirect h { c' with coarse := false },irqs',.mapped)
    else if irqs.sample.1 && c.pendingOff != 0 then (s,irqs.sample.2,.yielded)
    else match s.findActive cfg c.mem addr .delegated with
      | .error st => s.mapRollback h irqs.sample.2 c st
      | .ok u =>
        if size-c.pendingOff < u.size ∨ addr % u.size ≠ 0 then
          s.mapRollback h irqs.sample.2 c (.errorTracking addr)
        else if c.mem = .dev ∧ c.pendingOff ≠ 0 ∧ cfg.bank addr ≠ c.cohType then
          s.mapRollback h irqs.sample.2 c .errorInput
        else if c.mem = .data ∧ u.size ≠ granuleSize then
          let c' := { c with coarse := true }
          mapDrainPending indirect h n irqs.sample.2 c'
            ((s.setRange u.base u.size .partialUnit).putMap h c')
        else
          let c' := { c with
            pendingOff := c.pendingOff+u.size
            cohType := if c.pendingOff = 0 then cfg.bank addr else c.cohType }
          let s' := if c.mem = .data then s.zeroPage addr else s
          mapDrainPending indirect h n irqs.sample.2 c'
            ((s'.setRange addr u.size c.mem.mappedState).putMap h c')

def mapResume (h : Nat) (irqs : Irqs) (c : MapCtx) : Rmm × Irqs × Drain :=
  if c.rollback then mapRollbackPending h (c.pendingOff / granuleSize) irqs c s
  else mapDrainPending cfg indirect h (mapSize c.level / granuleSize + 1) irqs c s

end Rmm

structure MapRange where
  mem : Mem
  rdAddr : Nat
  llt : Nat
  level : Int
  base : Nat
  top : Nat
  allowed : Nat → Bool

def MapRange.ctx (g : MapRange) (pa ipa index : Nat) : MapCtx where
  mem := g.mem
  llt := g.llt
  coarse := false
  rd := g.rdAddr
  pa := pa
  ipa := ipa
  initBase := g.base
  pendingOff := 0
  retErr := .success
  index := index
  level := g.level
  cohType := none
  rollback := false

structure MapCommand where
  mem : Mem
  rdAddr : Nat
  base : Nat
  top : Nat
  vdev : Status
  owned : Bool
  allowed : Nat → Bool
  descs : Option (List RangeDesc)
  irqs : Irqs

namespace Rmm

variable (cfg : Config) (s : Rmm)

def mapRange (rd : Rd) (g : MapRange) (h : Nat) : Nat → Nat → Nat → List Block → Irqs → Rmm → Rmm × Nat × Drain
  | 0, _, outTop, _, _, s => (s,outTop,.mapped)
  | n+1, i, outTop, blocks, irqs, s =>
    match mapPopNextBlock rd true g.level outTop g.top irqs.sample.1 blocks with
    | .irq => (s,outTop,.mapped)
    | .stop st => (s,outTop,.failed st)
    | .block pa rest =>
      if cfg.regionSize < mapSize g.level then (s,outTop,.failed (.errorTracking pa))
      else if !g.allowed pa then (s,outTop,.failed .errorInput)
      else match s.mapOneEntry cfg g.mem (s.entry g.llt i) pa g.level with
        | .refuse st => (s,outTop,.failed st)
        | .ready => mapRange rd g h n (i+1) (outTop + mapSize g.level) rest irqs.sample.2 s
        | .stamp =>
          let c := g.ctx pa outTop i
          match (s.stampMap h c).mapResume cfg rd.indirectS2ap h irqs.sample.2 c with
          | (s',_,.failed st) => (s',outTop,.failed st)
          | (s',_,.yielded) => (s',outTop,.yielded)
          | (s',irqs',.mapped) => mapRange rd g h n (i+1) (outTop + mapSize g.level) rest irqs' s'

def mapEnd (h base : Nat) : Rmm × Nat × Drain → Rmm × Result
  | (s,_,.yielded) => (s.sroSeal h,{ status := .incomplete,x1 := h })
  | (s,outTop,.mapped) => (s.sroRelease h,mapPartialProgress .success outTop base)
  | (s,outTop,.failed st) => (s.sroRelease h,mapPartialProgress st outTop base)

def mapEntry (m : MapCommand) : Except Status (Nat × MapRange × Nat × List Block) :=
  match s.sroReserve cfg with
  | .error st => .error st
  | .ok h =>
    let ret := s.findGranule cfg m.rdAddr .rd
    let rd := s.rd m.rdAddr
    if ret ≠ .success then .error ret
    else if m.vdev ≠ .success then .error m.vdev
    else match validateMapInputs rd true true m.base m.top m.descs with
      | .error st => .error st
      | .ok (level,bs) =>
        let wi := s.walk rd 0 m.base level
        if !m.owned then .error .errorInput
        else if wi.lastLevel ≠ level then .error (.errorRtt wi.lastLevel)
        else .ok (h,⟨m.mem,m.rdAddr,wi.llt,level,m.base,m.top,m.allowed⟩,wi.index,bs)

def rttMap (m : MapCommand) : Rmm × Result :=
  match s.mapEntry cfg m with
  | .error st => (s,st.result)
  | .ok (h,g,i,bs) =>
    mapEnd h m.base (mapRange cfg (s.rd m.rdAddr) g h (s2ttesPerS2tt-i) i m.base bs m.irqs (s.setSro h ⟨.reserved,.idle⟩))

def dataMapCommand (rdAddr base top : Nat) (descs : Option (List RangeDesc)) (irqs : Irqs) : MapCommand :=
  ⟨.data,rdAddr,base,top,.success,true,fun _ => true,descs,irqs⟩

def blockInVdevRange (ranges : List (Nat × Nat)) (size pa : Nat) : Bool :=
  ranges.any fun r => r.1 ≤ pa && pa+size ≤ r.2

def devMapCommand (rdAddr vdevAddr base top : Nat) (descs : Option (List RangeDesc)) (irqs : Irqs) : MapCommand :=
  let vdev := s.vdev vdevAddr
  let size := match descs with
    | some (d :: _) => mapSize d.level
    | _ => 0
  ⟨.dev,rdAddr,base,top,s.findGranule cfg vdevAddr .vdev,vdev.realm == rdAddr,blockInVdevRange vdev.ranges size,descs,irqs⟩

def mapContinue (h : Nat) (c : MapCtx) (irqs : Irqs) : Option (Rmm × Result) :=
  if (s.granule c.rd).state ≠ .rd ∨ (s.granule c.llt).state ≠ .rtt then none
  else
    match s.mapResume cfg (s.rd c.rd).indirectS2ap h irqs c with
    | (s',_,.failed st) => some (s'.sroRelease h,mapPartialProgress st c.ipa c.initBase)
    | (s',_,.yielded) => some (s'.sroSeal h,Status.incomplete.result)
    | (s',_,.mapped) => some (s'.sroRelease h,{ status := .success,x1 := c.ipa + mapSize c.level })

end Rmm

section Validation

variable {rd : Rd} {delegated inPar : Bool} {base top size : Nat} {descs : Option (List RangeDesc)} {level : Int}
  {bs : List Block}

theorem granuleSize_dvd_two_pow {n : Nat} (h : 12 ≤ n) : granuleSize ∣ 2 ^ n := Nat.pow_dvd_pow 2 h

theorem granuleSize_dvd_parSize (g : Geometry) : granuleSize ∣ g.parSize := by
  have := g.valid.bits_ge
  unfold Geometry.parSize Geometry.ipaSize
  rw [show g.ipaBits = g.ipaBits - 1 + 1 by omega,pow_succ,Nat.mul_div_cancel _ (by decide)]
  exact granuleSize_dvd_two_pow (by omega)

theorem le_of_last_granule_lt (hg : granuleSize ∣ size) (hal : (top-granuleSize) % granuleSize = 0)
    (hlt : top-granuleSize < size) : top ≤ size := by
  obtain ⟨q,rfl⟩ := hg
  unfold granuleSize at *
  omega

structure Validated (rd : Rd) (inPar : Bool) (base top : Nat) (descs : Option (List RangeDesc)) (level : Int) : Prop where
  desc : ∃ d ds, descs = some (d :: ds) ∧ level = d.level
  nonempty : base < top
  first : rd.validateMapAddr base level = true
  last : rd.validateMapAddr (top-granuleSize) pageLevel = true
  par : (rd.addrInPar base && rd.addrInPar (top-granuleSize)) = inPar
  block : mapSize level ≤ top-base

theorem validated_of_ok (h : validateMapInputs rd delegated inPar base top descs = .ok (level,bs)) :
    Validated rd inPar base top descs level := by
  unfold validateMapInputs at h
  split at h
  · cases h
  split at h
  · cases h
  rename_i hne
  split at h
  · cases h
  · cases h
  rename_i d ds
  split at h
  · cases h
  split at h
  · cases h
  rename_i hv
  split at h
  · cases h
  rename_i hpar
  split at h
  · cases h
  rename_i hblock
  cases h
  simp only [Bool.not_eq_true',Bool.not_eq_false,Bool.and_eq_true] at hv
  exact ⟨⟨d,ds,rfl,rfl⟩,Nat.not_le.1 hne,hv.1.2,hv.2,not_not.1 hpar,Nat.not_lt.1 hblock⟩

theorem map_inputs_in_one_half (h : validateMapInputs rd delegated inPar base top descs = .ok (level,bs)) :
    ((∀ ipa, base ≤ ipa → ipa < top → rd.addrInPar ipa = inPar ∧ ipa < rd.geo.ipaSize) ↔
      (inPar = false → rd.addrInPar base = false)) ∧
    ∃ d ds, descs = some (d :: ds) ∧ level = d.level ∧ base % mapSize d.level = 0 ∧ mapSize d.level ≤ top-base := by
  have hbits := rd.geo.valid.bits_ge
  obtain ⟨⟨d,ds,rfl,rfl⟩,hne,hv,hlast,hpar,hblock⟩ := validated_of_ok h
  simp only [Rd.validateMapAddr,isAddrLvlAligned,Bool.and_eq_true,decide_eq_true_eq,beq_iff_eq] at hv hlast
  have hend : ∀ {size}, granuleSize ∣ size → top-granuleSize < size → top ≤ size := fun hg =>
    le_of_last_granule_lt hg hlast.2.2
  refine ⟨⟨fun hall hout => hout ▸ (hall base le_rfl hne).1,fun hbase ipa hlo hhi => ⟨?_,?_⟩⟩,
    d,ds,rfl,rfl,hv.2.2,hblock⟩
  · simp only [Rd.addrInPar] at hpar hbase ⊢
    cases inPar with
    | true =>
      simp only [Bool.and_eq_true,decide_eq_true_eq] at hpar ⊢
      exact hhi.trans_le (hend (granuleSize_dvd_parSize _) hpar.2)
    | false =>
      have := hbase rfl
      simp only [decide_eq_false_iff_not] at this ⊢
      omega
  · exact hhi.trans_le (hend (granuleSize_dvd_two_pow (by omega)) hlast.1)

def plainRd : Rd where
  state := .active
  geo := ⟨40,1,Geometry.valid_three_levels⟩
  rttTreePp := false
  numAuxPlanes := 0
  indirectS2ap := false
  daEnabled := false
  oaBits := 48
  s2oaLimit := 2 ^ 48
  root := fun _ => 0x1000
  vmid := fun _ => 1
  protectedAp := fun _ => ⟨3,0⟩
  numVdevs := 0
  rim := 0

theorem map_inputs_in_one_half_page : plainRd.addrInPar 0x1800 = true ∧ 0x1800 < plainRd.geo.ipaSize := by
  have h : validateMapInputs plainRd true true 0x1000 0x2000 (some [⟨0x5000,3,1,true⟩]) = .ok (3,[⟨0x5000,3,true⟩]) := by
    decide
  exact (map_inputs_in_one_half h).1.2 (by decide) _ (by decide) (by decide)

theorem unprotected_range_straddles :
    validateMapInputs plainRd false false 0x7ffffff000 0x8000001000 (some [⟨0x5000,3,2,false⟩]) =
      .ok (3,[⟨0x5000,3,false⟩,⟨0x6000,3,false⟩]) ∧
    plainRd.addrInPar 0x7ffffff000 = true ∧ plainRd.addrInPar 0x8000000000 = false := by
  decide

end Validation

def rangePages (rs : List TfRmm.Sro.Desc) : List Nat := (TfRmm.Sro.granules rs).map (· * granuleSize)

inductive OutAddr where
  | none
  | single
  | list (oaddr count : Nat)
  | bad
  deriving DecidableEq

def OutAddr.type : OutAddr → OaddrType
  | single => .single
  | list _ _ => .list
  | _ => .none

def OutAddr.valid : OutAddr → Bool
  | none => true
  | single => true
  | list oaddr count => count != 0 && oaddr % 8 == 0
  | bad => false

def OutAddr.maxCount : OutAddr → Nat
  | single => 1
  | list oaddr count => min (min count TfRmm.Sro.maxRanges) (TfRmm.Sro.maxRanges - oaddr % granuleSize / 8)
  | _ => TfRmm.Sro.maxRanges

def validateUnmapInputs (rd : Rd) (inPar : Bool) (base top : Nat) (out : OutAddr) : Bool :=
  base % granuleSize == 0 && top % granuleSize == 0 && base < top &&
    rd.validateMapAddr base pageLevel && rd.validateMapAddr (top-granuleSize) pageLevel &&
    rd.addrInPar base == inPar && rd.addrInPar (top-granuleSize) == inPar && out.valid

def Flavor.mem : Flavor → Mem
  | dev => .dev
  | _ => .data

def Flavor.blockState : Flavor → TfRmm.Sro.MemState
  | unprot => .undelegated
  | _ => .delegated

def Flavor.inPar : Flavor → Bool
  | unprot => false
  | _ => true

def Flavor.admits : Flavor → S2tte → Bool
  | data, .assigned _ _ _ => true
  | dev, .assignedDev _ _ _ _ => true
  | unprot, .assignedNs _ _ => true
  | _, _ => false

def unmapMakeNewEntry (rd : Rd) : S2tte → S2tte × Bool
  | .assigned .ram _ _ => (.createUnassigned rd.indirectS2ap .destroyed (rd.protectedAp 0),true)
  | .assigned .empty _ ap => (.createUnassigned rd.indirectS2ap .empty ap,false)
  | .assigned _ _ ap => (.createUnassigned rd.indirectS2ap .destroyed ap,false)
  | .assignedDev .dev _ _ ap => (.createUnassigned rd.indirectS2ap .destroyed ap,true)
  | .assignedDev .empty _ _ ap => (.createUnassigned rd.indirectS2ap .empty ap,false)
  | .assignedDev _ _ _ ap => (.createUnassigned rd.indirectS2ap .destroyed ap,false)
  | _ => (.createUnassignedNs,true)

inductive Sweep where
  | skip
  | stop
  | fail (st : Status)
  | take (pa : Nat) (coarse : Bool) (ranges : List TfRmm.Sro.Desc)
  deriving DecidableEq

def UnmapCtx.collect (c : UnmapCtx) (prev : Option Nat) (pa : Nat) (coarse : Bool) : Sweep :=
  let size := mapSize c.leafLevel
  if c.oaddrType = .single ∧ prev.any (fun p => pa != p+size) then .stop
  else if pa % size ≠ 0 then .stop
  else match TfRmm.Sro.AddrList.addBlockAt c.maxCount c.leafLevel.toNat c.ranges (pa / granuleSize) c.flavor.blockState with
    | none => .stop
    | some rs => .take pa coarse rs

abbrev Polls := List Bool

structure Schedule where
  irqs : Irqs
  polls : Polls

namespace Rmm

variable (cfg : Config) (s : Rmm) (h : Nat) (c : UnmapCtx) (rd : Rd) (t i : Nat)

def putUnmap (c : UnmapCtx) : Rmm := s.setSro h ⟨.reserved,.unmap c⟩

def trackingValidate (mem : Mem) (pa size : Nat) : Nat → Nat → Except Status Bool
  | 0, _ => .ok false
  | n+1, off =>
    if size ≤ off then .ok false
    else match s.findActive cfg mem (pa+off) mem.mappedState with
      | .error st => .error st
      | .ok u =>
        if size-off < u.size ∨ (pa+off) % u.size ≠ 0 then .error (.errorTracking (pa+off))
        else if (s.granule u.base).refcount ≠ 0 then .error (.errorRttAux 0)
        else match trackingValidate mem pa size n (off+u.size) with
          | .error st => .error st
          | .ok coarse => .ok (u.size == cfg.regionSize || coarse)

def unmapBacking (pa : Nat) : Except (Option Status) Bool :=
  let size := mapSize c.leafLevel
  if c.flavor = .unprot then .ok false
  else if cfg.regionSize < size then .error (some (.errorTracking pa))
  else if c.backing.any (fun b => region cfg pa != region cfg b) then .error none
  else match s.trackingValidate cfg c.flavor.mem pa size (size / granuleSize) 0 with
    | .error st => .error (some st)
    | .ok coarse => .ok coarse

def sweepEntry (prev : Option Nat) (top addr : Nat) (first : Bool) (e : S2tte) : Sweep :=
  let level := c.leafLevel
  let refuse (st : Status) : Sweep := if first then .fail st else .stop
  if !e.isLive then
    if top < addr + mapSize level then refuse (.errorRtt level) else .skip
  else if level < pageLevel ∧ e.isTable then refuse (.errorRtt level)
  else if top < addr + mapSize level then refuse (.errorRtt level)
  else if !c.flavor.admits e then refuse (.errorRtt level)
  else match s.unmapBacking cfg c (e.pa level) with
    | .error none => .stop
    | .error (some st) => refuse st
    | .ok coarse => c.collect prev (e.pa level) coarse

def stampedEntry (h : Nat) (e : S2tte) : S2tte :=
  let r := unmapMakeNewEntry rd e
  if r.2 then (r.1.setDrainPending h).setTlbiPending else r.1.setDrainPending h

def reaches (agent : Agent) (vmid t i ipa : Nat) (level : Int) : Prop :=
  ∃ r k a, (s.granule r).state = .rd ∧ k < (s.rd r).numS2Contexts ∧ vmid = (s.rd r).vmid k ∧
    (agent = .smmu → (s.rd r).daEnabled) ∧ a < (s.rd r).geo.ipaSize ∧
    s.walk (s.rd r) k a pageLevel = ⟨t,i,level⟩ ∧ ipa = roundDown a (mapSize level)

def cacheEntry (level : Int) : Rmm :=
  { s with cached := fun c => s.cached c ∨
      (s.entry t i).valid ∧ c.table = t ∧ c.index = i ∧ c.level = level ∧
        c.pa = (s.entry t i).pa level ∧ s.reaches c.agent c.vmid t i c.ipa level }

def stampUnmap (h i pa : Nat) (coarse : Bool) (c c' : UnmapCtx) : Rmm :=
  let s₁ := (s.cacheEntry c.llt i c.leafLevel).setEntry c.llt i (stampedEntry rd h (s.entry c.llt i))
  let s₂ := if c.flavor = .unprot then s₁.getRef c.llt 1 else s₁
  let s₃ := if coarse then s₂.setRange pa (mapSize c.leafLevel) .partialUnit else s₂
  s₃.putUnmap h c'

def UnmapCtx.taken (pa next : Nat) (coarse : Bool) (ranges : List TfRmm.Sro.Desc) : UnmapCtx :=
  { c with
    curBase := next
    ranges := ranges
    queue := if c.flavor = .unprot then [] else rangePages ranges
    backing := if c.flavor = .unprot then c.backing else some pa
    coarse := coarse }

def unmapOneTable (rd : Rd) (h top start : Nat) :
    Nat → Nat → Nat → Option Nat → UnmapCtx → Rmm → Except Status (Rmm × UnmapCtx)
  | 0, _, addr, _, c, s => .ok (s.putUnmap h { c with curBase := addr },{ c with curBase := addr })
  | n+1, i, addr, prev, c, s =>
    let size := mapSize c.leafLevel
    match s.sweepEntry cfg c prev top addr (i == start) (s.entry c.llt i) with
    | .skip => unmapOneTable rd h top start n (i+1) (addr+size) prev c s
    | .stop => .ok (s.putUnmap h { c with curBase := addr },{ c with curBase := addr })
    | .fail st => .error st
    | .take pa coarse rs =>
      let c' := UnmapCtx.taken c pa (addr+size) coarse rs
      let s' := s.stampUnmap rd h i pa coarse c c'
      if coarse then .ok (s',c')
      else unmapOneTable rd h top start n (i+1) (addr+size) (some pa) c' s'

def smmuSyncYield : Polls → Irqs → Bool × Schedule
  | [], irqs => (false,⟨irqs,[]⟩)
  | true :: polls, irqs => (false,⟨irqs,polls⟩)
  | false :: polls, irqs => if irqs.sample.1 then (true,⟨irqs.sample.2,polls⟩) else smmuSyncYield polls irqs.sample.2

def clearTlbi : Rmm := s.setEntry t i (s.entry t i).clearTlbiPending

def leafIpa (i : Nat) : Nat := c.leafBaseIpa + i * mapSize c.leafLevel

def invalidatePending (h i : Nat) (sch : Schedule) (c : UnmapCtx) : Rmm × Schedule × Bool :=
  let s₁ := s.invalidate .cpu c.vmids (leafIpa c i)
  if !c.daEnabled then (s₁.clearTlbi c.llt i,sch,false)
  else
    match smmuSyncYield sch.polls sch.irqs with
    | (true,sch') => (s₁.putUnmap h { c with smmuTlbiPending := some i },sch',true)
    | (false,sch') => ((s₁.invalidate .smmu c.vmids (leafIpa c i)).clearTlbi c.llt i,sch',false)

def tlbiSweep (h : Nat) (c : UnmapCtx) : Nat → Nat → Schedule → Rmm → Rmm × Schedule × Bool
  | 0, _, sch, s => (s.putUnmap h { c with tlbiDone := true },sch,false)
  | n+1, i, sch, s =>
    let sch' : Schedule := { sch with irqs := sch.irqs.sample.2 }
    if sch.irqs.sample.1 then (s,sch',true)
    else if (s.entry c.llt i).stampedBy h && (s.entry c.llt i).tlbiPending then
      match s.invalidatePending h i sch' c with
      | (s',sch'',true) => (s',sch'',true)
      | (s',sch'',false) => tlbiSweep h c n (i+1) sch'' s'
    else tlbiSweep h c n (i+1) sch' s

def unmapTlbiPending (sch : Schedule) (c : UnmapCtx) : Rmm × Schedule × Bool :=
  if c.tlbiDone then (s,sch,false)
  else match c.smmuTlbiPending with
    | none => tlbiSweep h c s2ttesPerS2tt 0 sch s
    | some i =>
      match smmuSyncYield sch.polls sch.irqs with
      | (true,sch') => (s,sch',true)
      | (false,sch') =>
        let c' := { c with smmuTlbiPending := none }
        tlbiSweep h c' s2ttesPerS2tt 0 sch'
          (((s.invalidate .smmu c.vmids (leafIpa c i)).clearTlbi c.llt i).putUnmap h c')

def drainFine (h : Nat) (c : UnmapCtx) : List Nat → Irqs → Rmm → Rmm × Bool
  | [], _, s => (s.putUnmap h { c with queue := [] },false)
  | q :: qs, irqs, s =>
    if irqs.sample.1 then (s.putUnmap h { c with queue := q :: qs },true)
    else drainFine h c qs irqs.sample.2
      ((s.setState q .delegated).putUnmap h { c with queue := qs })

def unmapPublishCoarse (c : UnmapCtx) : Rmm :=
  (s.setRange (c.backing.getD 0) (mapSize c.leafLevel) .delegated).putUnmap h
    { c with queue := [],coarse := false }

def drainCoarse (h : Nat) (c : UnmapCtx) : List Nat → Irqs → Rmm → Rmm × Bool
  | [], _, s => (s.unmapPublishCoarse h c,false)
  | _ :: qs, irqs, s =>
    if qs ≠ [] ∧ irqs.sample.1 then (s.putUnmap h { c with queue := qs },true)
    else drainCoarse h c qs (if qs = [] then irqs else irqs.sample.2) s

def unmapDrainPending (irqs : Irqs) (c : UnmapCtx) : Rmm × Bool :=
  if c.flavor = .unprot then (s,false)
  else if !c.coarse then drainFine h c c.queue irqs s
  else if c.flavor = .dev then (s.unmapPublishCoarse h c,false)
  else drainCoarse h c c.queue irqs s

def clearMark : Rmm :=
  (s.setEntry t i (s.entry t i).clearDrainPending).putRef t 1

def clearMarksAndDrop (h t : Nat) : Nat → Nat → Rmm → Rmm
  | 0, _, s => s
  | n+1, i, s =>
    if (s.entry t i).stampedBy h then clearMarksAndDrop h t n (i+1) (s.clearMark t i)
    else clearMarksAndDrop h t n (i+1) s

def unmapDrainAndClear (sch : Schedule) (c : UnmapCtx) : Rmm × Bool :=
  match s.unmapTlbiPending h sch c with
  | (s₁,_,true) => (s₁,true)
  | (s₁,sch₁,false) =>
    let c₁ := { c with tlbiDone := true,smmuTlbiPending := none }
    match s₁.unmapDrainPending h sch₁.irqs c₁ with
    | (s₂,true) => (s₂,true)
    | (s₂,false) => (clearMarksAndDrop h c.llt s2ttesPerS2tt 0 s₂,false)

def unmapFormatResult : Result :=
  { status := .success
    x1 := c.curBase
    x2 := match c.oaddrType,c.ranges with
      | .single,r :: _ => r.base*granuleSize
      | _,_ => 0
    x3 := if c.oaddrType = .list then c.ranges.length else 0 }

def unmapVmids (flavor : Flavor) : List Nat :=
  if flavor = .unprot ∨ rd.indirectS2ap then rd.planeVmids else [rd.vmid 0]

def unmapCtx (rdAddr : Nat) (flavor : Flavor) (base : Nat) (out : OutAddr) (wi : Walk) : UnmapCtx where
  flavor := flavor
  realm := rdAddr
  llt := wi.llt
  leafLevel := wi.lastLevel
  leafBaseIpa := base - wi.index * mapSize wi.lastLevel
  curBase := base
  oaddrType := out.type
  maxCount := out.maxCount
  ranges := []
  queue := []
  backing := none
  coarse := false
  tlbiDone := false
  smmuTlbiPending := none
  vmids := unmapVmids rd flavor
  daEnabled := rd.daEnabled

def sorted : UnmapCtx :=
  if c.flavor = .unprot then c
  else
    { c with
      ranges := TfRmm.Sro.sortByAddr c.ranges
      queue := rangePages (TfRmm.Sro.sortByAddr c.ranges) }

def rttUnmap (flavor : Flavor) (rdAddr base top : Nat) (out : OutAddr) (sch : Schedule) : Rmm × Result :=
  match s.sroReserve cfg with
  | .error st => (s,st.result)
  | .ok h =>
    let ret := s.findGranule cfg rdAddr .rd
    let rd := s.rd rdAddr
    let wi := s.walk rd 0 base pageLevel
    let c := unmapCtx rd rdAddr flavor base out wi
    if ret ≠ .success then (s,ret.result)
    else if !validateUnmapInputs rd flavor.inPar base top out then (s,Status.errorInput.result)
    else if base % mapSize wi.lastLevel ≠ 0 then (s,(Status.errorRtt wi.lastLevel).result)
    else
      match unmapOneTable cfg rd h top wi.index (s2ttesPerS2tt-wi.index) wi.index base none c (s.putUnmap h c) with
      | .error st => (s,st.result)
      | .ok (s₁,c₁) =>
        let c₂ := sorted c₁
        match (s₁.putUnmap h c₂).unmapDrainAndClear h sch c₂ with
        | (s₂,true) => (s₂.sroSeal h,{ status := .incomplete,x1 := h })
        | (s₂,false) => (s₂.sroRelease h,unmapFormatResult c₂)

def unmapContinue (c : UnmapCtx) (sch : Schedule) : Option (Rmm × Result) :=
  if (s.granule c.llt).state ≠ .rtt then none
  else
    match (s.putUnmap h c).unmapDrainAndClear h sch c with
    | (s',true) => some (s'.sroSeal h,Status.incomplete.result)
    | (s',false) => some (s'.sroRelease h,unmapFormatResult c)

def sealedOp (h : Nat) : SroOp := if (s.sro h).state = .sealed then (s.sro h).op else .idle

def opContinue (h : Nat) (sch : Schedule) : Option (Rmm × Result) :=
  match s.sealedOp h with
  | .map c => s.mapContinue cfg h c sch.irqs
  | .unmap c => s.unmapContinue h c sch
  | _ => some (s,Status.errorInput.result)

end Rmm

end TfRmm.Rtt
