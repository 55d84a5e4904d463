import TfRmm.Sro.AuxLoops

namespace TfRmm.Sro.AuxGranules

open TfRmm.Lib TfRmm.Sro.Framework

open AddrList (pages)

def CbId.fid : CbId → Fid
  | .memReclaim => .memReclaim
  | .memDonate => .memDonate
  | .createContinue => .opContinue
  | .destroyFinish => .opContinue

def AuxOp.returned (b : AuxOp) : List Nat :=
  match b.cbId with
  | .memReclaim => b.aux.take b.totalTransferred
  | .destroyFinish => b.aux.take b.totalTransferred
  | _ => []

def AuxOp.held (b : AuxOp) : List Nat :=
  match b.cbId with
  | .memReclaim => b.aux.drop b.totalTransferred
  | .destroyFinish => b.aux.drop b.totalTransferred
  | _ => b.aux

theorem AuxOp.returned_held (b : AuxOp) : b.returned ++ b.held = b.aux := by
  unfold returned held
  split <;> simp

structure Donating (c : Ctx AuxOp) : Prop where
  expected : c.expectedFid = .memDonate
  list : c.list = []
  request : c.transferReq = c.body.requested-c.body.totalTransferred
  contig : c.isContig = false
  state : c.memState = .delegated
  length : c.body.aux.length = c.body.totalTransferred
  le : c.body.totalTransferred ≤ c.body.requested
  bound : c.body.requested ≤ maxSroAuxGranules

structure Complete (c : Ctx AuxOp) : Prop where
  expected : c.expectedFid = .opContinue
  list : c.list = []
  length : c.body.aux.length = c.body.totalTransferred
  all : c.body.totalTransferred = c.body.requested

structure Returning (c : Ctx AuxOp) : Prop where
  length : c.body.aux.length = c.body.totalTransferred+c.body.requested
  done : c.body.cbId = .destroyFinish → c.body.requested = 0
  pending : c.list ≠ [] → c.output = true ∧ c.prevExpFid = c.body.cbId.fid ∧
    ∃ mem, c.reclaimRes = some (.incomplete mem)

def Phase (c : Ctx AuxOp) : Prop :=
  match c.body.cbId with
  | .memDonate => Donating c
  | .createContinue => Complete c
  | _ => Returning c ∧ c.expectedFid = if c.list = [] then c.body.cbId.fid else .memReclaim

def AddrList.listed (l : List Nat) : List (Nat × MemState) := l.map fun p => (p,.delegated)

structure Holding (w : World) (c : Ctx AuxOp) : Prop where
  cancel : c.canCancel = false
  obj : w.granules c.body.objAddr = .partialObject
  nodup : c.body.aux.Nodup
  bound : c.body.aux.length ≤ maxSroAuxGranules
  held : ∀ p ∈ c.body.held, w.granules p = .aux c.body.objAddr
  listed : (AddrList.pages (c.delivered ++ c.list)).Perm (AddrList.listed c.body.returned)

structure OpInv (w : World) (c : Ctx AuxOp) : Prop extends Holding w c where
  phase : Phase c

structure Moved (w w' : World) (c c' : Ctx AuxOp) : Prop where
  obj : c'.body.objAddr = c.body.objAddr
  aux : c.body.aux <+: c'.body.aux
  delivered : c.delivered <+: c'.delivered
  returned : ∀ p ∈ c'.body.returned, p ∈ c.body.returned ∨ w'.granules p = .delegated
  granules : ∀ p, w'.granules p = w.granules p ∨
    (w.granules p = .delegated ∧ w'.granules p = .aux c.body.objAddr ∧ p ∈ c'.body.held) ∨
    (w.granules p = .aux c.body.objAddr ∧ w'.granules p = .delegated ∧ p ∈ c.body.held ∧
      p ∈ c'.body.returned)

theorem Moved.same {w : World} {c c' : Ctx AuxOp} (hb : c'.body.objAddr = c.body.objAddr) (ha : c'.body.aux = c.body.aux)
    (hd : c'.delivered = c.delivered) (hr : c'.body.returned = c.body.returned) : Moved w w c c' :=
  ⟨hb,ha ▸ List.prefix_rfl,hd ▸ List.prefix_rfl,fun _ hp => .inl (hr ▸ hp),fun _ => .inl rfl⟩

theorem Moved.copied {w w' : World} {c c' c'' : Ctx AuxOp} (hm : Moved w w' c c')
    (hb : c''.body = c'.body) (hd : c'.delivered <+: c''.delivered) : Moved w w' c c'' :=
  ⟨hb ▸ hm.obj,hb ▸ hm.aux,hm.delivered.trans hd,hb ▸ hm.returned,hb ▸ hm.granules⟩

def Progresses (f : FollowUp) (c c' : Ctx AuxOp) : Prop :=
  ∀ host, f = .reclaim host true → host.aligned = true → 0 < host.clipped → c.expectedFid = .memReclaim →
    c.delivered.length < c'.delivered.length ∨ (c.body.held = [] ∧ c'.expectedFid = .opContinue)

section Calls

variable {w : World} {c : Ctx AuxOp}

open AuxOp (returned)

theorem startReclaim_spec (fid : Fid) (err : Failure) (hh : Holding w c) (hlist : c.list = [])
    (hret : c.body.returned = []) (hlen : c.body.aux.length = c.body.totalTransferred) :
    ∃ res c' c'', sroAuxOpStartReclaim c w err c.body.totalTransferred = some (res,c',w) ∧
      c'.next fid res = some c'' ∧ res.outcome = .incomplete .reclaim ∧ OpInv w c'' ∧ Moved w w c c'' := by
  have hheld : c.body.held = c.body.aux := by
    have := c.body.returned_held
    rwa [hret,List.nil_append] at this
  have hl := hh.listed
  rw [hret] at hl
  refine ⟨_,_,_,if_pos hh.obj,rfl,rfl,?_,?_⟩
  rotate_left
  · exact .same rfl rfl rfl hret.symm
  refine ⟨⟨hh.cancel,hh.obj,hh.nodup,hh.bound,fun p hp => hh.held p ?_,?_⟩,?_⟩
  · rw [hheld]
    exact hp
  · simpa [returned] using hl
  · exact ⟨⟨by simp [hlen],nofun,fun h => absurd hlist h⟩,by simp [MemReq.fid,hlist,CbId.fid]⟩

theorem dispatch_of {fid : Fid} {res : Res} {c' c'' : Ctx AuxOp} {w' : World} (hexp : c.expectedFid = fid)
    (hcb : continueHandler fid c w = some (res,c',w')) (hn : c'.next fid res = some c'') :
    rmiOpDispatch continueHandler fid c w = some (res,c'',w') := by
  rw [rmiOpDispatch,if_neg (fun h => h.2 hexp),hcb]
  simp only [Option.bind_some,hn,Option.map_some]

theorem Holding.take {new : List Nat} (c' : Ctx AuxOp) (hh : Holding w c) (hcancel : c'.canCancel = c.canCancel)
    (hret : c.body.returned = []) (hret' : c'.body.returned = []) (hobj : c'.body.objAddr = c.body.objAddr)
    (haux : c'.body.aux = c.body.aux ++ new) (hlist : c'.list = c.list) (hdelivered : c'.delivered = c.delivered)
    (hnd : new.Nodup) (hdel : ∀ p ∈ new, w.granules p = .delegated)
    (hbound : (c.body.aux ++ new).length ≤ maxSroAuxGranules) : Holding (w.setAll new (.aux c.body.objAddr)) c' ∧ Moved w
    (w.setAll new (.aux c.body.objAddr)) c c' := by
  have hheld : c.body.held = c.body.aux := by
    have := c.body.returned_held
    rwa [hret,List.nil_append] at this
  have hheld' : c'.body.held = c.body.aux ++ new := by
    have := c'.body.returned_held
    rwa [hret',List.nil_append,haux] at this
  have hold : ∀ p ∈ c.body.aux, w.granules p = .aux c.body.objAddr := fun p hp => hh.held p (hheld ▸ hp)
  have hobjnew : c.body.objAddr ∉ new := fun h => by
    have := (hdel _ h).symm.trans hh.obj
    cases this
  refine ⟨⟨hcancel.trans hh.cancel,?_,?_,?_,fun p hp => ?_,?_⟩,⟨hobj,?_,?_,fun p hp => ?_,fun p => ?_⟩⟩
  · rw [hobj]
    exact (if_neg hobjnew).trans hh.obj
  · rw [haux]
    refine List.nodup_append.2 ⟨hh.nodup,hnd,fun p hp q hn heq => ?_⟩
    have := (hdel q hn).symm.trans (heq ▸ hold p hp)
    cases this
  · rw [haux]
    exact hbound
  · rw [hobj]
    rw [hheld'] at hp
    by_cases hn : p ∈ new
    · exact if_pos hn
    · exact (if_neg hn).trans (hold p ((List.mem_append.1 hp).resolve_right hn))
  · rw [hret',hlist,hdelivered,← hret]
    exact hh.listed
  · rw [haux]
    exact List.prefix_append _ _
  · exact hdelivered ▸ List.prefix_refl _
  · rw [hret'] at hp
    cases hp
  · by_cases hn : p ∈ new
    · exact .inr (.inl ⟨hdel p hn,if_pos hn,by rw [hheld']; exact List.mem_append_right _ hn⟩)
    · exact .inl (if_neg hn)

theorem donated_spec {new : List Nat} (hi : OpInv w c) (hcb : c.body.cbId = .memDonate)
    (hph : Donating c) (hnd : new.Nodup) (hdel : ∀ p ∈ new, w.granules p = .delegated)
    (hlen : new.length ≤ c.transferReq) :
    ∃ res c' c'', donated c (w.setAll new (.aux c.body.objAddr)) new =
        (res,c',w.setAll new (.aux c.body.objAddr)) ∧ c'.next .memDonate res = some c'' ∧
      res.count = new.length ∧ OpInv (w.setAll new (.aux c.body.objAddr)) c'' ∧
      Moved w (w.setAll new (.aux c.body.objAddr)) c c'' := by
  have hret : c.body.returned = [] := by simp only [returned,hcb]
  have hreq := hph.request
  have hle := hph.le
  have hbound := hph.bound
  have htake : c.body.aux.take c.body.totalTransferred ++ new = c.body.aux ++ new := by
    rw [List.take_of_length_le (Nat.le_of_eq hph.length)]
  have hmax : (c.body.aux ++ new).length ≤ maxSroAuxGranules := by
    rw [List.length_append,hph.length]
    omega
  have hlength : (c.body.aux ++ new).length = c.body.totalTransferred+new.length := by
    rw [List.length_append,hph.length]
  simp only [donated,htake]
  split
  next hlt =>
    refine ⟨_,_,_,rfl,rfl,rfl,?_⟩
    have htook := hi.toHolding.take { c with
      transferReq := c.body.requested-(c.body.totalTransferred+new.length),
      memState := .delegated,expectedFid := .memDonate,
      body := { c.body with
        cbId := .memDonate,aux := c.body.aux ++ new,
        totalTransferred := c.body.totalTransferred+new.length } }
      rfl hret rfl rfl rfl rfl rfl hnd hdel hmax
    exact ⟨⟨htook.1,rfl,hph.list,rfl,hph.contig,rfl,hlength,Nat.le_of_lt hlt,hbound⟩,htook.2⟩
  · refine ⟨_,_,_,rfl,rfl,rfl,?_⟩
    have htook := hi.toHolding.take { c with
      expectedFid := .opContinue,
      body := { c.body with
        cbId := .createContinue,aux := c.body.aux ++ new,
        totalTransferred := c.body.totalTransferred+new.length } }
      rfl hret rfl rfl rfl rfl rfl hnd hdel hmax
    exact ⟨⟨htook.1,rfl,hph.list,hlength,by simp only; omega⟩,htook.2⟩

theorem donate_spec (hi : OpInv w c) (hcb : c.body.cbId = .memDonate)
    (hbs : ∀ b ∈ blocks c.input, b.2.2 = some .delegated ∧ b.2.1 = 3)
    (hlen : (blocks c.input).length ≤ c.transferReq) :
    ∃ r, rmiOpDispatch continueHandler .memDonate c w = some r ∧
      (r.1.outcome = .incomplete .reclaim ∨ r.1.count ≤ (blocks c.input).length) ∧
      OpInv r.2.2 r.2.1 ∧ Moved w r.2.2 c r.2.1 := by
  have hph : Donating c := by simpa only [Phase,hcb] using hi.phase
  have hret : c.body.returned = [] := by simp only [returned,hcb]
  have hreq := hph.request
  have hle := hph.le
  have hbound := hph.bound
  obtain ⟨new,why,hx,hnd,hdel,hnew⟩ := takeGranules_spec c.body.objAddr c.body.totalTransferred [] w hbs
    (by simp only [List.length_nil]; omega)
  rw [List.nil_append] at hx
  have hcall : continueHandler .memDonate c w = takenOrFailed c (new,why,w.setAll new (.aux c.body.objAddr)) := by
    simp only [continueHandler,hcb,sroObjMemoryDonate,hx,ne_eq,not_true_eq_false,if_false,Option.bind_some]
  by_cases hfirst : new = [] ∧ ∃ err, why = some err
  · obtain ⟨rfl,err,rfl⟩ := hfirst
    obtain ⟨res,c',c'',hs,hn,hout,hinv,hm⟩ :=
      startReclaim_spec .memDonate err hi.toHolding hph.list hret hph.length
    exact ⟨_,dispatch_of hph.expected (hcall.trans hs) hn,.inl hout,hinv,hm⟩
  · obtain ⟨res,c',c'',hd,hn,hcount,hinv,hm⟩ := donated_spec hi hcb hph hnd hdel (by omega)
    have hgo : continueHandler .memDonate c w = some (res,c',w.setAll new (.aux c.body.objAddr)) := by
      rw [hcall,takenOrFailed.eq_def]
      split
      next heq =>
        simp only [Prod.mk.injEq] at heq
        exact absurd ⟨heq.1,_,heq.2.1⟩ hfirst
      next heq =>
        obtain ⟨rfl,rfl,rfl⟩ := heq
        rw [hd]
    exact ⟨_,dispatch_of hph.expected hgo hn,.inr (by rw [hcount]; exact hnew),hinv,hm⟩

theorem Holding.give {k : Nat} {l : List Desc} (c' : Ctx AuxOp) (hh : Holding w c)
    (hcb : c.body.cbId = .memReclaim) (hcb' : c'.body.cbId = .memReclaim ∨ c'.body.cbId = .destroyFinish)
    (hlist : c.list = []) (hlist' : c'.list = l) (hcancel : c'.canCancel = c.canCancel)
    (hobj : c'.body.objAddr = c.body.objAddr) (haux : c'.body.aux = c.body.aux)
    (htotal : c'.body.totalTransferred = c.body.totalTransferred+k)
    (hdelivered : c'.delivered = c.delivered)
    (hl : (pages l).Perm (AddrList.listed ((c.body.aux.drop c.body.totalTransferred).take k))) :
    Holding (w.setAll ((c.body.aux.drop c.body.totalTransferred).take k) .delegated) c' ∧
      Moved w (w.setAll ((c.body.aux.drop c.body.totalTransferred).take k) .delegated) c c' := by
  have hheld : c.body.held = c.body.aux.drop c.body.totalTransferred := by simp only [AuxOp.held,hcb]
  have hret : c.body.returned = c.body.aux.take c.body.totalTransferred := by
    simp only [returned,hcb]
  have hheld' : c'.body.held = (c.body.aux.drop c.body.totalTransferred).drop k := by
    rcases hcb' with h | h <;> simp only [AuxOp.held,h,haux,htotal,List.drop_drop]
  have hret' : c'.body.returned =
      c.body.aux.take c.body.totalTransferred ++ (c.body.aux.drop c.body.totalTransferred).take k := by
    rcases hcb' with h | h <;> simp only [returned,h,haux,htotal,List.take_add]
  have hin : ∀ p ∈ (c.body.aux.drop c.body.totalTransferred).take k,w.granules p = .aux c.body.objAddr :=
    fun p hp => hh.held p (hheld ▸ List.mem_of_mem_take hp)
  have hsplit : ((c.body.aux.drop c.body.totalTransferred).take k ++
      (c.body.aux.drop c.body.totalTransferred).drop k).Nodup := by
    rw [List.take_append_drop]
    exact hh.nodup.drop
  refine ⟨⟨hcancel.trans hh.cancel,?_,haux ▸ hh.nodup,haux ▸ hh.bound,fun p hp => ?_,?_⟩,
    ⟨hobj,haux ▸ List.prefix_refl _,hdelivered ▸ List.prefix_refl _,fun p hp => ?_,fun p => ?_⟩⟩
  · rw [hobj]
    refine (if_neg fun h => ?_).trans hh.obj
    have := (hin _ h).symm.trans hh.obj
    cases this
  · rw [hobj]
    rw [hheld'] at hp
    refine (if_neg fun h => ?_).trans (hh.held p (hheld ▸ List.mem_of_mem_drop hp))
    exact (List.nodup_append.1 hsplit).2.2 p h p hp rfl
  · have hold := hh.listed
    rw [hlist,List.append_nil,hret] at hold
    rw [hdelivered,hlist',pages,List.flatMap_append,hret',AddrList.listed,List.map_append]
    exact hold.append hl
  · rw [hret'] at hp
    rcases List.mem_append.1 hp with hp | hp
    · exact .inl (hret ▸ hp)
    · exact .inr (if_pos hp)
  · by_cases hp : p ∈ (c.body.aux.drop c.body.totalTransferred).take k
    · refine .inr (.inr ⟨hin p hp,if_pos hp,hheld ▸ List.mem_of_mem_take hp,?_⟩)
      rw [hret']
      exact List.mem_append_right _ hp
    · exact .inl (if_neg hp)

structure Reclaimed (w : World) (c : Ctx AuxOp) : Prop extends Holding w c, Returning c where
  cb : c.body.cbId = .memReclaim ∨ c.body.cbId = .destroyFinish
  expected : c.list = [] → c.expectedFid = c.body.cbId.fid

def handed (c : Ctx AuxOp) (n : Nat) (l : List Desc) (cb : CbId) : Ctx AuxOp :=
  { c with
    rangeDescCount := n,list := l,output := true,
    body := { c.body with
      cbId := cb,requested := c.body.requested - min c.body.requested n,
      totalTransferred := c.body.totalTransferred + min c.body.requested n } }

theorem reclaim_spec {n : Nat} (hi : OpInv w c) (hcb : c.body.cbId = .memReclaim) (hlist : c.list = [])
    (hexp : c.expectedFid = .memReclaim) (hpos : 0 < n) (hn : n ≤ maxRanges) :
    ∃ r, rmiOpDispatch continueHandler .memReclaim
        { c with rangeDescCount := n,list := [],output := true } w = some r ∧
      Reclaimed r.2.2 r.2.1 ∧ Moved w r.2.2 c r.2.1 ∧
      (r.2.1.list = [] → c.body.held = [] ∧ r.2.1.expectedFid = .opContinue) := by
  have hph : Returning c := by
    have := hi.phase
    simp only [Phase,hcb] at this
    exact this.1
  have hlen := hph.length
  have hheld : c.body.held = c.body.aux.drop c.body.totalTransferred := by simp only [AuxOp.held,hcb]
  obtain ⟨l,hx,hperm,hne,hnil⟩ := returnGranules_spec c.body.objAddr hi.bound hi.nodup
    (min c.body.requested n) c.body.totalTransferred w [] (by omega)
    (fun p hp => hi.held p (hheld ▸ hp)) (by simp only [List.length_nil]; omega)
  rw [show pages [] = [] from rfl,List.append_nil] at hperm
  by_cases hdone : c.body.requested - min c.body.requested n = 0
  · have hcall : continueHandler .memReclaim { c with rangeDescCount := n,list := [],output := true } w =
        some (⟨.incomplete .none,min c.body.requested n⟩,handed c n l .destroyFinish,
          w.setAll ((c.body.aux.drop c.body.totalTransferred).take (min c.body.requested n)) .delegated) := by
      simp only [handed,continueHandler,hcb,sroObjMemoryReclaim,hx,ne_eq,not_true_eq_false,if_false,Option.map_some,
        hdone,if_true]
    by_cases hk : 0 < min c.body.requested n
    · have hnext : ∀ c' : Ctx AuxOp, c'.next .memReclaim ⟨.incomplete .none,min c.body.requested n⟩ = some { c' with
            expectedFid := .opContinue,reclaimRes := some (.incomplete .none),prevExpFid := .opContinue } := by
        intro c'
        simp only [Ctx.next,MemReq.fid,hk,and_self,or_true,if_true]
      refine ⟨_,dispatch_of hexp hcall (hnext _),?_⟩
      have hgive := hi.toHolding.give { handed c n l .destroyFinish with
        expectedFid := .opContinue,reclaimRes := some (.incomplete .none),prevExpFid := .opContinue }
        hcb (.inr rfl) hlist rfl rfl rfl rfl rfl rfl hperm
      refine ⟨⟨hgive.1,⟨?_,fun _ => hdone,fun _ => ⟨rfl,rfl,_,rfl⟩⟩,.inr rfl,fun _ => rfl⟩,hgive.2,fun h => absurd h (hne hk)⟩
      simp only [handed]
      omega
    · have hnext : ∀ c' : Ctx AuxOp, c'.next .memReclaim ⟨.incomplete .none,min c.body.requested n⟩ =
          some { c' with expectedFid := .opContinue } := fun c' => by
        simp [Ctx.next,MemReq.fid,hk]
      refine ⟨_,dispatch_of hexp hcall (hnext _),?_⟩
      have hgive := hi.toHolding.give { handed c n l .destroyFinish with expectedFid := .opContinue }
        hcb (.inr rfl) hlist rfl rfl rfl rfl rfl rfl hperm
      refine ⟨⟨hgive.1,⟨?_,fun _ => hdone,fun h => absurd (hnil (by omega)) h⟩,.inr rfl,fun _ => rfl⟩,hgive.2,
        fun _ => ⟨?_,rfl⟩⟩
      · simp only [handed]
        omega
      · rw [hheld,List.drop_eq_nil_of_le]
        omega
  · have hcall : continueHandler .memReclaim { c with rangeDescCount := n,list := [],output := true } w =
        some (⟨.incomplete .reclaim,min c.body.requested n⟩,handed c n l .memReclaim,
          w.setAll ((c.body.aux.drop c.body.totalTransferred).take (min c.body.requested n)) .delegated) := by
      simp only [handed,continueHandler,hcb,sroObjMemoryReclaim,hx,ne_eq,not_true_eq_false,if_false,Option.map_some,hdone]
    refine ⟨_,dispatch_of hexp hcall rfl,?_⟩
    have hgive := hi.toHolding.give { handed c n l .memReclaim with
      expectedFid := .memReclaim,reclaimRes := some (.incomplete .reclaim),prevExpFid := .memReclaim }
      hcb (.inl rfl) hlist rfl rfl rfl rfl rfl rfl hperm
    have hk : 0 < min c.body.requested n := by omega
    refine ⟨⟨hgive.1,⟨?_,nofun,fun _ => ⟨rfl,rfl,_,rfl⟩⟩,.inl rfl,fun _ => rfl⟩,hgive.2,fun h => absurd h (hne hk)⟩
    simp only [handed]
    omega

theorem Phase.returning (hcb : c.body.cbId = .memReclaim ∨ c.body.cbId = .destroyFinish) (hr : Returning c)
    (he : c.expectedFid = if c.list = [] then c.body.cbId.fid else .memReclaim) : Phase c := by
  unfold Phase
  split
  next h => rcases hcb with h' | h' <;> cases h.symm.trans h'
  next h => rcases hcb with h' | h' <;> cases h.symm.trans h'
  · exact ⟨hr,he⟩

theorem copy_spec (h : HostList) (writable : Bool) (res : Option Res) (hr : Reclaimed w c) :
    ∃ r, copyToHost h writable res c w = some r ∧ OpInv r.2.2 r.2.1 ∧ r.2.2 = w ∧
      r.2.1.body = c.body ∧ c.delivered <+: r.2.1.delivered ∧
      (if c.list = [] then r.2.1.expectedFid = c.expectedFid
       else writable = true → 0 < h.clipped → c.delivered.length < r.2.1.delivered.length) := by
  have hsame := List.prefix_refl c.delivered
  by_cases hl : c.list = []
  · refine ⟨_,if_pos hl,⟨hr.toHolding,.returning hr.cb hr.toReturning ?_⟩,rfl,rfl,hsame,?_⟩ <;> rw [if_pos hl]
    exact hr.expected hl
  obtain ⟨hout,hprev,mem,hres⟩ := hr.pending hl
  simp only [copyToHost,hl,if_false,hres]
  by_cases hw : writable = false
  · refine ⟨_,if_pos hw,⟨⟨hr.cancel,hr.obj,hr.nodup,hr.bound,hr.held,hr.listed⟩,
      .returning hr.cb ⟨hr.length,hr.done,fun _ => ⟨hout,hprev,mem,rfl⟩⟩ ?_⟩,rfl,rfl,hsame,
      fun h => absurd (h.symm.trans hw) (by decide)⟩
    exact (if_neg hl).symm
  rw [if_neg hw]
  have hroom : (h.offset : Nat) < maxRanges := h.offset.2
  have hsome := List.length_pos_iff.2 hl
  have hcopied : 0 < h.clipped → 0 < min (min c.list.length h.clipped) (maxRanges-h.offset) := by omega
  generalize min (min c.list.length h.clipped) (maxRanges-h.offset) = k at hcopied ⊢
  have hlisted : (pages ((c.delivered ++ c.list.take k) ++ c.list.drop k)).Perm
      (AddrList.listed c.body.returned) := by
    rw [List.append_assoc,List.take_append_drop]
    exact hr.listed
  have hmore : c.delivered <+: c.delivered ++ c.list.take k := List.prefix_append _ _
  have hgrown : 0 < h.clipped → c.delivered.length < (c.delivered ++ c.list.take k).length := fun hpos => by
    have := hcopied hpos
    rw [List.length_append,List.length_take]
    omega
  by_cases hrest : c.list.drop k = []
  · refine ⟨_,if_pos hrest,⟨⟨hr.cancel,hr.obj,hr.nodup,hr.bound,hr.held,hlisted⟩,
      .returning hr.cb ⟨hr.length,hr.done,fun hne => absurd hrest hne⟩ ?_⟩,rfl,rfl,hmore,fun _ => hgrown⟩
    exact hprev.trans (if_pos hrest).symm
  · refine ⟨_,if_neg hrest,⟨⟨hr.cancel,hr.obj,hr.nodup,hr.bound,hr.held,hlisted⟩,
      .returning hr.cb ⟨hr.length,hr.done,fun _ => ⟨hout,hprev,mem,rfl⟩⟩ ?_⟩,rfl,rfl,hmore,fun _ => hgrown⟩
    exact (if_neg hrest).symm

structure Ended (w w' : World) (c : Ctx AuxOp) : Prop where
  others : ∀ p, p ≠ c.body.objAddr → w'.granules p = w.granules p
  settled : (w'.granules c.body.objAddr = .object ∧ (∀ p ∈ c.body.aux, w'.granules p = .aux c.body.objAddr) ∧
      AddrList.pages c.delivered = []) ∨
    (w'.granules c.body.objAddr = .delegated ∧
      (AddrList.pages c.delivered).Perm (AddrList.listed c.body.aux))

theorem resume_spec (hi : OpInv w c) (hexp : c.expectedFid = .opContinue) :
    ∃ r, rmiOpDispatch continueHandler .opContinue c w = some r ∧
      ((r.1.outcome = .incomplete .reclaim ∧ OpInv r.2.2 r.2.1 ∧ Moved w r.2.2 c r.2.1) ∨
       ((∃ st, r.1.outcome = .final st) ∧ r.2.1.body = c.body ∧ Ended w r.2.2 c)) := by
  have hset : ∀ st p, p ≠ c.body.objAddr → (w.set c.body.objAddr st).granules p = w.granules p := fun st p hp => by
    rw [World.set_granules,if_neg hp]
  have hself : ∀ st, (w.set c.body.objAddr st).granules c.body.objAddr = st := fun st => by
    rw [World.set_granules,if_pos rfl]
  have hphase := hi.phase
  have hlisted := hi.listed
  cases hcb : c.body.cbId with
  | memDonate =>
    simp only [Phase,hcb] at hphase
    cases hexp.symm.trans hphase.expected
  | memReclaim =>
    simp only [Phase,hcb,CbId.fid,ite_self] at hphase
    cases hexp.symm.trans hphase.2
  | createContinue =>
    simp only [Phase,hcb] at hphase
    have hret : c.body.returned = [] := by simp only [returned,hcb]
    have hheld : c.body.held = c.body.aux := by simp only [AuxOp.held,hcb]
    have hall := hphase.all
    cases hcreate : w.create with
    | some err =>
      obtain ⟨res,c',c'',hs,hn,hout,hinv,hm⟩ :=
        startReclaim_spec .opContinue err hi.toHolding hphase.list hret hphase.length
      have hcall : continueHandler .opContinue c w = some (res,c',w) := by
        simpa only [continueHandler,hcb,createContinue,hall,hcreate,ne_eq,not_true_eq_false,or_self,if_false] using hs
      exact ⟨_,dispatch_of hexp hcall hn,.inl ⟨hout,hinv,hm⟩⟩
    | none =>
      have haux : ∀ p ∈ c.body.aux, w.granules p = .aux c.body.objAddr :=
        fun p hp => hi.held p (hheld ▸ hp)
      have hcall : continueHandler .opContinue c w = some (⟨.final .success,0⟩,c,w.set c.body.objAddr .object) := by
        simp only [continueHandler,hcb,createContinue,hall,hcreate,ne_eq,not_true_eq_false,or_self,if_false]
        exact if_pos ⟨hi.obj,by simpa using haux⟩
      refine ⟨_,dispatch_of hexp hcall rfl,.inr ⟨⟨_,rfl⟩,rfl,hset _,.inl ⟨hself _,fun p hp => ?_,?_⟩⟩⟩
      · rw [hset _ p ?_]
        · exact haux p hp
        · rintro rfl
          cases (haux _ hp).symm.trans hi.obj
      · rw [hphase.list,List.append_nil,hret] at hlisted
        exact List.perm_nil.1 hlisted
  | destroyFinish =>
    simp only [Phase,hcb,CbId.fid] at hphase
    have hlist : c.list = [] := by
      by_contra hne
      rw [if_neg hne] at hphase
      cases hexp.symm.trans hphase.2
    have hcall : continueHandler .opContinue c w =
        some (⟨.final (retErrStatus c.body.retErr),0⟩,c,w.set c.body.objAddr .delegated) := by
      simp only [continueHandler,hcb]
      exact if_pos hi.obj
    refine ⟨_,dispatch_of hexp hcall rfl,.inr ⟨⟨_,rfl⟩,rfl,hset _,.inr ⟨hself _,?_⟩⟩⟩
    have hlen := hphase.1.length
    rw [hphase.1.done hcb,Nat.add_zero] at hlen
    rw [hlist,List.append_nil] at hlisted
    simpa only [returned,hcb,List.take_of_length_le (Nat.le_of_eq hlen)] using hlisted

theorem clipped_le (h : HostList) : h.clipped ≤ maxRanges := by
  simp only [HostList.clipped]
  split <;> omega

theorem Phase.donating (h : Phase c) (hexp : c.expectedFid = .memDonate) : c.body.cbId = .memDonate ∧ Donating c := by
  cases hcb : c.body.cbId with
  | memDonate => exact ⟨rfl,by simpa only [Phase,hcb] using h⟩
  | memReclaim =>
    simp only [Phase,hcb,CbId.fid,ite_self] at h
    cases hexp.symm.trans h.2
  | createContinue =>
    simp only [Phase,hcb] at h
    cases hexp.symm.trans h.expected
  | destroyFinish =>
    simp only [Phase,hcb,CbId.fid] at h
    have := hexp.symm.trans h.2
    split at this <;> cases this

theorem Phase.reclaiming (h : Phase c) (hexp : c.expectedFid = .memReclaim) :
    (c.body.cbId = .memReclaim ∨ c.body.cbId = .destroyFinish ∧ c.list ≠ []) ∧ Returning c := by
  cases hcb : c.body.cbId with
  | memReclaim =>
    simp only [Phase,hcb] at h
    exact ⟨.inl rfl,h.1⟩
  | memDonate | createContinue =>
    simp only [Phase,hcb] at h
    cases hexp.symm.trans h.expected
  | destroyFinish =>
    simp only [Phase,hcb,CbId.fid] at h
    refine ⟨.inr ⟨rfl,fun hlist => ?_⟩,h.1⟩
    rw [if_pos hlist] at h
    cases hexp.symm.trans h.2

def GoesOn (w : World) (c : Ctx AuxOp) (r : Option Res × Ctx AuxOp × World) : Prop :=
  OpInv r.2.2 r.2.1 ∧ Moved w r.2.2 c r.2.1

theorem OpInv.refused (hi : OpInv w c) : GoesOn w c (none,c,w) := ⟨hi,.same rfl rfl rfl rfl⟩

theorem donate_call (hi : OpInv w c) (h : HostList) (read : Option (Nat → HostDesc)) :
    ∃ r, Framework.smcOpMemDonate continueHandler h read c w = some r ∧ GoesOn w c r := by
  unfold Framework.smcOpMemDonate
  by_cases hexp : c.expectedFid = .memDonate
  rotate_left
  · exact ⟨_,if_pos hexp,hi.refused⟩
  rw [if_neg (not_not.2 hexp)]
  by_cases hal : h.aligned = false
  · exact ⟨_,if_pos hal,hi.refused⟩
  rw [if_neg hal]
  obtain ⟨hcb,hph⟩ := hi.phase.donating hexp
  have hfresh : ∀ input n, OpInv w { c with input := input,list := [],output := false,rangeDescCount := n } := by
    intro input n
    refine ⟨⟨hi.cancel,hi.obj,hi.nodup,hi.bound,hi.held,?_⟩,?_⟩
    · have := hi.listed
      rwa [hph.list] at this
    · simp only [Phase,hcb]
      exact ⟨hexp,rfl,hph.request,hph.contig,hph.state,hph.length,hph.le,hph.bound⟩
  have hinit : ∀ input, GoesOn w c (none,{ c with input := input,list := [],output := false },w) :=
    fun input => ⟨hfresh input c.rangeDescCount,.same rfl rfl rfl rfl⟩
  cases read with
  | none => exact ⟨_,rfl,hinit []⟩
  | some f =>
    simp only
    cases hv : addrListValidate ((List.range h.clipped).map f) c.isContig c.memState with
    | none => exact ⟨_,rfl,hinit _⟩
    | some total =>
      simp only
      by_cases htotal : c.transferReq < total ∨ c.isContig = true ∧ total ≠ 0 ∧ total ≠ c.transferReq
      · exact ⟨_,if_pos htotal,hinit _⟩
      rw [if_neg htotal]
      rw [hph.contig,hph.state] at hv
      have hle := Nat.le_of_not_lt (not_or.1 htotal).1
      have hreq := hph.request
      have hbound := hph.bound
      obtain ⟨hbs,hlen⟩ := validated hv (by omega)
      obtain ⟨r,hx,hcount,hinv,hm⟩ := donate_spec (hfresh ((List.range h.clipped).map f) h.clipped)
        hcb hbs (Nat.le_trans hlen hle)
      have hassert : ¬(r.1.outcome ≠ .incomplete .reclaim ∧ total < r.1.count) := by
        rintro ⟨hout,hlt⟩
        rcases hcount with h | h
        · exact hout h
        · exact absurd (Nat.lt_of_lt_of_le hlt (Nat.le_trans h hlen)) (Nat.lt_irrefl _)
      refine ⟨(some r.1,r.2.1,r.2.2),?_,hinv,⟨hm.obj,hm.aux,hm.delivered,hm.returned,hm.granules⟩⟩
      rw [hx]
      exact if_neg hassert

theorem reclaim_call (hi : OpInv w c) (h : HostList) (writable : Bool) :
    ∃ r, Framework.smcOpMemReclaim continueHandler h writable c w = some r ∧ GoesOn w c r ∧
      Progresses (.reclaim h writable) c r.2.1 := by
  unfold Framework.smcOpMemReclaim
  by_cases hal : h.aligned = false
  · refine ⟨_,if_pos hal,hi.refused,?_⟩
    rintro _ ⟨⟩ h _ _
    cases h.symm.trans hal
  rw [if_neg hal]
  by_cases hexp : c.expectedFid = .memReclaim
  rotate_left
  · exact ⟨_,if_pos hexp,hi.refused,fun _ _ _ _ h => absurd h hexp⟩
  rw [if_neg (not_not.2 hexp)]
  by_cases hzero : h.clipped = 0
  · refine ⟨_,if_pos hzero,hi.refused,?_⟩
    rintro _ ⟨⟩ _ hpos _
    exact absurd hzero hpos.ne'
  rw [if_neg hzero]
  have hpos := Nat.pos_of_ne_zero hzero
  obtain ⟨hcb,hret⟩ := hi.phase.reclaiming hexp
  by_cases hlist : c.list = []
  · obtain ⟨r,hx,hr,hm,hlast⟩ := reclaim_spec hi (hcb.resolve_right fun h => h.2 hlist) hlist hexp hpos (clipped_le h)
    obtain ⟨r',hx',hinv,hw,hb,hd,hmore⟩ := copy_spec h writable (some r.1) hr
    refine ⟨r',?_,⟨hinv,?_⟩,?_⟩
    · rw [if_pos (.inl hlist),hx]
      exact hx'
    · rw [hw]
      exact hm.copied hb hd
    · rintro _ ⟨⟩ _ _ _
      split at hmore
      next hnil => exact .inr ⟨(hlast hnil).1,hmore.trans (hlast hnil).2⟩
      next => exact .inl (Nat.lt_of_le_of_lt hm.delivered.length_le (hmore rfl hpos))
  · have hout := (hret.pending hlist).1
    obtain ⟨r,hx,hinv,hw,hb,hd,hmore⟩ := copy_spec h writable none
      ⟨hi.toHolding,hret,hcb.imp_right And.left,fun h => absurd h hlist⟩
    rw [if_neg hlist] at hmore
    refine ⟨r,?_,⟨hinv,?_⟩,?_⟩
    · rw [if_neg (not_or.2 ⟨hlist,by simp [hout]⟩)]
      exact hx
    · rw [hw]
      exact hi.refused.2.copied hb hd
    · rintro _ ⟨⟩ _ _ _
      exact .inl (hmore rfl hpos)

theorem call_spec (hi : OpInv w c) (f : FollowUp) : ∃ r, call continueHandler c w f = some r ∧
      ((ends f r.1 = false ∧ GoesOn w c r ∧ Progresses f c r.2.1) ∨
       (ends f r.1 = true ∧ r.2.1.body = c.body ∧ Ended w r.2.2 c)) := by
  cases f with
  | donate h read =>
    obtain ⟨r,hx,hr⟩ := donate_call hi h read
    refine ⟨r,hx,.inl ⟨?_,hr,nofun⟩⟩
    unfold ends
    split <;> rfl
  | reclaim h writable =>
    obtain ⟨r,hx,hr⟩ := reclaim_call hi h writable
    refine ⟨r,hx,.inl ⟨?_,hr⟩⟩
    unfold ends
    split <;> rfl
  | resume =>
    simp only [call,Framework.smcOpContinue]
    by_cases hexp : c.expectedFid = .opContinue
    rotate_left
    · exact ⟨_,if_pos hexp,.inl ⟨rfl,hi.refused,nofun⟩⟩
    rw [if_neg (not_not.2 hexp)]
    obtain ⟨r,hx,hr⟩ := resume_spec hi hexp
    refine ⟨(some r.1,r.2.1,r.2.2),by rw [hx]; rfl,?_⟩
    obtain ⟨⟨outcome,count⟩,c',w'⟩ := r
    rcases hr with ⟨hout,hinv,hm⟩ | ⟨⟨st,hout⟩,hb,he⟩
    · subst hout
      exact .inl ⟨rfl,⟨hinv,hm⟩,nofun⟩
    · subst hout
      exact .inr ⟨rfl,hb,he⟩
  | cancel => exact ⟨_,if_pos hi.cancel,.inl ⟨rfl,hi.refused,nofun⟩⟩

end Calls

theorem OpInv.frame {w w' : World} {c : Ctx AuxOp} (hi : OpInv w c)
    (hobj : w'.granules c.body.objAddr = w.granules c.body.objAddr)
    (haux : ∀ p, w.granules p = .aux c.body.objAddr → w'.granules p = w.granules p) : OpInv w' c :=
  ⟨⟨hi.cancel,hobj.trans hi.obj,hi.nodup,hi.bound,fun p hp => (haux p (hi.held p hp)).trans (hi.held p hp),
    hi.listed⟩,hi.phase⟩

structure Sys.Inv (s : Sys) : Prop where
  ops : ∀ h c, s.ops h = some c → OpInv s.world c
  unique : ∀ h h' c c', s.ops h = some c → s.ops h' = some c' → c.body.objAddr = c'.body.objAddr → h = h'
  objects : ∀ o, s.world.granules o = .object → (s.objects o).Nodup ∧
    (s.objects o).length ≤ maxSroAuxGranules ∧ ∀ p ∈ s.objects o, s.world.granules p = .aux o

namespace Sys

variable {s t : Sys} {h : Nat} {w : World} {c : Ctx AuxOp} {obj : Nat}

theorem setOp_ops (s : Sys) (h h' : Nat) (c : Option (Ctx AuxOp)) : (s.setOp h c).ops h' = if h' = h then c else s.ops h' :=
  Function.update_apply ..

theorem Inv.local (obj : Nat) {objects : Nat → List Nat} {c : Option (Ctx AuxOp)} (hi : s.Inv)
    (hown : ∀ h' c', h' ≠ h → s.ops h' = some c' → c'.body.objAddr ≠ obj)
    (hgr : ∀ p, p ≠ obj → w.granules p = s.world.granules p ∨
      (s.world.granules p = .delegated ∨ s.world.granules p = .aux obj) ∧ w.granules p ≠ .object)
    (hnot : ∀ o, s.world.granules obj ≠ .aux o)
    (hc : ∀ c', c = some c' → c'.body.objAddr = obj ∧ OpInv w c')
    (hobjects : ∀ o, o ≠ obj → objects o = s.objects o)
    (hobj : w.granules obj = .object → (objects obj).Nodup ∧ (objects obj).length ≤ maxSroAuxGranules ∧
      ∀ p ∈ objects obj, w.granules p = .aux obj) :
    ({ s.setOp h c with world := w,objects := objects } : Sys).Inv := by
  have hops : ∀ h', ({ s.setOp h c with world := w,objects := objects } : Sys).ops h' =
      if h' = h then c else s.ops h' := fun h' => setOp_ops s h h' c
  have hkeep : ∀ o p, o ≠ obj → s.world.granules p = .aux o → w.granules p = s.world.granules p := fun o p ho hp => by
    have hpo : p ≠ obj := by
      rintro rfl
      exact hnot o hp
    rcases hgr p hpo with heq | ⟨hst | hst,_⟩
    · exact heq
    · cases hp.symm.trans hst
    · cases hp.symm.trans hst
      exact absurd rfl ho
  refine ⟨fun h' c' hc' => ?_,fun h₁ h₂ c₁ c₂ h₁c h₂c heq => ?_,fun o ho => ?_⟩
  · rw [hops] at hc'
    split at hc'
    · exact (hc c' hc').2
    rename_i hne
    have hco := hown h' c' hne hc'
    refine (hi.ops h' c' hc').frame ?_ fun p hp => hkeep _ p hco hp
    rcases hgr _ hco with hsame | ⟨hst | hst,_⟩
    · exact hsame
    · cases (hi.ops h' c' hc').obj.symm.trans hst
    · cases (hi.ops h' c' hc').obj.symm.trans hst
  · rw [hops] at h₁c h₂c
    split at h₁c <;> split at h₂c
    next e₁ e₂ => exact e₁.trans e₂.symm
    next hne => exact absurd (heq.symm.trans (hc c₁ h₁c).1) (hown h₂ c₂ hne h₂c)
    next hne _ => exact absurd (heq.trans (hc c₂ h₂c).1) (hown h₁ c₁ hne h₁c)
    · exact hi.unique h₁ h₂ c₁ c₂ h₁c h₂c heq
  · by_cases hoo : o = obj
    · subst hoo
      exact hobj ho
    · have hwas : s.world.granules o = .object := by
        rcases hgr o hoo with hsame | ⟨_,hne⟩
        · exact hsame.symm.trans ho
        · exact absurd ho hne
      obtain ⟨hnd,hlen,haux⟩ := hi.objects o hwas
      show (objects o).Nodup ∧ (objects o).length ≤ maxSroAuxGranules ∧ ∀ p ∈ objects o, w.granules p = .aux o
      rw [hobjects o hoo]
      exact ⟨hnd,hlen,fun p hp => (hkeep o p hoo (haux p hp)).trans (haux p hp)⟩

theorem Inv.other (hi : s.Inv) (hr : Rely s (.other w)) : ({ s with world := w } : Sys).Inv := by
  have hkeep : ∀ p, ¬Loose (s.world.granules p) → w.granules p = s.world.granules p :=
    fun p hp => (hr p).resolve_right fun h => hp h.1
  have haux : ∀ o p, s.world.granules p = .aux o → w.granules p = s.world.granules p := fun o p hp => by
    exact hkeep p (by rw [hp]; exact id)
  refine ⟨fun h c hc => ?_,hi.unique,fun o ho => ?_⟩
  · have hc := hi.ops h c hc
    exact hc.frame (hkeep _ (by rw [hc.obj]; exact id)) fun p hp => haux _ p hp
  have hwas : s.world.granules o = .object := by
    rcases hr o with hsame | ⟨_,hl⟩
    · exact hsame.symm.trans ho
    · rw [show w.granules o = .object from ho] at hl
      exact hl.elim
  obtain ⟨hnd,hlen,ha⟩ := hi.objects o hwas
  exact ⟨hnd,hlen,fun p hp => (haux o p (ha p hp)).trans (ha p hp)⟩

theorem Inv.start (hi : s.Inv)
    (hobj : s.world.granules obj = .delegated ∨ s.world.granules obj = .object)
    (hco : c.body.objAddr = obj) (hc : OpInv (s.world.set obj .partialObject) c) :
    ({ s.setOp h (some c) with world := s.world.set obj .partialObject } : Sys).Inv := by
  refine hi.local obj (fun h' c' _ hc' heq => ?_) (fun p hp => ?_) (fun o hn => ?_)
    (fun c' hc' => ?_) (fun _ _ => rfl) (fun hn => ?_)
  · have hpart := (hi.ops h' c' hc').obj
    rw [heq] at hpart
    rcases hobj with ho | ho <;> cases hpart.symm.trans ho
  · exact .inl (by rw [World.set_granules,if_neg hp])
  · rcases hobj with ho | ho <;> cases ho.symm.trans hn
  · cases hc'
    exact ⟨hco,hc⟩
  · rw [World.set_granules,if_pos rfl] at hn
    cases hn

theorem created_inv {obj requested : Nat} (hn : requested ≤ maxSroAuxGranules) :
    OpInv (w.set obj .partialObject) (created obj requested) :=
  ⟨⟨rfl,by simp [created,reserved,World.set_granules],.nil,Nat.zero_le _,nofun,.refl _⟩,
    ⟨rfl,rfl,rfl,rfl,rfl,rfl,Nat.zero_le _,hn⟩⟩

theorem destroyed_inv (hi : s.Inv) (hobj : s.world.granules obj = .object) :
    OpInv (s.world.set obj .partialObject) (destroyed obj (s.objects obj)) := by
  obtain ⟨hnd,hlen,haux⟩ := hi.objects obj hobj
  refine ⟨⟨rfl,by simp [destroyed,reserved,World.set_granules],hnd,hlen,fun p hp => ?_,.refl _⟩,
    ⟨⟨(Nat.zero_add _).symm,nofun,nofun⟩,rfl⟩⟩
  rw [World.set_granules,if_neg ?_]
  · exact haux p hp
  · rintro rfl
    cases hobj.symm.trans (haux _ hp)

theorem exec_call (hi : s.Inv) (hc : s.ops h = some c) (f : FollowUp) :
    ∃ t, exec s (.call h f) = some t ∧ t.Inv ∧
      ((∃ c', t.ops h = some c' ∧ Moved s.world t.world c c' ∧ Progresses f c c') ∨
       (t.ops h = none ∧ Ended s.world t.world c ∧
        (t.world.granules c.body.objAddr = .object → t.objects c.body.objAddr = c.body.aux))) := by
  have hcinv := hi.ops h c hc
  have hown : ∀ h' c', h' ≠ h → s.ops h' = some c' → c'.body.objAddr ≠ c.body.objAddr :=
    fun h' c' hne hc' heq => hne (hi.unique h' h c' c hc' hc heq)
  have hnot : ∀ o, s.world.granules c.body.objAddr ≠ .aux o := fun o ho => by
    cases hcinv.obj.symm.trans ho
  obtain ⟨r,hx,hr⟩ := call_spec hcinv f
  have hexec : exec s (.call h f) = some (if ends f r.1 then ({ s with world := r.2.2 } : Sys).finish h r.2.1
      else { s.setOp h (some r.2.1) with world := r.2.2 }) := by
    simp only [exec,hc,hx,Option.map_some]
  rcases hr with ⟨he,⟨hinv,hm⟩,hp⟩ | ⟨he,hb,hend⟩
  · refine ⟨_,hexec,?_⟩
    rw [if_neg (by rw [he]; exact Bool.false_ne_true)]
    refine ⟨?_,.inl ⟨r.2.1,(setOp_ops s h h _).trans (if_pos rfl),hm,hp⟩⟩
    refine hi.local c.body.objAddr hown (fun p _ => ?_) hnot (fun c' hc' => ?_) (fun _ _ => rfl) (fun hn => ?_)
    · rcases hm.granules p with hsame | ⟨hs,ht,_⟩ | ⟨hs,ht,_⟩
      · exact .inl hsame
      · exact .inr ⟨.inl hs,by rw [ht]; nofun⟩
      · exact .inr ⟨.inr hs,by rw [ht]; nofun⟩
    · cases hc'
      exact ⟨hm.obj,hinv⟩
    · have hpart := hinv.obj
      rw [hm.obj] at hpart
      cases hpart.symm.trans hn
  · refine ⟨_,hexec,?_⟩
    rw [if_pos he]
    have hgr : ∀ p, p ≠ c.body.objAddr → r.2.2.granules p = s.world.granules p ∨
        (s.world.granules p = .delegated ∨ s.world.granules p = .aux c.body.objAddr) ∧
          r.2.2.granules p ≠ .object := fun p hp => .inl (hend.others p hp)
    have hnone : ∀ c', (none : Option (Ctx AuxOp)) = some c' → c'.body.objAddr = c.body.objAddr ∧ OpInv r.2.2 c' :=
      fun _ h => absurd h.symm (Option.some_ne_none _)
    by_cases hmade : r.2.2.granules c.body.objAddr = .object
    · have hfin : ({ s with world := r.2.2 } : Sys).finish h r.2.1 = { s.setOp h none with
            world := r.2.2,objects := Function.update s.objects c.body.objAddr c.body.aux } := by
        simp only [finish,hb,hmade,if_true,setOp]
      have haux : ∀ p ∈ c.body.aux, r.2.2.granules p = .aux c.body.objAddr := by
        rcases hend.settled with ⟨_,haux,_⟩ | ⟨hdel,_⟩
        · exact haux
        · cases hdel.symm.trans hmade
      have hinv : ({ s.setOp h none with
          world := r.2.2,objects := Function.update s.objects c.body.objAddr c.body.aux } : Sys).Inv := by
        refine hi.local c.body.objAddr hown hgr hnot hnone (fun o ho => ?_) fun _ => ?_
        · exact Function.update_of_ne ho _ _
        · rw [Function.update_self]
          exact ⟨hcinv.nodup,hcinv.bound,haux⟩
      rw [hfin]
      exact ⟨hinv,.inr ⟨(setOp_ops s h h _).trans (if_pos rfl),hend,fun _ => Function.update_self ..⟩⟩
    · have hfin : ({ s with world := r.2.2 } : Sys).finish h r.2.1 = { s.setOp h none with world := r.2.2 } := by
        simp only [finish,hb,hmade,if_false,setOp]
      have hinv : ({ s.setOp h none with world := r.2.2 } : Sys).Inv :=
        hi.local c.body.objAddr hown hgr hnot hnone (fun _ _ => rfl) fun hn => absurd hn hmade
      rw [hfin]
      exact ⟨hinv,.inr ⟨(setOp_ops s h h _).trans (if_pos rfl),hend,fun hn => absurd hn hmade⟩⟩

theorem inv_step {l : Label} (hi : s.Inv) (hr : Rely s l) (hx : exec s l = some t) : t.Inv := by
  cases l with
  | other w =>
    cases hx
    exact hi.other hr
  | create h obj requested =>
    simp only [exec] at hx
    split at hx
    next hpre =>
      cases hx
      exact hi.start (.inl hpre.2.1) rfl (created_inv hpre.2.2)
    · cases hx
  | destroy h obj =>
    simp only [exec] at hx
    split at hx
    next hpre =>
      cases hx
      exact hi.start (.inr hpre.2) rfl (destroyed_inv hi hpre.2)
    · cases hx
  | call h f =>
    cases hc : s.ops h with
    | none =>
      simp only [exec,hc] at hx
      cases hx
    | some c =>
      obtain ⟨u,hu,hinv,_⟩ := exec_call hi hc f
      cases hu.symm.trans hx
      exact hinv

theorem inv_reachable (hs : auxSystem.Reachable s) : s.Inv := by
  have hstep : ∀ s l t, s.Inv → auxSystem.step s l t → t.Inv := fun _ _ _ hi hx => inv_step hi hx.1 hx.2
  refine TransitionSystem.Reachable.invariant ?_ hstep hs
  rintro s ⟨hloose,hops⟩
  refine ⟨fun h c hc => ?_,fun h _ c _ hc => ?_,fun o ho => ?_⟩
  · rw [hops] at hc
    cases hc
  · rw [hops] at hc
    cases hc
  · have := hloose o
    rw [ho] at this
    exact this.elim

end Sys

theorem aux_conserved (s : Sys) (hs : auxSystem.Reachable s) (h : Nat) (c : Ctx AuxOp) (hc : s.ops h = some c) :
    c.body.aux.Nodup ∧ c.body.returned ++ c.body.held = c.body.aux ∧
    (∀ p ∈ c.body.held, s.world.granules p = .aux c.body.objAddr) ∧
    (AddrList.pages (c.delivered ++ c.list)).Perm (AddrList.listed c.body.returned) ∧
    s.world.granules c.body.objAddr = .partialObject ∧
    ∀ f, ∃ t, auxSystem.step s (.call h f) t ∧
      ((∃ c', t.ops h = some c' ∧ Moved s.world t.world c c' ∧ Progresses f c c') ∨
       (t.ops h = none ∧ Ended s.world t.world c ∧
        (t.world.granules c.body.objAddr = .object → t.objects c.body.objAddr = c.body.aux))) := by
  have hi := Sys.inv_reachable hs
  have hcinv := hi.ops h c hc
  refine ⟨hcinv.nodup,c.body.returned_held,hcinv.held,hcinv.listed,hcinv.obj,fun f => ?_⟩
  obtain ⟨t,hx,_,ht⟩ := Sys.exec_call hi hc f
  exact ⟨t,⟨trivial,hx⟩,ht⟩

def emptySys : Sys where
  world := ⟨fun _ => .delegated,fun _ => none,some .input⟩
  objects := fun _ => []
  ops := fun _ => none

theorem aux_next {s t : Sys} (hs : auxSystem.Reachable s) (l : Label) (hr : Rely s l) (hx : exec s l = some t) :
    auxSystem.Reachable t := hs.next trivial ⟨hr,hx⟩

theorem aux_conserved_refused : ∃ s c, auxSystem.Reachable s ∧ s.ops 0 = some c ∧
    c.delivered = [⟨5,3,1,.delegated⟩] ∧ c.body.held = [9] ∧ s.world.granules 9 = .aux 7 ∧
    ∃ d, s.ops 1 = some d ∧ d.body.held = [3,4] := by
  have h0 : auxSystem.Reachable emptySys := .initial ⟨fun _ => trivial,fun _ => rfl⟩
  have h1 := aux_next h0 (.create 0 7 2) trivial rfl
  have h2 := aux_next h1 (.create 1 8 2) trivial rfl
  have h3 := aux_next h2 (.call 0 (.donate ⟨true,0,2⟩ (some fun n =>
    if n = 0 then ⟨5,0,1,some .delegated⟩ else ⟨9,0,1,some .delegated⟩))) trivial rfl
  have h4 := aux_next h3 (.call 1 (.donate ⟨true,0,2⟩ (some fun n =>
    if n = 0 then ⟨3,0,1,some .delegated⟩ else ⟨4,0,1,some .delegated⟩))) trivial rfl
  have h5 := aux_next h4 (.call 0 .resume) trivial rfl
  have h6 := aux_next h5 (.call 0 (.reclaim ⟨true,0,1⟩ true)) trivial rfl
  exact ⟨_,_,h6,rfl,rfl,rfl,(aux_conserved _ h6 0 _ rfl).2.2.1 9 (.head _),_,rfl,rfl⟩

theorem aux_granules_owned (s : Sys) (hs : auxSystem.Reachable s) :
    (∀ o, s.world.granules o = .object → (s.objects o).Nodup ∧ (s.objects o).length ≤ maxSroAuxGranules ∧
      ∀ p ∈ s.objects o, s.world.granules p = .aux o) ∧
    (∀ o o' p, s.world.granules o = .object → s.world.granules o' = .object →
      p ∈ s.objects o → p ∈ s.objects o' → o = o') ∧
    ∀ h h' c c' p, s.ops h = some c → s.ops h' = some c' → p ∈ c.body.held → p ∈ c'.body.held → h = h' := by
  have hi := Sys.inv_reachable hs
  refine ⟨hi.objects,fun o o' p ho ho' hp hp' => ?_,fun h h' c c' p hc hc' hp hp' => hi.unique h h' c c' hc hc' ?_⟩
  · exact GranuleState.aux.inj (((hi.objects o ho).2.2 p hp).symm.trans ((hi.objects o' ho').2.2 p hp'))
  · exact GranuleState.aux.inj (((hi.ops h c hc).held p hp).symm.trans ((hi.ops h' c' hc').held p hp'))

theorem aux_granules_owned_created : ∃ s, auxSystem.Reachable s ∧ s.objects 7 = [5,9] ∧ s.objects 8 = [3,4] ∧
    s.world.granules 9 = .aux 7 ∧ s.world.granules 3 = .aux 8 ∧ ∀ p ∈ s.objects 7, p ∉ s.objects 8 := by
  have h0 : auxSystem.Reachable { emptySys with world := ⟨fun _ => .delegated,fun _ => none,none⟩ } :=
    .initial ⟨fun _ => trivial,fun _ => rfl⟩
  have h1 := aux_next h0 (.create 0 7 2) trivial rfl
  have h2 := aux_next h1 (.create 1 8 2) trivial rfl
  have h3 := aux_next h2 (.call 0 (.donate ⟨true,0,2⟩ (some fun n =>
    if n = 0 then ⟨5,0,1,some .delegated⟩ else ⟨9,0,1,some .delegated⟩))) trivial rfl
  have h4 := aux_next h3 (.call 1 (.donate ⟨true,0,2⟩ (some fun n =>
    if n = 0 then ⟨3,0,1,some .delegated⟩ else ⟨4,0,1,some .delegated⟩))) trivial rfl
  have h5 := aux_next h4 (.call 1 .resume) trivial rfl
  have h6 := aux_next h5 (.call 0 .resume) trivial rfl
  have hall := aux_granules_owned _ h6
  refine ⟨_,h6,rfl,rfl,(hall.1 7 rfl).2.2 9 (.tail _ (.head _)),(hall.1 8 rfl).2.2 3 (.head _),fun p hp hp' => ?_⟩
  have := hall.2.1 7 8 p rfl rfl hp hp'
  cases this

end TfRmm.Sro.AuxGranules
