import Mathlib.Data.Nat.Log
import TfRmm.Smmu.Driver
import TfRmm.Lib.Transition

namespace TfRmm.Smmu

structure TlbiRange where
  scale : Nat
  num : Nat
  covered : Nat
  deriving DecidableEq

def searchScale (numGrans lo : Nat) : Nat → TlbiRange → TlbiRange
  | 0, best => best
  | k+1, best =>
    let s := lo+k
    let num := min (numGrans >>> s) (1 <<< numWidth)
    let covered := num <<< s
    if best.covered < covered then
      if covered = numGrans then ⟨s,num,covered⟩ else searchScale numGrans lo k ⟨s,num,covered⟩
    else searchScale numGrans lo k best

def calcTlbiRange (numGrans scaleMax : Nat) : TlbiRange :=
  let hi := numGrans.log2
  let sHi := min hi scaleMax
  let sLo := min (if numWidth ≤ hi then hi-numWidth else 0) sHi
  searchScale numGrans sLo (sHi - sLo + 1) ⟨sLo,1,0⟩

structure TlbiRange.Fits (numGrans sHi : Nat) (r : TlbiRange) : Prop where
  covered : r.covered = r.num * 2 ^ r.scale
  num : 1 ≤ r.num ∧ r.num ≤ 32
  le : r.covered ≤ numGrans
  scale : r.scale ≤ sHi

variable {n lo s sHi : Nat}

theorem candidate_fits (hn : n ≠ 0) (hs : s ≤ n.log2) (hhi : s ≤ sHi) :
    TlbiRange.Fits n sHi ⟨s,min (n >>> s) (1 <<< numWidth),min (n >>> s) (1 <<< numWidth) <<< s⟩ := by
  have hdiv : n >>> s = n / 2 ^ s := Nat.shiftRight_eq_div_pow n s
  have hle : 2 ^ s ≤ n := (Nat.pow_le_pow_right (by decide) hs).trans (Nat.log2_self_le hn)
  have hpos : 1 ≤ n / 2 ^ s := Nat.div_pos hle (Nat.two_pow_pos s)
  have h32 : (1 <<< numWidth : Nat) = 32 := rfl
  refine ⟨Nat.shiftLeft_eq _ _,⟨?_,?_⟩,?_,hhi⟩
  · show 1 ≤ min (n >>> s) (1 <<< numWidth)
    rw [hdiv,h32]
    omega
  · show min (n >>> s) (1 <<< numWidth) ≤ 32
    rw [h32]
    omega
  · show min (n >>> s) (1 <<< numWidth) <<< s ≤ n
    rw [Nat.shiftLeft_eq,hdiv]
    calc min (n / 2 ^ s) (1 <<< numWidth) * 2 ^ s ≤ n / 2 ^ s * 2 ^ s := Nat.mul_le_mul_right _ (min_le_left _ _)
      _ ≤ n := Nat.div_mul_le_self n (2 ^ s)

def TlbiRange.Progress (numGrans sHi : Nat) (r : TlbiRange) : Prop := r.Fits numGrans sHi ∧ 0 < r.covered

theorem searchScale_fits (hn : n ≠ 0) : ∀ {k : Nat} {best : TlbiRange}, lo+k ≤ n.log2+1 →
    lo + k ≤ sHi+1 → best.Progress n sHi → (searchScale n lo k best).Progress n sHi
  | 0, _, _, _, hb => hb
  | k+1, best, hk, hs, hb => by
    have hc := @candidate_fits n (lo+k) sHi hn (by omega) (by omega)
    unfold searchScale
    extract_lets s num covered
    split
    next hlt =>
      have hpos : TlbiRange.Progress n sHi ⟨s,num,covered⟩ := ⟨hc,lt_of_le_of_lt (Nat.zero_le _) hlt⟩
      split
      · exact hpos
      · exact searchScale_fits hn (by omega) (by omega) hpos
    next => exact searchScale_fits hn (by omega) (by omega) hb

theorem searchScale_start (hn : n ≠ 0) {k : Nat} (hk : lo+(k+1) ≤ n.log2+1) (hs : lo+(k+1) ≤ sHi+1) {best : TlbiRange}
    (hb : best.covered = 0) : (searchScale n lo (k+1) best).Progress n sHi := by
  have hc := @candidate_fits n (lo+k) sHi hn (by omega) (by omega)
  unfold searchScale
  extract_lets s num covered
  have hpos : 0 < covered := by
    rw [show covered = num * 2 ^ s from hc.covered]
    exact mul_pos hc.num.1 (Nat.two_pow_pos _)
  rw [hb,if_pos hpos]
  split
  · exact ⟨hc,hpos⟩
  · exact searchScale_fits hn (by omega) (by omega) ⟨hc,hpos⟩

theorem calcTlbiRange_fits (hn : n ≠ 0) (scaleMax : Nat) :
    (calcTlbiRange n scaleMax).Fits n scaleMax ∧ 0 < (calcTlbiRange n scaleMax).covered := by
  unfold calcTlbiRange
  extract_lets hi sHi sLo
  have hle : sLo ≤ sHi := min_le_right _ _
  have h := @searchScale_start n sLo sHi hn (sHi-sLo) (by omega) (by omega) ⟨sLo,1,0⟩ rfl
  exact ⟨⟨h.1.covered,h.1.num,h.1.le,h.1.scale.trans (min_le_right _ _)⟩,h.2⟩

open TfRmm.S2tt

def Features.scaleMax (f : Features) : Nat := if f.ds then 39 else 31

structure InvArgs where
  vmids : List Nat
  addr : Nat
  level : Int
  numEntrs : Nat
  leaf : Bool
  deriving DecidableEq

def InvArgs.numGrans (a : InvArgs) : Nat := a.numEntrs*(mapSize a.level / granuleSize)

namespace World

def tlbiIpaSingle (cs : CmdSync) (i vmid : Nat) (lvl : Int) (leaf : Bool) (addr numGrans : Nat) (w : World) :
    World × Option Errno :=
  if _h : numGrans = 0 then (w,none)
  else
    let r := calcTlbiRange numGrans (w.smmu i).features.scaleMax
    match w.sendCmd cs i (tlbiCommand vmid r.scale r.num addr lvl leaf) with
    | (w',some e) => (w',some e)
    | (w',none) => tlbiIpaSingle cs i vmid lvl leaf (addr + r.covered * granuleSize) (numGrans-r.covered) w'
termination_by numGrans
decreasing_by
  have := (calcTlbiRange_fits _h (w.smmu i).features.scaleMax).2
  exact Nat.sub_lt (Nat.pos_of_ne_zero _h) this

def tlbiVmids (cs : CmdSync) (i : Nat) (a : InvArgs) : List Nat → World → World × Option Errno
  | [], w => (w,none)
  | v :: vs, w =>
    match tlbiIpaSingle cs i v a.level a.leaf a.addr a.numGrans w with
    | (w',some e) => (w',some e)
    | (w',none) => tlbiVmids cs i a vs w'

variable (cs : CmdSync)

def invSubmitOne (a : InvArgs) (i : Nat) (w : World) : World × Option Errno :=
  match tlbiVmids cs i a a.vmids (w.setWord (cs.addr i) 0xffffffff) with
  | (w',some e) => (w',some e)
  | (w',none) => w'.prepareSendCmdSync cs i (cs.addr i)

def invSubmitLoop (cs : CmdSync) (a : InvArgs) : Nat → World → World × Option Errno
  | 0, w => (w,none)
  | k+1, w =>
    let i := w.num-(k+1)
    if (w.smmu i).state = .active ∧ (w.smmu i).features.btm = false then
      match invSubmitOne cs a i w with
      | (w',some e) => (w'.spinlockSmmu i false,some e)
      | (w',none) => invSubmitLoop cs a k (w'.spinlockRelease i)
    else invSubmitLoop cs a k (w.spinlockRelease i)

def clearWords (w : World) : World :=
  { w with word := fun x => if cs.owns x then 0 else w.word x }

def invAtLevelPerVmidsSubmit (a : InvArgs) (w : World) : World × Option Errno :=
  if w.broadcast then (w,none)
  else invSubmitLoop cs a w.num ((w.clearWords cs).spinlockSmmu 0 true)

def readWords (cs : CmdSync) : Nat → World → World × Bool
  | 0, w => (w,true)
  | k+1, w =>
    let r := readWords cs k w
    let w' := (r.1.access cs).1
    (w',r.2 && w'.word (cs.addr k) == 0)

def pollCmdSyncAll (cs : CmdSync) : Nat → World → World × Option Errno
  | 0, w => (w,some .etimedout)
  | n+1, w =>
    match readWords cs w.num w with
    | (w',true) => (w',none)
    | (w',false) => pollCmdSyncAll cs n w'

def invAtLevelPerVmids (a : InvArgs) (w : World) : World × Option Errno :=
  match w.invAtLevelPerVmidsSubmit cs a with
  | (w',some e) => (w',some e)
  | (w',none) => pollCmdSyncAll cs maxRetries w'

end World

def cmdTlbiS12Vmall : Nat := 0x28

namespace World

def pollCmdSync (cs : CmdSync) (i : Nat) : Nat → World → World × Option Errno
  | 0, w => (w,some .etimedout)
  | n+1, w =>
    let w' := (w.access cs).1
    if w'.word (cs.addr i) = 0 then (w',none) else pollCmdSync cs i n w'

def invEntries (cs : CmdSync) (i vmid : Nat) (w : World) : World × Option Errno :=
  if (w.smmu i).features.btm then (w,none)
  else if (w.smmu i).state ≠ .active then (w,some .einval)
  else
    match (w.setSmmu i { w.smmu i with lock := true }).sendCmd cs i (cmdTlbiS12Vmall ||| vmid <<< 32) with
    | (w',some e) => (w'.spinlockRelease i,some e)
    | (w',none) =>
      match (w'.setWord (cs.addr i) 0xffffffff).prepareSendCmdSync cs i (cs.addr i) with
      | (w',some e) => (w'.spinlockRelease i,some e)
      | (w',none) => pollCmdSync cs i maxRetries (w'.spinlockRelease i)

end World

structure Driv where
  isInit : Bool
  world : World
  table : Nat → StreamTable

def Driv.onTable (d : Driv) (i : Nat) (f : StreamTable → StreamTable × Option Errno) : Driv × Option Errno :=
  ({ d with table := Function.update d.table i (f (d.table i)).1 },(f (d.table i)).2)

inductive Call where
  | find (i sid : Nat)
  | change (i sid : Nat) (enable : Bool) (inval prefetch : Option Errno)
  | release (i sid : Nat) (inval : Option Errno)
  | configure (i sid : Nat) (inval : Option Errno)
  | invEntries (i vmid : Nat) (cs : CmdSync)
  | invAtLevel (a : InvArgs) (cs : CmdSync)

def Call.index : Call → Option Nat
  | .find i _ | .change i .. | .release i .. | .configure i .. | .invEntries i .. => some i
  | .invAtLevel .. => none

structure Image where
  driver : Option Driv
  smmus : Bool

inductive InitError where
  | enodev
  | errno (e : Errno)

namespace Image

variable (m : Image)

def smmuv3Init (maxSmmus : Nat) (probe : Driv → Driv × Option Errno) :
    Option Driv → Option (Image × Option InitError)
  | none => some (m,some (.errno .einval))
  | some d =>
    if m.driver.isSome then none
    else if d.isInit then some ({ m with driver := some d },none)
    else if d.world.num = 0 then some ({ m with driver := some d },some .enodev)
    else if maxSmmus < d.world.num then none
    else
      match probe { d with world := { d.world with broadcast := true,eventNotify := true } } with
      | (d',none) => some (⟨some { d' with isInit := true },true⟩,none)
      | (d',some e) => some (⟨some { d' with world := { d'.world with num := 0 } },true⟩,some (.errno e))

def getByIndex (i sid : Nat) : Option (Option Driv) :=
  match m.driver with
  | none => none
  | some d =>
    if d.world.num ≤ i then some none
    else if m.smmus then some (if sid < 2 ^ (d.table i).sidBits then some d else none)
    else none

def onDevice (i sid : Nat) (f : Driv → Option (Driv × Option Errno)) : Option (Image × Option Errno) :=
  match m.getByIndex i sid with
  | none => none
  | some none => some (m,some .einval)
  | some (some d) => (f d).map fun r => ({ m with driver := some r.1 },r.2)

def exec : Call → Option (Image × Option Errno)
  | .find i sid => m.onDevice i sid fun d => some (d,none)
  | .change i sid enable inval prefetch =>
    m.onDevice i sid fun d => some (d.onTable i (·.changeSte sid enable inval prefetch))
  | .release i sid inval => m.onDevice i sid fun d => some (d.onTable i (·.releaseSte sid inval))
  | .configure i sid inval => m.onDevice i sid fun d => some (d.onTable i (·.configureStream sid inval))
  | .invEntries i vmid cs => m.onDevice i 0 fun d =>
    if vmid < 2 ^ 8 ∨ (d.world.smmu i).features.vmid16 then
      let r := d.world.invEntries cs i vmid
      some ({ d with world := r.1 },r.2)
    else none
  | .invAtLevel a cs => m.driver.map fun d =>
    let r := d.world.invAtLevelPerVmids cs a
    ({ m with driver := some { d with world := r.1 } },r.2)

def run (m : Image) : List Call → Option (Image × List (Option Errno))
  | [] => some (m,[])
  | c :: cs => (m.exec c).bind fun r => (run r.1 cs).map fun q => (q.1,r.2 :: q.2)

def Served (m : Image) : List Call → Prop
  | [] => True
  | c :: cs => (∀ i d, c.index = some i → m.driver = some d → d.world.num ≤ i) ∧
    ∀ r, m.exec c = some r → Served r.1 cs

end Image

variable {d : Driv} {c : Call} {cs : List Call} {maxSmmus : Nat} {probe : Driv → Driv × Option Errno}

theorem exec_served (hc : ∀ i, c.index = some i → d.world.num ≤ i) :
    ∃ d' e, ∀ b, Image.exec ⟨some d,b⟩ c = some (⟨some d',b⟩,e) := by
  cases c with
  | invAtLevel a cs => exact ⟨_,_,fun b => rfl⟩
  | find | change | release | configure | invEntries =>
    refine ⟨d,some .einval,fun b => ?_⟩
    simp only [Image.exec,Image.onDevice,Image.getByIndex,if_pos (hc _ rfl)]

theorem run_served (h : Image.Served ⟨some d,true⟩ cs) : ∃ d' es, ∀ b, Image.run ⟨some d,b⟩ cs = some (⟨some d',b⟩,es) := by
  induction cs generalizing d with
  | nil => exact ⟨d,[],fun b => rfl⟩
  | cons c cs ih =>
    obtain ⟨d',e,he⟩ := exec_served fun i hi => h.1 i d hi rfl
    obtain ⟨d'',es,hes⟩ := ih (h.2 _ (he true))
    refine ⟨d'',e :: es,fun b => ?_⟩
    simp only [Image.run,he,Option.bind_some,hes,Option.map_some]

theorem hand_over_keeps_calls (hi : d.isInit = true) (hs : Image.Served ⟨some d,true⟩ cs) :
    ∃ m, Image.smmuv3Init ⟨none,false⟩ maxSmmus probe (some d) = some (m,none) ∧
      ∃ d' es, m.run cs = some (⟨some d',m.smmus⟩,es) ∧ Image.run ⟨some d,true⟩ cs = some (⟨some d',true⟩,es) := by
  obtain ⟨d',es,hrun⟩ := run_served hs
  refine ⟨⟨some d,false⟩,?_,d',es,hrun false,hrun true⟩
  simp only [Image.smmuv3Init,Option.isSome_none,Bool.false_eq_true,if_false,hi,if_true]

def activeDriv : Driv :=
  ⟨true,⟨1,fun _ => ⟨⟨false,false,false,false,false⟩,.active,⟨⟨true,true,true⟩,⟨true,true,true⟩,false⟩,⟨[],0⟩,false⟩,
    false,false,fun _ => 0,[],[]⟩,fun _ => ⟨.active,8,fun _ => some 0,1,fun _ => 1,fun _ => ⟨true,false⟩⟩⟩

theorem hand_over_keeps_calls_idle : ∃ m, Image.smmuv3Init ⟨none,false⟩ 1 (fun d => (d,none)) (some activeDriv) =
    some (m,none) ∧ ∃ d' es, m.run [.find 1 0,.invAtLevel ⟨[1],0,3,1,true⟩ ⟨0,1⟩] = some (⟨some d',m.smmus⟩,es) ∧
      Image.run ⟨some activeDriv,true⟩ [.find 1 0,.invAtLevel ⟨[1],0,3,1,true⟩ ⟨0,1⟩] = some (⟨some d',true⟩,es) :=
  hand_over_keeps_calls rfl ⟨fun i d hi hd => by cases hi; cases hd; decide,fun _ _ =>
    ⟨fun _ _ h => (Option.some_ne_none _ h.symm).elim,fun _ _ => trivial⟩⟩

theorem hand_over_loses_smmus :
    (Image.exec ⟨some activeDriv,true⟩ (.change 0 0 true none none)).map (·.2) = some none ∧
    ((Image.smmuv3Init ⟨none,false⟩ 1 (fun d => (d,none)) (some activeDriv)).bind fun r =>
      (r.1.exec (.change 0 0 true none none)).map (·.2)) = none := by
  decide

end TfRmm.Smmu
