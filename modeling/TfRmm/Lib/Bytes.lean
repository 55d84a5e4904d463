import Mathlib.Data.List.GetD

namespace TfRmm.Lib

abbrev Memory := Nat → UInt8

namespace Memory

def read (m : Memory) (off n : Nat) : List UInt8 := (List.range n).map fun j => m (off+j)

def write (m : Memory) (off : Nat) (bs : List UInt8) : Memory := fun a =>
  if off ≤ a ∧ a < off+bs.length then bs.getD (a-off) 0 else m a

variable {m : Memory} {off o n a : Nat} {bs : List UInt8}

theorem write_of_outside (h : a < off ∨ off+bs.length ≤ a) : m.write off bs a = m a := by
  unfold write
  rw [if_neg]
  omega

theorem write_of_inside (h : off ≤ a) (h' : a < off+bs.length) : m.write off bs a = bs.getD (a-off) 0 := by
  unfold write
  rw [if_pos ⟨h,h'⟩]

theorem read_congr {m' : Memory} (h : ∀ j < n, m' (off+j) = m (off+j)) : m'.read off n = m.read off n := by
  unfold read
  refine List.map_congr_left fun j hj => h j (List.mem_range.mp hj)

theorem read_write_of_disjoint (h : off+n ≤ o ∨ o+bs.length ≤ off) : (m.write o bs).read off n = m.read off n :=
  read_congr fun j hj => write_of_outside (by omega)

theorem read_write (h : bs.length = n) : (m.write off bs).read off n = bs := by
  unfold read
  refine List.ext_getElem (by simp [h]) fun j h1 h2 => ?_
  have hj : j < bs.length := h2
  simp only [List.getElem_map,List.getElem_range]
  rw [write_of_inside (by omega) (by omega),Nat.add_sub_cancel_left,List.getD_eq_getElem _ _ hj]

theorem read_length (m : Memory) (off n : Nat) : (m.read off n).length = n := by
  simp [read]

end Memory

def le : Nat → Nat → List UInt8
  | 0, _ => []
  | n+1, v => UInt8.ofNat v :: le n (v / 256)

theorem le_length (n v : Nat) : (le n v).length = n := by
  induction n generalizing v with
  | zero => rfl
  | succ n ih => simp [le,ih]

end TfRmm.Lib
