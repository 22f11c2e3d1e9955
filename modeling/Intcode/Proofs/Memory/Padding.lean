import Intcode.Proofs.Memory.Growth

namespace Intcode

def PaddedCells (cells cells' : Array Int) : Prop :=
  ∃ extra, cells' = cells ++ Array.replicate extra 0

namespace Memory

theorem peek_of_size_le {m : Memory} {addr : Int} (h : m.size ≤ addr) : m.peek addr = 0 := by
  unfold peek
  unfold size at h
  have outside : ¬ addr.toNat < m.cells.size := by omega
  rw [Array.getD_eq_getD_getElem?, Array.getElem?_eq_none (Nat.not_lt.mp outside)]
  split
  . rfl
  . rfl

structure Padded (m n : Memory) : Prop where
  size : m.size ≤ n.size
  peek : n.peek = m.peek

variable {m n : Memory}

theorem Padded.grow (h : Padded m n) (addr : Nat) : Padded (m.grow addr) (n.grow addr) := by
  constructor
  . have := h.size
    simp only [size_grow]
    omega
  . funext a
    rw [peek_grow, peek_grow, h.peek]

theorem Padded.set (h : Padded m n) (addr : Nat) (value : Int)
    : Padded (m.set addr value) (n.set addr value) := by
  constructor
  . have := h.size
    simp only [size_set]
    omega
  . funext a
    rw [peek_set, peek_set, h.peek]

theorem Padded.cells (h : Padded m n) : PaddedCells m.cells n.cells := by
  have size := h.size
  unfold Memory.size at size
  refine ⟨n.cells.size - m.cells.size, ?_⟩
  apply Array.ext
  . simp only [Array.size_append, Array.size_replicate]
    omega
  . intro i inside _
    have same : n.peek i = m.peek i := congrFun h.peek i
    simp only [Memory.peek, if_neg (Int.not_lt.mpr (Int.natCast_nonneg i)), Int.toNat_natCast,
      Array.getD_eq_getD_getElem?, Array.getElem?_eq_getElem inside, Option.getD_some] at same
    rw [same, Array.getElem_append]
    split
    . next inside =>
      rw [Array.getElem?_eq_getElem inside, Option.getD_some]
    . next outside =>
      rw [Array.getElem?_eq_none (Nat.not_lt.mp outside), Array.getElem_replicate]
      rfl

theorem Padded.snapshot (h : Padded m n)
    : ∃ extra, n.snapshot.toList = m.snapshot.toList ++ List.replicate extra 0 := by
  obtain ⟨extra, same⟩ := h.cells
  refine ⟨extra, ?_⟩
  apply (congrArg Array.toList same).trans
  rw [Array.toList_append, Array.toList_replicate]
  rfl

theorem padded_of_cells (h : PaddedCells m.cells n.cells) : Padded m n := by
  obtain ⟨extra, h⟩ := h
  constructor
  . simp only [size, h, Array.size_append]
    omega
  . funext a
    simp only [peek, h, Array.getD_eq_getD_getElem?, Array.getElem?_append,
      Array.getElem?_replicate]
    split
    . rfl
    . split
      . rfl
      . next outside =>
        rw [Array.getElem?_eq_none (Nat.not_lt.mp outside)]
        split
        . rfl
        . rfl

theorem padded_ofImage (image : List Int) (extra : Nat)
    : Padded (ofImage image) (ofImage (image ++ List.replicate extra 0)) := by
  apply padded_of_cells
  refine ⟨extra, ?_⟩
  simp only [ofImage, ← List.toArray_replicate, List.append_toArray]

end Memory

end Intcode
