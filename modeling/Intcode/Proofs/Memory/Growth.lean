import Intcode.Memory

namespace Intcode.Memory

theorem grow_of_lt {m : Memory} {addr : Nat} (h : addr < m.size) : m.grow addr = m := by
  unfold grow
  rw [if_pos h]

theorem watches_grow (m : Memory) (addr : Nat) : (m.grow addr).watches = m.watches := by
  unfold grow
  split
  . rfl
  . rfl

theorem eq_of_peek {m n : Memory} (size : m.size = n.size) (watches : m.watches = n.watches)
    (peek : ∀ addr, m.peek addr = n.peek addr) : m = n := by
  cases m with
  | mk cells watches =>
    cases n with
    | mk cells' watches' =>
      subst watches
      have : cells = cells' := by
        apply Array.ext size
        intro i hi hi'
        have := peek i
        simp only [Memory.peek] at this
        rw [if_neg (by omega), if_neg (by omega)] at this
        simpa [hi, hi'] using this
      rw [this]

theorem grow_grow (m : Memory) (a b : Nat) : (m.grow a).grow b = m.grow (max a b) := by
  apply eq_of_peek
  . simp only [size_grow]
    omega
  . simp only [watches_grow]
  . intro addr
    simp only [peek_grow]

def stretch (m : Memory) : (length : Nat) → Memory
  | 0 => m
  | addr + 1 => m.grow addr

theorem size_stretch (m : Memory) (length : Nat) : (m.stretch length).size = max m.size length := by
  cases length with
  | zero => exact (Nat.max_zero _).symm
  | succ addr => exact size_grow m addr

theorem peek_stretch (m : Memory) (length : Nat) : (m.stretch length).peek = m.peek := by
  cases length with
  | zero => rfl
  | succ addr => exact funext (peek_grow m addr)

theorem watches_stretch (m : Memory) (length : Nat) : (m.stretch length).watches = m.watches := by
  cases length with
  | zero => rfl
  | succ addr => exact watches_grow m addr

theorem stretch_of_le {m : Memory} {length : Nat} (long : length ≤ m.size)
    : m.stretch length = m := by
  cases length with
  | zero => rfl
  | succ addr => exact grow_of_lt long

theorem stretch_stretch (m : Memory) (a b : Nat)
    : (m.stretch a).stretch b = m.stretch (max a b) := by
  apply eq_of_peek
  . simp only [size_stretch]
    omega
  . simp only [watches_stretch]
  . intro addr
    simp only [peek_stretch]

end Intcode.Memory
