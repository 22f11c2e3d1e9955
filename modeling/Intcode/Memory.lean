import Intcode.Fault

/-!
Memory: cells at the addresses from 0 up, all of them 0 past the last one that was touched. A read
or a write past the end extends the memory with zeros; nothing ever shortens it. Writes to a watched
address are reported.
-/
namespace Intcode

/-- A request, numbered `tag`, to be told of the writes to one address. -/
structure Watch where
  tag : Nat
  addr : Int
  deriving Repr, DecidableEq

structure Sighting where
  watch : Nat
  addr : Int
  old : Int
  new : Int
  deriving Repr, DecidableEq

structure Memory where
  cells : Array Int
  watches : List Watch := []
  deriving Repr, DecidableEq

namespace Memory

def ofImage (image : List Int) : Memory :=
  { cells := image.toArray }

def size (m : Memory) : Nat :=
  m.cells.size

def peek (m : Memory) (addr : Int) : Int :=
  if addr < 0 then 0 else m.cells.getD addr.toNat 0

def grow (m : Memory) (addr : Nat) : Memory :=
  if addr < m.size then
    m
  else
    { m with cells := m.cells ++ Array.replicate (addr + 1 - m.size) 0 }

-- Inlined, so that a caller holds the cells only once while they change.
@[inline]
def read (m : Memory) (addr : Int) : Except Failure (Int × Memory) :=
  if addr < 0 then
    .error (Fault.raised { cause := .negativeAddress addr })
  else
    .ok (m.peek addr, m.grow addr.toNat)

def sightings (m : Memory) (addr value : Int) : List Sighting :=
  m.watches.filterMap fun watch =>
    if watch.addr = addr then
      some { watch := watch.tag, addr := addr, old := m.peek addr, new := value }
    else
      none

def set (m : Memory) (addr : Nat) (value : Int) : Memory :=
  let m := m.grow addr
  { m with cells := m.cells.set! addr value }

@[inline]
def write (m : Memory) (addr value : Int) : Except Failure (List Sighting × Memory) :=
  if addr < 0 then
    .error (Fault.raised { cause := .negativeAddress addr })
  else
    .ok (m.sightings addr value, m.set addr.toNat value)

def watch (m : Memory) (tag : Nat) (addr : Int) : Memory :=
  { m with watches := m.watches ++ [{ tag, addr }] }

def snapshot (m : Memory) : Array Int :=
  m.cells

theorem size_grow (m : Memory) (addr : Nat) : (m.grow addr).size = max m.size (addr + 1) := by
  unfold grow
  split
  . omega
  . simp [size] at *
    omega

theorem size_set (m : Memory) (addr : Nat) (value : Int)
    : (m.set addr value).size = max m.size (addr + 1) := by
  rw [← size_grow]
  simp [set, size]

theorem peek_grow (m : Memory) (addr : Nat) (a : Int) : (m.grow addr).peek a = m.peek a := by
  unfold grow peek size
  split
  . rfl
  . split
    . rfl
    . simp only [Array.getD_eq_getD_getElem?, Array.getElem?_append, Array.getElem?_replicate]
      split
      . rfl
      . split <;> simp_all

theorem peek_set (m : Memory) (addr : Nat) (value a : Int)
    : (m.set addr value).peek a = if a = addr then value else m.peek a := by
  have inside : addr < (m.grow addr).size := by
    rw [size_grow]
    omega
  rw [← peek_grow m addr a]
  unfold set peek
  simp only [size] at inside
  by_cases h : a = addr
  . subst h
    rw [if_neg (by omega), if_pos rfl]
    simp [inside]
  . rw [if_neg h]
    by_cases neg : a < 0
    . rw [if_pos neg, if_pos neg]
    . have : ¬ addr = a.toNat := by omega
      rw [if_neg neg, if_neg neg]
      simp [this]

end Memory

end Intcode
