import Intcode.Memory.Diff
import Intcode.Proofs.Memory.Padding

namespace Intcode.Memory

namespace Change

def swap (change : Change) : Change :=
  { change with old := change.new, new := change.old }

end Change

def redo (changes : List Change) (m : Memory) : Memory :=
  changes.foldl (fun m change => m.set change.addr change.new) m

variable {m n : Memory} {changes : List Change} {a b : Array Int}

theorem peek_eq_getD (m : Memory) (addr : Nat) : m.peek addr = m.snapshot.getD addr 0 :=
  if_neg (Int.not_lt.mpr (Int.natCast_nonneg addr))

theorem peek_of_neg {addr : Int} (outside : addr < 0) : m.peek addr = 0 :=
  if_pos outside

theorem peek_redo {target : Int → Int} (agree : ∀ change ∈ changes, change.new = target change.addr)
    (same : ∀ addr : Int, (∀ change ∈ changes, change.addr ≠ addr) → m.peek addr = target addr)
    : (m.redo changes).peek = target := by
  -- The invariant is what all addresses hold that no change is left for.
  induction changes generalizing m with
  | nil =>
    funext addr
    exact same addr (List.forall_mem_nil _)
  | cons change changes ih =>
    rw [List.forall_mem_cons] at agree
    apply ih agree.2
    intro addr others
    rw [peek_set]
    split
    . next here => rw [agree.1, here]
    . next other => exact same addr (List.forall_mem_cons.mpr ⟨Ne.symm other, others⟩)

theorem peek_redo_of_other {addr : Int} (others : ∀ change ∈ changes, change.addr ≠ addr)
    : (m.redo changes).peek addr = m.peek addr := by
  induction changes generalizing m with
  | nil => rfl
  | cons change changes ih =>
    rw [List.forall_mem_cons] at others
    apply (ih others.2).trans
    rw [peek_set, if_neg (Ne.symm others.1)]

theorem mem_addrs_diff {addr : Nat}
    : addr ∈ (diff a b).map (·.addr) ↔ a.getD addr 0 ≠ b.getD addr 0 := by
  rw [List.mem_map]
  constructor
  . rintro ⟨change, mem, rfl⟩
    obtain ⟨old, new, changed⟩ := mem_diff.mp mem
    rw [old, new]
    exact changed
  . intro differ
    let change : Change := { addr, old := a.getD addr 0, new := b.getD addr 0 }
    exact ⟨change, mem_diff.mpr ⟨rfl, rfl, differ⟩, rfl⟩

theorem redo_diff (m n : Memory) : (m.redo (diff m.snapshot n.snapshot)).peek = n.peek := by
  apply peek_redo
  . intro change mem
    obtain ⟨-, new, -⟩ := mem_diff.mp mem
    rw [peek_eq_getD, new]
  . intro addr others
    by_cases outside : addr < 0
    . rw [peek_of_neg outside, peek_of_neg outside]
    . obtain ⟨addr, rfl⟩ := Int.eq_ofNat_of_zero_le (Int.not_lt.mp outside)
      rw [peek_eq_getD, peek_eq_getD]
      apply Decidable.byContradiction
      intro differ
      obtain ⟨change, mem, here⟩ := List.mem_map.mp (mem_addrs_diff.mpr differ)
      exact others change mem (congrArg Nat.cast here)

theorem addrs_diff_subset (patch : (m.redo changes).peek = n.peek)
    : (diff m.snapshot n.snapshot).map (·.addr) ⊆ changes.map (·.addr) := by
  intro addr differ
  apply Decidable.byContradiction
  intro missing
  apply mem_addrs_diff.mp differ
  rw [← peek_eq_getD, ← peek_eq_getD, ← patch]
  apply Eq.symm
  apply peek_redo_of_other
  intro change mem here
  exact missing (List.mem_map.mpr ⟨change, mem, Int.natCast_inj.mp here⟩)

theorem diff_swap (a b : Array Int) : diff b a = (diff a b).map Change.swap := by
  unfold diff
  rw [List.map_filterMap, Nat.max_comm]
  congr
  funext addr
  by_cases same : a.getD addr 0 = b.getD addr 0
  . rw [if_pos same, if_pos same.symm]
    rfl
  . rw [if_neg same, if_neg (Ne.symm same)]
    rfl

theorem diff_ascending (a b : Array Int) : (diff a b).Pairwise (·.addr < ·.addr) := by
  apply List.Pairwise.filterMap _ _ List.pairwise_lt_range
  intro addr addr' less change made change' made'
  dsimp only at made made'
  split at made
  . contradiction
  . split at made'
    . contradiction
    . cases made
      cases made'
      exact less

theorem diff_eq_nil_iff_peek : diff m.snapshot n.snapshot = [] ↔ n.peek = m.peek := by
  constructor
  . intro empty
    rw [← redo_diff m n, empty]
    rfl
  . intro same
    apply List.map_eq_nil_iff.mp
    apply List.eq_nil_of_subset_nil
    have redone : (m.redo []).peek = n.peek := same.symm
    exact addrs_diff_subset redone

theorem diff_eq_nil_iff : diff a b = [] ↔ PaddedCells a b ∨ PaddedCells b a := by
  let m : Memory := { cells := a }
  let n : Memory := { cells := b }
  show diff m.snapshot n.snapshot = [] ↔ PaddedCells m.cells n.cells ∨ PaddedCells n.cells m.cells
  rw [diff_eq_nil_iff_peek]
  constructor
  . intro same
    obtain shorter | longer := Nat.le_total m.size n.size
    . exact .inl (Padded.cells ⟨shorter, same⟩)
    . exact .inr (Padded.cells ⟨longer, same.symm⟩)
  . rintro (padded | padded)
    . exact (padded_of_cells padded).peek
    . exact (padded_of_cells padded).peek.symm

end Intcode.Memory
