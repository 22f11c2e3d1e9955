import Intcode.Proofs.Machine.Writing
import Intcode.Proofs.Memory.Patch

namespace Intcode.Machine

variable {m : Machine}

theorem valuesAt_singleton (addr a value : Int)
    : valuesAt addr [(a, value)] = if a = addr then [value] else [] := by
  by_cases here : a = addr
  . simp [valuesAt, here]
  . simp [valuesAt, here]

theorem chronicle_peek (cell : Int → Int)
    : Chronicle fun before m => ∀ addr,
        m.memory.peek addr = (valuesAt addr before).getLastD (cell addr) where
  put {before m a} inside value held := by
    intro addr
    have now := m.memory.peek_set a.toNat value addr
    rw [Int.toNat_of_nonneg inside] at now
    rw [valuesAt_append, valuesAt_singleton]
    apply now.trans
    by_cases here : a = addr
    . rw [if_pos here.symm, if_pos here, List.getLastD_concat]
    . rw [if_neg (Ne.symm here), if_neg here, List.append_nil]
      exact held addr
  touch {before m} a held := fun addr => (m.memory.peek_grow a.toNat addr).trans (held addr)
  registers _ _ _ _ held := held
  complete entry held := by
    cases entry with
    | none => exact held
    | some entry => exact held
  watch _ held := held
  tracing _ _ held := held

theorem peek_drive (m : Machine) (fuel : Nat) (ops : List Operation) (addr : Int)
    : (drive fuel ops m).2.memory.peek addr
        = (valuesAt addr (writes fuel ops m)).getLastD (m.memory.peek addr) :=
  (chronicle_peek m.memory.peek).whole (fun _ => rfl) fuel ops addr

theorem mem_diff_drive (m : Machine) (fuel : Nat) (ops : List Operation) (change : Memory.Change)
    : change ∈ Memory.diff m.memory.snapshot (drive fuel ops m).2.memory.snapshot
        ↔ m.memory.peek change.addr = change.old
          ∧ (valuesAt change.addr (writes fuel ops m)).getLast? = some change.new
          ∧ change.old ≠ change.new := by
  rw [Memory.mem_diff, ← Memory.peek_eq_getD, ← Memory.peek_eq_getD, peek_drive]
  obtain none | ⟨values, last, split⟩ :=
    List.eq_nil_or_concat (valuesAt change.addr (writes fuel ops m))
  . rw [none]
    constructor
    . rintro ⟨old, new, changed⟩
      exact absurd (old.symm.trans new) changed
    . rintro ⟨-, absurd, -⟩
      contradiction
  . rw [split, List.concat_eq_append, List.getLastD_concat, List.getLast?_concat, Option.some_inj]

/--
The difference of two snapshots has the addresses at which they are not the same, in order, each
with what there is in the one and in the other. It makes the first into the second, and the second
into the first if it is swapped, and nothing that leaves out one of its addresses does. Zeros at the
end do not count: between two snapshots of a machine the difference is in what was written.
-/
theorem diff_patches (a b : Array Int)
    : let before : Memory := { cells := a }
      let after : Memory := { cells := b }
      let changes := Memory.diff a b
      (∀ addr, addr ∈ changes.map (·.addr) ↔ a.getD addr 0 ≠ b.getD addr 0)
        ∧ (∀ change ∈ changes,
          change.old = a.getD change.addr 0 ∧ change.new = b.getD change.addr 0)
        ∧ changes.Pairwise (·.addr < ·.addr)
        ∧ (before.redo changes).peek = after.peek
        ∧ (after.redo (changes.map .swap)).peek = before.peek
        ∧ (∀ others, (before.redo others).peek = after.peek
          → changes.map (·.addr) ⊆ others.map (·.addr))
        ∧ Memory.diff b a = changes.map .swap
        ∧ (changes = [] ↔ PaddedCells a b ∨ PaddedCells b a)
        ∧ ∀ (m : Machine) (fuel : Nat) (ops : List Operation),
          let q := (drive fuel ops m).2
          (∀ change, change ∈ Memory.diff m.memory.snapshot q.memory.snapshot
            ↔ m.memory.peek change.addr = change.old
              ∧ (valuesAt change.addr (writes fuel ops m)).getLast? = some change.new
              ∧ change.old ≠ change.new)
            ∧ (writes fuel ops m = [] →
              Memory.diff m.memory.snapshot q.memory.snapshot = []) := by
  intro before after changes
  refine ⟨fun _ => Memory.mem_addrs_diff, ?_, Memory.diff_ascending a b,
    Memory.redo_diff before after, ?_, fun _ => Memory.addrs_diff_subset, Memory.diff_swap a b,
    Memory.diff_eq_nil_iff, ?_⟩
  . intro change mem
    obtain ⟨old, new, -⟩ := Memory.mem_diff.mp mem
    exact ⟨old.symm, new.symm⟩
  . rw [← Memory.diff_swap]
    exact Memory.redo_diff after before
  . intro m fuel ops q
    refine ⟨mem_diff_drive m fuel ops, ?_⟩
    intro unwritten
    apply List.eq_nil_iff_forall_not_mem.mpr
    intro change mem
    obtain ⟨-, written, -⟩ := (mem_diff_drive m fuel ops change).mp mem
    rw [unwritten] at written
    contradiction

end Intcode.Machine
