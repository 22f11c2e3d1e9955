import Intcode.Memory

namespace Intcode.Memory

structure Change where
  addr : Nat
  old : Int
  new : Int
  deriving Repr, DecidableEq

def diff (before after : Array Int) : List Change :=
  (List.range (max before.size after.size)).filterMap fun addr =>
    let old := before.getD addr 0
    let new := after.getD addr 0
    if old = new then none else some { addr, old, new }

theorem mem_diff {before after : Array Int} {change : Change}
    : change ∈ diff before after ↔
      before.getD change.addr 0 = change.old ∧ after.getD change.addr 0 = change.new
        ∧ change.old ≠ change.new := by
  obtain ⟨addr, old, new⟩ := change
  simp only [diff, List.mem_filterMap, List.mem_range]
  constructor
  . rintro ⟨a, -, h⟩
    split at h
    . contradiction
    . cases h
      exact ⟨rfl, rfl, ‹_›⟩
  . rintro ⟨rfl, rfl, h⟩
    refine ⟨addr, ?_, if_neg h⟩
    simp only [Array.getD_eq_getD_getElem?] at h
    by_cases h₁ : addr < before.size
    . omega
    by_cases h₂ : addr < after.size
    . omega
    . simp_all

end Intcode.Memory
