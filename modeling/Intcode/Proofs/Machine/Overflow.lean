import Intcode.Proofs.Machine.Widening

/-!
Overflows: as long as no value overflows, the width of the words makes no difference to a machine,
and the first overflow comes where a machine with wider words leaves the range.
-/
namespace Intcode

def First (P : Nat → Prop) (k : Nat) : Prop :=
  P k ∧ ∀ j < k, ¬ P j

theorem first_congr {P Q : Nat → Prop} (h : ∀ k, (∀ j < k, ¬ P j) → (P k ↔ Q k)) (k : Nat)
    : First P k ↔ First Q k := by
  constructor
  . intro ⟨here, before⟩
    refine ⟨(h k before).mp here, ?_⟩
    intro j earlier
    rw [← h j fun i earlier' => before i (Nat.lt_trans earlier' earlier)]
    exact before j earlier
  . intro ⟨here, before⟩
    -- The properties agree at a number only once it is known that the first holds of none below.
    have before : ∀ j < k, ¬ P j := by
      intro j
      induction j using Nat.strongRecOn with
      | ind j ih =>
        intro earlier
        rw [h j fun i earlier' => ih i earlier' (Nat.lt_trans earlier' earlier)]
        exact before j earlier
    exact ⟨(h k before).mpr here, before⟩

namespace Machine

/--
The next step stores a value or sets a relative base that is no word of this width, or raises an
overflow itself.
-/
def Oversteps (w : Width) (m : Machine) : Prop :=
  (∃ addr, (endState m.step).memory.peek addr ≠ m.memory.peek addr
      ∧ ¬ w.Holds ((endState m.step).memory.peek addr))
    ∨ ((endState m.step).base ≠ m.base ∧ ¬ w.Holds (endState m.step).base)
    ∨ m.overflows

variable {w w' : Width} {m : Machine}

theorem Within.after (h : Within w m) (proper : w.Proper) (k : Nat) : Within w (m.after k) := by
  induction k with
  | zero => exact h
  | succ k ih => exact ih.step proper

theorem step_widen_of_calm (h : Within w m) (proper : w.Proper) (wider : w ≤ w')
    (calm : ¬ m.overflows)
    : outcome (m.widen w').step = outcome m.step
      ∧ endState (m.widen w').step = (endState m.step).widen w' :=
  (step_widen (h.ready proper) (h.width ▸ wider) calm).ends

theorem after_widen (h : Within w m) (proper : w.Proper) (wider : w ≤ w') {k : Nat}
    (calm : ∀ j < k, ¬ (m.after j).overflows) : (m.widen w').after k = (m.after k).widen w' := by
  induction k with
  | zero => rfl
  | succ k ih =>
    have ih := ih fun j before => calm j (Nat.lt_succ_of_lt before)
    show endState ((m.widen w').after k).step = _
    rw [ih]
    exact (step_widen_of_calm (h.after proper k) proper wider (calm k (Nat.lt_succ_self k))).2

theorem oversteps_of_overflows (h : Within w m) (proper : w.Proper) (wider : w ≤ w')
    (overflows : m.overflows) : Oversteps w (m.widen w') := by
  unfold Oversteps
  obtain overflows | ⟨reason, n, stepped, exceeds⟩ :=
    step_overflow (h.ready proper) (h.width ▸ wider) overflows
  . exact .inr (.inr overflows)
  . rw [h.width] at exceeds
    rw [stepped]
    -- What is no word of the width has not been there before.
    obtain ⟨addr, outside⟩ | outside := exceeds
    . refine .inl ⟨addr, ?_, outside⟩
      intro same
      have same : n.memory.peek addr = m.memory.peek addr := same
      rw [same] at outside
      exact outside (h.cells addr)
    . refine .inr (.inl ⟨?_, outside⟩)
      intro same
      have same : n.base = m.base := same
      rw [same] at outside
      exact outside h.base

theorem overflows_iff_oversteps (h : Within w m) (proper : w.Proper) (wider : w ≤ w')
    : m.overflows ↔ Oversteps w (m.widen w') := by
  constructor
  . exact oversteps_of_overflows h proper wider
  . intro oversteps
    apply Decidable.byContradiction
    intro calm
    obtain ⟨same, next⟩ := step_widen_of_calm h proper wider calm
    have within := h.step proper
    unfold Oversteps at oversteps
    rw [next] at oversteps
    obtain ⟨addr, -, outside⟩ | ⟨-, outside⟩ | overflows := oversteps
    . exact outside (within.cells addr)
    . exact outside within.base
    . exact calm ((narrowed_plan (h.ready proper).proper (h.width ▸ wider)).1.overflowing overflows)

end Machine

end Intcode
