import Intcode.Proofs.Machine.Abort
import Intcode.Proofs.Machine.Stop

namespace Intcode.Machine

def instruction? (m : Machine) : Option Instruction :=
  (m.view.instruction? m.memory.size).filter fun instr =>
    !m.tracing || decide (m.view.entry instr).IsWritable

variable {m m' : Machine} {instr : Instruction}

theorem instruction?_eq_some_iff
    : m.instruction? = some instr
        ↔ ¬ m.memory.size ≤ m.view.ip
          ∧ Instruction.decode (m.view.cell m.view.ip) = .ok instr
          ∧ (m.tracing = true → (m.view.entry instr).IsWritable) := by
  have written (instr : Instruction)
      : (!m.tracing || decide (m.view.entry instr).IsWritable) = true
        ↔ (m.tracing = true → (m.view.entry instr).IsWritable) := by
    cases m.tracing <;> simp
  unfold instruction? View.instruction?
  by_cases outside : m.memory.size ≤ m.view.ip
  . simp [outside]
  . rw [if_neg outside]
    cases Instruction.decode (m.view.cell m.view.ip) with
    | error cause => simp [Except.toOption]
    | ok instr' =>
      simp only [Except.toOption, Option.filter_eq_some_iff, Option.some.injEq, Except.ok.injEq,
        outside, not_false_eq_true, true_and, written]

theorem recordable_of_instruction? (next : m.instruction? = some instr) : ¬ m.Unrecordable := by
  obtain ⟨-, decoded, noted⟩ := instruction?_eq_some_iff.mp next
  rintro ⟨tracing, -, instr', decoded', unwritable⟩
  cases decoded.symm.trans decoded'
  exact unwritable (noted tracing)

theorem view_instruction? (next : m.instruction? = some instr)
    : m.view.instruction? m.memory.size = some instr :=
  (Option.filter_eq_some_iff.mp next).1

theorem instruction?_of_view (next : m.view.instruction? m.memory.size = some instr)
    (recordable : ¬ m.Unrecordable) : m.instruction? = some instr := by
  have found := next
  unfold View.instruction? at found
  split at found
  . contradiction
  . next inside =>
    cases decoded : Instruction.decode (m.view.cell m.view.ip) with
    | error cause =>
      rw [decoded] at found
      contradiction
    | ok instr' =>
      rw [decoded] at found
      cases found
      refine instruction?_eq_some_iff.mpr ⟨inside, decoded, ?_⟩
      intro tracing
      apply Decidable.of_not_not
      intro unwritable
      exact recordable ⟨tracing, Int.not_le.mp inside, instr, decoded, unwritable⟩

theorem effect_of_step {reason : Option StopReason} (start : 0 ≤ m.ip) (proper : m.width.Proper)
    (h : m.step = .ok reason m')
    : ∃ instr, m.instruction? = some instr ∧ reason = m.view.reason instr.opcode
        ∧ (Reference.effect m.view instr.mode instr.opcode).Describes m (.ok reason m') := by
  obtain ⟨instr, entry, inside, decoded, -, noted, reason, safe, rfl⟩ := instruction_of_step start h
  refine ⟨instr, instruction?_eq_some_iff.mpr ⟨inside, decoded, noted⟩, reason, ?_⟩
  rw [Reference.findSome?_clauses proper, Option.map_eq_none_iff] at safe
  have described := Reference.effect_describes safe
  rw [enact_append, reason]
  split
  . exact described
  . next going => exact described.count going entry

theorem hazard_of_step {e : Failure} (start : 0 ≤ m.ip) (proper : m.width.Proper)
    (failed : m.step = .error e m') (next : m.instruction? = some instr)
    : (Reference.hazards m.view m.width instr.mode instr.opcode).findSome? id ≠ none := by
  intro safe
  obtain ⟨inside, decoded, -⟩ := instruction?_eq_some_iff.mp next
  rw [step_of_recordable start (Int.not_le.mp inside) decoded
    (recordable_of_instruction? next)] at failed
  have failed := follow_of_perform failed
  rw [follow_eq, List.findSome?_append, Reference.findSome?_clauses proper, safe] at failed
  split at failed
  . contradiction
  . next found =>
    split at found
    . contradiction
    . contradiction

end Intcode.Machine
