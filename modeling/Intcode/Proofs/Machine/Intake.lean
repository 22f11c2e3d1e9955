import Intcode.Proofs.Machine.Effect
import Intcode.Proofs.Machine.Trail
import Mathlib.Data.List.Basic

namespace Intcode.Machine

def intake? (m : Machine) : Option Int :=
  match m.instruction? with
  | some instr =>
    if instr.opcode = .input ∧ instr.mode 0 ≠ .immediate then m.inputs.head? else none
  | none => none

def completesInput (m : Machine) : Bool :=
  match m.instruction?, outcome m.step with
  | some instr, .ok none => instr.opcode == .input
  | _, _ => false

variable {m m' : Machine} {instr : Instruction} {value : Int}

theorem intake?_eq_some_iff
    : m.intake? = some value
        ↔ ∃ instr, m.instruction? = some instr ∧ instr.opcode = .input
            ∧ instr.mode 0 ≠ .immediate ∧ m.inputs.head? = some value := by
  unfold intake?
  cases m.instruction? with
  | none => simp
  | some instr => simp [and_assoc]

theorem completesInput_iff
    : m.completesInput = true
        ↔ ∃ instr m', m.instruction? = some instr ∧ instr.opcode = .input
            ∧ m.step = .ok none m' := by
  unfold completesInput
  cases m.instruction? with
  | none => simp
  | some instr =>
    cases m.step with
    | error e m' => simp [outcome]
    | ok reason m' => cases reason <;> simp [outcome]

theorem intake?_of_needInput (start : 0 ≤ m.ip) (h : m.step = .ok (some .needInput) m')
    : m.intake? = none ∧ m' = m := by
  refine ⟨?_, eq_of_needInput start h⟩
  rw [Option.eq_none_iff_forall_ne_some]
  intro value taken
  obtain ⟨_, -, -, -, queue⟩ := intake?_eq_some_iff.mp taken
  rw [(starved_of_needInput start h).1] at queue
  contradiction

theorem needInput_of_empty (start : 0 ≤ m.ip) (next : m.instruction? = some instr)
    (opcode : instr.opcode = .input) (direct : instr.mode 0 ≠ .immediate) (empty : m.inputs = [])
    : m.step = .ok (some .needInput) m := by
  obtain ⟨inside, decoded, -⟩ := instruction?_eq_some_iff.mp next
  have queue : m.view.inputs = [] := empty
  rw [step_of_recordable start (Int.not_le.mp inside) decoded (recordable_of_instruction? next)]
  simp only [opcode, View.clauses, View.input, View.forbid, if_neg direct, View.reason, queue]
  rfl

theorem spills_of_step {e : Failure} (ready : m.Ready) (failed : m.step = .error e m')
    (taken : m.intake? = some value) : m.view.Spills m.memory.size m.width := by
  obtain ⟨instr, next, opcode, direct, queue⟩ := intake?_eq_some_iff.mp taken
  have hazard := hazard_of_step ready.start ready.proper failed next
  refine ⟨instr, value, view_instruction? next, opcode, direct, queue, ?_⟩
  obtain ⟨rest, queue⟩ := List.head?_eq_some_iff.mp queue
  have queue : m.view.inputs = value :: rest := queue
  apply Decidable.byContradiction
  intro fine
  rw [not_or, Decidable.not_not] at fine
  apply hazard
  simp [Reference.hazards, Reference.unwritable, Reference.unreachable, opcode, queue, direct,
    fine.1, fine.2]

theorem inputs_of_effect {mode : Nat → Mode} {opcode : Opcode} {v next : View}
    {stop : Option StopReason} {emitted : Option Int} (other : opcode ≠ .input)
    (h : Reference.effect v mode opcode = .done next stop emitted) : next.inputs = v.inputs := by
  cases opcode with
  | input => contradiction
  | _ =>
    cases h
    rfl

theorem store_of_input (ready : m.Ready) (next : m.instruction? = some instr)
    (opcode : instr.opcode = .input) (h : m.step = .ok none m')
    : ∃ value, m.intake? = some value ∧ m.inputs = value :: m'.inputs
        ∧ m'.memory.peek
            = Function.update m.memory.peek (m.view.location instr.mode 0) value := by
  obtain ⟨instr', next', reason, described⟩ := effect_of_step ready.start ready.proper h
  rw [next] at next'
  cases next'
  rw [opcode] at described reason
  unfold Reference.effect at described
  cases queue : m.view.inputs with
  | nil =>
    rw [View.reason, queue] at reason
    contradiction
  | cons value rest =>
    rw [queue] at described
    obtain ⟨_, same, view, -⟩ := described
    cases same
    have popped : m'.inputs = rest := congrArg View.inputs view
    have queue : m.inputs = value :: rest := queue
    refine ⟨value, ?_, ?_, congrArg View.cell view⟩
    . rw [intake?_eq_some_iff]
      refine ⟨instr, next, opcode, ?_, congrArg List.head? queue⟩
      intro immediate
      obtain ⟨instr', entry, inside, decoded, -, noted, -, safe, -⟩ :=
        instruction_of_step ready.start h
      cases next.symm.trans (instruction?_eq_some_iff.mpr ⟨inside, decoded, noted⟩)
      rw [opcode, View.clauses, View.input, View.forbid, if_pos immediate] at safe
      contradiction
    . rw [popped]
      exact queue

theorem intake?_of_other (next : m.instruction? = some instr) (other : instr.opcode ≠ .input)
    : m.intake? = none := by
  unfold intake?
  rw [next]
  exact if_neg fun taken => other taken.1

theorem inputs_of_done {reason : Option StopReason} (ready : m.Ready)
    (done : m.step = .ok reason m')
    : m.inputs = m.intake?.toList ++ m'.inputs := by
  obtain ⟨instr, next, reason, described⟩ := effect_of_step ready.start ready.proper done
  by_cases opcode : instr.opcode = .input
  . cases queue : m.view.inputs with
    | nil =>
      rw [opcode, View.reason, queue] at reason
      subst reason
      obtain ⟨none, same⟩ := intake?_of_needInput ready.start done
      rw [none, same]
      rfl
    | cons value rest =>
      rw [opcode, View.reason, queue] at reason
      subst reason
      obtain ⟨value, taken, queue, -⟩ := store_of_input ready next opcode done
      rw [taken]
      exact queue
  . rw [intake?_of_other next opcode]
    cases effect : Reference.effect m.view instr.mode instr.opcode with
    | fault cause =>
      rw [effect] at described
      obtain ⟨_, absurd⟩ := described
      cases absurd
    | stalled =>
      rw [effect] at described
      cases described
      rfl
    | done next stop emitted =>
      rw [effect] at described
      obtain ⟨_, same, view, -⟩ := described
      cases same
      exact (inputs_of_effect opcode effect).symm.trans (congrArg View.inputs view).symm

theorem inputs_of_failed {e : Failure} (ready : m.Ready) (failed : m.step = .error e m')
    : m.inputs = m.intake?.toList ++ m'.inputs := by
  by_cases unrecordable : m.Unrecordable
  . have untaken : m.intake? = none := by
      unfold intake?
      cases next : m.instruction? with
      | none => rfl
      | some instr => exact absurd unrecordable (recordable_of_instruction? next)
    rw [step_of_unrecordable ready.start unrecordable] at failed
    cases failed
    rw [untaken]
    rfl
  . obtain ⟨spilt, kept⟩ := taken_of_failed ready.start ready.proper failed unrecordable
    cases taken : m.intake? with
    | some value =>
      obtain ⟨value', queue⟩ := spilt (spills_of_step ready failed taken)
      obtain ⟨_, -, -, -, first⟩ := intake?_eq_some_iff.mp taken
      rw [queue] at first
      cases first
      exact queue
    | none =>
      refine (kept ?_).symm
      rintro ⟨instr, value, next, opcode, direct, first, -⟩
      have next' := instruction?_of_view next unrecordable
      have taken' := intake?_eq_some_iff.mpr ⟨instr, next', opcode, direct, first⟩
      rw [taken] at taken'
      contradiction

theorem inputs_of_step (ready : m.Ready)
    : m.inputs = m.intake?.toList ++ (endState m.step).inputs := by
  cases stepped : m.step with
  | ok reason m' => exact inputs_of_done ready stepped
  | error e m' => exact inputs_of_failed ready stepped

theorem Trail.inputs {states : List Machine} {n : Machine} (trail : Trail m states n)
    (ready : m.Ready) : m.inputs = states.filterMap intake? ++ n.inputs := by
  induction trail with
  | nil m => rfl
  | @cons m n states _ ih =>
    have rest := ih (step_ends_ready ready)
    rw [List.filterMap_eq_flatMap_toList] at rest ⊢
    rw [inputs_of_step ready, rest, List.flatMap_cons, List.append_assoc]

def isStarved (m : Machine) : Bool :=
  match outcome m.step with
  | .ok (some .needInput) => true
  | _ => false

theorem countP_isStarved_visited (fuel : Nat) (m : Machine)
    : (visited fuel m).countP isStarved
        =
      match outcome (run fuel m) with
      | .ok .needInput => 1
      | _ => 0 := by
  fun_induction visited fuel m with
  | case1 m => rfl
  | case2 fuel m m' stepped ih =>
    have fed : ¬ m.isStarved = true := by
      unfold isStarved
      rw [stepped]
      exact Bool.false_ne_true
    rw [List.countP_cons_of_neg fed, ih, run]
    simp only [stepped]
  | case3 fuel m stopped =>
    rw [List.countP_singleton]
    unfold isStarved run
    cases stepped : step m with
    | error e m' => rfl
    | ok reason m' =>
      cases reason with
      | none => exact absurd stepped (stopped m')
      | some reason => cases reason <;> rfl

end Intcode.Machine
