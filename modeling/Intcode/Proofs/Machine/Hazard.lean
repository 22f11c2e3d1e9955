import Intcode.Proofs.Machine.Execution
import Intcode.Proofs.Width.Range

namespace Intcode

def Cause.IsHazard : Cause → Prop
  | unknownOpcode .. | unknownMode .. | immediateDestination | ranOffEnd
  | negativeEffectiveAddress _ | negativeJump _ | cellOverflow .. | baseOverflow .. => True
  | _ => False

namespace Machine

def Clause.Sound (v : View) (c : Clause) : Prop :=
  ∀ hazard, c.hazard? = some hazard → ∃ cause : Cause, cause.IsHazard ∧ hazard = v.hazard cause

theorem hazard_sound {v : View} {cause : Cause} (h : cause.IsHazard)
    : (Clause.check (some (v.hazard cause))).Sound v := by
  intro hazard found
  cases found
  exact ⟨cause, h, rfl⟩

theorem act_sound {v : View} (action : Action) : (Clause.act action).Sound v := by
  intro e h
  contradiction

theorem forbid_sound {v : View} (p : Prop) [Decidable p] {cause : Cause} (h : cause.IsHazard)
    : (v.forbid p cause).Sound v := by
  unfold View.forbid
  split
  . exact hazard_sound h
  . nofun

theorem noting_sound {v : View} {instr : Instruction} {tracing : Bool}
    (recorded : ¬ (tracing = true ∧ ¬ (v.entry instr).IsWritable))
    : (v.noting instr tracing).Sound v := by
  unfold View.noting
  rw [if_neg recorded]
  nofun

theorem confine_sound {v : View} {width : Width} (proper : width.Proper) (value : Int)
    {cause : Int → Cause} (h : ∀ bits, (cause bits).IsHazard)
    : (v.confine width value cause).Sound v := by
  unfold View.confine
  rw [Width.fits_eq proper]
  cases decide (width.Holds value) with
  | true => nofun
  | false => exact hazard_sound (h _)

section

variable {v : View} {width : Width} {mode : Nat → Mode}

theorem reading_sound (param : Nat) : ∀ c ∈ v.reading mode param, c.Sound v := by
  simp only [View.reading, List.forall_mem_cons]
  exact ⟨act_sound _, forbid_sound _ trivial, act_sound _, List.forall_mem_nil _⟩

theorem writing_sound (proper : width.Proper) (param : Nat) (value : Int)
    : ∀ c ∈ v.writing width mode param value, c.Sound v := by
  simp only [View.writing, List.forall_mem_cons]
  exact ⟨forbid_sound _ trivial, act_sound _, forbid_sound _ trivial,
    confine_sound proper _ (fun _ => trivial), act_sound _, List.forall_mem_nil _⟩

theorem clauses_sound (proper : width.Proper) (opcode : Opcode)
    : ∀ c ∈ v.clauses width mode opcode, c.Sound v := by
  cases opcode with
  | add | multiply | lessThan | equals =>
    simp only [View.clauses, View.binary, List.forall_mem_append, List.forall_mem_cons]
    exact ⟨reading_sound 0, reading_sound 1, writing_sound proper 2 _, act_sound _,
      List.forall_mem_nil _⟩
  | jumpIfTrue | jumpIfFalse =>
    simp only [View.clauses, View.jump, List.forall_mem_append]
    refine ⟨reading_sound 0, ?_⟩
    split
    . simp only [List.forall_mem_append, List.forall_mem_cons]
      exact ⟨reading_sound 1, forbid_sound _ trivial, act_sound _, List.forall_mem_nil _⟩
    . simp only [List.forall_mem_cons]
      exact ⟨act_sound _, List.forall_mem_nil _⟩
  | input =>
    simp only [View.clauses, View.input, List.forall_mem_cons]
    refine ⟨forbid_sound _ trivial, ?_⟩
    cases v.inputs with
    | nil => exact List.forall_mem_nil _
    | cons value rest =>
      simp only [List.forall_mem_append, List.forall_mem_cons]
      exact ⟨act_sound _, writing_sound proper 0 _, act_sound _, List.forall_mem_nil _⟩
  | output =>
    simp only [View.clauses, List.forall_mem_append, List.forall_mem_cons]
    exact ⟨reading_sound 0, act_sound _, act_sound _, List.forall_mem_nil _⟩
  | adjustBase =>
    simp only [View.clauses, List.forall_mem_append, List.forall_mem_cons]
    exact ⟨reading_sound 0, confine_sound proper _ (fun _ => trivial), act_sound _, act_sound _,
      List.forall_mem_nil _⟩
  | halt => exact List.forall_mem_nil _

end

theorem isHazard_of_decode {word : Int} {cause : Cause}
    (h : Instruction.decode word = .error cause) : cause.IsHazard := by
  unfold Instruction.decode at h
  split at h
  . cases h
    trivial
  . split at h
    . cases h
      trivial
    . split at h
      . contradiction
      . cases h
        trivial

theorem plan_sound {m : Machine} (proper : m.width.Proper) (recordable : ¬ m.Unrecordable)
    : ∀ c ∈ m.plan.clauses, c.Sound m.view := by
  unfold plan View.plan
  split
  . exact List.forall_mem_singleton.mpr (hazard_sound trivial)
  . next inside =>
    cases decoded : Instruction.decode (m.view.cell m.view.ip) with
    | error cause =>
      exact List.forall_mem_singleton.mpr (hazard_sound (isHazard_of_decode decoded))
    | ok instr =>
      have recorded : ¬ (m.tracing = true ∧ ¬ (m.view.entry instr).IsWritable) := by
        rintro ⟨tracing, unwritable⟩
        exact recordable ⟨tracing, Int.not_le.mp inside, instr, decoded, unwritable⟩
      simp only [List.forall_mem_append, List.forall_mem_cons]
      refine ⟨⟨noting_sound recorded, clauses_sound proper instr.opcode⟩, ?_⟩
      split
      . exact List.forall_mem_nil _
      . exact List.forall_mem_singleton.mpr (act_sound _)

variable {m m' : Machine} {e : Failure}

theorem raised_of_step (start : 0 ≤ m.ip) (proper : m.width.Proper) (h : step m = .error e m')
    : m.Unrecordable ∧ e = .unwritable
      ∨ ∃ cause : Cause, cause.IsHazard ∧ e = Fault.raised { cause, ip := some m.ip } := by
  by_cases recordable : m.Unrecordable
  . rw [step_of_unrecordable start recordable] at h
    cases h
    exact .inl ⟨recordable, rfl⟩
  . rw [step_eq_perform start, perform_eq] at h
    cases found : m.plan.clauses.findSome? Clause.hazard? with
    | none =>
      rw [found] at h
      contradiction
    | some hazard =>
      rw [found] at h
      cases h
      obtain ⟨c, mem, found⟩ := List.exists_of_findSome?_eq_some found
      obtain ⟨cause, known, rfl⟩ := plan_sound proper recordable c mem hazard found
      exact .inr ⟨cause, known, rfl⟩

theorem fault_of_step (start : 0 ≤ m.ip) (proper : m.width.Proper) (h : step m = .error e m')
    : e = .unwritable ∨ ∃ cause : Cause, cause.IsHazard ∧ e = .fault { cause, ip := some m.ip } := by
  obtain ⟨-, rfl⟩ | ⟨cause, known, rfl⟩ := raised_of_step start proper h
  . exact .inl rfl
  . obtain written | unwritten := Fault.raised_cases { cause, ip := some m.ip }
    . exact .inr ⟨cause, known, written⟩
    . exact .inl unwritten

end Machine

end Intcode
