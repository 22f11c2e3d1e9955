import Intcode.Proofs.Machine.Hazard
import Intcode.Proofs.Machine.Reference

namespace Intcode

theorem View.reason_cases (v : View) (opcode : Opcode)
    : match v.reason opcode with
      | none => opcode ≠ .output
      | some .output => opcode = .output
      | some .halt => opcode = .halt
      | some .needInput => opcode = .input ∧ v.inputs = [] := by
  unfold View.reason
  cases opcode with
  | input =>
    cases v.inputs with
    | nil => exact ⟨rfl, rfl⟩
    | cons value rest => exact nofun
  | output | halt => rfl
  | _ => exact nofun

def Machine.Clause.Plain (opcode : Opcode) : Machine.Clause → Prop
  | .act (.emit _) => opcode = .output
  | .act (.count _) => False
  | _ => True

theorem View.plain_clauses (v : View) (width : Width) (mode : Nat → Mode) (opcode : Opcode)
    : ∀ c ∈ v.clauses width mode opcode, c.Plain opcode := by
  cases opcode with
  | add | multiply | lessThan | equals =>
    simp [View.clauses, View.binary, View.reading, View.writing, View.forbid, View.confine,
      Machine.Clause.Plain]
  | jumpIfTrue | jumpIfFalse =>
    unfold View.clauses View.jump
    dsimp only
    split
    . simp [View.reading, View.forbid, Machine.Clause.Plain]
    . simp [View.reading, View.forbid, Machine.Clause.Plain]
  | input =>
    unfold View.clauses View.input
    cases v.inputs with
    | nil => simp [View.forbid, Machine.Clause.Plain]
    | cons value rest =>
      simp [View.writing, View.forbid, View.confine, Machine.Clause.Plain]
  | output => simp [View.clauses, View.reading, View.forbid, Machine.Clause.Plain]
  | adjustBase =>
    simp [View.clauses, View.reading, View.forbid, View.confine, Machine.Clause.Plain]
  | halt => exact List.forall_mem_nil _

theorem View.uncounted_clauses (v : View) (width : Width) (mode : Nat → Mode) (opcode : Opcode)
    (entry : Option TraceEntry) : .act (.count entry) ∉ v.clauses width mode opcode :=
  v.plain_clauses width mode opcode (.act (.count entry))

namespace Machine

variable {m m' : Machine}

theorem instruction_of_step {reason : Option StopReason} (start : 0 ≤ m.ip)
    (h : step m = .ok reason m')
    : ∃ instr entry, ¬ m.memory.size ≤ m.view.ip
        ∧ Instruction.decode (m.view.cell m.view.ip) = .ok instr
        ∧ entry = (if m.tracing then some (m.view.entry instr) else none)
        ∧ (m.tracing = true → (m.view.entry instr).IsWritable)
        ∧ reason = m.view.reason instr.opcode
        ∧ (m.view.clauses m.width instr.mode instr.opcode).findSome? Clause.hazard? = none
        ∧ m' = enact (m.view.clauses m.width instr.mode instr.opcode
            ++ if reason = some .needInput then [] else [.act (.count entry)]) m := by
  rw [step_eq_perform start, perform_eq] at h
  cases found : m.plan.clauses.findSome? Clause.hazard? with
  | some e =>
    rw [found] at h
    contradiction
  | none =>
    rw [found] at h
    cases h
    unfold plan View.plan at found ⊢
    split at found
    . contradiction
    . next inside =>
      rw [if_neg inside]
      cases decoded : Instruction.decode (m.view.cell m.view.ip) with
      | error cause =>
        rw [decoded] at found
        contradiction
      | ok instr =>
        rw [decoded, List.findSome?_append, Option.or_eq_none_iff, View.noting,
          Reference.findSome?_cons_check, Option.or_eq_none_iff] at found
        obtain ⟨⟨noted, safe⟩, -⟩ := found
        refine ⟨instr, _, inside, rfl, rfl, ?_, rfl, safe, rfl⟩
        intro tracing
        apply Decidable.of_not_not
        intro unwritable
        rw [if_pos ⟨tracing, unwritable⟩] at noted
        contradiction

theorem emitted_of_output (start : 0 ≤ m.ip) (h : step m = .ok (some .output) m')
    : ∃ instr, Instruction.decode (m.view.cell m.view.ip) = .ok instr ∧ instr.opcode = .output
        ∧ m'.view = { m.view with ip := m.view.ip + 2 }
        ∧ m'.pending = some (m.view.operand instr.mode 0) := by
  obtain ⟨instr, entry, -, decoded, -, -, reason, -, rfl⟩ := instruction_of_step start h
  have opcode := m.view.reason_cases instr.opcode
  rw [← reason] at opcode
  refine ⟨instr, decoded, opcode, ?_, ?_⟩
  . rw [opcode, if_neg (by decide)]
    simp only [View.clauses, enact_append, enact, view_count, Reference.view_goto,
      Reference.view_emit, Reference.view_enact_reading]
    rfl
  . rw [opcode]
    cases entry with
    | none => rfl
    | some entry => rfl

theorem pending_of_output (start : 0 ≤ m.ip) (h : step m = .ok (some .output) m')
    : ∃ value, m'.pending = some value := by
  obtain ⟨instr, -, -, -, pending⟩ := emitted_of_output start h
  exact ⟨_, pending⟩

theorem view_of_halt (start : 0 ≤ m.ip) (h : step m = .ok (some .halt) m')
    : ∃ instr, Instruction.decode (m.view.cell m.view.ip) = .ok instr ∧ instr.opcode = .halt
        ∧ m'.view = m.view ∧ m'.pending = m.pending := by
  obtain ⟨instr, entry, -, decoded, -, -, reason, -, rfl⟩ := instruction_of_step start h
  have opcode := m.view.reason_cases instr.opcode
  rw [← reason] at opcode
  refine ⟨instr, decoded, opcode, ?_, ?_⟩
  . rw [opcode]
    apply view_count
  . rw [opcode]
    cases entry with
    | none => rfl
    | some entry => rfl

theorem starved_of_needInput (start : 0 ≤ m.ip) (h : step m = .ok (some .needInput) m')
    : m.inputs = []
        ∧ ∃ instr, Instruction.decode (m.view.cell m.view.ip) = .ok instr ∧ instr.opcode = .input
          ∧ instr.mode 0 ≠ .immediate := by
  obtain ⟨instr, entry, -, decoded, -, -, reason, safe, -⟩ := instruction_of_step start h
  have starved := m.view.reason_cases instr.opcode
  rw [← reason] at starved
  obtain ⟨opcode, empty⟩ := starved
  refine ⟨empty, instr, decoded, opcode, ?_⟩
  intro immediate
  rw [opcode, View.clauses, View.input, View.forbid, if_pos immediate] at safe
  contradiction

theorem eq_of_needInput (start : 0 ≤ m.ip) (h : step m = .ok (some .needInput) m') : m' = m := by
  obtain ⟨instr, entry, -, -, -, -, reason, -, rfl⟩ := instruction_of_step start h
  have starved := m.view.reason_cases instr.opcode
  rw [← reason] at starved
  obtain ⟨opcode, empty⟩ := starved
  rw [if_pos rfl, List.append_nil, opcode]
  unfold View.clauses View.input
  rw [empty]
  rfl

theorem pending_of_step (start : 0 ≤ m.ip) (h : step m = .ok none m')
    : m'.pending = m.pending := by
  obtain ⟨instr, entry, -, -, -, -, reason, -, rfl⟩ := instruction_of_step start h
  have quiet := m.view.reason_cases instr.opcode
  rw [← reason] at quiet
  apply Reference.pending_enact
  intro value emits
  rw [List.mem_append] at emits
  cases emits with
  | inl emits => exact quiet (m.view.plain_clauses _ _ _ _ emits)
  | inr counts => simp at counts

end Machine

end Intcode
