import Intcode.Proofs.Lockstep
import Intcode.Proofs.Machine.Reference

/-!
Aborted steps: what is left of an instruction that could not be executed. It has read operands, for
which the memory may have been extended, and it may have taken an input that it could not store.
-/
namespace Intcode

namespace Memory

def extend (m : Memory) (addrs : List Int) : Memory :=
  addrs.foldl (fun m addr => m.grow addr.toNat) m

theorem peek_extend (m : Memory) (addrs : List Int) : (m.extend addrs).peek = m.peek := by
  induction addrs generalizing m with
  | nil => rfl
  | cons addr rest ih =>
    apply (ih (m.grow addr.toNat)).trans
    funext a
    apply peek_grow

theorem size_extend_le {m : Memory} {addrs : List Int} {bound : Nat} (size : m.size ≤ bound)
    (inside : ∀ addr ∈ addrs, 0 ≤ addr ∧ addr < bound) : (m.extend addrs).size ≤ bound := by
  induction addrs generalizing m with
  | nil => exact size
  | cons addr rest ih =>
    rw [List.forall_mem_cons] at inside
    refine ih ?_ inside.2
    rw [size_grow]
    omega

end Memory

namespace View

variable (v : View)

def lookups (mode : Nat → Mode) (opcode : Opcode) : List Int :=
  let source (param : Nat) := [v.slot param, v.location mode param]
  let target (param : Nat) := if mode param = .immediate then [] else [v.slot param]
  match opcode with
  | .add | .multiply | .lessThan | .equals => source 0 ++ source 1 ++ target 2
  | .input => if v.inputs.isEmpty then [] else target 0
  | .output | .adjustBase => source 0
  | .jumpIfTrue => source 0 ++ if v.operand mode 0 ≠ 0 then source 1 else []
  | .jumpIfFalse => source 0 ++ if v.operand mode 0 = 0 then source 1 else []
  | .halt => []

def instruction? (size : Nat) : Option Instruction :=
  if size ≤ v.ip then none else (Instruction.decode (v.cell v.ip)).toOption

def reads (size : Nat) : List Int :=
  match v.instruction? size with
  | some instr => v.lookups instr.mode instr.opcode
  | none => []

def Spills (size : Nat) (w : Width) : Prop :=
  ∃ instr value, v.instruction? size = some instr ∧ instr.opcode = .input
    ∧ instr.mode 0 ≠ .immediate ∧ v.inputs.head? = some value
    ∧ (v.location instr.mode 0 < 0 ∨ ¬ w.Holds value)

end View

namespace Machine

/--
Following these clauses, a machine reads these addresses, up to the first that is negative or to
another hazard behind the last of them, and does nothing else as long as it may fail.
-/
inductive Consults : List Clause → List Int → Prop where
  | settled {cs : List Clause} : (∀ c ∈ cs, c.hazard? = none) → Consults cs []
  | read {addr : Int} {cs : List Clause} {addrs : List Int}
    : 0 ≤ addr → Consults cs addrs → Consults (.act (.touch addr) :: cs) (addr :: addrs)
  | pass {cs : List Clause} {addrs : List Int}
    : Consults cs addrs → Consults (.check none :: cs) addrs
  | refuse {hazard : Hazard} {addr : Int} {cs : List Clause} {addrs : List Int}
    : addr < 0 → Consults (.check (some hazard) :: cs) (addr :: addrs)
  | stop {hazard : Hazard} {cs : List Clause} : Consults (.check (some hazard) :: cs) []

theorem follow_consults {cs : List Clause} {addrs : List Int} {m m' : Machine} {e : Failure}
    (h : Consults cs addrs) (failed : follow cs m = .error e m')
    : m' = { m with memory := m.memory.extend (addrs.takeWhile (0 ≤ ·)) } := by
  induction h generalizing m with
  | settled safe =>
    have none : _ = none := List.findSome?_eq_none_iff.mpr safe
    rw [follow_eq, none] at failed
    contradiction
  | read nonneg _ ih =>
    rw [List.takeWhile_cons_of_pos (by simpa using nonneg)]
    exact ih failed
  | pass _ ih => exact ih failed
  | refuse neg =>
    rw [List.takeWhile_cons_of_neg (by simpa using neg)]
    cases failed
    rfl
  | stop =>
    cases failed
    rfl

section

variable {v : View} {width : Width} {mode : Nat → Mode} {cs : List Clause} {addrs : List Int}

theorem Consults.reading (start : 0 ≤ v.ip) (param : Nat) (h : Consults cs addrs)
    : Consults (v.reading mode param ++ cs) ([v.slot param, v.location mode param] ++ addrs) := by
  have slot : 0 ≤ v.slot param := by
    unfold View.slot
    omega
  apply Consults.read slot
  unfold View.forbid
  split
  . next neg => exact .refuse neg
  . next nonneg => exact .pass (.read (Int.not_lt.mp nonneg) h)

theorem consults_forbid {p : Prop} [Decidable p] {cause : Cause} (h : ¬ p → Consults cs [])
    : Consults (v.forbid p cause :: cs) [] := by
  unfold View.forbid
  split
  . exact .stop
  . next passed => exact .pass (h passed)

theorem consults_confine {value : Int} {cause : Int → Cause} (h : Consults cs [])
    : Consults (v.confine width value cause :: cs) [] := by
  unfold View.confine
  split
  . exact .pass h
  . exact .stop
  . exact .stop

theorem consults_writing (start : 0 ≤ v.ip) (param : Nat) (value : Int)
    (settled : ∀ c ∈ cs, c.hazard? = none)
    : Consults (v.writing width mode param value ++ cs)
        (if mode param = .immediate then [] else [v.slot param]) := by
  have slot : 0 ≤ v.slot param := by
    unfold View.slot
    omega
  unfold View.writing
  by_cases immediate : mode param = .immediate
  . simp only [View.forbid, if_pos immediate]
    exact .stop
  . rw [if_neg immediate, View.forbid, if_neg immediate]
    apply Consults.pass
    apply Consults.read slot
    apply consults_forbid
    intro _
    apply consults_confine
    apply Consults.settled
    exact List.forall_mem_cons.mpr ⟨rfl, settled⟩

theorem consults_jump (start : 0 ≤ v.ip) (opcode : Opcode) (taken : Bool)
    (settled : ∀ c ∈ cs, c.hazard? = none)
    : Consults (v.jump mode opcode taken ++ cs)
        ([v.slot 0, v.location mode 0] ++ if taken then [v.slot 1, v.location mode 1] else []) := by
  have settled (ip : Int) : Consults (.act (.goto ip) :: cs) [] :=
    .settled (List.forall_mem_cons.mpr ⟨rfl, settled⟩)
  unfold View.jump
  rw [List.append_assoc]
  apply Consults.reading start 0
  cases taken with
  | false => exact settled _
  | true =>
    simp only [if_true, List.append_assoc]
    apply Consults.reading start 1
    apply consults_forbid
    intro _
    exact settled _

theorem consults_clauses (start : 0 ≤ v.ip) {opcode : Opcode} (uninterested : opcode ≠ .input)
    (settled : ∀ c ∈ cs, c.hazard? = none)
    : Consults (v.clauses width mode opcode ++ cs) (v.lookups mode opcode) := by
  have jump := @consults_jump v mode cs start
  cases opcode with
  | add | multiply | lessThan | equals =>
    unfold View.clauses View.binary View.lookups
    simp only [List.append_assoc]
    apply Consults.reading start 0
    apply Consults.reading start 1
    apply consults_writing start 2
    exact List.forall_mem_cons.mpr ⟨rfl, settled⟩
  | input => contradiction
  | output =>
    apply Consults.reading start 0
    apply Consults.settled
    exact List.forall_mem_cons.mpr ⟨rfl, List.forall_mem_cons.mpr ⟨rfl, settled⟩⟩
  | jumpIfTrue =>
    have jump := jump .jumpIfTrue (v.operand mode 0 != 0) settled
    simp only [bne_iff_ne] at jump
    exact jump
  | jumpIfFalse =>
    have jump := jump .jumpIfFalse (v.operand mode 0 == 0) settled
    simp only [beq_iff_eq] at jump
    exact jump
  | adjustBase =>
    apply Consults.reading start 0
    apply consults_confine
    apply Consults.settled
    exact List.forall_mem_cons.mpr ⟨rfl, List.forall_mem_cons.mpr ⟨rfl, settled⟩⟩
  | halt => exact .settled settled

end

section

variable {m m' : Machine} {e : Failure} {mode : Nat → Mode} {cs : List Clause}

theorem follow_of_perform {a : α} (failed : perform cs a m = .error e m')
    : follow cs m = .error e m' := by
  unfold perform at failed
  split at failed
  . contradiction
  . next followed =>
    cases failed
    exact followed

theorem follow_of_step (start : 0 ≤ m.ip) (failed : m.step = .error e m')
    : follow m.plan.clauses m = .error e m' := by
  rw [step_eq_perform start] at failed
  exact follow_of_perform failed

theorem unwritable_of_follow (proper : m.width.Proper) {v : View} {width : Width} {param : Nat}
    {value : Int} (same : width = m.width) (direct : mode param ≠ .immediate)
    (settled : ∀ c ∈ cs, c.hazard? = none)
    (failed : follow (v.writing width mode param value ++ cs) m = .error e m')
    : v.location mode param < 0 ∨ ¬ width.Holds value := by
  subst same
  apply Decidable.byContradiction
  intro fine
  rw [not_or, Decidable.not_not] at fine
  have safe : (Reference.unwritable v m.width mode param value).findSome? id = none := by
    simp [Reference.unwritable, Reference.unreachable, direct, fine.1, fine.2]
  rw [follow_eq, List.findSome?_append, Reference.findSome?_writing proper, safe,
    List.findSome?_eq_none_iff.mpr settled] at failed
  contradiction

theorem follow_input (settled : ∀ c ∈ cs, c.hazard? = none)
    (failed : follow (m.view.input m.width mode ++ cs) m = .error e m')
    : mode 0 = .immediate ∧ m' = m
      ∨ mode 0 ≠ .immediate ∧ ∃ value rest later, m.inputs = value :: rest
          ∧ (∀ c ∈ later, c.hazard? = none)
          ∧ follow (m.view.writing m.width mode 0 value ++ later) { m with inputs := rest }
              = .error e m' := by
  unfold View.input View.forbid at failed
  by_cases immediate : mode 0 = .immediate
  . rw [if_pos immediate] at failed
    cases failed
    exact .inl ⟨immediate, rfl⟩
  . rw [if_neg immediate] at failed
    cases queue : m.view.inputs with
    | nil =>
      rw [queue, List.cons_append, follow, List.nil_append, follow_eq,
        List.findSome?_eq_none_iff.mpr settled] at failed
      contradiction
    | cons value rest =>
      rw [queue, List.cons_append, follow, List.cons_append, follow, List.append_assoc] at failed
      have settled (ip : Int) : ∀ c ∈ .act (.goto ip) :: cs, c.hazard? = none :=
        List.forall_mem_cons.mpr ⟨rfl, settled⟩
      have queue : m.inputs = value :: rest := queue
      have popped : Action.pop.apply m = { m with inputs := rest } := by
        simp only [Action.apply, queue, List.tail_cons]
      rw [popped] at failed
      exact .inr ⟨immediate, value, rest, _, queue, settled _, failed⟩

theorem left_of_input (start : 0 ≤ m.ip) (settled : ∀ c ∈ cs, c.hazard? = none)
    (failed : follow (m.view.input m.width mode ++ cs) m = .error e m')
    : m' = { m with
        memory := m.memory.extend ((m.view.lookups mode .input).takeWhile (0 ≤ ·))
        inputs := m'.inputs } := by
  unfold View.lookups
  obtain ⟨immediate, rfl⟩ | ⟨immediate, value, rest, later, queue, settled, failed⟩ :=
    follow_input settled failed
  . simp only [if_pos immediate, ite_self]
    rfl
  . have start : 0 ≤ m.view.ip := start
    have waiting : m.view.inputs.isEmpty = false := by
      rw [show m.view.inputs = value :: rest from queue]
      rfl
    have left := follow_consults (consults_writing start 0 value settled) failed
    simp only [left, waiting, Bool.false_eq_true, if_false]

theorem taken_of_input (start : 0 ≤ m.ip) (proper : m.width.Proper)
    (settled : ∀ c ∈ cs, c.hazard? = none)
    (failed : follow (m.view.input m.width mode ++ cs) m = .error e m')
    : mode 0 = .immediate ∧ m'.inputs = m.inputs
      ∨ mode 0 ≠ .immediate ∧ ∃ value, m.inputs = value :: m'.inputs
          ∧ (m.view.location mode 0 < 0 ∨ ¬ m.width.Holds value) := by
  obtain ⟨immediate, rfl⟩ | ⟨direct, value, rest, later, queue, settled, failed⟩ :=
    follow_input settled failed
  . exact .inl ⟨immediate, rfl⟩
  . have unstorable := unwritable_of_follow (m := { m with inputs := rest }) proper rfl direct
      settled failed
    have start : 0 ≤ m.view.ip := start
    have kept : m'.inputs = rest := by
      rw [follow_consults (consults_writing start 0 value settled) failed]
    refine .inr ⟨direct, value, ?_, unstorable⟩
    rw [kept]
    exact queue

theorem follow_of_failed (start : 0 ≤ m.ip) (failed : m.step = .error e m')
    (recordable : ¬ m.Unrecordable)
    : m.view.instruction? m.memory.size = none ∧ m' = m
      ∨ ∃ instr later, m.view.instruction? m.memory.size = some instr
          ∧ (∀ c ∈ later, c.hazard? = none)
          ∧ follow (m.view.clauses m.width instr.mode instr.opcode ++ later) m = .error e m' := by
  unfold View.instruction?
  by_cases outside : m.memory.size ≤ m.view.ip
  . have failed := follow_of_step start failed
    unfold plan View.plan at failed
    rw [if_pos outside] at failed
    cases failed
    rw [if_pos outside]
    exact .inl ⟨rfl, rfl⟩
  . rw [if_neg outside]
    cases decoded : Instruction.decode (m.view.cell m.view.ip) with
    | error cause =>
      have failed := follow_of_step start failed
      unfold plan View.plan at failed
      rw [if_neg outside, decoded] at failed
      cases failed
      exact .inl ⟨rfl, rfl⟩
    | ok instr =>
      rw [step_of_recordable start (Int.not_le.mp outside) decoded recordable] at failed
      refine .inr ⟨instr, _, rfl, ?_, follow_of_perform failed⟩
      split
      . exact List.forall_mem_nil _
      . exact List.forall_mem_singleton.mpr rfl

theorem left_of_recordable (start : 0 ≤ m.ip) (failed : m.step = .error e m')
    (recordable : ¬ m.Unrecordable)
    : m' = { m with
        memory := m.memory.extend ((m.view.reads m.memory.size).takeWhile (0 ≤ ·))
        inputs := m'.inputs } := by
  unfold View.reads
  obtain ⟨none, rfl⟩ | ⟨instr, later, next, settled, failed⟩ :=
    follow_of_failed start failed recordable
  . rw [none]
    rfl
  . rw [next]
    dsimp only
    by_cases input : instr.opcode = .input
    . rw [input] at failed ⊢
      exact left_of_input start settled failed
    . have left := follow_consults (consults_clauses start input settled) failed
      have kept : m'.inputs = m.inputs := by rw [left]
      rw [kept]
      exact left

theorem left_of_failed (start : 0 ≤ m.ip) (failed : m.step = .error e m')
    : ∃ addrs, m' = { m with memory := m.memory.extend addrs, inputs := m'.inputs } := by
  by_cases unrecordable : m.Unrecordable
  . rw [step_of_unrecordable start unrecordable] at failed
    cases failed
    exact ⟨[], rfl⟩
  . exact ⟨_, left_of_recordable start failed unrecordable⟩

theorem taken_of_failed (start : 0 ≤ m.ip) (proper : m.width.Proper)
    (failed : m.step = .error e m') (recordable : ¬ m.Unrecordable)
    : (m.view.Spills m.memory.size m.width → ∃ value, m.inputs = value :: m'.inputs)
      ∧ (¬ m.view.Spills m.memory.size m.width → m'.inputs = m.inputs) := by
  unfold View.Spills
  obtain ⟨none, rfl⟩ | ⟨instr, later, next, settled, failed⟩ :=
    follow_of_failed start failed recordable
  . rw [none]
    exact ⟨by rintro ⟨_, _, ⟨⟩, _⟩, fun _ => rfl⟩
  . rw [next]
    by_cases input : instr.opcode = .input
    . rw [input] at failed
      have taken := taken_of_input start proper settled failed
      constructor
      . rintro ⟨_, value, ⟨⟩, _, direct, _, _⟩
        obtain ⟨immediate, _⟩ | ⟨_, value, queue, _⟩ := taken
        . contradiction
        . exact ⟨value, queue⟩
      . intro kept
        obtain ⟨_, same⟩ | ⟨direct, value, queue, unstorable⟩ := taken
        . exact same
        . apply absurd _ kept
          have first : m.view.inputs.head? = some value := congrArg List.head? queue
          exact ⟨instr, value, rfl, input, direct, first, unstorable⟩
    . constructor
      . rintro ⟨_, _, ⟨⟩, spills, _⟩
        exact absurd spills input
      . intro _
        rw [follow_consults (consults_clauses start input settled) failed]

theorem recordable_of_fault {fault : Fault} (start : 0 ≤ m.ip)
    (failed : m.step = .error (.fault fault) m') : ¬ m.Unrecordable := by
  intro unrecordable
  rw [step_of_unrecordable start unrecordable] at failed
  cases failed

/--
A step that fails has not changed the machine, but for zeros up to the operands that it has read and
for the input that it took and could not store.
-/
theorem fault_aborts {fault : Fault} (start : 0 ≤ m.ip) (proper : m.width.Proper)
    (failed : m.step = .error (.fault fault) m')
    : m' = { m with
        memory := m.memory.extend ((m.view.reads m.memory.size).takeWhile (0 ≤ ·))
        inputs := m'.inputs }
      ∧ m'.memory.peek = m.memory.peek
      ∧ (∀ bound : Nat, m.memory.size ≤ bound
          → (∀ addr ∈ m.view.reads m.memory.size, addr < bound) → m'.memory.size ≤ bound)
      ∧ (m.view.Spills m.memory.size m.width → ∃ value, m.inputs = value :: m'.inputs)
      ∧ (¬ m.view.Spills m.memory.size m.width → m'.inputs = m.inputs) := by
  have recordable := recordable_of_fault start failed
  have left := left_of_recordable start failed recordable
  obtain ⟨spilt, kept⟩ := taken_of_failed start proper failed recordable
  have cells : m'.memory.peek = m.memory.peek := by
    rw [left]
    apply Memory.peek_extend
  refine ⟨left, cells, ?_, spilt, kept⟩
  intro bound size inside
  rw [left]
  apply Memory.size_extend_le size
  intro addr mem
  have nonneg := List.all_eq_true.mp List.all_takeWhile addr mem
  exact ⟨of_decide_eq_true nonneg, inside addr ((List.takeWhile_sublist _).mem mem)⟩

theorem fault_aborts_unstorable
    : let m : Machine :=
        { width := .bits 8
          memory := (Memory.ofImage [203]).watch 0 1
          base := -1
          inputs := [7, 8]
          pending := some 5 }
      0 ≤ m.ip ∧ m.width.Proper ∧ m.view.Spills m.memory.size m.width
        ∧ ∃ fault m', m.step = .error (.fault fault) m'
            ∧ m' = { m with memory := m.memory.extend [1], inputs := m'.inputs }
            ∧ m'.memory.size ≤ 2
            ∧ ∃ value, m.inputs = value :: m'.inputs := by
  intro m
  have start : 0 ≤ m.ip := by decide
  have proper : m.width.Proper := by decide
  have next : m.view.instruction? m.memory.size
      = some { opcode := .input, modes := [.relative] } := by
    decide +kernel
  have reads : m.view.reads m.memory.size = [1] := by decide +kernel
  have spills : m.view.Spills m.memory.size m.width :=
    ⟨_, 7, next, rfl, by decide, rfl, .inl (by decide)⟩
  have fails : outcome m.step
      = .error (.fault { cause := .negativeEffectiveAddress (-1), ip := some 0 }) := by
    decide +kernel
  refine ⟨start, proper, spills, ?_⟩
  cases stepped : m.step with
  | ok reason m' =>
    rw [stepped] at fails
    contradiction
  | error e m' =>
    rw [stepped] at fails
    obtain rfl := Except.error.inj fails
    obtain ⟨left, -, size, taken, -⟩ := fault_aborts start proper stepped
    rw [reads] at left size
    exact ⟨_, m', rfl, left, size 2 (by decide) (by decide), taken spills⟩

end

end Machine

end Intcode
