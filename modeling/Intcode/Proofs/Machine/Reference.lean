import Intcode.Proofs.Instruction.Digits
import Intcode.Proofs.Machine.Execution
import Intcode.Proofs.Width.Range
import Mathlib.Logic.Function.Basic

/-!
The reference: what a step has to do, said without an order of reads and writes on a memory that is
a total function. For each opcode there are the hazards that keep it from being executed, the first
of which is reported, and the effect that it has when there are none.
-/
namespace Intcode

namespace Reference

inductive Outcome where
  | fault (cause : Cause)
  | stalled
  | done (next : View) (stop : Option StopReason) (emitted : Option Int)

section

variable (v : View) (width : Width) (mode : Nat → Mode)

def unreachable (param : Nat) : Option Cause :=
  let addr := v.location mode param
  if addr < 0 then some (.negativeEffectiveAddress addr) else none

def unwritable (param : Nat) (value : Int) : List (Option Cause) :=
  let addr := v.location mode param
  [if mode param = .immediate then some .immediateDestination else none,
    unreachable v mode param,
    if width.Holds value then none else some (.cellOverflow value addr width.bitCount)]

def hazards (opcode : Opcode) : List (Option Cause) :=
  let a := v.operand mode 0
  let b := v.operand mode 1
  let storing (value : Int) :=
    [unreachable v mode 0, unreachable v mode 1] ++ unwritable v width mode 2 value
  let jumping (taken : Prop) [Decidable taken] :=
    unreachable v mode 0 ::
      if taken then
        [unreachable v mode 1, if b < 0 then some (.negativeJump b) else none]
      else
        []
  match opcode with
  | .add => storing (a + b)
  | .multiply => storing (a * b)
  | .lessThan => storing (if a < b then 1 else 0)
  | .equals => storing (if a = b then 1 else 0)
  | .input =>
    match v.inputs with
    | [] => [if mode 0 = .immediate then some .immediateDestination else none]
    | value :: _ => unwritable v width mode 0 value
  | .output => [unreachable v mode 0]
  | .jumpIfTrue => jumping (a ≠ 0)
  | .jumpIfFalse => jumping (a = 0)
  | .adjustBase =>
    [unreachable v mode 0,
      if width.Holds (v.base + a) then none else some (.baseOverflow (v.base + a) width.bitCount)]
  | .halt => []

def effect (opcode : Opcode) : Outcome :=
  let a := v.operand mode 0
  let b := v.operand mode 1
  let store (param : Nat) (value : Int) := Function.update v.cell (v.location mode param) value
  match opcode with
  | .add => .done { v with cell := store 2 (a + b), ip := v.ip + 4 } none none
  | .multiply => .done { v with cell := store 2 (a * b), ip := v.ip + 4 } none none
  | .lessThan =>
    .done { v with cell := store 2 (if a < b then 1 else 0), ip := v.ip + 4 } none none
  | .equals => .done { v with cell := store 2 (if a = b then 1 else 0), ip := v.ip + 4 } none none
  | .input =>
    match v.inputs with
    | [] => .stalled
    | value :: rest =>
      .done { v with cell := store 0 value, ip := v.ip + 2, inputs := rest } none none
  | .output => .done { v with ip := v.ip + 2 } (some .output) (some a)
  | .jumpIfTrue => .done { v with ip := if a ≠ 0 then b else v.ip + 3 } none none
  | .jumpIfFalse => .done { v with ip := if a = 0 then b else v.ip + 3 } none none
  | .adjustBase => .done { v with base := v.base + a, ip := v.ip + 2 } none none
  | .halt => .done v (some .halt) none

end

def step (width : Width) (size : Nat) (v : View) : Outcome :=
  let word := v.cell v.ip
  if size ≤ v.ip then
    .fault .ranOffEnd
  else if word < 0 then
    .fault (.unknownOpcode word word)
  else
    match Opcode.ofCode? (word % 100).toNat with
    | none => .fault (.unknownOpcode (word % 100) word)
    | some opcode =>
      let digits := Instruction.modeDigits word
      match digits.find? (2 < ·) with
      | some digit => .fault (.unknownMode digit word)
      | none =>
        let mode param := Instruction.modeOf (digits.getD param 0)
        match (hazards v width mode opcode).findSome? id with
        | some cause => .fault cause
        | none => effect v mode opcode

theorem findSome?_id_cons (hazard : Option α) (rest : List (Option α))
    : (hazard :: rest).findSome? id = hazard.or (rest.findSome? id) := by
  cases hazard with
  | none => rfl
  | some a => rfl

theorem findSome?_cons_act (action : Machine.Action) (rest : List Machine.Clause)
    : (.act action :: rest : List Machine.Clause).findSome? Machine.Clause.hazard?
        =
      rest.findSome? Machine.Clause.hazard? := rfl

theorem findSome?_cons_check (hazard : Option Machine.Hazard) (rest : List Machine.Clause)
    : (.check hazard :: rest : List Machine.Clause).findSome? Machine.Clause.hazard?
        =
      hazard.or (rest.findSome? Machine.Clause.hazard?) := by
  cases hazard with
  | none => rfl
  | some e => rfl

section

variable {v : View} {width : Width} {mode : Nat → Mode}

theorem forbid_eq (p : Prop) [Decidable p] (cause : Cause)
    : v.forbid p cause = .check ((if p then some cause else none).map v.hazard) := by
  unfold View.forbid
  split
  . rfl
  . rfl

theorem confine_eq (proper : width.Proper) (value : Int) (cause : Int → Cause)
    : v.confine width value cause
        =
      .check
        ((if width.Holds value then none else some (cause width.bitCount)).map v.hazard) := by
  unfold View.confine
  rw [Width.fits_eq proper]
  by_cases h : width.Holds value
  . rw [decide_eq_true h, if_pos h]
    rfl
  . rw [decide_eq_false h, if_neg h]
    rfl

theorem findSome?_reading (param : Nat)
    : (v.reading mode param).findSome? Machine.Clause.hazard?
        =
      (unreachable v mode param).map v.hazard := by
  unfold View.reading
  rw [forbid_eq, findSome?_cons_act, findSome?_cons_check]
  simp only [unreachable, List.findSome?_cons, Machine.Clause.hazard?, List.findSome?_nil,
    Option.or_none]

theorem findSome?_writing (proper : width.Proper) (param : Nat) (value : Int)
    : (v.writing width mode param value).findSome? Machine.Clause.hazard?
        =
      ((unwritable v width mode param value).findSome? id).map v.hazard := by
  unfold View.writing unwritable
  simp only [forbid_eq, confine_eq proper, findSome?_cons_act, findSome?_cons_check,
    findSome?_id_cons, Option.map_or, unreachable, List.findSome?_nil, Option.map_none]

theorem findSome?_binary (proper : width.Proper) (opcode : Opcode) (value : Int)
    : (v.binary width mode opcode value).findSome? Machine.Clause.hazard?
        =
      (([unreachable v mode 0, unreachable v mode 1]
        ++ unwritable v width mode 2 value).findSome? id).map v.hazard := by
  unfold View.binary
  simp only [List.findSome?_append, findSome?_reading, findSome?_writing proper,
    findSome?_id_cons, findSome?_cons_act, List.findSome?_nil, Option.map_or, Option.or_none,
    Option.or_assoc]

theorem findSome?_jump (opcode : Opcode) (taken : Bool)
    : (v.jump mode opcode taken).findSome? Machine.Clause.hazard?
        =
      ((unreachable v mode 0 ::
        if taken then
          [unreachable v mode 1,
            if v.operand mode 1 < 0 then some (.negativeJump (v.operand mode 1)) else none]
        else
          []).findSome? id).map v.hazard := by
  unfold View.jump
  rw [List.findSome?_append, findSome?_reading, findSome?_id_cons, Option.map_or]
  congr 1
  cases taken with
  | false => rfl
  | true =>
    simp only [if_true, List.findSome?_append, findSome?_reading, forbid_eq, findSome?_id_cons,
      findSome?_cons_check, findSome?_cons_act, List.findSome?_nil, Option.or_none, Option.map_or]

theorem findSome?_input (proper : width.Proper)
    : (v.input width mode).findSome? Machine.Clause.hazard?
        =
      ((hazards v width mode .input).findSome? id).map v.hazard := by
  unfold View.input hazards
  rw [forbid_eq, findSome?_cons_check]
  cases v.inputs with
  | nil => simp only [findSome?_id_cons, List.findSome?_nil, Option.or_none]
  | cons value rest =>
    -- The mode is checked once before the queue is looked at and once for the store.
    simp only [findSome?_cons_act, List.findSome?_append, findSome?_writing proper, unwritable,
      findSome?_id_cons, List.findSome?_nil, Option.or_none, ← Option.map_or, ← Option.or_assoc,
      Option.or_self]

theorem findSome?_clauses (proper : width.Proper) (opcode : Opcode)
    : (v.clauses width mode opcode).findSome? Machine.Clause.hazard?
        =
      ((hazards v width mode opcode).findSome? id).map v.hazard := by
  cases opcode with
  | add | multiply | lessThan | equals => apply findSome?_binary proper
  | input => exact findSome?_input proper
  | output =>
    simp only [View.clauses, hazards, List.findSome?_append, findSome?_reading,
      findSome?_id_cons, findSome?_cons_act, List.findSome?_nil, Option.or_none]
  | jumpIfTrue =>
    simp only [View.clauses, hazards, findSome?_jump, bne_iff_ne]
  | jumpIfFalse =>
    simp only [View.clauses, hazards, findSome?_jump, beq_iff_eq]
  | adjustBase =>
    simp only [View.clauses, hazards, List.findSome?_append, findSome?_reading, confine_eq proper,
      findSome?_id_cons, findSome?_cons_check, findSome?_cons_act, List.findSome?_nil,
      Option.or_none, Option.map_or]
  | halt => rfl

theorem location_nonneg {param : Nat} (h : unreachable v mode param = none)
    : 0 ≤ v.location mode param := by
  by_cases neg : v.location mode param < 0
  . simp only [unreachable, if_pos neg] at h
    contradiction
  . omega

theorem location_nonneg_of_unwritable {param : Nat} {value : Int}
    (h : (unwritable v width mode param value).findSome? id = none)
    : 0 ≤ v.location mode param := by
  rw [List.findSome?_eq_none_iff] at h
  apply location_nonneg
  apply h
  unfold unwritable
  exact List.mem_cons_of_mem _ List.mem_cons_self

end

open Machine

variable {m : Machine}

theorem view_put {addr : Int} (value : Int) (inside : 0 ≤ addr)
    : ((Action.put addr value).apply m).view
        =
      { m.view with cell := Function.update m.view.cell addr value } := by
  simp only [view, Action.apply, View.mk.injEq, and_self, and_true]
  funext a
  rw [Memory.peek_set, Int.toNat_of_nonneg inside, Function.update_apply]

theorem view_goto (ip : Int) : ((Action.goto ip).apply m).view = { m.view with ip } := rfl

theorem view_emit (value : Int) : ((Action.emit value).apply m).view = m.view := rfl

theorem view_rebase (base : Int) : ((Action.rebase base).apply m).view = { m.view with base } := rfl

theorem view_enact_reading (v : View) (mode : Nat → Mode) (param : Nat)
    : (enact (v.reading mode param) m).view = m.view := by
  simp only [View.reading, View.forbid, enact, view_touch]

theorem view_enact_writing {v : View} {width : Width} {mode : Nat → Mode} {param : Nat}
    {value : Int} (inside : 0 ≤ v.location mode param)
    : (enact (v.writing width mode param value) m).view
        =
      { m.view with cell := Function.update m.view.cell (v.location mode param) value } := by
  simp only [View.writing, View.forbid, View.confine, enact, view_put _ inside, view_touch]

theorem pending_enact {cs : List Clause} (silent : ∀ value, .act (.emit value) ∉ cs)
    : (enact cs m).pending = m.pending := by
  fun_induction enact cs m with
  | case1 => rfl
  | case2 action rest m ih =>
    rw [ih (fun value mem => silent value (List.mem_cons_of_mem _ mem))]
    cases action with
    | emit value => exact absurd List.mem_cons_self (silent value)
    | count entry =>
      cases entry with
      | none => rfl
      | some entry => rfl
    | _ => rfl
  | case3 hazard rest m ih =>
    exact ih (fun value mem => silent value (List.mem_cons_of_mem _ mem))

theorem view_enact_binary {width : Width} {mode : Nat → Mode} {opcode : Opcode} {value : Int}
    (inside : 0 ≤ m.view.location mode 2)
    : (enact (m.view.binary width mode opcode value) m).view
        =
      { m.view with
        cell := Function.update m.view.cell (m.view.location mode 2) value
        ip := m.view.next opcode } := by
  unfold View.binary
  simp only [enact_append, enact, view_goto, view_enact_writing inside, view_enact_reading]

theorem pending_enact_binary {width : Width} {mode : Nat → Mode} {opcode : Opcode} {value : Int}
    : (enact (m.view.binary width mode opcode value) m).pending = m.pending := by
  apply pending_enact
  simp [View.binary, View.reading, View.writing, View.forbid, View.confine]

theorem view_enact_jump {mode : Nat → Mode} {opcode : Opcode} {taken : Bool}
    : (enact (m.view.jump mode opcode taken) m).view
        =
      { m.view with ip := if taken then m.view.operand mode 1 else m.view.next opcode } := by
  unfold View.jump
  rw [enact_append]
  cases taken with
  | false =>
    simp only [Bool.false_eq_true, if_false, enact, view_goto, view_enact_reading]
  | true =>
    simp only [if_true, enact_append, View.forbid, enact, view_goto, view_enact_reading]

theorem pending_enact_jump {mode : Nat → Mode} {opcode : Opcode} {taken : Bool}
    : (enact (m.view.jump mode opcode taken) m).pending = m.pending := by
  apply pending_enact
  cases taken with
  | false => simp [View.jump, View.reading, View.forbid]
  | true => simp [View.jump, View.reading, View.forbid]

def Outcome.Describes (m : Machine) (result : EStateM.Result Failure Machine (Option StopReason))
    : Outcome → Prop
  | fault cause =>
    ∃ m', result
      = .error
        (if ∀ v ∈ m.ip :: cause.numbers, Numeral.Short v then
          .fault { cause, ip := some m.ip }
        else
          .unwritable)
        m'
  | stalled => result = .ok (some .needInput) m
  | done next stop emitted =>
    ∃ m', result = .ok stop m' ∧ m'.view = next ∧ m'.pending = emitted.or m.pending

theorem Outcome.describes_fault (cause : Cause) (m' : Machine)
    : (fault cause).Describes m (.error (m.view.fault cause) m') :=
  ⟨m', by rw [View.fault_eq]; rfl⟩

theorem effect_describes {mode : Nat → Mode} {opcode : Opcode} {width : Width}
    (safe : (hazards m.view width mode opcode).findSome? id = none)
    : (effect m.view mode opcode).Describes m
        (.ok (m.view.reason opcode) (enact (m.view.clauses width mode opcode) m)) := by
  cases opcode with
  | add | multiply | lessThan | equals =>
    unfold hazards at safe
    rw [List.findSome?_append, Option.or_eq_none_iff] at safe
    have inside := location_nonneg_of_unwritable safe.2
    exact ⟨_, rfl, view_enact_binary inside, pending_enact_binary⟩
  | jumpIfTrue =>
    refine ⟨_, rfl, ?_, pending_enact_jump⟩
    simp only [View.clauses, view_enact_jump, bne_iff_ne]
    rfl
  | jumpIfFalse =>
    refine ⟨_, rfl, ?_, pending_enact_jump⟩
    simp only [View.clauses, view_enact_jump, beq_iff_eq]
    rfl
  | input =>
    unfold hazards at safe
    simp only [effect, View.clauses, View.input, View.reason, View.forbid, enact]
    cases queue : m.view.inputs with
    | nil => rfl
    | cons value rest =>
      rw [queue] at safe
      have inside := location_nonneg_of_unwritable safe
      have popped : ((Action.pop).apply m).view = { m.view with inputs := rest } := by
        simp only [view] at queue
        simp only [view, Action.apply, queue, List.tail_cons]
      refine ⟨_, rfl, ?_, ?_⟩
      . simp only [enact_append, enact, view_goto, view_enact_writing inside, popped]
        rfl
      . apply pending_enact
        simp [View.writing, View.forbid, View.confine]
  | output =>
    refine ⟨_, rfl, ?_, rfl⟩
    simp only [View.clauses, enact_append, enact, view_goto, view_emit, view_enact_reading]
    rfl
  | adjustBase =>
    refine ⟨_, rfl, ?_, rfl⟩
    simp only [View.clauses, View.confine, enact_append, enact, view_goto, view_rebase,
      view_enact_reading]
    rfl
  | halt => exact ⟨_, rfl, rfl, rfl⟩

theorem Outcome.Describes.count {stop : Option StopReason} {outcome : Outcome} {m' : Machine}
    (h : outcome.Describes m (.ok stop m')) (going : stop ≠ some .needInput)
    (entry : Option TraceEntry)
    : outcome.Describes m (.ok stop ((Action.count entry).apply m')) := by
  cases outcome with
  | fault cause =>
    obtain ⟨_, h⟩ := h
    cases h
  | stalled =>
    cases h
    contradiction
  | done next stop emitted =>
    obtain ⟨_, h, hview, hpending⟩ := h
    cases h
    refine ⟨_, rfl, ?_, ?_⟩
    . rw [view_count, hview]
    . rw [← hpending]
      cases entry with
      | none => rfl
      | some entry => rfl

theorem perform_describes {mode : Nat → Mode} {opcode : Opcode} {entry : Option TraceEntry}
    (proper : m.width.Proper)
    : (match (hazards m.view m.width mode opcode).findSome? id with
        | some cause => .fault cause
        | none => effect m.view mode opcode : Outcome).Describes m
      (perform
        (m.view.clauses m.width mode opcode
          ++ if m.view.reason opcode = some .needInput then [] else [.act (.count entry)])
        (m.view.reason opcode) m) := by
  -- That an instruction is counted in the end cannot fail.
  have uncounted : (if m.view.reason opcode = some .needInput then []
      else [.act (.count entry)] : List Clause).findSome? Clause.hazard? = none := by
    split
    . rfl
    . rfl
  rw [perform_eq, List.findSome?_append, findSome?_clauses proper, uncounted, Option.or_none]
  cases safe : (hazards m.view m.width mode opcode).findSome? id with
  | some cause => exact Outcome.describes_fault cause _
  | none =>
    have described := effect_describes safe
    simp only [Option.map_none, enact_append]
    split
    . exact described
    . next going => exact described.count going entry

theorem step_eq_of_decode (width : Width) (size : Nat) (v : View)
    : step width size v
        =
      if size ≤ v.ip then
        .fault .ranOffEnd
      else
        match Instruction.decode (v.cell v.ip) with
        | .error cause => .fault cause
        | .ok instr =>
          match (hazards v width instr.mode instr.opcode).findSome? id with
          | some cause => .fault cause
          | none => effect v instr.mode instr.opcode := by
  unfold step
  rw [Instruction.decode_eq]
  dsimp only
  split
  . rfl
  . split
    . rfl
    . cases Opcode.ofCode? (v.cell v.ip % 100).toNat with
      | none => rfl
      | some opcode =>
        cases (Instruction.modeDigits (v.cell v.ip)).find? (2 < ·) with
        | some digit => rfl
        | none =>
          dsimp only
          rw [Instruction.mode_map_modeOf]

/--
A step does what the reference says, whatever the memory holds and however long it is; but a fault
whose message has a number of too many digits is not raised as one. A machine that writes a trace
does the same, unless there is such a number in the line for the instruction, and then nothing.
-/
theorem step_describes (m : Machine) (start : 0 ≤ m.ip) (proper : m.width.Proper)
    : (¬ m.Unrecordable → (step m.width m.memory.size m.view).Describes m m.step)
        ∧ (m.Unrecordable → m.step = .error .unwritable m) := by
  refine ⟨?_, step_of_unrecordable start⟩
  intro recordable
  rw [step_eq_of_decode]
  by_cases outside : m.memory.size ≤ m.view.ip
  . rw [if_pos outside, step_eq_perform start]
    unfold plan View.plan
    rw [if_pos outside]
    exact Outcome.describes_fault .ranOffEnd m
  . rw [if_neg outside]
    have inside := Int.not_le.mp outside
    cases decoded : Instruction.decode (m.view.cell m.view.ip) with
    | error cause =>
      rw [step_eq_perform start]
      unfold plan View.plan
      rw [if_neg outside, decoded]
      exact Outcome.describes_fault cause m
    | ok instr =>
      rw [step_of_recordable start inside decoded recordable]
      exact perform_describes proper

theorem step_describes_own_word
    : let m : Machine := { width := .bits 12, memory := .ofImage [1201, 2, 1], base := -1 }
      0 ≤ m.ip ∧ m.width.Proper ∧ ¬ m.Unrecordable
        ∧ ∃ m', m.step = .ok none m' ∧ m'.ip = 4
            ∧ m'.memory.peek = Function.update m.memory.peek 0 3 := by
  intro m
  have recordable : ¬ m.Unrecordable := fun unrecordable => Bool.false_ne_true unrecordable.1
  have described := (step_describes m (by decide) (by decide)).1 recordable
  have decoded
      : Instruction.decode (m.view.cell m.view.ip)
          =
        .ok { opcode := .add, modes := [.relative, .immediate] } := by
    decide +kernel
  rw [step_eq_of_decode, decoded] at described
  obtain ⟨m', stepped, view, -⟩ := described
  exact ⟨by decide, by decide, recordable, m', stepped, congrArg View.ip view,
    congrArg View.cell view⟩

theorem step_long_word
    : let m : Machine := { width := .unbounded, memory := .ofImage [-10 ^ 4300] }
      step m.width m.memory.size m.view = .fault (.unknownOpcode (-10 ^ 4300) (-10 ^ 4300))
        ∧ m.step = .error .unwritable m := by
  intro m
  have negative : m.view.cell m.view.ip < 0 := by decide +kernel
  have decoded : Instruction.decode (m.view.cell m.view.ip)
      = .error (.unknownOpcode (-10 ^ 4300) (-10 ^ 4300)) := by
    unfold Instruction.decode
    rw [if_pos negative]
    rfl
  have inside : ¬ m.memory.size ≤ m.view.ip := by decide +kernel
  have unwritable : ¬ Fault.IsWritable
      { cause := .unknownOpcode (-10 ^ 4300) (-10 ^ 4300), ip := some m.view.ip } := by
    decide +kernel
  constructor
  . rw [step_eq_of_decode, if_neg inside, decoded]
  . rw [step_eq_perform (by decide)]
    unfold plan View.plan
    rw [if_neg inside, decoded]
    show EStateM.Result.error (Fault.raised _) m = _
    rw [Fault.raised_of_unwritable unwritable]

end Reference

end Intcode
