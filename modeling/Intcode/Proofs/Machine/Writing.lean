import Intcode.Proofs.Machine.Effect
import Intcode.Proofs.Machine.Operation
import Mathlib.Data.List.Basic

namespace Intcode

def View.stored? (v : View) (mode : Nat → Mode) (opcode : Opcode) : Option (Int × Int) :=
  let a := v.operand mode 0
  let b := v.operand mode 1
  match opcode with
  | .add => some (v.location mode 2, a + b)
  | .multiply => some (v.location mode 2, a * b)
  | .lessThan => some (v.location mode 2, if a < b then 1 else 0)
  | .equals => some (v.location mode 2, if a = b then 1 else 0)
  | .input => v.inputs.head?.map fun value => (v.location mode 0, value)
  | _ => none

namespace Machine

def stored? (m : Machine) : Option (Int × Int) :=
  match outcome m.step with
  | .ok _ => m.instruction?.bind fun instr => m.view.stored? instr.mode instr.opcode
  | .error _ => none

def Operation.writes (fuel : Nat) (op : Operation) (m : Machine) : List (Int × Int) :=
  match op with
  | write addr value => if addr < 0 then [] else [(addr, value)]
  | op => (op.visits fuel m).filterMap stored?

def writes (fuel : Nat) : List Operation → Machine → List (Int × Int)
  | [], _ => []
  | op :: ops, m => op.writes fuel m ++ writes fuel ops (endState (op.perform fuel m))

def valuesAt (addr : Int) (writes : List (Int × Int)) : List Int :=
  writes.filterMap fun (a, value) => if a = addr then some value else none

def puts (cs : List Clause) : List (Int × Int) :=
  cs.filterMap fun
    | .act (.put addr value) => some (addr, value)
    | _ => none

/-- What holds of a machine and of what was written so far, and goes on to hold whatever it does. -/
structure Chronicle (Q : List (Int × Int) → Machine → Prop) : Prop where
  put {before : List (Int × Int)} {m : Machine} {addr : Int} (inside : 0 ≤ addr) (value : Int)
    : Q before m → Q (before ++ [(addr, value)]) ((Action.put addr value).apply m)
  touch {before : List (Int × Int)} {m : Machine} (addr : Int)
    : Q before m → Q before ((Action.touch addr).apply m)
  registers {before : List (Int × Int)} {m : Machine} (ip base : Int) (inputs : List Int)
    (pending : Option Int) : Q before m → Q before { m with ip, base, inputs, pending }
  complete {before : List (Int × Int)} {m : Machine} (entry : Option TraceEntry)
    : Q before m → Q before (complete entry m)
  watch {before : List (Int × Int)} {m : Machine} (addr : Int)
    : Q before m → Q before (m.watch m.memory.watches.length addr)
  tracing {before : List (Int × Int)} {m : Machine} (tracing : Bool) (trace : Array TraceEntry)
    : Q before m → Q before { m with tracing, trace }

variable {fuel : Nat} {m n : Machine}

theorem puts_cons (c : Clause) (cs : List Clause) : puts (c :: cs) = puts [c] ++ puts cs :=
  List.filterMap_append (l := [c])

theorem stored?_of_failed {e : Failure} (failed : m.step = .error e n) : m.stored? = none := by
  unfold stored?
  rw [failed, outcome]

theorem puts_jump (v : View) (mode : Nat → Mode) (opcode : Opcode) (taken : Bool)
    : puts (v.jump mode opcode taken) = [] := by
  cases taken with
  | false => rfl
  | true => rfl

theorem puts_clauses (v : View) (width : Width) (mode : Nat → Mode) (opcode : Opcode)
    : puts (v.clauses width mode opcode) = (v.stored? mode opcode).toList := by
  cases opcode with
  | jumpIfTrue | jumpIfFalse => apply puts_jump
  | input =>
    unfold View.clauses View.input View.stored?
    cases v.inputs with
    | nil => rfl
    | cons value rest => rfl
  | _ => rfl

theorem valuesAt_append (addr : Int) (writes later : List (Int × Int))
    : valuesAt addr (writes ++ later) = valuesAt addr writes ++ valuesAt addr later :=
  List.filterMap_append

theorem writes_append (ops later : List Operation)
    : writes fuel (ops ++ later) m
        =
      writes fuel ops m ++ writes fuel later (drive fuel ops m).2 := by
  induction ops generalizing m with
  | nil => rfl
  | cons op ops ih =>
    show op.writes fuel m ++ writes fuel (ops ++ later) _ = _
    rw [ih, ← List.append_assoc]
    rfl

section

variable {Q : List (Int × Int) → Machine → Prop} {before : List (Int × Int)}

theorem Chronicle.idle (h : Q before m) : Q (before ++ []) m := by
  rw [List.append_nil]
  exact h

theorem Chronicle.apply (chronicle : Chronicle Q) {action : Action} (enabled : action.Enabled m)
    (h : Q before m) : Q (before ++ puts [.act action]) (action.apply m) := by
  have registers (ip base : Int) (inputs : List Int) (pending : Option Int)
      : Q (before ++ []) { m with ip, base, inputs, pending } :=
    idle (chronicle.registers ip base inputs pending h)
  cases action with
  | touch addr => exact idle (chronicle.touch addr h)
  | put addr value => exact chronicle.put enabled.1 value h
  | pop => exact registers m.ip m.base m.inputs.tail m.pending
  | emit value => exact registers m.ip m.base m.inputs (some value)
  | rebase base => exact registers m.ip base m.inputs m.pending
  | goto ip => exact registers ip m.base m.inputs m.pending
  | count entry => exact idle (chronicle.complete entry h)

theorem Chronicle.enact (chronicle : Chronicle Q) {cs : List Clause} (enabled : Enabled cs m)
    (safe : cs.findSome? Clause.hazard? = none) (h : Q before m)
    : Q (before ++ puts cs) (enact cs m) := by
  induction cs generalizing m before with
  | nil => exact idle h
  | cons c cs ih =>
    rw [puts_cons, ← List.append_assoc]
    cases c with
    | act action => exact ih enabled.2 safe (chronicle.apply enabled.1 h)
    | check hazard =>
      cases hazard with
      | none => exact ih enabled safe (idle h)
      | some e => contradiction

theorem Chronicle.extend (chronicle : Chronicle Q) (addrs : List Int) (h : Q before m)
    : Q before { m with memory := m.memory.extend addrs } := by
  induction addrs generalizing m with
  | nil => exact h
  | cons addr addrs ih => exact ih (chronicle.touch addr h)

theorem Chronicle.step (chronicle : Chronicle Q) (h : Q before m)
    : Q (before ++ m.stored?.toList) (endState m.step) := by
  by_cases below : m.ip < 0
  . have failed := step_of_neg below
    rw [stored?_of_failed failed, failed]
    exact idle h
  . have start : 0 ≤ m.ip := Int.not_lt.mp below
    cases stepped : m.step with
    | error e m' =>
      -- All that is left of a step that failed is that the memory has grown.
      obtain ⟨addrs, left⟩ := left_of_failed start stepped
      rw [stored?_of_failed stepped]
      show Q _ m'
      rw [left]
      exact idle (chronicle.registers m.ip m.base m'.inputs m.pending (chronicle.extend _ h))
    | ok reason m' =>
      obtain ⟨instr, entry, inside, decoded, -, noted, -, safe, rfl⟩ :=
        instruction_of_step start stepped
      have next := instruction?_eq_some_iff.mpr ⟨inside, decoded, noted⟩
      have stored : m.stored? = m.view.stored? instr.mode instr.opcode := by
        unfold stored?
        rw [stepped, outcome, next]
        rfl
      rw [stored, ← puts_clauses m.view m.width]
      show Q _ (Machine.enact _ m)
      rw [enact_append]
      have done := chronicle.enact (enabled_clauses start instr.opcode) safe h
      split
      . exact done
      . exact chronicle.complete entry done

theorem Chronicle.trail (chronicle : Chronicle Q) {states : List Machine} (trail : Trail m states n)
    (h : Q before m) : Q (before ++ states.filterMap stored?) n := by
  induction trail generalizing before with
  | nil m => exact idle h
  | @cons m n states _ ih =>
    have rest := ih (chronicle.step h)
    rw [List.filterMap_eq_flatMap_toList] at rest ⊢
    rw [List.flatMap_cons, ← List.append_assoc]
    exact rest

theorem Chronicle.writeCell (chronicle : Chronicle Q) (h : Q before m) (addr value : Int)
    : Q (before ++ if addr < 0 then [] else [(addr, value)])
        (endState (writeCell addr value m)) := by
  by_cases below : addr < 0
  . rw [if_pos below]
    apply writeCell_ends (idle h)
    intro inside
    exact absurd below (Int.not_lt.mpr inside)
  . have inside := Int.not_lt.mp below
    rw [if_neg below, writeCell_eq m value inside]
    exact chronicle.put inside value h

theorem Chronicle.perform (chronicle : Chronicle Q) (h : Q before m) (fuel : Nat) (op : Operation)
    : Q (before ++ op.writes fuel m) (endState (op.perform fuel m)) := by
  have touch (addr : Int) (n : Machine) (h : Q (before ++ []) n)
      : Q (before ++ []) ((Action.touch addr).apply n) := chronicle.touch addr h
  have registers (ip base : Int) (inputs : List Int) (pending : Option Int)
      : Q (before ++ []) { m with ip, base, inputs, pending } :=
    idle (chronicle.registers ip base inputs pending h)
  cases op with
  | step => exact answer_ends (chronicle.trail (trail_step m) h) _
  | run => exact answer_ends (chronicle.trail (trail_run fuel m) h) _
  | push values => exact registers m.ip m.base (m.inputs ++ values) m.pending
  | take => exact registers m.ip m.base m.inputs none
  | moveTo ip => exact registers ip m.base m.inputs m.pending
  | rebase base => exact registers m.ip base m.inputs m.pending
  | read addr => exact answer_ends (readCell_ends touch (idle h) addr) _
  | write addr value => exact answer_ends (chronicle.writeCell h addr value) fun _ => .done
  | resolveRead mode slot => exact answer_ends (resolveRead_ends touch (idle h) mode slot) _
  | resolveWrite mode slot => exact answer_ends (resolveWrite_ends touch (idle h) mode slot) _
  | dump first length perLine =>
    show Q _ (endState (dumped first length perLine m))
    rw [endState_dumped]
    exact idle h
  | watch addr => exact idle (chronicle.watch addr h)
  | enableTrace on => exact idle (chronicle.tracing on m.trace h)
  | clearTrace => exact idle (chronicle.tracing m.tracing #[] h)
  | _ => exact idle h

theorem Chronicle.drive (chronicle : Chronicle Q) (h : Q before m) (fuel : Nat)
    (ops : List Operation) : Q (before ++ writes fuel ops m) (drive fuel ops m).2 := by
  induction ops generalizing m before with
  | nil => exact idle h
  | cons op ops ih =>
    unfold writes
    rw [← List.append_assoc]
    exact ih (chronicle.perform h fuel op)

theorem Chronicle.whole (chronicle : Chronicle Q) (h : Q [] m) (fuel : Nat) (ops : List Operation)
    : Q (writes fuel ops m) (Machine.drive fuel ops m).2 :=
  chronicle.drive h fuel ops

end

end Machine

end Intcode
