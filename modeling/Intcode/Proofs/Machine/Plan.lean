import Intcode.Machine

/-!
Plans: what one step of a machine is going to do, as a list of actions with the checks that stand
between them. A plan is made from what an instruction can see. Following it, the machine acts up to
the first check that fails.
-/
namespace Intcode

structure View where
  cell : Int → Int
  ip : Int
  base : Int
  inputs : List Int

namespace Machine

def view (m : Machine) : View :=
  { cell := m.memory.peek, ip := m.ip, base := m.base, inputs := m.inputs }

inductive Action where
  | touch (addr : Int)
  | put (addr value : Int)
  | pop
  | emit (value : Int)
  | rebase (base : Int)
  | goto (ip : Int)
  | count (entry : Option TraceEntry)

def Action.apply : Action → Machine → Machine
  | touch addr, m => { m with memory := m.memory.grow addr.toNat }
  | put addr value, m =>
    { m with
      memory := m.memory.set addr.toNat value
      journal := m.journal ++ (m.memory.sightings addr value).toArray.map .sighted }
  | pop, m => { m with inputs := m.inputs.tail }
  | emit value, m => { m with pending := some value }
  | rebase base, m => { m with base }
  | goto ip, m => { m with ip }
  | count entry, m => complete entry m

/-- What a check finds. A fault is not put into words before it is raised. -/
inductive Hazard where
  | fault (fault : Fault)
  | other (e : Failure)

def Hazard.failure : Hazard → Failure
  | .fault f => f.raised
  | .other e => e

inductive Clause where
  | act (action : Action)
  | check (hazard : Option Hazard)

def follow : List Clause → Execution Unit
  | [], m => .ok () m
  | .act action :: rest, m => follow rest (action.apply m)
  | .check none :: rest, m => follow rest m
  | .check (some hazard) :: _, m => .error hazard.failure m

def perform (clauses : List Clause) (a : α) : Execution α := fun m =>
  match follow clauses m with
  | .ok () m => .ok a m
  | .error e m => .error e m

end Machine

namespace View

open Machine

variable (v : View) (width : Width) (mode : Nat → Mode)

def slot (param : Nat) : Int :=
  v.ip + 1 + param

def location (param : Nat) : Int :=
  match mode param with
  | .position => v.cell (v.slot param)
  | .immediate => v.slot param
  | .relative => v.cell (v.slot param) + v.base

def operand (param : Nat) : Int :=
  v.cell (v.location mode param)

def hazard (cause : Cause) : Hazard :=
  .fault { cause, ip := some v.ip }

def fault (cause : Cause) : Failure :=
  Fault.raised { cause, ip := some v.ip }

theorem fault_eq (cause : Cause)
    : v.fault cause
        =
      if ∀ i ∈ v.ip :: cause.numbers, Numeral.Short i then
        .fault { cause, ip := some v.ip }
      else
        .unwritable := by
  unfold fault Fault.raised
  rfl

def forbid (p : Prop) [Decidable p] (cause : Cause) : Clause :=
  .check (if p then some (v.hazard cause) else none)

def confine (value : Int) (cause : Int → Cause) : Clause :=
  .check <|
    match width.fits value with
    | .ok true => none
    | .ok false => some (v.hazard (cause width.bitCount))
    | .error e => some (.other e)

def reading (param : Nat) : List Clause :=
  [.act (.touch (v.slot param)),
    v.forbid (v.location mode param < 0) (.negativeEffectiveAddress (v.location mode param)),
    .act (.touch (v.location mode param))]

def writing (param : Nat) (value : Int) : List Clause :=
  [v.forbid (mode param = .immediate) .immediateDestination,
    .act (.touch (v.slot param)),
    v.forbid (v.location mode param < 0) (.negativeEffectiveAddress (v.location mode param)),
    v.confine width value (.cellOverflow value (v.location mode param)),
    .act (.put (v.location mode param) value)]

def next (opcode : Opcode) : Int :=
  v.ip + (opcode.arity + 1 : Nat)

def binary (opcode : Opcode) (value : Int) : List Clause :=
  v.reading mode 0 ++ (v.reading mode 1 ++
    (v.writing width mode 2 value ++ [.act (.goto (v.next opcode))]))

def jump (opcode : Opcode) (taken : Bool) : List Clause :=
  v.reading mode 0 ++
    if taken then
      let target := v.operand mode 1
      v.reading mode 1 ++
        [v.forbid (target < 0) (.negativeJump target), .act (.goto target)]
    else
      [.act (.goto (v.next opcode))]

def input : List Clause :=
  v.forbid (mode 0 = .immediate) .immediateDestination ::
    match v.inputs with
    | [] => []
    | value :: _ =>
      .act .pop :: (v.writing width mode 0 value ++ [.act (.goto (v.next .input))])

def clauses (opcode : Opcode) : List Clause :=
  let a := v.operand mode 0
  let b := v.operand mode 1
  match opcode with
  | .add => v.binary width mode .add (a + b)
  | .multiply => v.binary width mode .multiply (a * b)
  | .lessThan => v.binary width mode .lessThan (if a < b then 1 else 0)
  | .equals => v.binary width mode .equals (if a = b then 1 else 0)
  | .input => v.input width mode
  | .output => v.reading mode 0 ++ [.act (.emit a), .act (.goto (v.next .output))]
  | .jumpIfTrue => v.jump mode .jumpIfTrue (a != 0)
  | .jumpIfFalse => v.jump mode .jumpIfFalse (a == 0)
  | .adjustBase =>
    v.reading mode 0 ++
      [v.confine width (v.base + a) (.baseOverflow (v.base + a)),
        .act (.rebase (v.base + a)), .act (.goto (v.next .adjustBase))]
  | .halt => []

def reason : Opcode → Option StopReason
  | .input => if v.inputs.isEmpty then some .needInput else none
  | .output => some .output
  | .halt => some .halt
  | _ => none

def entry (instr : Instruction) : TraceEntry :=
  { ip := v.ip
    opcode := instr.opcode
    operands := (List.range instr.arity).map fun (i : Nat) => v.cell (v.ip + 1 + i)
    base := v.base }

def noting (instr : Instruction) (tracing : Bool) : Machine.Clause :=
  .check <|
    if tracing ∧ ¬ (v.entry instr).IsWritable then some (.other .unwritable) else none

end View

structure Plan where
  clauses : List Machine.Clause
  reason : Option StopReason := none

def View.plan (v : View) (size : Nat) (width : Width) (tracing : Bool) : Plan :=
  if size ≤ v.ip then
    { clauses := [.check (some (v.hazard .ranOffEnd))] }
  else
    match Instruction.decode (v.cell v.ip) with
    | .error cause => { clauses := [.check (some (v.hazard cause))] }
    | .ok instr =>
      let entry := if tracing then some (v.entry instr) else none
      let reason := v.reason instr.opcode
      { clauses :=
          v.noting instr tracing :: v.clauses width instr.mode instr.opcode
            ++ if reason = some .needInput then [] else [.act (.count entry)]
        reason }

namespace Machine

def plan (m : Machine) : Plan :=
  m.view.plan m.memory.size m.width m.tracing

def Clause.hazard? : Clause → Option Hazard
  | act _ => none
  | check hazard => hazard

def enact : List Clause → Machine → Machine
  | [], m => m
  | .act action :: rest, m => enact rest (action.apply m)
  | .check _ :: rest, m => enact rest m

theorem follow_eq (cs : List Clause) (m : Machine)
    : follow cs m
        =
      match cs.findSome? Clause.hazard? with
      | none => .ok () (enact cs m)
      | some hazard => .error hazard.failure (enact (cs.takeWhile (·.hazard?.isNone)) m) := by
  fun_induction follow cs m with
  | case1 => rfl
  | case2 action rest m ih =>
    rw [ih]
    rfl
  | case3 rest m ih =>
    rw [ih]
    rfl
  | case4 => rfl

theorem perform_eq (cs : List Clause) (a : α) (m : Machine)
    : perform cs a m
        =
      match cs.findSome? Clause.hazard? with
      | none => .ok a (enact cs m)
      | some hazard => .error hazard.failure (enact (cs.takeWhile (·.hazard?.isNone)) m) := by
  unfold perform
  rw [follow_eq]
  cases cs.findSome? Clause.hazard? with
  | none => rfl
  | some e => rfl

theorem enact_append (cs ds : List Clause) (m : Machine)
    : enact (cs ++ ds) m = enact ds (enact cs m) := by
  fun_induction enact cs m with
  | case1 => rfl
  | case2 action rest m ih => exact ih
  | case3 hazard rest m ih => exact ih

theorem follow_append (cs ds : List Clause) (m : Machine)
    : follow (cs ++ ds) m = (follow cs >>= fun _ => follow ds) m := by
  induction cs generalizing m with
  | nil => rfl
  | cons c cs ih =>
    cases c with
    | act action =>
      simp only [List.cons_append, follow]
      apply ih
    | check hazard =>
      cases hazard with
      | none =>
        simp only [List.cons_append, follow]
        apply ih
      | some e => rfl

theorem view_touch (m : Machine) (addr : Int) : ((Action.touch addr).apply m).view = m.view := by
  simp only [view, Action.apply, View.mk.injEq, and_self, and_true]
  funext a
  apply Memory.peek_grow

theorem view_count (m : Machine) (entry : Option TraceEntry)
    : ((Action.count entry).apply m).view = m.view := by
  cases entry with
  | none => rfl
  | some entry => rfl

end Machine

end Intcode
