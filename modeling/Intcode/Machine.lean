import Intcode.Event
import Intcode.Instruction
import Intcode.Memory
import Intcode.Width

/-!
The machine: a memory, an instruction pointer, a relative base and a queue of inputs. `step`
executes one instruction, `run` goes on to the next point at which the machine has something to say.
An execution that fails keeps what it did before.
-/
namespace Intcode

inductive StopReason where
  | output
  | halt
  | needInput
  deriving Repr, DecidableEq

def StopReason.name : StopReason → String
  | output => "OUTPUT"
  | halt => "HALT"
  | needInput => "NEED_INPUT"

structure Machine where
  width : Width
  memory : Memory
  ip : Int := 0
  base : Int := 0
  inputs : List Int := []
  pending : Option Int := none
  steps : Nat := 0
  tracing : Bool := false
  trace : Array TraceEntry := #[]
  journal : Array Event := #[]
  deriving Repr, DecidableEq

abbrev Execution := EStateM Failure Machine

namespace Machine

def fail (cause : Cause) : Execution α := fun m =>
  .error (Fault.raised { cause, ip := some m.ip }) m

def record (event : Event) (m : Machine) : Machine :=
  { m with journal := m.journal.push event }

def collect (m : Machine) : List Event × Machine :=
  (m.journal.toList, { m with journal := #[] })

def watch (m : Machine) (tag : Nat) (addr : Int) : Machine :=
  { m with memory := m.memory.watch tag addr }

def push (values : List Int) (m : Machine) : Machine :=
  { m with inputs := m.inputs ++ values }

def takeOutput (m : Machine) : Option Int × Machine :=
  (m.pending, { m with pending := none })

def readCell (addr : Int) : Execution Int := fun m =>
  match m.memory.read addr with
  | .ok (v, memory) => .ok v { m with memory }
  | .error e => .error e m

def writeCell (addr value : Int) : Execution Unit := fun m =>
  match m.memory.write addr value with
  | .ok (seen, memory) =>
    .ok () { m with memory, journal := m.journal ++ seen.toArray.map .sighted }
  | .error e => .error e m

def requireFits (value : Int) (cause : Int → Cause) : Execution Unit := fun m =>
  match m.width.fits value with
  | .ok true => .ok () m
  | .ok false => fail (cause m.width.bitCount) m
  | .error e => .error e m

def load (image : List Int) (config : Config := {}) : Except Failure Machine :=
  let m : Machine :=
    { width := config.width, memory := Memory.ofImage image, tracing := config.tracing }
  go m 0 image
where
  go (m : Machine) (addr : Int) : List Int → Except Failure Machine
    | [] => .ok m
    | value :: rest =>
      match requireFits value (.cellOverflow value addr) m with
      | .ok _ _ => go m (addr + 1) rest
      | .error e _ => .error e

def address (mode : Mode) (slot : Int) : Execution Int := do
  let raw ← readCell slot
  let base := (← get).base
  let addr := if mode = .relative then raw + base else raw
  if addr < 0 then
    fail (.negativeEffectiveAddress addr)
  else
    return addr

def resolveRead (mode : Mode) (slot : Int) : Execution Int := do
  if mode = .immediate then
    readCell slot
  else
    readCell (← address mode slot)

def resolveWrite (mode : Mode) (slot : Int) : Execution Int := do
  if mode = .immediate then
    fail .immediateDestination
  else
    address mode slot

def operand (instr : Instruction) (param : Nat) : Execution Int := do
  resolveRead (instr.mode param) ((← get).ip + 1 + param)

def store (instr : Instruction) (param : Nat) (value : Int) : Execution Unit := do
  let addr ← resolveWrite (instr.mode param) ((← get).ip + 1 + param)
  requireFits value (.cellOverflow value addr)
  writeCell addr value

def advance (instr : Instruction) : Execution Unit :=
  modify fun m => { m with ip := m.ip + instr.width }

def jump (target : Int) : Execution Unit :=
  if target < 0 then
    fail (.negativeJump target)
  else
    modify fun m => { m with ip := target }

def binary (instr : Instruction) (f : Int → Int → Int) : Execution (Option StopReason) := do
  let a ← operand instr 0
  let b ← operand instr 1
  store instr 2 (f a b)
  advance instr
  return none

def jumpWhen (instr : Instruction) (condition : Int → Bool) : Execution (Option StopReason) := do
  if condition (← operand instr 0) then
    jump (← operand instr 1)
  else
    advance instr
  return none

/-- A value that cannot be stored is gone from the queue all the same. -/
def input (instr : Instruction) : Execution (Option StopReason) := do
  if instr.mode 0 = .immediate then
    fail .immediateDestination
  else
    match (← get).inputs with
    | [] => return some .needInput
    | value :: rest =>
      modify fun m => { m with inputs := rest }
      store instr 0 value
      advance instr
      return none

def execute (instr : Instruction) : Execution (Option StopReason) :=
  match instr.opcode with
  | .add => binary instr (· + ·)
  | .multiply => binary instr (· * ·)
  | .lessThan => binary instr fun a b => if a < b then 1 else 0
  | .equals => binary instr fun a b => if a = b then 1 else 0
  | .input => input instr
  | .output => do
    let value ← operand instr 0
    modify fun m => { m with pending := some value }
    advance instr
    return some .output
  | .jumpIfTrue => jumpWhen instr (· != 0)
  | .jumpIfFalse => jumpWhen instr (· == 0)
  | .adjustBase => do
    let base := (← get).base + (← operand instr 0)
    requireFits base (.baseOverflow base)
    modify fun m => { m with base }
    advance instr
    return none
  | .halt => return some .halt

def fetch : Execution Instruction := do
  let ip := (← get).ip
  match Instruction.decodeAt (some ip) (← readCell ip) with
  | .ok instr => return instr
  | .error e => throw e

def traceEntry (instr : Instruction) (m : Machine) : TraceEntry :=
  { ip := m.ip
    opcode := instr.opcode
    operands := (List.range instr.arity).map fun (i : Nat) => m.memory.peek (m.ip + 1 + i)
    base := m.base }

-- The line is written at once, though nobody may ever ask for the text.
def note (instr : Instruction) : Execution (Option TraceEntry) := fun m =>
  if m.tracing then
    let entry := traceEntry instr m
    match writing entry.numbers entry with
    | .ok entry => .ok (some entry) m
    | .error e => .error e m
  else
    .ok none m

def complete (entry : Option TraceEntry) (m : Machine) : Machine :=
  match entry with
  | some entry =>
    record (.executed entry) { m with steps := m.steps + 1, trace := m.trace.push entry }
  | none => { m with steps := m.steps + 1 }

def step : Execution (Option StopReason) := do
  if (← get).ip ≥ (← get).memory.size then
    fail .ranOffEnd
  else
    let instr ← fetch
    let entry ← note instr
    let reason ← execute instr
    if reason ≠ some .needInput then
      modify (complete entry)
    return reason

def run : (fuel : Nat) → Execution StopReason
  | 0 => throw .outOfFuel
  | fuel + 1 => fun m =>
    match step m with
    | .ok (some reason) m => .ok reason m
    | .ok none m => run fuel m
    | .error e m => .error e m

def stepMany : (count : Nat) → Execution (Option StopReason × Nat)
  | 0 => return (none, 0)
  | count + 1 => do
    match ← step with
    | some reason => return (some reason, 1)
    | none =>
      let (reason, done) ← stepMany count
      return (reason, done + 1)

def enableTrace (on : Bool) (m : Machine) : Machine :=
  { m with tracing := on }

def clearTrace (m : Machine) : Machine :=
  { m with trace := #[] }

end Machine

end Intcode
