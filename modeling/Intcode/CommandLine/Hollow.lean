import Intcode.CommandLine.Action
import Intcode.Program

/-!
Hollow programs: programs that were given nothing in the place of a number. Nothing can be stored,
moved, tested and put out, but where a number is needed it is a misfit, which ends all. Otherwise a
hollow program does what a program does.
-/
namespace Intcode.CommandLine

structure Hollow where
  name : String
  width : Width := .unbounded
  cells : Array (Given Int)
  watches : List Int := []
  inputs : List (Given Int) := []
  ip : Int := 0
  base : Int := 0
  steps : Nat := 0
  tracing : Bool := false
  trace : Array String := #[]
  ended : Bool := false
  told : Array Output := #[]

namespace Hollow

open Numeral

abbrev Turn := EStateM Trouble Hollow

def fail (cause : Cause) : Turn α := fun h =>
  .error (.failure (Fault.raised { cause, ip := some h.ip })) h

def misfit (m : Misfit) : Turn α :=
  throw (.misfit m)

def tell (outputs : List Output) (h : Hollow) : Hollow :=
  { h with told := h.told ++ outputs.toArray }

def number (m : Misfit) : Given Int → Turn Int
  | .nothing => misfit m
  | .value v => return v

def ofExcept (x : Except Failure α) : Turn α :=
  MonadExcept.ofExcept (x.mapError .failure)

def requireFits (cell : Given Int) (cause : Int → Int → Cause) : Turn Unit := do
  let width := (← get).width
  match width, cell with
  | .unbounded, _ => return
  | .bits _, .nothing => misfit (.nothingBehind .atMost)
  | .bits count, .value v =>
    match width.fits v with
    | .ok true => return
    | .ok false => fail (cause v count)
    | .error e => throw (.failure e)

def grow (addr : Nat) (h : Hollow) : Hollow :=
  { h with cells := h.cells ++ Array.replicate (addr + 1 - h.cells.size) (.value 0) }

def peek (h : Hollow) (addr : Int) : Given Int :=
  if addr < 0 then .value 0 else h.cells.getD addr.toNat (.value 0)

def requireAddress (addr : Int) : Turn Unit :=
  if addr < 0 then
    throw (.failure (Fault.raised { cause := .negativeAddress addr }))
  else
    modify (grow addr.toNat)

def readCell (addr : Int) : Turn (Given Int) := do
  requireAddress addr
  return (← get).peek addr

def writeCell (addr : Int) (cell : Given Int) : Turn Unit := do
  requireAddress addr
  let old := (← get).peek addr
  if addr ∈ (← get).watches then
    ofExcept (writing (addr :: (old.numbers ++ cell.numbers)) ())
  let line := Output.watchLine addr (renderGiven old) (renderGiven cell)
  modify fun h => tell ((h.watches.filter (· = addr)).map fun _ => line) h
  modify fun h => { h with cells := h.cells.set! addr.toNat cell }

def load (name : String) (config : Config) (cells : List (Given Int)) (inputs : List (Given Int))
    : Action Hollow :=
  let h : Hollow :=
    { name, width := config.width, cells := cells.toArray, inputs, tracing := config.tracing }
  match go 0 cells h with
  | .ok () h => return h
  | .error e _ => Action.fail e
where
  go (addr : Int) : List (Given Int) → Turn Unit
    | [] => return
    | cell :: rest => do
      requireFits cell fun v bits => .cellOverflow v addr bits
      go (addr + 1) rest

def address (mode : Mode) (slot : Int) : Turn Int := do
  let raw ← readCell slot
  let base := (← get).base
  let addr ← match mode with
    | .relative => do pure ((← number .noElements raw) + base)
    | _ => number (.nothingBefore .less) raw
  if addr < 0 then
    fail (.negativeEffectiveAddress addr)
  else
    return addr

def operand (instr : Instruction) (param : Nat) : Turn (Given Int) := do
  let slot := (← get).ip + 1 + param
  match instr.mode param with
  | .immediate => readCell slot
  | mode => readCell (← address mode slot)

def store (instr : Instruction) (param : Nat) (cell : Given Int) : Turn Unit := do
  let slot := (← get).ip + 1 + param
  match instr.mode param with
  | .immediate => fail .immediateDestination
  | mode =>
    let addr ← address mode slot
    requireFits cell fun v bits => .cellOverflow v addr bits
    writeCell addr cell

def add : Given Int → Given Int → Turn (Given Int)
  | .value a, .value b => return .value (a + b)
  | .nothing, .nothing => return .nothing
  | .nothing, .value _ => misfit .nothingPlusNumber
  | .value _, .nothing => misfit .numberPlusNothing

-- Nothing can be had this many times, and as often below zero less one.
def mostTimes : Int := 9223372036854775807

def multiply : Given Int → Given Int → Turn (Given Int)
  | .value a, .value b => return .value (a * b)
  | .nothing, .nothing => misfit .nothingTimesNothing
  | .nothing, .value v | .value v, .nothing =>
    if -mostTimes - 1 ≤ v ∧ v ≤ mostTimes then return .nothing else misfit .nothingTimesTooMuch

def lessThan : Given Int → Given Int → Turn (Given Int)
  | .value a, .value b => return .value (if a < b then 1 else 0)
  | .nothing, .nothing => return .value 0
  | .nothing, .value _ => misfit (.nothingBefore .less)
  | .value _, .nothing => misfit (.nothingBehind .less)

def equals (a b : Given Int) : Turn (Given Int) :=
  return .value (if a = b then 1 else 0)

def advance (instr : Instruction) : Turn Unit :=
  modify fun h => { h with ip := h.ip + instr.width }

def binary (instr : Instruction) (f : Given Int → Given Int → Turn (Given Int)) : Turn Unit := do
  let a ← operand instr 0
  let b ← operand instr 1
  store instr 2 (← f a b)
  advance instr

def jumpWhen (instr : Instruction) (condition : Bool → Bool) : Turn Unit := do
  if condition ((← operand instr 0) = .value 0) then
    let target ← number (.nothingBefore .less) (← operand instr 1)
    if target < 0 then fail (.negativeJump target) else modify fun h => { h with ip := target }
  else
    advance instr

inductive Stop where
  | output (cell : Given Int)
  | halt
  | needInput

def execute (instr : Instruction) : Turn (Option Stop) := do
  match instr.opcode with
  | .add => binary instr add; return none
  | .multiply => binary instr multiply; return none
  | .lessThan => binary instr lessThan; return none
  | .equals => binary instr equals; return none
  | .jumpIfTrue => jumpWhen instr (!·); return none
  | .jumpIfFalse => jumpWhen instr id; return none
  | .input =>
    if instr.mode 0 = .immediate then
      fail .immediateDestination
    else
      match (← get).inputs with
      | [] => return some .needInput
      | cell :: rest =>
        modify fun h => { h with inputs := rest }
        store instr 0 cell
        advance instr
        return none
  | .output =>
    let cell ← operand instr 0
    advance instr
    return some (.output cell)
  | .adjustBase =>
    let base := (← get).base + (← number .numberPlusNothing (← operand instr 0))
    requireFits (.value base) .baseOverflow
    modify fun h => { h with base }
    advance instr
    return none
  | .halt => return some .halt

def traceLine (instr : Instruction) (h : Hollow) : Except Failure String :=
  let operands := (List.range instr.arity).map fun (i : Nat) => h.peek (h.ip + 1 + i)
  writing (h.ip :: h.base :: operands.flatMap Given.numbers)
    (TraceEntry.layout h.ip instr.opcode (operands.map renderGiven) h.base)

def note (instr : Instruction) : Turn (Option String) := do
  let h ← get
  if h.tracing then
    return some (← ofExcept (traceLine instr h))
  else
    return none

def complete (line : Option String) (h : Hollow) : Hollow :=
  let h := { h with steps := h.steps + 1 }
  match line with
  | some line => { h with trace := h.trace.push line }.tell [.log ⟨.debug, .machine, line⟩]
  | none => h

def step : Turn (Option Stop) := do
  let h ← get
  if h.ip ≥ h.cells.size then
    fail .ranOffEnd
  else
    let word ← number (.nothingBefore .less) (← readCell h.ip)
    let instr ← ofExcept (Instruction.decodeAt (some h.ip) word)
    let line ← note instr
    let stop ← execute instr
    if stop matches some .needInput then
      return stop
    modify (complete line)
    return stop

def run : (fuel : Nat) → Turn Stop
  | 0 => throw (.failure .outOfFuel)
  | fuel + 1 => do
    match ← step with
    | some stop => return stop
    | none => run fuel

inductive Next where
  | output (cell : Given Int)
  | ended
  | starved (fault : Fault)

def settle : EStateM.Result Trouble Hollow Stop → Action (Next × Hollow)
  | .ok (.output cell) h => told h (.output cell)
  | .ok .halt h =>
    told ({ h with ended := true }.tell (Output.ofEvents [.halted h.name h.steps])) .ended
  | .ok .needInput h => told h (.starved { cause := .inputExhausted, ip := some h.ip })
  | .error e h =>
    let h := match e with
      | .failure (.fault _) => h.tell (Output.ofEvents [.faulted h.name h.ip])
      | _ => h
    (Action.fail e).after h.told.toList
where
  told (h : Hollow) (next : Next) : Action (Next × Hollow) :=
    { events := h.told.toList, result := .ok (next, { h with told := #[] }) }

def resume (fuel : Nat) (inputs : List (Given Int)) (h : Hollow) : Action (Next × Hollow) :=
  settle (run fuel { h with inputs := h.inputs ++ inputs })

def drive (fuel : Nat) (put : Given Int → σ → Action σ) (ask : Fault → σ → Action (Int × σ))
    : (bound : Nat) → (sink : σ) → Hollow → Action (σ × Hollow)
  | 0, _, _ => Action.fail (.failure .outOfFuel)
  | bound + 1, sink, h => do
    match ← resume fuel [] h with
    | (.ended, h) => return (sink, h)
    | (.output cell, h) => drive fuel put ask bound (← put cell sink) h
    | (.starved fault, h) =>
      let (value, sink) ← ask fault sink
      drive fuel put ask bound sink { h with inputs := [.value value] }

end Hollow

end Intcode.CommandLine
