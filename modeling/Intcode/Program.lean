import Intcode.Machine
import Intcode.Report
import Intcode.Text.Quoted

/-!
Programs: a machine that is resumed from output to output. A program that finds no input waits and
can be resumed; one that halted or faulted cannot.
-/
namespace Intcode

inductive ProgramState where
  | running
  | suspended
  | awaitingInput
  | halted
  | faulted
  deriving Repr, DecidableEq

def ProgramState.name : ProgramState → String
  | running => "RUNNING"
  | suspended => "SUSPENDED"
  | awaitingInput => "AWAITING_INPUT"
  | halted => "HALTED"
  | faulted => "FAULTED"

structure Program where
  name : String
  machine : Machine
  state : ProgramState := .running
  deriving Repr, DecidableEq

namespace Program

def load (image : List Int) (inputs : List Int := []) (config : Config := {})
    (name : String := "program") : Except Failure Program :=
  (Machine.load image config).map fun machine => { name, machine := machine.push inputs }

def isHalted (p : Program) : Bool :=
  p.state == .halted

def onMachine (x : Execution α) : EStateM Failure Program α := fun p =>
  match x p.machine with
  | .ok a machine => .ok a { p with machine }
  | .error e machine => .error e { p with machine }

def obstacle? (p : Program) : Option Fault :=
  match p.state with
  | .halted => some { cause := .alreadyHalted p.name, ip := some p.machine.ip }
  | .faulted => some { cause := .faultedEarlier p.name, ip := some p.machine.ip }
  | _ => none

def feed (values : List Int) : EStateM Failure Program Unit := fun p =>
  match p.obstacle? with
  | some fault => .error fault p
  | none => .ok () { p with machine := p.machine.push values }

def settle (name : String)
    : EStateM.Result Failure Machine StopReason → EStateM.Result Failure Program (Option Int)
  | .ok .output machine =>
    let (value, machine) := machine.takeOutput
    .ok value { name, machine, state := .suspended }
  | .ok .halt machine =>
    .ok none { name, machine := machine.record (.halted name machine.steps), state := .halted }
  | .ok .needInput machine =>
    .error (.fault { cause := .inputExhausted, ip := some machine.ip })
      { name, machine, state := .awaitingInput }
  | .error (.fault fault) machine =>
    .error fault
      { name, machine := machine.record (.faulted name machine.ip), state := .faulted }
  | .error e machine => .error e { name, machine, state := .running }

/-- Queues inputs and runs to the next output, or to the end, which gives none. -/
def nextOutput (fuel : Nat) (inputs : List Int := []) : EStateM Failure Program (Option Int) :=
  fun p =>
    match p.obstacle? with
    | some fault => .error fault p
    | none => settle p.name (Machine.run fuel (p.machine.push inputs))

def outputsUpTo (fuel : Nat) : (bound : Nat) → (inputs : List Int)
    → EStateM Failure Program (List Int)
  | 0, _ => throw .outOfFuel
  | bound + 1, inputs => do
    match ← nextOutput fuel inputs with
    | none => return []
    | some value => return value :: (← outputsUpTo fuel bound [])

def outputs (fuel : Nat) (inputs : List Int := []) : EStateM Failure Program (List Int) :=
  outputsUpTo fuel fuel inputs

structure Taken where
  values : List Int
  failure : Option Failure := none
  deriving Repr, DecidableEq

def take (fuel : Nat) : (count : Nat) → Program → Taken × Program
  | 0, p => ({ values := [] }, p)
  | count + 1, p =>
    if p.isHalted then
      ({ values := [] }, p)
    else
      match nextOutput fuel [] p with
      | .ok none p => ({ values := [] }, p)
      | .ok (some value) p =>
        let (taken, p) := take fuel count p
        ({ taken with values := value :: taken.values }, p)
      | .error e p => ({ values := [], failure := some e }, p)

def collect (p : Program) : List Event × Program :=
  let (events, machine) := p.machine.collect
  (events, { p with machine })

def report (x : EStateM Failure Program α) (p : Program) : Report Event Failure α :=
  match x p with
  | .ok a p => { events := p.collect.1, result := .ok a }
  | .error e p => { events := p.collect.1, result := .error e }

def render (p : Program) : Except Failure String :=
  writing [p.machine.ip]
    s!"Program({Text.quote p.name}, state={p.state.name}, ip={Numeral.render p.machine.ip})"

end Program

def runToCompletion (fuel : Nat) (image : List Int) (inputs : List Int := [])
    (config : Config := {}) : Report Event Failure (List Int) := do
  let program ← Report.ofExcept (Program.load image inputs config)
  Program.report (Program.outputs fuel) program

end Intcode
