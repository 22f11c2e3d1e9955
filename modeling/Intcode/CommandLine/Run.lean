import Intcode.CommandLine.Action
import Intcode.CommandLine.Invocation
import Intcode.CommandLine.Path
import Intcode.Memory.Dump
import Intcode.Program

namespace Intcode.CommandLine

structure RunState where
  program : Program
  printed : Nat := 0

inductive Pause where
  | ended
  | starved (fault : Fault)

def readConfig (profile : Given Profile) : Action Config := do
  return { width := (← Action.insist .noKey profile).width }

def RunOptions.config (options : RunOptions) (profile : Given Profile) (path : String)
    (image : List Int) : Action Config := do
  Action.log .info s!"Loaded {Numeral.render image.length} cells from {path}"
  return { (← readConfig profile) with tracing := options.trace }

def RunOptions.addresses (options : RunOptions) : Action (List Int) :=
  options.watches.mapM (Action.insist .noKey)

def RunOptions.conclude (options : RunOptions) (steps printed : Nat) (trace : String)
    : Action Unit := do
  Action.log .info
    s!"Halted after {Numeral.render steps} steps, {Numeral.render printed} outputs"
  if options.trace then
    Action.write (.err (trace ++ "\n"))

def prompt : Action Unit :=
  Action.write (.out "input: ")

def readAnswer (line : String) : Action Int :=
  Action.readNumber (Text.trim Text.isBlank line.toList)

namespace RunState

def start (options : RunOptions) (inputs : List Int) (config : Config) (path : String)
    (image : List Int) : Action RunState := do
  let program ← Action.ofExcept (Program.load image inputs config (Path.basename path))
  let machine := watchAll program.machine 0 (← options.addresses)
  return { program := { program with machine } }
where
  watchAll (m : Machine) (tag : Nat) : List Int → Machine
    | [] => m
    | addr :: rest => watchAll (m.watch tag addr) (tag + 1) rest

def toPause (fuel : Nat) : (bound : Nat) → RunState → Action (Pause × RunState)
  | 0, _ => Action.fail (.failure .outOfFuel)
  | bound + 1, state =>
    match Program.nextOutput fuel [] state.program with
    | .ok none program => do
      let (events, program) := program.collect
      Action.tell events
      return (.ended, { state with program })
    | .ok (some value) program => do
      let (events, program) := program.collect
      Action.tell events
      Action.printShowing [value] (Numeral.render value)
      toPause fuel bound { program, printed := state.printed + 1 }
    | .error (.fault { cause := .inputExhausted, ip }) program => do
      let (events, program) := program.collect
      Action.tell events
      return (.starved { cause := .inputExhausted, ip }, { state with program })
    | .error e program => do
      Action.tell program.collect.1
      Action.fail (.failure e)

def dumpWidth : Int := 8

def finish (options : RunOptions) (state : RunState) : Action Unit := do
  let machine := state.program.machine
  options.conclude machine.steps state.printed (TraceEntry.renderAll machine.trace)
  if options.dump then
    Action.print (← Action.ofExcept (machine.memory.dump 0 machine.memory.size dumpWidth))

def answer (line : String) (state : RunState) : Action RunState := do
  let value ← readAnswer line
  match Program.feed [value] state.program with
  | .ok () program => return { state with program }
  | .error e _ => Action.fail (.failure e)

def converse (fuel : Nat) (options : RunOptions) (lines : List String) (state : RunState)
    : Action Unit := do
  let (pause, state) ← state.toPause fuel fuel
  match pause with
  | .ended => finish options state
  | .starved fault =>
    if options.interactive then
      prompt
      match lines with
      | [] => Action.fail .endOfInput
      | line :: rest => converse fuel options rest (← state.answer line)
    else
      Action.fail (.failure fault)

end RunState

end Intcode.CommandLine
