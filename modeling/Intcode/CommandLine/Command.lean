import Intcode.Amplifier.Tuning
import Intcode.CommandLine.Hollow.Task
import Intcode.CommandLine.Run
import Intcode.Console
import Intcode.Instruction.Listing
import Intcode.NounVerb

namespace Intcode.CommandLine

open Numeral Amplifier

structure Surroundings (π : Type) where
  source : Except SystemError (List UInt8)
  connect : SerialOptions → Except PortError π
  lines : List String

def RunOptions.perform (options : RunOptions) (fuel : Nat) (config : Config) (path : String)
    (image : List Int) (lines : List String) : Action Nat := do
  match Given.values? options.inputs with
  | some inputs =>
    let state ← RunState.start options inputs config path image
    state.converse fuel options lines
    return 0
  | none => Hollow.performRun options fuel config path image lines

-- Lists no more than the image.
def DisasmOptions.perform (options : DisasmOptions) (image : List Int) : Action Nat := do
  let memory := Memory.ofImage image
  let stop ← match options.stop with
    | some stop => do pure (min (← Action.insist (.nothingBehind .less) stop) memory.size)
    | none => pure (memory.size : Int)
  let start ← Action.insist (.nothingBefore .less) options.start
  match Memory.disassemble start (some stop) memory with
  | .ok lines _ => Report.tell (lines.map fun line => .out (line ++ "\n"))
  | .error e _ => Action.fail (.failure e)
  return 0

def readPhases (text : String) : Action (List Int) :=
  let fields := Text.splitAt ',' (text.toList.filter (· != ' '))
  go (fields.filter (!·.isEmpty))
where
  go : List (List Char) → Action (List Int)
    | [] => return []
    | field :: rest => do
      let phase ← Action.readNumber field
      return phase :: (← go rest)

def AmpOptions.perform (options : AmpOptions) (fuel : Nat) (config : Config) (image : List Int)
    : Action Nat := do
  let layout := if options.feedback then Layout.feedback else Layout.chain
  match options.phases.filter (!·.isEmpty) with
  | some text =>
    let phases ← readPhases text
    match options.signal with
    | .value signal =>
      let signal ← Action.ofReport (layout.run fuel image phases signal config)
      Action.printShowing signal.toList (Event.renderSignal signal)
    | .nothing =>
      let signal ← Hollow.amplify layout fuel image phases config
      Action.printShowing (Hollow.signalNumbers signal) (Hollow.renderSignal signal)
    return 0
  | none =>
    let (signal, order) ← Action.ofReport (maxSignal fuel image layout layout.phases config)
    let listed := renderList "," order
    Action.log .info s!"Best phases: {listed}"
    Action.printShowing (signal :: order) s!"{render signal} {listed}"
    return 0

namespace NounVerbOptions

def isFilled : Option (Given Int) → Bool
  | some .nothing => false
  | _ => true

def answer (options : NounVerbOptions) (fuel : Nat) (config : Config) (image : List Int)
    : Action (Given Int) := do
  let { noun, verb, .. } := options
  if isFilled noun && isFilled verb then
    let value (given : Option (Given Int)) : Option Int := given.bind Given.toOption
    let run := finalMemory fuel image (value noun) (value verb) config
    return .value (Intcode.answer (← Action.ofReport run))
  else
    Hollow.answer fuel image noun verb config

def matching : Given Int → Int → Bool
  | .nothing => fun _ => false
  | .value target => (· = target)

def perform (options : NounVerbOptions) (fuel : Nat) (config : Config) (image : List Int)
    : Action Nat := do
  match options.target with
  | none =>
    let answer ← options.answer fuel config image
    Action.printShowing answer.numbers (renderGiven answer)
    return 0
  | some target =>
    let search := searchAnswer fuel image (matching target) defaultCandidates config
    match ← Action.ofReport search with
    | some (noun, verb) =>
      let shown := [noun, verb, 100 * noun + verb]
      Action.printShowing shown (renderList " " shown)
      return 0
    | none =>
      Action.write (.err s!"No noun/verb produces {renderGiven target}\n")
      return 1

end NounVerbOptions

namespace SerialOptions

variable {π : Type} [Port π]

def openPort (options : SerialOptions) (connect : SerialOptions → Except PortError π) : Action π :=
  Action.ofExcept <| (connect options).mapError
    (·.failure (.portUnavailable options.portName))

def perform (options : SerialOptions) (fuel : Nat) (config : Config) (path : String)
    (image : List Int) (connect : SerialOptions → Except PortError π) : Action Nat := do
  let name := Path.basename path
  let sent ← match Given.values? options.inputs with
    | some inputs => do
      let program ← Action.ofExcept (Program.load image inputs config name)
      let port ← options.openPort connect
      let sent ← Action.ofReport (Console.report (Console.serve fuel) { program, port })
      pure sent.length
    | none => do
      let program ← Hollow.load name config (image.map .value) options.inputs
      Hollow.serve fuel (← options.openPort connect) program
  Action.print s!"Sent {render sent} values to {options.portName}"
  return 0

end SerialOptions

def Task.perform {π : Type} [Port π] (task : Task) (fuel : Nat) (scene : Surroundings π)
    (profile : Given Profile) : Action Nat := do
  let image ← Action.loadProgram scene.source
  match task.command with
  | .run options =>
    let config ← options.config profile task.path image
    options.perform fuel config task.path image scene.lines
  | .disasm options => options.perform image
  | .amp options => options.perform fuel (← readConfig profile) image
  | .nounVerb options => options.perform fuel (← readConfig profile) image
  | .serial options => options.perform fuel (← readConfig profile) task.path image scene.connect

end Intcode.CommandLine
