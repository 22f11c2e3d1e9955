import Intcode.CommandLine.Call

namespace Intcode.CommandLine

def plenty : Nat := 1000000000000000

structure Sinks where
  threshold : Level
  log : Option IO.FS.Handle

def Sinks.write (sinks : Sinks) (output : Output) : IO Unit := do
  let stdout ← IO.getStdout
  stdout.putStr output.onStdout
  stdout.flush
  (← IO.getStderr).putStr (output.onStderr sinks.threshold)
  if let some handle := sinks.log then
    if let some record := output.logged then
      handle.putStr (record.fileLine "-" "-")

def Sinks.run (sinks : Sinks) (action : Action α) : IO (Option α) := do
  action.events.forM sinks.write
  match action.result with
  | .ok a => return some a
  | .error trouble =>
    let lead := if trouble.isForeseen then "Error: " else ""
    sinks.write (.err s!"{lead}{trouble.message}\n")
    return none

def attempt (path : String) (act : String → IO α) : IO (Except SystemError α) := do
  if Directory.hasNul path then
    return .error .nulByte
  try
    return .ok (← act path)
  catch
    | .noFileOrDirectory .. => return .error (.missing path)
    | .permissionDenied .. => return .error (.denied path)
    | .inappropriateType (some _) .. => return .error (.notADirectory path)
    | .invalidArgument .. => return .error (.nameTooLong path)
    | _ => return .error (.isADirectory path)

def readSource (path : String) : IO (Except SystemError (List UInt8)) := do
  let read ← attempt (Path.ofString path).render fun path => IO.FS.readBinFile path
  return read.map ByteArray.toList

def connect (options : SerialOptions) : Except PortError Loopback :=
  if "loop://".isPrefixOf options.portName then
    .ok { url := options.portName }
  else
    .error (.refused "no such port")

def openLog (path : Path) : IO IO.FS.Handle := do
  IO.FS.createDirAll path.parent.render
  IO.FS.Handle.mk path.collapse.render .append

partial def readLines (stdin : IO.FS.Stream) : IO (List String) := do
  let line ← stdin.getLine
  if line.isEmpty then
    return []
  return line :: (← readLines stdin)

partial def converse (sinks : Sinks) (options : RunOptions) (state : RunState) : IO UInt32 := do
  let some (pause, state) ← sinks.run (state.toPause plenty plenty) | return 1
  match pause with
  | .ended =>
    let some () ← sinks.run (state.finish options) | return 1
    return 0
  | .starved fault =>
    if !options.interactive then
      let _ ← sinks.run (Action.fail (.failure fault) : Action Unit)
      return 1
    let _ ← sinks.run prompt
    let line ← (← IO.getStdin).getLine
    if line.isEmpty then
      let _ ← sinks.run (Action.fail .endOfInput : Action Unit)
      return 1
    let some state ← sinks.run (state.answer line) | return 1
    converse sinks options state

def complete (sinks : Sinks) (settings : Settings) (task : Task) (scene : Surroundings Loopback)
    : IO UInt32 := do
  let some status ← sinks.run (task.perform plenty scene settings.profile) | return 1
  return status.toUInt32

def execute (sinks : Sinks) (settings : Settings) (task : Task) : IO UInt32 := do
  let source ← readSource task.path
  let scene : Surroundings Loopback := { source, connect, lines := [] }
  match task.command with
  | .run options =>
    match Given.values? options.inputs with
    | some inputs =>
      let start := do
        let image ← Action.loadProgram source
        let config ← options.config settings.profile task.path image
        RunState.start options inputs config task.path image
      let some state ← sinks.run start | return 1
      converse sinks options state
    | none =>
      let lines ← if options.interactive then readLines (← IO.getStdin) else pure []
      complete sinks settings task { scene with lines }
  | _ => complete sinks settings task scene

end Intcode.CommandLine

open Intcode.CommandLine in
def main (args : List String) : IO UInt32 := do
  match Invocation.read args with
  | .error interruption =>
    let outcome := interruption.outcome
    outcome.written.forM ({ threshold := outcome.threshold, log := none : Sinks }).write
    match outcome.exit with
    | .status code => return code.toUInt32
    | .raised _ => return 1
  | .ok { task := none, .. } =>
    IO.print helpText
    return 0
  | .ok { settings, task := some task } =>
    match settings.logFile with
    | none => execute { threshold := settings.threshold, log := none } settings task
    | some name =>
      let path := Path.ofString name
      let sinks : Sinks := { threshold := settings.threshold, log := some (← openLog path) }
      [Intcode.Channel.library, .commandLine].forM fun channel =>
        sinks.write (.log (openingRecord name channel))
      execute sinks settings task
