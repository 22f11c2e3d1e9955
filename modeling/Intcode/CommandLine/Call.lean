import Intcode.CommandLine.Command
import Intcode.CommandLine.Directory
import Intcode.CommandLine.Help
import Intcode.Console.Loopback

/-!
Calls of the command line: from the arguments, the files at hand and the standard input to the exit
status and all that is written. Trouble ends a call with the status 1 and a message, unless nobody
has foreseen it, or the log file cannot be written.
-/
namespace Intcode.CommandLine

structure Environment (σ π : Type) where
  files : σ
  connect : SerialOptions → Except PortError π
  clock : Channel → String

def Environment.ofFiles (files : List (Path × List UInt8)) : Environment Directory Loopback :=
  { files := .ofFiles files
    connect := fun options => .ok { url := options.portName }
    clock := fun _ => "1970-01-01 00:00:00" }

structure Call (σ π : Type) where
  args : List String
  env : Environment σ π
  input : String := ""

inductive Exit where
  | status (code : Nat)
  | raised (trouble : Trouble)
  deriving Repr, DecidableEq

structure Outcome where
  exit : Exit
  written : List Output := []
  threshold : Level := .warning
  logFile : Option Path := none
  /-- The log goes to the standard output, in what order with the rest is not known. -/
  echoed : Bool := false
  deriving Repr, DecidableEq

namespace Outcome

def stdout (o : Outcome) : String :=
  Output.stdout o.written

def stderr (o : Outcome) : String :=
  Output.stderr o.threshold o.written

def records (o : Outcome) : List Record :=
  Output.records o.written

end Outcome

def Interruption.outcome : Interruption → Outcome
  | usage program message =>
    { exit := .status 2, written := [.err s!"{program}: error: {message}\n"] }
  | help _ => { exit := .status 0, written := [.out helpText] }
  | version => { exit := .status 0, written := [.out versionLine] }

section

variable {σ π : Type} [FileSystem σ] [Port π]

def openingRecord (name : String) (channel : Channel) : Record :=
  { level := .debug, channel, message := s!"Log file: {(Path.ofString name).render}" }

def startLog (clock : Channel → String) (name : String) (files : σ) : Action σ :=
  go [.library, .commandLine] files
where
  go : List Channel → σ → Action σ
    | [], files => return files
    | channel :: rest, files =>
      match FileSystem.openLog name files with
      | .error e => Action.fail (.system e)
      | .ok files => do
        let record := openingRecord name channel
        Action.write (.log record)
        let line := record.fileLine (clock channel) "setup_logging:63"
        go rest (FileSystem.append name line.toUTF8.toList files)

def conclude (action : Action Nat) : List Output × Exit :=
  match action.result with
  | .ok status => (action.events, .status status)
  | .error trouble =>
    if trouble.isForeseen then
      (action.events ++ [.err s!"Error: {trouble.message}\n"], .status 1)
    else
      (action.events, .raised trouble)

def surroundings (task : Task) (env : Environment σ π) (input : String) : Surroundings π :=
  { source := FileSystem.read task.path env.files
    connect := env.connect
    lines := (Text.lines input.toList).map String.ofList }

def perform (fuel : Nat) (call : Call σ π) : Outcome :=
  match Invocation.read call.args with
  | .error interruption => interruption.outcome
  | .ok { task := none, .. } => (Interruption.help mainProgram).outcome
  | .ok { settings, task := some task } =>
    let threshold := settings.threshold
    match settings.logFile with
    | none =>
      let scene := surroundings task call.env call.input
      let (written, exit) := conclude (task.perform fuel scene settings.profile)
      { exit, written, threshold }
    | some name =>
      let started := startLog call.env.clock name call.env.files
      match started.result with
      | .error trouble => { exit := .raised trouble, written := started.events, threshold }
      | .ok files =>
        let scene := surroundings task { call.env with files } call.input
        let (written, exit) := conclude (task.perform fuel scene settings.profile)
        { exit, written := started.events ++ written, threshold
          logFile := some (Path.ofString name), echoed := FileSystem.echoes name files }

end

end Intcode.CommandLine
