import Intcode.CommandLine.Grammar
import Intcode.Log
import Intcode.Text.Fraction
import Intcode.Text.Numeral
import Intcode.Width

namespace Intcode.CommandLine

structure RunOptions where
  inputs : List (Given Int) := []
  interactive : Bool := false
  trace : Bool := false
  dump : Bool := false
  watches : List (Given Int) := []
  deriving Repr, DecidableEq

structure DisasmOptions where
  start : Given Int := .value 0
  stop : Option (Given Int) := none
  deriving Repr, DecidableEq

structure AmpOptions where
  phases : Option String := none
  feedback : Bool := false
  signal : Given Int := .value 0
  deriving Repr, DecidableEq

structure NounVerbOptions where
  noun : Option (Given Int) := none
  verb : Option (Given Int) := none
  target : Option (Given Int) := none
  deriving Repr, DecidableEq

def defaultBaud : Int := 115200

def defaultTimeout : Fraction :=
  .ofDecimal false 2 0

structure SerialOptions where
  port : Given String
  baud : Given Int := .value defaultBaud
  timeout : Given Fraction := .value defaultTimeout
  inputs : List (Given Int) := []
  deriving Repr, DecidableEq

def SerialOptions.portName (options : SerialOptions) : String :=
  match options.port with
  | .nothing => "[]"
  | .value name => name

inductive Command where
  | run (options : RunOptions)
  | disasm (options : DisasmOptions)
  | amp (options : AmpOptions)
  | nounVerb (options : NounVerbOptions)
  | serial (options : SerialOptions)
  deriving Repr, DecidableEq

structure Settings where
  verbosity : Nat := 0
  quiet : Bool := false
  logFile : Option String := none
  profile : Given Profile := .value .bigint
  deriving Repr, DecidableEq

def Settings.threshold (settings : Settings) : Level :=
  if settings.quiet then .error
  else match settings.verbosity with
    | 0 => .warning
    | 1 => .info
    | _ => .debug

structure Task where
  path : String
  command : Command
  deriving Repr, DecidableEq

structure Invocation where
  settings : Settings
  task : Option Task
  deriving Repr, DecidableEq

def flag (names : List String) (set : σ → σ) : Switch σ :=
  { names, effect := .flag fun draft => .ok (set draft) }

def reading (names : List String) (read : String → Except String α) (set : Given α → σ → σ)
    : Switch σ :=
  { names
    effect := .value fun
      | .nothing, draft => .ok (set .nothing draft)
      | .value text, draft => (read text).map fun a => set (.value a) draft }

def text (names : List String) (set : Given String → σ → σ) : Switch σ :=
  reading names .ok set

def integer (names : List String) (set : Given Int → σ → σ) : Switch σ :=
  reading names (fun text =>
    match Numeral.read text.toList with
    | .ok v => .ok v
    | .error _ => .error s!"invalid int value: {Text.quote text}") set

def notAmong (value : String) (choices : List String) : String :=
  let listed := ", ".intercalate (choices.map Text.quote)
  s!"invalid choice: {Text.quote value} (choose from {listed})"

def help (program : String) : Switch σ :=
  { names := ["-h", "--help"], effect := .flag fun _ => .error (.help program) }

def fraction (names : List String) (set : Given Fraction → σ → σ) : Switch σ :=
  reading names (fun text =>
    match Fraction.read? text.toList with
    | some v => .ok v
    | none => .error s!"invalid float value: {Text.quote text}") set

structure Draft (α : Type) where
  path : Option String := none
  options : α

namespace Draft

def modify (f : α → α) (draft : Draft α) : Draft α :=
  { draft with options := f draft.options }

def missing (draft : Draft α) : List String :=
  if draft.path.isNone then ["program"] else []

end Draft

def commandGrammar (name : String) (switches : List (Switch α))
    (missing : α → List String := fun _ => []) : Grammar (Draft α) :=
  let program := s!"intcodekit {name}"
  let lift (switch : Switch α) : Switch (Draft α) :=
    { names := switch.names
      effect := match switch.effect with
        | .flag apply => .flag fun draft =>
          (apply draft.options).map fun options => { draft with options }
        | .value apply => .value fun value draft =>
          (apply value draft.options).map fun options => { draft with options } }
  { program
    switches := help program :: switches.map lift
    operand := .one fun path draft => { draft with path := some path }
    missing := fun draft => draft.missing ++ missing draft.options }

def runSwitches : List (Switch RunOptions) :=
  [integer ["-i", "--input"] fun v o => { o with inputs := o.inputs ++ [v] },
    flag ["--interactive"] fun o => { o with interactive := true },
    flag ["--trace"] fun o => { o with trace := true },
    flag ["--dump"] fun o => { o with dump := true },
    integer ["--watch"] fun v o => { o with watches := o.watches ++ [v] }]

def disasmSwitches : List (Switch DisasmOptions) :=
  [integer ["--start"] fun v o => { o with start := v },
    integer ["--end"] fun v o => { o with stop := some v }]

def ampSwitches : List (Switch AmpOptions) :=
  [text ["--phases"] fun s o => { o with phases := s.toOption },
    flag ["--feedback"] fun o => { o with feedback := true },
    integer ["--signal"] fun v o => { o with signal := v }]

def nounVerbSwitches : List (Switch NounVerbOptions) :=
  [integer ["--noun"] fun v o => { o with noun := some v },
    integer ["--verb"] fun v o => { o with verb := some v },
    integer ["--target"] fun v o => { o with target := some v }]

-- The port is known only when the whole list has been read.
structure SerialDraft where
  port : Option (Given String) := none
  baud : Given Int := .value defaultBaud
  timeout : Given Fraction := .value defaultTimeout
  inputs : List (Given Int) := []

def serialSwitches : List (Switch SerialDraft) :=
  [text ["--port"] fun s o => { o with port := some s },
    integer ["--baud"] fun v o => { o with baud := v },
    fraction ["--timeout"] fun v o => { o with timeout := v },
    integer ["-i", "--input"] fun v o => { o with inputs := o.inputs ++ [v] }]

def serialMissing (draft : SerialDraft) : List String :=
  if draft.port.isNone then ["--port"] else []

def readTask (grammar : Grammar (Draft α)) (start : α) (command : α → Command)
    (args : List String) : Except Interruption (Task × List String) := do
  let (draft, strays) ← grammar.read { options := start } args
  return ({ path := draft.path.getD "", command := command draft.options }, strays)

def commandNames : List String :=
  ["run", "disasm", "amp", "nounverb", "serial"]

def readCommand? (name : String) (args : List String)
    : Option (Except Interruption (Task × List String)) :=
  match name with
  | "run" => some (readTask (commandGrammar name runSwitches) {} .run args)
  | "disasm" => some (readTask (commandGrammar name disasmSwitches) {} .disasm args)
  | "amp" => some (readTask (commandGrammar name ampSwitches) {} .amp args)
  | "nounverb" => some (readTask (commandGrammar name nounVerbSwitches) {} .nounVerb args)
  | "serial" =>
    let command (o : SerialDraft) : Command :=
      .serial
        { port := o.port.getD .nothing, baud := o.baud, timeout := o.timeout, inputs := o.inputs }
    some (readTask (commandGrammar name serialSwitches serialMissing) {} command args)
  | _ => none

structure MainDraft where
  settings : Settings := {}
  task : Option Task := none
  strays : List String := []

def setting (f : Settings → Settings) (draft : MainDraft) : MainDraft :=
  { draft with settings := f draft.settings }

def mainProgram : String :=
  "intcodekit"

def readProfile (name : String) : Except String Profile :=
  match Profile.ofName? name with
  | some profile => .ok profile
  | none => .error (notAmong name (Profile.all.map (·.name)))

def mainSwitches : List (Switch MainDraft) :=
  [help mainProgram,
    { names := ["--version"], effect := .flag fun _ => .error .version },
    flag ["-v", "--verbose"] (setting fun s => { s with verbosity := s.verbosity + 1 }),
    flag ["-q", "--quiet"] (setting fun s => { s with quiet := true }),
    text ["--log-file"] fun path =>
      setting fun s => { s with logFile := path.toOption.filter (!·.isEmpty) },
    reading ["--word"] readProfile fun profile => setting fun s => { s with profile }]

def mainGrammar : Grammar MainDraft :=
  { program := mainProgram
    switches := mainSwitches
    operand := .withRest fun name args draft =>
      match readCommand? name args with
      | some reading => reading.map fun (task, strays) => { draft with task := some task, strays }
      | none =>
        .error (.usage mainProgram s!"argument command: {notAmong name commandNames}")
    missing := fun _ => [] }

def Invocation.read (args : List String) : Except Interruption Invocation := do
  let (draft, strays) ← mainGrammar.read {} args
  match strays ++ draft.strays with
  | [] => return { settings := draft.settings, task := draft.task }
  | unrecognized =>
    let listed := " ".intercalate unrecognized
    mainGrammar.error s!"unrecognized arguments: {listed}"

end Intcode.CommandLine
