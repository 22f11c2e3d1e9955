import Intcode.Amplifier.Tuning
import Intcode.CommandLine.Hollow
import Intcode.CommandLine.Run
import Intcode.Console.Port

namespace Intcode.CommandLine.Hollow

open Amplifier (Layout stageName)

def refuse (f : Fault) : Action α :=
  Action.fail (.failure (.fault f))

structure Session where
  lines : List String
  printed : Nat := 0

def Session.print (cell : Given Int) (session : Session) : Action Session := do
  Action.printShowing cell.numbers (renderGiven cell)
  return { session with printed := session.printed + 1 }

def Session.ask (interactive : Bool) (fault : Fault) (session : Session)
    : Action (Int × Session) := do
  if interactive then
    prompt
    match session.lines with
    | [] => Action.fail .endOfInput
    | line :: lines => return (← readAnswer line, { session with lines })
  else
    refuse fault

def dump (h : Hollow) : Action String :=
  match Given.values? h.cells.toList with
  | none => Action.fail (.misfit .noColumn)
  | some image =>
    Action.ofExcept ((Memory.ofImage image).dump 0 image.length RunState.dumpWidth)

def performRun (options : RunOptions) (fuel : Nat) (config : Config) (path : String)
    (image : List Int) (lines : List String) : Action Nat := do
  let h ← load (Path.basename path) config (image.map .value) options.inputs
  let h := { h with watches := ← options.addresses }
  let (session, h) ← drive fuel Session.print (Session.ask options.interactive) fuel { lines } h
  options.conclude h.steps session.printed (Text.joinLines h.trace.toList)
  if options.dump then
    Action.print (← dump h)
  return 0

def patch (image : List Int) (noun verb : Option (Given Int)) : List (Given Int) :=
  let put (addr : Nat) (cell : Option (Given Int)) (cells : List (Given Int)) :=
    match cell with
    | some cell => (cells ++ List.replicate (addr + 1 - cells.length) (Given.value 0)).set addr cell
    | none => cells
  image.map .value |> put 1 noun |> put 2 verb

def answer (fuel : Nat) (image : List Int) (noun verb : Option (Given Int)) (config : Config)
    : Action (Given Int) := do
  let h ← load "program" config (patch image noun verb) []
  let (_, h) ← drive fuel (fun _ sink => return sink) (fun fault _ => refuse fault) fuel () h
  return h.peek 0

def runStages (fuel : Nat) (image : List Int) (config : Config) (index : Nat)
    : (phases : List Int) → (signal : Given Int) → Action (Given Int)
  | [], signal => return signal
  | phase :: rest, signal => do
    let stage ← load (stageName index) config (image.map .value) [.value phase]
    match ← resume fuel [signal] stage with
    | (.output next, _) => runStages fuel image config (index + 1) rest next
    | (.ended, _) => refuse { cause := .silentStage (stageName index) }
    | (.starved fault, _) => refuse fault

def loadStages (image : List Int) (config : Config) (index : Nat)
    : (phases : List Int) → Action (List Hollow)
  | [] => return []
  | phase :: rest => do
    let stage ← load (stageName index) config (image.map .value) [.value phase]
    return stage :: (← loadStages image config (index + 1) rest)

def relay (fuel : Nat) : (signal : Given Int) → List Hollow
    → Action (Option (Given Int) × List Hollow)
  | signal, [] => return (some signal, [])
  | signal, stage :: rest => do
    if stage.ended then
      return (none, stage :: rest)
    else
      match ← resume fuel [signal] stage with
      | (.output next, stage) =>
        let (signal, rest) ← relay fuel next rest
        return (signal, stage :: rest)
      | (.ended, stage) => return (none, stage :: rest)
      | (.starved fault, _) => refuse fault

def drainStage (fuel : Nat) : (bound : Nat) → Hollow → Action Unit
  | 0, _ => Action.fail (.failure .outOfFuel)
  | bound + 1, stage => do
    if !stage.ended then
      match ← resume fuel [] stage with
      | (.output _, stage) => drainStage fuel bound stage
      | (.ended, _) => return
      | (.starved _, stage) => Report.tell (Output.ofEvents [.starved stage.name])

structure Rounds where
  stages : List Hollow
  signal : Given Int
  last : Option (Given Int) := none
  count : Nat := 0

def renderSignal : Option (Given Int) → String
  | some signal => renderGiven signal
  | none => Event.renderSignal none

def signalNumbers (signal : Option (Given Int)) : List Int :=
  signal.toList.flatMap Given.numbers

def runRounds (fuel : Nat) : (bound : Nat) → Rounds → Action (Option (Given Int))
  | 0, _ => Action.fail (.failure .outOfFuel)
  | bound + 1, rounds => do
    if rounds.stages.all (·.ended) then
      finish rounds rounds.stages
    else
      match ← relay fuel rounds.signal rounds.stages with
      | (some signal, stages) =>
        runRounds fuel bound { stages, signal, last := some signal, count := rounds.count + 1 }
      | (none, stages) => finish rounds stages
where
  finish (rounds : Rounds) (stages : List Hollow) : Action (Option (Given Int)) := do
    stages.forM (drainStage fuel fuel)
    let count := Numeral.render rounds.count
    let signal := renderSignal rounds.last
    if ∀ v ∈ signalNumbers rounds.last, Numeral.Short v then
      Action.write <| .log
        { level := .debug
          channel := .pipeline
          message := s!"feedback loop done after {count} rounds, signal={signal}" }
    return rounds.last

def amplify (layout : Layout) (fuel : Nat) (image phases : List Int) (config : Config)
    : Action (Option (Given Int)) :=
  match layout with
  | .chain => return some (← runStages fuel image config 0 phases .nothing)
  | .feedback => do
    let stages ← loadStages image config 0 phases
    runRounds fuel fuel { stages, signal := .nothing }

structure Link (π : Type) where
  port : π
  sent : Nat := 0
  received : Nat := 0

variable {π : Type} [Port π]

def Link.send (cell : Given Int) (link : Link π) : Action (Link π) := do
  let line ← Action.ofExcept <| writing cell.numbers
    ((renderGiven cell).toList.map Char.toUInt8 ++ [Port.lineBreak])
  match Port.write line link.port with
  | (.error e, _) => Action.fail (.failure (e.failure .writeFailed))
  | (.ok (), port) =>
    if let .value v := cell then
      Report.tell (Output.ofEvents [.sent v])
    return { link with port, sent := link.sent + 1 }

def Link.ask (fault : Fault) (link : Link π) : Action (Int × Link π) := do
  match Port.readLine link.port with
  | (.error e, _) => Action.fail (.failure (e.failure .readFailed))
  | (.ok [], _) => refuse { fault with cause := .readTimedOut }
  | (.ok line, port) =>
    let text := Port.decode line
    match Numeral.read text with
    | .error _ => refuse { fault with cause := .unreadableLine (String.ofList text) }
    | .ok v =>
      Report.tell (Output.ofEvents [.received v])
      return (v, { link with port, received := link.received + 1 })

def serve (fuel : Nat) (port : π) (h : Hollow) : Action Nat := do
  Report.tell (Output.ofEvents [.serving h.name (Port.name port)])
  let (link, h) ← drive fuel Link.send Link.ask fuel { port } h
  Report.tell (Output.ofEvents [.served h.name link.sent link.received])
  return link.sent

end Intcode.CommandLine.Hollow
