import Intcode.Program

namespace Intcode.Amplifier

def initialSignal : Int := 0

def stageName (index : Nat) : String :=
  s!"amp{Numeral.render index}"

def runStages (fuel : Nat) (image : List Int) (config : Config) (index : Nat)
    : (phases : List Int) → (signal : Int) → Report Event Failure Int
  | [], signal => return signal
  | phase :: rest, signal => do
    let stage ← Report.ofExcept (Program.load image [phase] config (stageName index))
    match ← Program.report (Program.nextOutput fuel [signal]) stage with
    | none => Report.fail (.fault { cause := .silentStage (stageName index) })
    | some next => runStages fuel image config (index + 1) rest next

def runChain (fuel : Nat) (image : List Int) (phases : List Int) (signal : Int := initialSignal)
    (config : Config := {}) : Report Event Failure Int :=
  runStages fuel image config 0 phases signal

end Intcode.Amplifier
