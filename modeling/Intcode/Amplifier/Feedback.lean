import Intcode.Amplifier.Chain

/-!
Feedback loops: a chain the last stage of which feeds the first. A round passes the signal through
all stages; when the signal stops flowing, the stages that are left run on without new input.
-/
namespace Intcode.Amplifier

structure FeedbackLoop where
  stages : List Program
  signal : Int := initialSignal
  lastOutput : Option Int := none
  rounds : Nat := 0
  journal : Array Event := #[]
  deriving Repr, DecidableEq

namespace FeedbackLoop

def load (image : List Int) (phases : List Int) (signal : Int := initialSignal)
    (config : Config := {}) : Except Failure FeedbackLoop :=
  (go 0 phases).map fun stages => { stages, signal }
where
  go (index : Nat) : List Int → Except Failure (List Program)
    | [] => .ok []
    | phase :: rest => do
      let stage ← Program.load image [phase] config (stageName index)
      return stage :: (← go (index + 1) rest)

def isHalted (loop : FeedbackLoop) : Bool :=
  loop.stages.all (·.isHalted)

/--
Passes a signal through the stages. What comes out is none if a stage has halted, before or now; the
stages behind it are left alone.
-/
def relay (fuel : Nat)
    : (signal : Int) → List Program → Except Failure (Option Int) × List Program
  | signal, [] => (.ok (some signal), [])
  | signal, stage :: rest =>
    if stage.isHalted then
      (.ok none, stage :: rest)
    else
      match stage.nextOutput fuel [signal] with
      | .ok (some next) stage =>
        let (outcome, rest) := relay fuel next rest
        (outcome, stage :: rest)
      | .ok none stage => (.ok none, stage :: rest)
      | .error e stage => (.error e, stage :: rest)

def collectStages (loop : FeedbackLoop) : FeedbackLoop :=
  let collected := loop.stages.map (·.collect)
  { loop with
    stages := collected.map (·.2)
    journal := loop.journal ++ (collected.flatMap (·.1)).toArray }

def collect (loop : FeedbackLoop) : List Event × FeedbackLoop :=
  let loop := loop.collectStages
  (loop.journal.toList, { loop with journal := #[] })

def step (fuel : Nat) : EStateM Failure FeedbackLoop Bool := fun loop =>
  if loop.isHalted then
    .ok false loop
  else
    let (outcome, stages) := relay fuel loop.signal loop.stages
    let loop := { loop with stages }.collectStages
    match outcome with
    | .ok (some signal) =>
      .ok true { loop with signal, lastOutput := some signal, rounds := loop.rounds + 1 }
    | .ok none => .ok false loop
    | .error e => .error e loop

def drainStage (fuel : Nat) : (bound : Nat) → EStateM Failure Program Unit
  | 0 => throw .outOfFuel
  | bound + 1 => fun stage =>
    if stage.isHalted then
      .ok () stage
    else
      match stage.nextOutput fuel with
      | .ok none stage => .ok () stage
      | .ok (some _) stage => drainStage fuel bound stage
      | .error (.fault { cause := .inputExhausted, .. }) stage =>
        .ok () { stage with machine := stage.machine.record (.starved stage.name) }
      | .error e stage => .error e stage

def drainAll (fuel : Nat) : List Program → Except Failure Unit × List Program
  | [] => (.ok (), [])
  | stage :: rest =>
    match drainStage fuel fuel stage with
    | .ok () stage =>
      let (outcome, rest) := drainAll fuel rest
      (outcome, stage :: rest)
    | .error e stage => (.error e, stage :: rest)

def drain (fuel : Nat) : EStateM Failure FeedbackLoop Unit := fun loop =>
  let (outcome, stages) := drainAll fuel loop.stages
  let loop := { loop with stages }.collectStages
  match outcome with
  | .ok () => .ok () loop
  | .error e => .error e loop

def stepAll (fuel : Nat) : (bound : Nat) → EStateM Failure FeedbackLoop Unit
  | 0 => throw .outOfFuel
  | bound + 1 => fun loop =>
    match step fuel loop with
    | .ok true loop => stepAll fuel bound loop
    | .ok false loop => .ok () loop
    | .error e loop => .error e loop

def run (fuel : Nat) : EStateM Failure FeedbackLoop (Option Int) := do
  stepAll fuel fuel
  drain fuel
  modifyGet fun loop =>
    (loop.lastOutput,
      { loop with journal := loop.journal.push (.loopEnded loop.rounds loop.lastOutput) })

def report (x : EStateM Failure FeedbackLoop α) (loop : FeedbackLoop) : Report Event Failure α :=
  match x loop with
  | .ok a loop => { events := loop.collect.1, result := .ok a }
  | .error e loop => { events := loop.collect.1, result := .error e }

end FeedbackLoop

def runFeedbackLoop (fuel : Nat) (image : List Int) (phases : List Int)
    (signal : Int := initialSignal) (config : Config := {})
    : Report Event Failure (Option Int) := do
  let loop ← Report.ofExcept (FeedbackLoop.load image phases signal config)
  FeedbackLoop.report (FeedbackLoop.run fuel) loop

end Intcode.Amplifier
