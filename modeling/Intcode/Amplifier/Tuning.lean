import Intcode.Amplifier.Feedback

namespace Intcode.Amplifier

def picks : List α → List (α × List α)
  | [] => []
  | x :: xs => (x, xs) :: (picks xs).map fun (y, ys) => (y, x :: ys)

def arrangements : (count : Nat) → List α → List (List α)
  | 0, _ => [[]]
  | count + 1, xs => (picks xs).flatMap fun (x, rest) => (arrangements count rest).map (x :: ·)

def permutations (xs : List α) : List (List α) :=
  arrangements xs.length xs

inductive Layout where
  | chain
  | feedback
  deriving Repr, DecidableEq

namespace Layout

def phases : Layout → List Int
  | chain => [0, 1, 2, 3, 4]
  | feedback => [5, 6, 7, 8, 9]

def run (layout : Layout) (fuel : Nat) (image : List Int) (phases : List Int)
    (signal : Int := initialSignal) (config : Config := {}) : Report Event Failure (Option Int) :=
  match layout with
  | chain => return some (← runChain fuel image phases signal config)
  | feedback => runFeedbackLoop fuel image phases signal config

end Layout

def better (best : Option (Int × List Int)) (signal : Option Int) (phases : List Int)
    : Option (Int × List Int) :=
  match best, signal with
  | best, none => best
  | none, some signal => some (signal, phases)
  | some (most, order), some signal =>
    if most < signal then some (signal, phases) else some (most, order)

def maxSignal (fuel : Nat) (image : List Int) (layout : Layout := .chain)
    (phases : List Int := layout.phases) (config : Config := {})
    : Report Event Failure (Int × List Int) := do
  match ← go none (permutations phases) with
  | some best => return best
  | none => Report.fail (.fault { cause := .silentPermutations })
where
  go (best : Option (Int × List Int))
      : List (List Int) → Report Event Failure (Option (Int × List Int))
    | [] => return best
    | order :: rest => do
      let signal ← layout.run fuel image order initialSignal config
      go (better best signal order) rest

end Intcode.Amplifier
