import Intcode.Program

namespace Intcode

def patch (image : List Int) (noun verb : Option Int := none) : List Int :=
  let put (addr : Nat) (value : Option Int) (m : Memory) : Memory :=
    match value with
    | some v => m.set addr v
    | none => m
  (Memory.ofImage image |> put 1 noun |> put 2 verb).snapshot.toList

def finalMemory (fuel : Nat) (image : List Int) (noun verb : Option Int := none)
    (config : Config := {}) : Report Event Failure (Array Int) := do
  let program ← Report.ofExcept (Program.load (patch image noun verb) [] config)
  Program.report (do let _ ← Program.outputs fuel; return (← get).machine.memory.snapshot) program

def answer (cells : Array Int) : Int :=
  cells.getD 0 0

def pairs (candidates : List Int) : List (Int × Int) :=
  candidates.flatMap fun noun => candidates.map fun verb => (noun, verb)

def defaultCandidates : List Int :=
  (List.range 99).map fun (i : Nat) => (i : Int)

def searchAnswer (fuel : Nat) (image : List Int) (wanted : Int → Bool)
    (candidates : List Int := defaultCandidates) (config : Config := {})
    : Report Event Failure (Option (Int × Int)) :=
  go (pairs candidates)
where
  go : List (Int × Int) → Report Event Failure (Option (Int × Int))
    | [] => return none
    | (noun, verb) :: rest =>
      let run := finalMemory fuel image noun verb config
      match run.result with
      | .ok cells =>
        if wanted (answer cells) then
          { events := run.events ++ [.found noun verb (answer cells)]
            result := .ok (some (noun, verb)) }
        else
          (go rest).after run.events
      | .error (.fault fault) => (go rest).after (run.events ++ [.skipped noun verb fault])
      | .error e => { events := run.events, result := .error e }

def searchNounVerb (fuel : Nat) (image : List Int) (target : Int)
    (candidates : List Int := defaultCandidates) (config : Config := {})
    : Report Event Failure (Option (Int × Int)) :=
  searchAnswer fuel image (· = target) candidates config

end Intcode
