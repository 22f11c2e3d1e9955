import Intcode.Amplifier.Feedback
import Intcode.Proofs.Program.Session

namespace Intcode.Amplifier.FeedbackLoop

open Program

inductive Rounds (fuel : Nat) : FeedbackLoop → EStateM.Result Failure FeedbackLoop Unit → Prop where
  | stopped {loop loop' : FeedbackLoop}
    : step fuel loop = .ok false loop' → Rounds fuel loop (.ok () loop')
  | failed {loop loop' : FeedbackLoop} {e : Failure}
    : step fuel loop = .error e loop' → Rounds fuel loop (.error e loop')
  | more {loop loop' : FeedbackLoop} {result : EStateM.Result Failure FeedbackLoop Unit}
    : step fuel loop = .ok true loop' → Rounds fuel loop' result → Rounds fuel loop result

inductive Flows (start : FeedbackLoop) : FeedbackLoop → Prop where
  | start : Flows start start
  | round {loop loop' : FeedbackLoop} {fuel : Nat}
    : Flows start loop → step fuel loop = .ok true loop' → Flows start loop'

variable {fuel fuel' : Nat} {loop loop' : FeedbackLoop}
  {result result' : EStateM.Result Failure FeedbackLoop Unit}

theorem relay_mono {signal : Int} {stages : List Program} (more : fuel ≤ fuel')
    (returned : (relay fuel signal stages).1 ≠ .error .outOfFuel)
    : relay fuel' signal stages = relay fuel signal stages := by
  induction stages generalizing signal with
  | nil => rfl
  | cons stage stages ih =>
    unfold relay at returned ⊢
    split
    . rfl
    . next going =>
      rw [if_neg going] at returned
      have same : stage.nextOutput fuel' [signal] = stage.nextOutput fuel [signal] := by
        apply nextOutput_mono more
        intro stage' spent
        rw [spent] at returned
        exact returned rfl
      rw [same]
      split
      . next next stage' gave =>
        rw [gave] at returned
        rw [ih returned]
      . rfl
      . rfl

theorem step_mono {result : EStateM.Result Failure FeedbackLoop Bool} (more : fuel ≤ fuel')
    (stepped : step fuel loop = result) (returned : ∀ loop', result ≠ .error .outOfFuel loop')
    : step fuel' loop = result := by
  rw [← stepped] at returned ⊢
  unfold step at returned ⊢
  split
  . rfl
  . next going =>
    rw [if_neg going] at returned
    rw [relay_mono more]
    intro spent
    generalize relay fuel loop.signal loop.stages = relayed at spent returned
    obtain ⟨outcome, stages⟩ := relayed
    cases spent
    exact returned _ rfl

def onlyStage (loop : FeedbackLoop) (stage : Program) : FeedbackLoop :=
  { loop with stages := [stage] }.collectStages

theorem step_of_stage {stage : Program} (only : loop.stages = [stage])
    (free : stage.obstacle? = none) (fuel : Nat)
    : step fuel loop
        =
      match stage.nextOutput fuel [loop.signal] with
      | .ok (some value) stage =>
        .ok true
          { loop.onlyStage stage with
            signal := value, lastOutput := some value, rounds := loop.rounds + 1 }
      | .ok none stage => .ok false (loop.onlyStage stage)
      | .error e stage => .error e (loop.onlyStage stage) := by
  have going : stage.isHalted = false := by
    rw [Program.isHalted, beq_eq_false_iff_ne]
    exact (obstacle?_eq_none_iff.mp free).1
  have going' : loop.isHalted = false := by
    rw [FeedbackLoop.isHalted, only]
    simp [going]
  unfold step
  rw [going', only]
  simp only [relay, going]
  cases stage.nextOutput fuel [loop.signal] with
  | error e stage => rfl
  | ok out stage => cases out <;> rfl

theorem step_unique {result result' : EStateM.Result Failure FeedbackLoop Bool}
    (stepped : step fuel loop = result) (stepped' : step fuel' loop = result')
    (returned : ∀ loop', result ≠ .error .outOfFuel loop')
    (returned' : ∀ loop', result' ≠ .error .outOfFuel loop') : result = result' := by
  rw [← step_mono (Nat.le_max_left fuel fuel') stepped returned,
    step_mono (Nat.le_max_right fuel fuel') stepped' returned']

theorem Rounds.mono (rounds : Rounds fuel loop result) (more : fuel ≤ fuel')
    (returned : ∀ loop', result ≠ .error .outOfFuel loop') : Rounds fuel' loop result := by
  induction rounds with
  | stopped stepped => exact .stopped (step_mono more stepped fun _ => ok_ne_error)
  | failed stepped => exact .failed (step_mono more stepped (error_ne_error returned))
  | more stepped _ ih =>
    exact .more (step_mono more stepped fun _ => ok_ne_error) (ih returned)

theorem rounds_of_stepAll (bound : Nat) (loop : FeedbackLoop)
    : Rounds fuel loop (stepAll fuel bound loop)
      ∨ ∃ loop', stepAll fuel bound loop = .error .outOfFuel loop' := by
  induction bound generalizing loop with
  | zero => exact .inr ⟨loop, rfl⟩
  | succ bound ih =>
    rw [stepAll]
    dsimp only
    cases stepped : step fuel loop with
    | error e loop' => exact .inl (.failed stepped)
    | ok flows loop' =>
      cases flows with
      | false => exact .inl (.stopped stepped)
      | true =>
        cases ih loop' with
        | inl rounds => exact .inl (.more stepped rounds)
        | inr spent => exact .inr spent

theorem Rounds.exists_stepAll (rounds : Rounds fuel loop result)
    (returned : ∀ loop', result ≠ .error .outOfFuel loop')
    : ∃ count, ∀ fuel' ≥ fuel, ∀ bound ≥ count, stepAll fuel' bound loop = result := by
  induction rounds with
  | stopped stepped =>
    refine ⟨1, ?_⟩
    intro fuel' more bound enough
    obtain ⟨bound, rfl⟩ : ∃ b, bound = b + 1 := ⟨bound - 1, by omega⟩
    simp only [stepAll, step_mono more stepped fun _ => ok_ne_error]
  | failed stepped =>
    refine ⟨1, ?_⟩
    intro fuel' more bound enough
    obtain ⟨bound, rfl⟩ : ∃ b, bound = b + 1 := ⟨bound - 1, by omega⟩
    simp only [stepAll, step_mono more stepped (error_ne_error returned)]
  | more stepped _ ih =>
    obtain ⟨count, ih⟩ := ih returned
    refine ⟨count + 1, ?_⟩
    intro fuel' more bound enough
    obtain ⟨bound, rfl⟩ : ∃ b, bound = b + 1 := ⟨bound - 1, by omega⟩
    simp only [stepAll, step_mono more stepped fun _ => ok_ne_error]
    exact ih fuel' more bound (by omega)

theorem Rounds.unique (rounds : Rounds fuel loop result) (rounds' : Rounds fuel' loop result')
    (returned : ∀ loop', result ≠ .error .outOfFuel loop')
    (returned' : ∀ loop', result' ≠ .error .outOfFuel loop') : result = result' := by
  obtain ⟨count, same⟩ := rounds.exists_stepAll returned
  obtain ⟨count', same'⟩ := rounds'.exists_stepAll returned'
  rw [← same (max fuel fuel') (by omega) (max count count') (by omega),
    same' (max fuel fuel') (by omega) (max count count') (by omega)]

theorem drainAll_of_isHalted {stages : List Program}
    (halted : ∀ stage ∈ stages, stage.isHalted = true) (fuel : Nat)
    : drainAll (fuel + 1) stages = (.ok (), stages) := by
  induction stages with
  | nil => rfl
  | cons stage stages ih =>
    rw [List.forall_mem_cons] at halted
    have drained : drainStage (fuel + 1) (fuel + 1) stage = .ok () stage := by
      simp only [drainStage, if_pos halted.1]
    simp only [drainAll, drained, ih halted.2]

def ended (loop : FeedbackLoop) : FeedbackLoop :=
  { loop.collectStages with
    journal := loop.collectStages.journal.push (.loopEnded loop.rounds loop.lastOutput) }

theorem run_eq (fuel : Nat) (loop : FeedbackLoop)
    : run fuel loop
        =
      match stepAll fuel fuel loop with
      | .error e loop' => .error e loop'
      | .ok _ loop' =>
        match drain fuel loop' with
        | .error e loop'' => .error e loop''
        | .ok _ loop'' =>
          .ok loop''.lastOutput
            { loop'' with
              journal := loop''.journal.push (.loopEnded loop''.rounds loop''.lastOutput) } := by
  unfold run
  show EStateM.bind _ _ loop = _
  unfold EStateM.bind
  cases stepAll fuel fuel loop with
  | error e loop' => rfl
  | ok _ loop' =>
    show EStateM.bind _ _ loop' = _
    unfold EStateM.bind
    dsimp only
    cases drain fuel loop' with
    | error e loop'' => rfl
    | ok _ loop'' => rfl

def finished
    : EStateM.Result Failure FeedbackLoop Unit → EStateM.Result Failure FeedbackLoop (Option Int)
  | .ok _ loop => .ok loop.lastOutput loop.ended
  | .error e loop => .error e loop

def Halts (result : EStateM.Result Failure FeedbackLoop Unit) : Prop :=
  ∀ loop, result = .ok () loop → ∀ stage ∈ loop.stages, stage.isHalted = true

theorem run_of_stepAll (stepped : stepAll (fuel + 1) (fuel + 1) loop = result)
    (halts : Halts result) : run (fuel + 1) loop = finished result := by
  rw [run_eq, stepped]
  cases result with
  | error e loop' => rfl
  | ok _ loop' =>
    simp only [drain, drainAll_of_isHalted (halts loop' rfl)]
    rfl

theorem Rounds.exists_run (rounds : Rounds fuel loop result)
    (returned : ∀ loop', result ≠ .error .outOfFuel loop') (halts : Halts result)
    : ∃ enough, ∀ fuel' ≥ enough, run fuel' loop = finished result := by
  obtain ⟨count, same⟩ := rounds.exists_stepAll returned
  refine ⟨max fuel count + 1, ?_⟩
  intro fuel' more
  obtain ⟨bound, rfl⟩ : ∃ b, fuel' = b + 1 := ⟨fuel' - 1, by omega⟩
  exact run_of_stepAll (same (bound + 1) (by omega) (bound + 1) (by omega)) halts

theorem rounds_of_run (returned : ∀ loop', run fuel loop ≠ .error .outOfFuel loop')
    : ∃ result, Rounds fuel loop result ∧ (∀ loop', result ≠ .error .outOfFuel loop')
        ∧ (Halts result → run fuel loop = finished result) := by
  have spent (loop' : FeedbackLoop) : stepAll fuel fuel loop ≠ .error .outOfFuel loop' := by
    intro spent
    rw [run_eq, spent] at returned
    exact returned _ rfl
  cases rounds_of_stepAll fuel loop with
  | inr out =>
    obtain ⟨loop', out⟩ := out
    exact absurd out (spent loop')
  | inl rounds =>
    refine ⟨_, rounds, spent, ?_⟩
    cases fuel with
    | zero => exact absurd rfl (spent loop)
    | succ fuel => exact run_of_stepAll rfl

end Intcode.Amplifier.FeedbackLoop
