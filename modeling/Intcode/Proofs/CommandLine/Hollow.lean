import Intcode.CommandLine.Hollow.Task
import Intcode.Proofs.Amplifier.Failing
import Intcode.Proofs.Console.Failing
import Intcode.Proofs.Memory.Dump

/-!
Hollow tasks: what can become of a task if nothing is among the numbers that its program is given.
There is foreseen trouble or a misfit, and with a port what comes of the port. The same becomes of
it with any fuel that is enough.
-/
namespace Intcode.CommandLine

namespace Action

end Action

namespace Hollow

variable {π : Type} [Port π]

section

variable {fuel fuel' bound bound' : Nat} {image : List Int} {config : Config}

abbrev Outlasts (x' x : Action α) : Prop :=
  x'.Outlasts (.failure .outOfFuel) x

theorem outlasts_run (more : fuel ≤ fuel')
    : Intcode.Outlasts (.failure .outOfFuel) (run fuel') (run fuel) := by
  induction fuel generalizing fuel' with
  | zero =>
    intro h returned
    exact absurd rfl (returned h)
  | succ fuel ih =>
    obtain ⟨fuel', rfl⟩ := Nat.exists_eq_add_of_le' (Nat.le_trans (Nat.le_add_left 1 _) more)
    apply (Intcode.Outlasts.refl step).bind
    intro stop
    cases stop with
    | some stop => exact .refl _
    | none => exact ih (Nat.le_of_succ_le_succ more)

theorem outlasts_resume (more : fuel ≤ fuel') (inputs : List (Given Int)) (h : Hollow)
    : Outlasts (resume fuel' inputs h) (resume fuel inputs h) := by
  intro returned
  unfold resume at returned ⊢
  rw [outlasts_run more]
  intro h' lacking
  rw [lacking] at returned
  exact returned rfl

theorem outlasts_drive {σ : Type} {put : Given Int → σ → Action σ}
    {ask : Fault → σ → Action (Int × σ)} (more : fuel ≤ fuel') (further : bound ≤ bound')
    (sink : σ) (h : Hollow)
    : Outlasts (drive fuel' put ask bound' sink h) (drive fuel put ask bound sink h) := by
  induction bound generalizing bound' sink h with
  | zero =>
    intro returned
    exact absurd rfl returned
  | succ bound ih =>
    obtain ⟨bound', rfl⟩ := Nat.exists_eq_add_of_le' (Nat.le_trans (Nat.le_add_left 1 _) further)
    have further := Nat.le_of_succ_le_succ further
    apply (outlasts_resume more [] h).bind
    rintro ⟨next, h⟩ -
    cases next with
    | ended => exact .refl _
    | output cell => exact (Report.Outlasts.refl _).bind fun _ _ => ih further _ _
    | starved fault => exact (Report.Outlasts.refl _).bind fun _ _ => ih further _ _

theorem outlasts_performRun (options : RunOptions) (more : fuel ≤ fuel') (path : String)
    (lines : List String)
    : Outlasts (performRun options fuel' config path image lines)
        (performRun options fuel config path image lines) := by
  apply (Report.Outlasts.refl _).bind
  intro h _
  apply (Report.Outlasts.refl _).bind
  intro watches _
  exact (outlasts_drive more more _ _).bind fun _ _ => .refl _

theorem outlasts_answer (more : fuel ≤ fuel') (noun verb : Option (Given Int))
    : Outlasts (answer fuel' image noun verb config) (answer fuel image noun verb config) :=
  (Report.Outlasts.refl _).bind fun _ _ =>
    (outlasts_drive more more _ _).bind fun _ _ => .refl _

theorem outlasts_runStages (more : fuel ≤ fuel') (index : Nat) (phases : List Int)
    (signal : Given Int)
    : Outlasts (runStages fuel' image config index phases signal)
        (runStages fuel image config index phases signal) := by
  induction phases generalizing index signal with
  | nil => exact .refl _
  | cons phase rest ih =>
    apply (Report.Outlasts.refl _).bind
    intro stage _
    apply (outlasts_resume more _ _).bind
    rintro ⟨next, h⟩ -
    cases next with
    | output next => exact ih _ _
    | ended => exact .refl _
    | starved fault => exact .refl _

theorem outlasts_relay (more : fuel ≤ fuel') (signal : Given Int) (stages : List Hollow)
    : Outlasts (relay fuel' signal stages) (relay fuel signal stages) := by
  induction stages generalizing signal with
  | nil => exact .refl _
  | cons stage rest ih =>
    unfold relay
    split
    . exact .refl _
    . apply (outlasts_resume more _ _).bind
      rintro ⟨next, h⟩ -
      cases next with
      | output next => exact (ih _).bind fun _ _ => .refl _
      | ended => exact .refl _
      | starved fault => exact .refl _

theorem outlasts_drainStage (more : fuel ≤ fuel') (further : bound ≤ bound') (stage : Hollow)
    : Outlasts (drainStage fuel' bound' stage) (drainStage fuel bound stage) := by
  induction bound generalizing bound' stage with
  | zero =>
    intro returned
    exact absurd rfl returned
  | succ bound ih =>
    obtain ⟨bound', rfl⟩ := Nat.exists_eq_add_of_le' (Nat.le_trans (Nat.le_add_left 1 _) further)
    unfold drainStage
    split
    . apply (outlasts_resume more _ _).bind
      rintro ⟨next, h⟩ -
      cases next with
      | output next => exact ih (Nat.le_of_succ_le_succ further) _
      | ended => exact .refl _
      | starved fault => exact .refl _
    . exact .refl _

theorem outlasts_finish (more : fuel ≤ fuel') (rounds : Rounds) (stages : List Hollow)
    : Outlasts (runRounds.finish fuel' rounds stages) (runRounds.finish fuel rounds stages) := by
  have drained : Outlasts (stages.forM (drainStage fuel' fuel'))
      (stages.forM (drainStage fuel fuel)) := by
    induction stages with
    | nil => exact .refl _
    | cons stage rest ih => exact (outlasts_drainStage more more stage).bind fun _ _ => ih
  exact drained.bind fun _ _ => .refl _

theorem outlasts_runRounds (more : fuel ≤ fuel') (further : bound ≤ bound') (rounds : Rounds)
    : Outlasts (runRounds fuel' bound' rounds) (runRounds fuel bound rounds) := by
  induction bound generalizing bound' rounds with
  | zero =>
    intro returned
    exact absurd rfl returned
  | succ bound ih =>
    obtain ⟨bound', rfl⟩ := Nat.exists_eq_add_of_le' (Nat.le_trans (Nat.le_add_left 1 _) further)
    unfold runRounds
    split
    . exact outlasts_finish more _ _
    . apply (outlasts_relay more _ _).bind
      rintro ⟨signal, stages⟩ -
      cases signal with
      | some signal => exact ih (Nat.le_of_succ_le_succ further) _
      | none => exact outlasts_finish more _ _

theorem outlasts_amplify (layout : Amplifier.Layout) (more : fuel ≤ fuel') (phases : List Int)
    : Outlasts (amplify layout fuel' image phases config)
        (amplify layout fuel image phases config) := by
  cases layout with
  | chain => exact (outlasts_runStages more _ _ _).bind fun _ _ => .refl _
  | feedback => exact (Report.Outlasts.refl _).bind fun _ _ => outlasts_runRounds more more _

theorem outlasts_serve (more : fuel ≤ fuel') (port : π) (h : Hollow)
    : Outlasts (serve fuel' port h) (serve fuel port h) := by
  apply (Report.Outlasts.refl _).bind
  intro _ _
  exact (outlasts_drive more more _ _).bind fun _ _ => .refl _

end

end Hollow

end Intcode.CommandLine
