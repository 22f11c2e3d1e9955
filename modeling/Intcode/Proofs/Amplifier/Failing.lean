import Intcode.Amplifier.Tuning
import Intcode.Proofs.Amplifier.Padding
import Intcode.Proofs.Amplifier.Rounds
import Intcode.Proofs.Program.Failing

namespace Intcode.Amplifier

variable {fuel fuel' : Nat} {image phases : List Int} {config : Config}

theorem outlasts_runStages (more : fuel ≤ fuel') (index : Nat) (signal : Int)
    : (runStages fuel' image config index phases signal).Outlasts .outOfFuel
        (runStages fuel image config index phases signal) := by
  induction phases generalizing index signal with
  | nil => exact .refl _
  | cons phase rest ih =>
    apply (Report.Outlasts.refl _).bind
    intro stage _
    have called := Program.outlasts_nextOutput more [signal]
    apply (Report.Outlasts.of_outcome called (Program.result_report _ stage)
      (Program.result_report _ stage)).bind
    intro out _
    cases out with
    | none => exact .refl _
    | some next => exact ih _ _

namespace FeedbackLoop

theorem isOwn_of_load_go {index : Nat} {e : Failure}
    (failed : load.go image config index phases = .error e) : e.IsOwn := by
  induction phases generalizing index with
  | nil => contradiction
  | cons phase rest ih =>
    unfold load.go at failed
    cases loaded : Program.load image [phase] config (stageName index) with
    | error e' =>
      rw [loaded] at failed
      cases failed
      exact Program.isOwn_of_load loaded
    | ok stage =>
      rw [loaded] at failed
      cases remaining : load.go image config (index + 1) rest with
      | error e' =>
        change (load.go image config (index + 1) rest >>= _) = _ at failed
        rw [remaining] at failed
        cases failed
        exact ih remaining
      | ok stages =>
        change (load.go image config (index + 1) rest >>= _) = _ at failed
        rw [remaining] at failed
        contradiction

theorem isOwn_of_load {signal : Int} {e : Failure}
    (failed : load image phases signal config = .error e) : e.IsOwn := by
  unfold load at failed
  cases loaded : load.go image config 0 phases with
  | error e' =>
    rw [loaded] at failed
    cases failed
    exact isOwn_of_load_go loaded
  | ok stages =>
    rw [loaded] at failed
    contradiction

theorem isOwn_of_relay {signal : Int} {stages : List Program} {e : Failure}
    (failed : (relay fuel signal stages).1 = .error e) : e.IsOwn := by
  induction stages generalizing signal with
  | nil => contradiction
  | cons stage rest ih =>
    unfold relay at failed
    split at failed
    . contradiction
    . split at failed
      . exact ih failed
      . contradiction
      . next called =>
        cases failed
        exact (Program.plain_nextOutput fuel [signal]).of_error called

theorem plain_step (fuel : Nat) : FailsOnly Failure.IsOwn (step fuel) := by
  constructor
  intro loop e loop' failed
  unfold step at failed
  split at failed
  . contradiction
  . generalize relayed : relay fuel loop.signal loop.stages = passed at failed
    obtain ⟨result, stages⟩ := passed
    cases result with
    | ok out => cases out <;> contradiction
    | error e' =>
      cases failed
      exact isOwn_of_relay (congrArg Prod.fst relayed)

theorem plain_stepAll (fuel bound : Nat) : FailsOnly Failure.IsOwn (stepAll fuel bound) := by
  induction bound with
  | zero => exact .throw trivial
  | succ bound ih =>
    constructor
    intro loop e loop' failed
    unfold stepAll at failed
    split at failed
    . exact ih.of_error failed
    . contradiction
    . next stepped =>
      cases failed
      exact (plain_step fuel).of_error stepped

theorem plain_drainStage (fuel bound : Nat) : FailsOnly Failure.IsOwn (drainStage fuel bound) := by
  induction bound with
  | zero => exact .throw trivial
  | succ bound ih =>
    constructor
    intro stage e stage' failed
    unfold drainStage at failed
    split at failed
    . contradiction
    . split at failed
      . contradiction
      . exact ih.of_error failed
      . contradiction
      . next called =>
        cases failed
        exact (Program.plain_nextOutput fuel []).of_error called

theorem isOwn_of_drainAll {stages : List Program} {e : Failure}
    (failed : (drainAll fuel stages).1 = .error e) : e.IsOwn := by
  induction stages with
  | nil => contradiction
  | cons stage rest ih =>
    unfold drainAll at failed
    split at failed
    . exact ih failed
    . next drained =>
      cases failed
      exact (plain_drainStage fuel fuel).of_error drained

theorem plain_drain (fuel : Nat) : FailsOnly Failure.IsOwn (drain fuel) := by
  constructor
  intro loop e loop' failed
  unfold drain at failed
  generalize drained : drainAll fuel loop.stages = all at failed
  obtain ⟨result, stages⟩ := all
  cases result with
  | ok _ => contradiction
  | error e' =>
    cases failed
    exact isOwn_of_drainAll (congrArg Prod.fst drained)

theorem plain_run (fuel : Nat) : FailsOnly Failure.IsOwn (run fuel) :=
  (plain_stepAll fuel fuel).bind fun _ => (plain_drain fuel).bind fun _ => .modifyGet _

theorem outlasts_step (more : fuel ≤ fuel') : Outlasts .outOfFuel (step fuel') (step fuel) :=
  fun _ returned => step_mono more rfl returned

theorem outlasts_stepAll {bound bound' : Nat} (more : fuel ≤ fuel') (further : bound ≤ bound')
    : Outlasts .outOfFuel (stepAll fuel' bound') (stepAll fuel bound) := by
  induction bound generalizing bound' with
  | zero =>
    intro loop returned
    exact absurd rfl (returned loop)
  | succ bound ih =>
    obtain ⟨bound', rfl⟩ := Nat.exists_eq_add_of_le' (Nat.le_trans (Nat.le_add_left 1 _) further)
    intro loop returned
    unfold stepAll at returned ⊢
    rw [outlasts_step more loop]
    . split
      . next stepped =>
        rw [stepped] at returned
        exact ih (Nat.le_of_succ_le_succ further) _ returned
      . rfl
      . rfl
    . intro loop' lacking
      rw [lacking] at returned
      exact returned loop' rfl

theorem outlasts_drainStage {bound bound' : Nat} (more : fuel ≤ fuel') (further : bound ≤ bound')
    : Outlasts .outOfFuel (drainStage fuel' bound') (drainStage fuel bound) := by
  induction bound generalizing bound' with
  | zero =>
    intro stage returned
    exact absurd rfl (returned stage)
  | succ bound ih =>
    obtain ⟨bound', rfl⟩ := Nat.exists_eq_add_of_le' (Nat.le_trans (Nat.le_add_left 1 _) further)
    intro stage returned
    unfold drainStage at returned ⊢
    split
    . rfl
    . next going =>
      rw [if_neg going] at returned
      rw [Program.outlasts_nextOutput more [] stage]
      . split
        . rfl
        . next called =>
          rw [called] at returned
          exact ih (Nat.le_of_succ_le_succ further) _ returned
        . rfl
        . rfl
      . intro stage' lacking
        rw [lacking] at returned
        exact returned stage' rfl

theorem drainAll_mono {stages : List Program} (more : fuel ≤ fuel')
    (returned : (drainAll fuel stages).1 ≠ .error .outOfFuel)
    : drainAll fuel' stages = drainAll fuel stages := by
  induction stages with
  | nil => rfl
  | cons stage rest ih =>
    unfold drainAll at returned ⊢
    rw [outlasts_drainStage more more stage]
    . split
      . next drained =>
        rw [drained] at returned
        rw [ih returned]
      . rfl
    . intro stage' lacking
      rw [lacking] at returned
      exact returned rfl

theorem outlasts_drain (more : fuel ≤ fuel') : Outlasts .outOfFuel (drain fuel') (drain fuel) := by
  intro loop returned
  unfold drain at returned ⊢
  rw [drainAll_mono more]
  intro lacking
  generalize drainAll fuel loop.stages = drained at lacking returned
  obtain ⟨result, stages⟩ := drained
  cases lacking
  exact returned _ rfl

theorem outlasts_run (more : fuel ≤ fuel') : Outlasts .outOfFuel (run fuel') (run fuel) :=
  (outlasts_stepAll more more).bind fun _ => (outlasts_drain more).bind fun _ => .refl _

end FeedbackLoop

theorem Layout.outlasts_run (layout : Layout) (more : fuel ≤ fuel') (signal : Int)
    : (layout.run fuel' image phases signal config).Outlasts .outOfFuel
        (layout.run fuel image phases signal config) := by
  cases layout with
  | chain => exact (outlasts_runStages more 0 signal).bind fun _ _ => .refl _
  | feedback =>
    apply (Report.Outlasts.refl _).bind
    intro loop _
    exact .of_outcome (FeedbackLoop.outlasts_run more) (FeedbackLoop.result_report _ loop)
      (FeedbackLoop.result_report _ loop)

theorem outlasts_maxSignal (more : fuel ≤ fuel') (layout : Layout)
    : (maxSignal fuel' image layout phases config).Outlasts .outOfFuel
        (maxSignal fuel image layout phases config) := by
  have go (best : Option (Int × List Int)) (orders : List (List Int))
      : (maxSignal.go fuel' image layout config best orders).Outlasts .outOfFuel
          (maxSignal.go fuel image layout config best orders) := by
    induction orders generalizing best with
    | nil => exact .refl _
    | cons order rest ih => exact (layout.outlasts_run more initialSignal).bind fun _ _ => ih _
  exact (go none _).bind fun _ _ => .refl _

end Intcode.Amplifier
