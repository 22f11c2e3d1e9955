import Intcode.Console
import Intcode.Proofs.Program.Failing

namespace Intcode

namespace Console

variable {π : Type}

theorem result_report (x : EStateM Failure (Console π) α) (c : Console π)
    : (report x c).result = outcome (x c) := by
  unfold report
  cases x c with
  | ok a c => rfl
  | error e c => rfl

theorem outlasts_onProgram {lack : Failure} {x x' : EStateM Failure Program α}
    (h : Outlasts lack x' x)
    : Outlasts lack (onProgram x') (onProgram x : EStateM Failure (Console π) α) := by
  intro c returned
  unfold onProgram at returned ⊢
  rw [h c.program]
  intro p lacking
  rw [lacking] at returned
  exact returned _ rfl

variable [Port π] {fuel fuel' bound bound' : Nat}

theorem outlasts_stepUpTo (more : fuel ≤ fuel') (further : bound ≤ bound')
    : Outlasts .outOfFuel (stepUpTo fuel' bound')
        (stepUpTo fuel bound : EStateM Failure (Console π) (Option Int)) := by
  induction bound generalizing bound' with
  | zero =>
    intro c returned
    exact absurd rfl (returned c)
  | succ bound ih =>
    obtain ⟨bound', rfl⟩ := Nat.exists_eq_add_of_le' (Nat.le_trans (Nat.le_add_left 1 _) further)
    intro c returned
    unfold stepUpTo at returned ⊢
    rw [outlasts_onProgram (Program.outlasts_nextOutput more []) c]
    . split
      . next resumed =>
        rw [resumed] at returned
        dsimp only at returned
        split
        . rfl
        . next received =>
          rw [received] at returned
          dsimp only at returned
          split
          . rfl
          . next fed =>
            rw [fed] at returned
            exact ih (Nat.le_of_succ_le_succ further) _ returned
      . rfl
    . intro d lacking
      rw [lacking] at returned
      exact returned d rfl

theorem outlasts_serveUpTo (more : fuel ≤ fuel') (further : bound ≤ bound')
    : Outlasts .outOfFuel (serveUpTo fuel' bound')
        (serveUpTo fuel bound : EStateM Failure (Console π) Unit) := by
  induction bound generalizing bound' with
  | zero =>
    intro c returned
    exact absurd rfl (returned c)
  | succ bound ih =>
    obtain ⟨bound', rfl⟩ := Nat.exists_eq_add_of_le' (Nat.le_trans (Nat.le_add_left 1 _) further)
    intro c returned
    unfold serveUpTo step at returned ⊢
    rw [outlasts_stepUpTo more more c]
    . split
      . rfl
      . rfl
      . next stepped =>
        rw [stepped] at returned
        dsimp only at returned
        split
        . rfl
        . next sent =>
          rw [sent] at returned
          exact ih (Nat.le_of_succ_le_succ further) _ returned
    . intro d lacking
      rw [lacking] at returned
      exact returned d rfl

theorem outlasts_serve (more : fuel ≤ fuel')
    : Outlasts .outOfFuel (serve fuel')
        (serve fuel : EStateM Failure (Console π) (List Int)) :=
  (Outlasts.refl _).bind fun _ => (outlasts_serveUpTo more more).bind fun _ => .refl _

end Console

end Intcode
