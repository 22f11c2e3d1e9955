import Intcode.NounVerb
import Intcode.Proofs.Program.Use

namespace Intcode

theorem Program.result_report (x : EStateM Failure Program α) (p : Program)
    : (Program.report x p).result = outcome (x p) := by
  unfold Program.report
  cases x p with
  | ok a p => rfl
  | error e p => rfl

theorem Program.outputsUpTo_of_session {fuel bound : Nat} {values : List Int} {p p' : Program}
    (driven : session fuel (List.replicate (values.length + 1) (.next [])) p
      = (values.map .gave ++ [.ended], p'))
    (enough : values.length < bound) : outputsUpTo fuel bound [] p = .ok values p' := by
  induction values generalizing p bound with
  | nil =>
    obtain ⟨bound, rfl⟩ : ∃ b, bound = b + 1 := ⟨bound - 1, by omega⟩
    obtain ⟨reply, p₁, replies, called, driven, replied⟩ := session_cons driven
    cases driven
    cases replied
    have ended : p.nextOutput fuel [] = .ok none p' := Reply.ofResult_injective called
    rw [outputsUpTo_succ, ended]
  | cons value values ih =>
    obtain ⟨bound, rfl⟩ : ∃ b, bound = b + 1 := ⟨bound - 1, by omega⟩
    obtain ⟨reply, p₁, replies, called, driven, replied⟩ := session_cons driven
    cases replied
    have gave : p.nextOutput fuel [] = .ok (some value) p₁ := Reply.ofResult_injective called
    have rest := ih driven (Nat.lt_of_succ_lt_succ enough)
    rw [outputsUpTo_succ, gave]
    dsimp only
    rw [rest]

theorem Program.outputs_of_yields {values : List Int} {p p' : Program}
    (h : p.Yields (values.map .gave ++ [.ended]) p')
    : ∃ enough, ∀ fuel ≥ enough, p.outputs fuel = .ok values p' := by
  obtain ⟨enough, h⟩ := h
  refine ⟨max enough (values.length + 1), ?_⟩
  intro fuel more
  have driven := h fuel (by omega)
  rw [List.length_append, List.length_map] at driven
  exact outputsUpTo_of_session driven (by omega)

theorem result_runToCompletion (fuel : Nat) (image inputs : List Int) (config : Config)
    : (runToCompletion fuel image inputs config).result
        =
      (Program.load image inputs config).bind fun p => outcome (p.outputs fuel) := by
  unfold runToCompletion
  rw [Report.result_bind]
  simp only [Program.result_report]
  rfl

theorem runToCompletion_of_yields {image inputs values : List Int} {config : Config}
    {p p' : Program} (loaded : Program.load image inputs config = .ok p)
    (h : p.Yields (values.map .gave ++ [.ended]) p')
    : ∃ enough, ∀ fuel ≥ enough,
        (runToCompletion fuel image inputs config).result = .ok values := by
  obtain ⟨enough, gives⟩ := Program.outputs_of_yields h
  refine ⟨enough, ?_⟩
  intro fuel more
  rw [result_runToCompletion, loaded]
  show outcome (p.outputs fuel) = _
  rw [gives fuel more]
  rfl

theorem result_finalMemory (fuel : Nat) (image : List Int) (noun verb : Option Int)
    (config : Config)
    : (finalMemory fuel image noun verb config).result
        =
      (Program.load (patch image noun verb) [] config).bind fun p =>
        outcome ((do let _ ← Program.outputs fuel; return (← get).machine.memory.snapshot
          : EStateM Failure Program (Array Int)) p) := by
  unfold finalMemory
  rw [Report.result_bind]
  simp only [Program.result_report]
  rfl

end Intcode
