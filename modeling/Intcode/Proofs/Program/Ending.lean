import Intcode.Proofs.Program.Blame
import Intcode.Proofs.Program.Outcome

namespace Intcode.Program

inductive Ends : Program → EStateM.Result Failure Program Unit → Prop where
  | halted {fuel : Nat} {p p' : Program} : p.nextOutput fuel = .ok none p' → Ends p (.ok () p')
  | failed {fuel : Nat} {p p' : Program} {e : Failure}
    : p.nextOutput fuel = .error e p' → Ends p (.error e p')
  | gave {fuel : Nat} {p p' : Program} {value : Int} {result : EStateM.Result Failure Program Unit}
    : p.nextOutput fuel = .ok (some value) p' → Ends p' result → Ends p result

def ending : EStateM.Result Failure Program (List Int) → EStateM.Result Failure Program Unit
  | .ok _ p => .ok () p
  | .error e p => .error e p

variable {fuel : Nat} {p : Program} {result : EStateM.Result Failure Program Unit}

theorem ending_outputsUpTo_succ (fuel bound : Nat) (p : Program)
    : ending (outputsUpTo fuel (bound + 1) [] p)
        =
      match p.nextOutput fuel with
      | .error e p => .error e p
      | .ok none p => .ok () p
      | .ok (some _) p => ending (outputsUpTo fuel bound [] p) := by
  rw [outputsUpTo_succ]
  cases p.nextOutput fuel with
  | error e p => rfl
  | ok out p =>
    cases out with
    | none => rfl
    | some value =>
      dsimp only
      cases outputsUpTo fuel bound [] p with
      | error e p => rfl
      | ok values p => rfl

theorem ends_of_outputsUpTo {bound : Nat}
    (returned : ∀ p', ending (outputsUpTo fuel bound [] p) ≠ .error .outOfFuel p')
    : p.Ends (ending (outputsUpTo fuel bound [] p)) := by
  induction bound generalizing p with
  | zero => exact absurd rfl (returned p)
  | succ bound ih =>
    rw [ending_outputsUpTo_succ] at returned ⊢
    cases called : p.nextOutput fuel with
    | error e p' => exact .failed called
    | ok out p' =>
      cases out with
      | none => exact .halted called
      | some value =>
        rw [called] at returned
        exact .gave called (ih returned)

theorem Ends.outputs (ends : p.Ends result) (returned : ∀ p', result ≠ .error .outOfFuel p')
    : ∃ enough, ∀ fuel ≥ enough, ∀ bound ≥ enough,
        ending (outputsUpTo fuel bound [] p) = result := by
  have first {fuel fuel' : Nat} {p : Program}
      {called : EStateM.Result Failure Program (Option Int)} (more : fuel ≤ fuel')
      (same : p.nextOutput fuel = called) (returned : ∀ p', called ≠ .error .outOfFuel p')
      : p.nextOutput fuel' = called := by
    rw [← same] at returned ⊢
    exact nextOutput_mono more returned
  induction ends with
  | @halted fuel p p' called =>
    refine ⟨fuel + 1, ?_⟩
    intro fuel' more bound further
    obtain ⟨bound, rfl⟩ : ∃ b, bound = b + 1 := ⟨bound - 1, by omega⟩
    rw [ending_outputsUpTo_succ, first (by omega) called fun _ => ok_ne_error]
  | @failed fuel p p' e called =>
    refine ⟨fuel + 1, ?_⟩
    intro fuel' more bound further
    obtain ⟨bound, rfl⟩ : ∃ b, bound = b + 1 := ⟨bound - 1, by omega⟩
    rw [ending_outputsUpTo_succ, first (by omega) called (error_ne_error returned)]
  | @gave fuel p p' value result called _ ih =>
    obtain ⟨enough, ih⟩ := ih returned
    refine ⟨max fuel enough + 1, ?_⟩
    intro fuel' more bound further
    obtain ⟨bound, rfl⟩ : ∃ b, bound = b + 1 := ⟨bound - 1, by omega⟩
    rw [ending_outputsUpTo_succ, first (by omega) called fun _ => ok_ne_error]
    exact ih fuel' (by omega) bound (by omega)

theorem fault_of_nextOutput {p p' : Program} {inputs : List Int} {e : Failure}
    (ready : p.machine.Ready) (failed : p.nextOutput fuel inputs = .error e p')
    (returned : e ≠ .outOfFuel) : e = .unwritable ∨ ∃ fault, e = .fault fault := by
  have performed : (Use.next inputs).perform fuel p = (some e, p') := congrArg Use.ofResult failed
  obtain spent | unwritten | ⟨fault, same, -⟩ := Use.perform_blocked ready performed
  . exact absurd spent returned
  . exact .inl unwritten
  . exact .inr ⟨fault, same⟩

theorem Ends.fault {e : Failure} {p' : Program} (ends : p.Ends (.error e p'))
    (ready : p.machine.Ready) (returned : e ≠ .outOfFuel)
    : e = .unwritable ∨ ∃ fault, e = .fault fault := by
  generalize same : EStateM.Result.error e p' = result at ends
  induction ends with
  | halted => cases same
  | failed called =>
    cases same
    exact fault_of_nextOutput ready called returned
  | @gave fuel p p₁ value result called _ ih =>
    have kept : (endState (p.nextOutput fuel)).machine.Ready := nextOutput_ready [] ready
    rw [called] at kept
    exact ih kept same

theorem Ends.carries {P : Machine → Prop} (carried : Carried P) (ready : p.machine.Ready)
    (h : P p.machine) (ends : p.Ends result) : P (endState result).machine := by
  induction ends with
  | @halted fuel p p' called =>
    have kept := carried.nextOutput ready h fuel []
    rw [called] at kept
    exact kept
  | @failed fuel p p' e called =>
    have kept := carried.nextOutput ready h fuel []
    rw [called] at kept
    exact kept
  | @gave fuel p p' value result called _ ih =>
    have kept := carried.nextOutput ready h fuel []
    have ready' : (endState (p.nextOutput fuel)).machine.Ready := nextOutput_ready [] ready
    rw [called] at kept ready'
    exact ih ready' kept

theorem carried_size (size : Nat) : Carried fun m => size ≤ m.memory.size := by
  have grows (action : Machine.Action) (m : Machine) (h : size ≤ m.memory.size)
      : size ≤ (action.apply m).memory.size := by
    cases action with
    | touch addr =>
      apply Nat.le_trans h
      show _ ≤ (m.memory.grow _).size
      rw [Memory.size_grow]
      exact Nat.le_max_left _ _
    | put addr value =>
      apply Nat.le_trans h
      show _ ≤ (m.memory.set _ _).size
      rw [Memory.size_set]
      exact Nat.le_max_left _ _
    | count entry => cases entry <;> exact h
    | _ => exact h
  constructor
  . intro m ready h
    exact Machine.step_ends (P := fun m => size ≤ m.memory.size) (fun action m h _ => grows action m h)
      ready.start h
  . exact fun _ _ h => h
  . exact fun _ h => h
  . exact fun _ _ h => h
  . exact fun _ _ h => h

end Intcode.Program
