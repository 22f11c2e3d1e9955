import Intcode.Proofs.Machine.Lockstep
import Intcode.Proofs.Width.Range

namespace Intcode.Machine

inductive Path : Nat → Machine → Machine → Prop where
  | refl (m : Machine) : Path 0 m m
  | cons {k : Nat} {m₁ m₂ m₃ : Machine}
    : step m₁ = .ok none m₂ → Path k m₂ m₃ → Path (k + 1) m₁ m₃

def after : Nat → Machine → Machine
  | 0, m => m
  | k + 1, m => endState (after k m).step

def Stops (m : Machine) : EStateM.Result Failure Machine StopReason → Prop
  | .ok reason m' => step m = .ok (some reason) m'
  | .error e m' => step m = .error e m'

theorem Path.trans {k l : Nat} {m₁ m₂ m₃ : Machine} (first : Path k m₁ m₂) (second : Path l m₂ m₃)
    : Path (k + l) m₁ m₃ := by
  induction first with
  | refl m =>
    rw [Nat.zero_add]
    exact second
  | cons stepped _ ih =>
    rw [Nat.add_right_comm]
    exact .cons stepped (ih second)

structure Ready (m : Machine) : Prop where
  start : 0 ≤ m.ip
  proper : m.width.Proper

theorem step_ends_ready {m : Machine} (ready : m.Ready) : (endState (step m)).Ready := by
  apply step_ends _ ready.start ready
  intro action m h enabled
  cases action with
  | goto ip => exact ⟨enabled, h.proper⟩
  | count entry =>
    cases entry with
    | none => exact ⟨h.start, h.proper⟩
    | some entry => exact ⟨h.start, h.proper⟩
  | _ => exact ⟨h.start, h.proper⟩

theorem Stops.ready {m : Machine} {result : EStateM.Result Failure Machine StopReason}
    (stops : Stops m result) (ready : m.Ready) : (endState result).Ready := by
  have moved := step_ends_ready ready
  cases result with
  | ok reason m' =>
    rw [show step m = _ from stops] at moved
    exact moved
  | error e m' =>
    rw [show step m = _ from stops] at moved
    exact moved

theorem Path.ready {k : Nat} {m m' : Machine} (path : Path k m m') (ready : m.Ready)
    : m'.Ready := by
  induction path with
  | refl m => exact ready
  | cons stepped _ ih =>
    have moved := step_ends_ready ready
    rw [stepped] at moved
    exact ih moved

theorem run_of_path {k fuel : Nat} {m m' : Machine}
    {result : EStateM.Result Failure Machine StopReason} (path : Path k m m')
    (stops : Stops m' result) (enough : k < fuel) : run fuel m = result := by
  induction path generalizing fuel with
  | refl m =>
    obtain ⟨fuel, rfl⟩ : ∃ f, fuel = f + 1 := ⟨fuel - 1, by omega⟩
    unfold run
    cases result with
    | ok reason m' => rw [show step m = _ from stops]
    | error e m' => rw [show step m = _ from stops]
  | cons stepped _ ih =>
    obtain ⟨fuel, rfl⟩ : ∃ f, fuel = f + 1 := ⟨fuel - 1, by omega⟩
    unfold run
    rw [stepped]
    exact ih stops (by omega)

theorem run_add_of_path {k : Nat} {m m' : Machine} (path : Path k m m') (fuel : Nat)
    : run (k + fuel) m = run fuel m' := by
  induction path with
  | refl m => rw [Nat.zero_add]
  | cons stepped _ ih =>
    rw [Nat.add_right_comm, run]
    simp only [stepped, ih]

theorem run_of_long_path {k fuel : Nat} {m m' : Machine} (path : Path k m m') (long : fuel ≤ k)
    : ∃ n, run fuel m = .error .outOfFuel n := by
  induction path generalizing fuel with
  | refl m =>
    rw [Nat.le_zero.mp long]
    exact ⟨m, rfl⟩
  | @cons k m₁ _ _ stepped _ ih =>
    cases fuel with
    | zero => exact ⟨m₁, rfl⟩
    | succ fuel =>
      unfold run
      rw [stepped]
      exact ih (Nat.le_of_succ_le_succ long)

theorem run_cases (fuel : Nat) (m : Machine)
    : (∃ k m', k < fuel ∧ Path k m m' ∧ Stops m' (run fuel m))
      ∨ (∃ m', Path fuel m m' ∧ run fuel m = .error .outOfFuel m') := by
  induction fuel generalizing m with
  | zero => exact .inr ⟨m, .refl m, rfl⟩
  | succ fuel ih =>
    -- The first step ends the run, or it begins the path that the rest of the fuel is for.
    unfold run
    cases stepped : step m with
    | error e m₁ => exact .inl ⟨0, m, by omega, .refl m, stepped⟩
    | ok reason m₁ =>
      cases reason with
      | some reason => exact .inl ⟨0, m, by omega, .refl m, stepped⟩
      | none =>
        cases ih m₁ with
        | inl h =>
          obtain ⟨k, m', enough, path, stops⟩ := h
          exact .inl ⟨k + 1, m', by omega, .cons stepped path, stops⟩
        | inr h =>
          obtain ⟨m', path, out⟩ := h
          exact .inr ⟨m', .cons stepped path, out⟩

theorem run_mono {fuel fuel' : Nat} {m : Machine} (more : fuel ≤ fuel')
    (returned : ∀ m', run fuel m ≠ .error .outOfFuel m') : run fuel' m = run fuel m := by
  cases run_cases fuel m with
  | inl stopped =>
    obtain ⟨k, m', enough, path, stops⟩ := stopped
    exact run_of_path path stops (by omega)
  | inr out =>
    obtain ⟨m', -, out⟩ := out
    exact absurd out (returned m')

end Intcode.Machine
