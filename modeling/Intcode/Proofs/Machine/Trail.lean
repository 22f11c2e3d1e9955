import Intcode.Proofs.Machine.Run

namespace Intcode.Machine

def visited : (fuel : Nat) → Machine → List Machine
  | 0, _ => []
  | fuel + 1, m =>
    match step m with
    | .ok none m' => m :: visited fuel m'
    | _ => [m]

inductive Trail : Machine → List Machine → Machine → Prop where
  | nil (m : Machine) : Trail m [] m
  | cons {m n : Machine} {states : List Machine}
    : Trail (endState m.step) states n → Trail m (m :: states) n

variable {m n : Machine} {states : List Machine}

theorem trail_step (m : Machine) : Trail m [m] (endState m.step) :=
  .cons (.nil _)

theorem trail_run (fuel : Nat) (m : Machine)
    : Trail m (visited fuel m) (endState (run fuel m)) := by
  fun_induction visited fuel m with
  | case1 m => exact .nil m
  | case2 fuel m m' stepped ih =>
    unfold run
    apply Trail.cons
    rw [stepped]
    exact ih
  | case3 fuel m stopped =>
    -- Whatever stops the run is what the only step of it comes to.
    have same : endState (run (fuel + 1) m) = endState m.step := by
      unfold run
      split
      . next stepped =>
        rw [stepped]
        rfl
      . next stepped => exact absurd stepped (stopped _)
      . next stepped =>
        rw [stepped]
        rfl
    rw [same]
    exact trail_step m

theorem Trail.all_ready (trail : Trail m states n) (ready : m.Ready) : ∀ s ∈ states, s.Ready := by
  induction trail with
  | nil m => exact List.forall_mem_nil _
  | cons _ ih => exact List.forall_mem_cons.mpr ⟨ready, ih (step_ends_ready ready)⟩

theorem run_of_visited_failed {fuel : Nat} {before later : List Machine} {s s' : Machine}
    {e : Failure} (h : visited fuel m = before ++ s :: later) (failed : s.step = .error e s')
    : later = [] ∧ run fuel m = .error e s' := by
  fun_induction visited fuel m generalizing before with
  | case1 m =>
    have := congrArg List.length h
    simp at this
  | case2 fuel m m' stepped ih =>
    unfold run
    rw [stepped]
    cases before with
    | nil =>
      cases h
      rw [stepped] at failed
      contradiction
    | cons first before =>
      injection h with _ h
      exact ih h
  | case3 fuel m stopped =>
    obtain ⟨rfl, rfl, rfl⟩ : before = [] ∧ m = s ∧ later = [] := by
      cases before with
      | nil =>
        cases h
        exact ⟨rfl, rfl, rfl⟩
      | cons first before =>
        injection h with _ h
        cases before <;> contradiction
    unfold run
    rw [failed]
    exact ⟨rfl, rfl⟩

end Intcode.Machine
