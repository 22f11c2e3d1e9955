import Intcode.Proofs.Machine.Hazard
import Intcode.Proofs.Machine.Stop
import Intcode.Proofs.Program.Use

namespace Intcode.Program

open Machine

def Taken.after (values : List Int) (taken : Taken) : Taken :=
  { taken with values := values ++ taken.values }

def conclude (taken : Taken) (p : Program) : EStateM.Result Failure Program (List Int) :=
  match taken.failure with
  | none => .ok taken.values p
  | some e => .error e p

structure Drains (fuel : Nat) (p : Program) (taken : Taken) (q : Program) : Prop where
  returned : taken.failure ≠ some .outOfFuel
  iterator : ∀ count > taken.values.length, take fuel count p = (taken, q)
  outputs : p.outputs fuel = conclude taken q

variable {fuel fuel' count : Nat} {p q : Program} {taken : Taken}

theorem Taken.after_after (values values' : List Int) (taken : Taken)
    : (taken.after values').after values = taken.after (values ++ values') := by
  simp [after]

theorem Taken.after_injective (values : List Int) : Function.Injective (Taken.after values) := by
  intro taken taken' same
  cases taken
  cases taken'
  simpa [after] using same

theorem take_succ (free : p.obstacle? = none) (fuel count : Nat)
    : take fuel (count + 1) p
        =
      match p.nextOutput fuel with
      | .ok none q => ({ values := [] }, q)
      | .ok (some value) q => ((take fuel count q).1.after [value], (take fuel count q).2)
      | .error e q => ({ values := [], failure := some e }, q) := by
  have going : p.isHalted = false := by
    unfold obstacle? at free
    unfold isHalted
    cases state : p.state with
    | halted =>
      rw [state] at free
      contradiction
    | _ => rfl
  rw [take, going]
  rfl

theorem returned_of_take (free : p.obstacle? = none) (count : Nat)
    (taken : (take fuel (count + 1) p).1.failure ≠ some .outOfFuel)
    : ∀ p', p.nextOutput fuel ≠ .error .outOfFuel p' := by
  intro p' spent
  rw [take_succ free, spent] at taken
  contradiction

theorem Drains.unique {taken' : Taken} {q' : Program} (one : Drains fuel p taken q)
    (other : Drains fuel p taken' q') : taken = taken' ∧ q = q' := by
  have count := one.iterator (taken.values.length + taken'.values.length + 1) (by omega)
  rw [other.iterator _ (by omega)] at count
  exact ⟨(Prod.mk.inj count).1.symm, (Prod.mk.inj count).2.symm⟩

inductive Turn (fuel : Nat) : EStateM.Result Failure Program (Option Int) → Prop where
  | ended {q : Program} : q.obstacle? ≠ none → Turn fuel (.ok none q)
  | gave {value : Int} {q : Program}
    : q.obstacle? = none → q.machine.width.Proper → Turn fuel (.ok (some value) q)
  | faulted {e : Failure} {q : Program} : q.obstacle? ≠ none → Turn fuel (.error e q)
  | stalled {e : Failure} {q : Program}
    : q.obstacle? = none → q.machine.width.Proper → q.nextOutput fuel = .error e q
      → Turn fuel (.error e q)
  | unwritten {q : Program}
    : q.obstacle? = none → q.machine.width.Proper → Turn fuel (.error .unwritable q)

theorem nextOutput_of_neg (free : p.obstacle? = none) (below : p.machine.ip < 0) (fuel : Nat)
    : (∃ p', p.nextOutput fuel = .error .outOfFuel p')
      ∨ (∃ p', p.nextOutput fuel = .error .unwritable p' ∧ p'.obstacle? = none
        ∧ p'.machine.width = p.machine.width)
      ∨ ∃ p', p.nextOutput fuel = .error (.fault { cause := .negativeAddress p.machine.ip }) p'
        ∧ p'.state = .faulted := by
  rw [nextOutput_of_free free, push_nil]
  cases fuel with
  | zero => exact .inl ⟨_, rfl⟩
  | succ fuel =>
    have stops : Stops p.machine (.error _ p.machine) := step_of_neg below
    rw [run_of_path (.refl _) stops (Nat.succ_pos fuel)]
    obtain written | unwritten := Fault.raised_cases { cause := .negativeAddress p.machine.ip }
    . rw [written]
      exact .inr (.inr ⟨_, rfl, rfl⟩)
    . rw [unwritten]
      exact .inr (.inl ⟨_, rfl, rfl, rfl⟩)

theorem turn_of_stops {m : Machine} {result : EStateM.Result Failure Machine StopReason}
    (name : String) (ready : m.Ready) (stops : Stops m result) (some : 0 < fuel)
    : Turn fuel (settle name result) := by
  cases result with
  | ok reason m' =>
    cases reason with
    | output =>
      obtain ⟨value, pending⟩ := pending_of_output ready.start stops
      show Turn fuel (.ok m'.pending _)
      rw [pending]
      exact .gave rfl (stops.ready ready).proper
    | halt => exact .ended nofun
    | needInput =>
      obtain rfl := eq_of_needInput ready.start stops
      apply Turn.stalled rfl ready.proper
      have again := run_of_path (.refl _) stops some
      rw [nextOutput_of_free rfl, push_nil, again]
      rfl
  | error e m' =>
    obtain rfl | ⟨cause, -, rfl⟩ := fault_of_step ready.start ready.proper stops
    . exact .unwritten rfl (stops.ready ready).proper
    . exact .faulted nofun

theorem turn (proper : p.machine.width.Proper) (free : p.obstacle? = none)
    (returned : ∀ p', p.nextOutput fuel ≠ .error .outOfFuel p')
    : Turn fuel (p.nextOutput fuel) := by
  by_cases start : 0 ≤ p.machine.ip
  . rw [nextOutput_of_free free, push_nil] at returned ⊢
    obtain ⟨k, n, enough, path, stops⟩ | ⟨n, -, spent⟩ := run_cases fuel p.machine
    . exact turn_of_stops p.name (path.ready ⟨start, proper⟩) stops (Nat.zero_lt_of_lt enough)
    . rw [spent] at returned
      exact absurd rfl (returned _)
  -- No step makes the pointer negative, so the program has begun like this.
  . obtain ⟨p', spent⟩ | ⟨p', failed, free', width⟩ | ⟨p', failed, faulted⟩ :=
      nextOutput_of_neg free (Int.not_le.mp start) fuel
    . exact absurd spent (returned p')
    . rw [failed]
      exact .unwritten free' (width ▸ proper)
    . rw [failed]
      apply Turn.faulted
      rw [obstacle?, faulted]
      nofun

end Intcode.Program
