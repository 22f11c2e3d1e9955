import Intcode.Proofs.Lockstep
import Intcode.Proofs.Machine.Operation
import Intcode.Proofs.Program.Session

/-!
Uses: what a caller can do with a program. All of it comes down to feeding it and resuming it, so
what these two keep is kept as long as a program lives. What is true of its machine is kept by a
call if the steps keep it, and what is done with the machine between them.
-/
namespace Intcode.Program

inductive Use where
  | feed (values : List Int)
  | next (inputs : List Int)
  | drain (inputs : List Int)
  | iterate (count : Nat)
  deriving Repr, DecidableEq

namespace Use

def ofResult : EStateM.Result Failure Program α → Option Failure × Program
  | .ok _ p => (none, p)
  | .error e p => (some e, p)

def perform (fuel : Nat) : Use → Program → Option Failure × Program
  | feed values, p => ofResult (p.feed values)
  | next inputs, p => ofResult (p.nextOutput fuel inputs)
  | drain inputs, p => ofResult (p.outputs fuel inputs)
  | iterate count, p => ((take fuel count p).1.failure, (take fuel count p).2)

theorem snd_ofResult (result : EStateM.Result Failure Program α)
    : (ofResult result).2 = endState result := by
  cases result with
  | ok _ _ => rfl
  | error _ _ => rfl

theorem ofResult_eq_some {result : EStateM.Result Failure Program α} {e : Failure} {p : Program}
    (h : ofResult result = (some e, p)) : result = .error e p := by
  cases result with
  | ok _ _ => cases h
  | error _ _ =>
    cases h
    rfl

end Use

inductive Lives (p : Program) : Program → Prop where
  | start : Lives p p
  | use {q : Program} (fuel : Nat) (use : Use) : Lives p q → Lives p (use.perform fuel q).2

inductive Gives (fuel : Nat) : Program → Program → Prop where
  | refl (p : Program) : Gives fuel p p
  | next {inputs : List Int} {value : Int} {p₁ p₂ p₃ : Program}
    : p₁.nextOutput fuel inputs = .ok (some value) p₂ → Gives fuel p₂ p₃ → Gives fuel p₁ p₃

variable {fuel : Nat} {p q : Program}

theorem Gives.free (h : Gives fuel p q) : q = p ∨ q.obstacle? = none := by
  induction h with
  | refl p => exact .inl rfl
  | next given _ ih =>
    apply Or.inr
    cases ih with
    | inl same =>
      rw [same]
      exact free_of_gave given
    | inr free => exact free

theorem outputsUpTo_succ (fuel bound : Nat) (inputs : List Int) (p : Program)
    : outputsUpTo fuel (bound + 1) inputs p
        =
      match p.nextOutput fuel inputs with
      | .error e p => .error e p
      | .ok none p => .ok [] p
      | .ok (some value) p =>
        match outputsUpTo fuel bound [] p with
        | .error e p => .error e p
        | .ok values p => .ok (value :: values) p := by
  rw [outputsUpTo]
  simp only [bind, EStateM.bind]
  cases p.nextOutput fuel inputs with
  | error e p => rfl
  | ok out p =>
    cases out with
    | none => rfl
    | some value =>
      dsimp only
      show EStateM.bind _ _ p = _
      unfold EStateM.bind
      cases outputsUpTo fuel bound [] p with
      | error e p => rfl
      | ok values p => rfl

section

variable {I : Program → Prop}

theorem outputsUpTo_keeps (next : ∀ inputs p, I p → I (endState (p.nextOutput fuel inputs)))
    (bound : Nat) (inputs : List Int) (h : I p)
    : I (endState (outputsUpTo fuel bound inputs p)) := by
  induction bound generalizing inputs p with
  | zero => exact h
  | succ bound ih =>
    have kept := next inputs p h
    rw [outputsUpTo_succ]
    split
    . next called =>
      rw [called] at kept
      exact kept
    . next called =>
      rw [called] at kept
      exact kept
    . next called =>
      rw [called] at kept
      have kept := ih [] kept
      split
      . next rest =>
        rw [endState, rest] at kept
        exact kept
      . next rest =>
        rw [endState, rest] at kept
        exact kept

theorem take_keeps (next : ∀ inputs p, I p → I (endState (p.nextOutput fuel inputs)))
    (count : Nat) (h : I p) : I (take fuel count p).2 := by
  induction count generalizing p with
  | zero => exact h
  | succ count ih =>
    have kept := next [] p h
    unfold take
    split
    . exact h
    . split
      . next called =>
        rw [called] at kept
        exact kept
      . next called =>
        rw [called] at kept
        exact ih kept
      . next called =>
        rw [called] at kept
        exact kept

theorem Lives.keeps (feed : ∀ values p, I p → I (endState (p.feed values)))
    (next : ∀ fuel inputs p, I p → I (endState (p.nextOutput fuel inputs))) (h : I p)
    (lived : Lives p q) : I q := by
  induction lived with
  | start => exact h
  | use fuel use _ ih =>
    cases use with
    | feed values =>
      rw [Use.perform, Use.snd_ofResult]
      exact feed values _ ih
    | next inputs =>
      rw [Use.perform, Use.snd_ofResult]
      exact next fuel inputs _ ih
    | drain inputs =>
      rw [Use.perform, Use.snd_ofResult]
      exact outputsUpTo_keeps (next fuel) fuel inputs ih
    | iterate count => exact take_keeps (next fuel) count ih

end

structure Carried (P : Machine → Prop) : Prop where
  step : ∀ m : Machine, m.Ready → P m → P (endState m.step)
  push : ∀ (values : List Int) (m : Machine), P m → P (m.push values)
  taken : ∀ m : Machine, P m → P m.takeOutput.2
  halted : ∀ (name : String) (m : Machine), P m → P (m.record (.halted name m.steps))
  faulted : ∀ (name : String) (m : Machine), P m → P (m.record (.faulted name m.ip))

namespace Carried

variable {P : Machine → Prop}

theorem run (carried : Carried P) {m : Machine} (ready : m.Ready) (h : P m) (fuel : Nat)
    : P (endState (Machine.run fuel m)) := by
  have step (n : Machine) (h : n.Ready ∧ P n) : (endState n.step).Ready ∧ P (endState n.step) :=
    ⟨Machine.step_ends_ready h.1, carried.step n h.1 h.2⟩
  exact (Machine.run_ends step ⟨ready, h⟩ fuel).2

theorem settle (carried : Carried P) (name : String)
    {result : EStateM.Result Failure Machine StopReason} (h : P (endState result))
    : P (endState (settle name result)).machine := by
  cases result with
  | ok reason m =>
    cases reason with
    | output => exact carried.taken m h
    | halt => exact carried.halted name m h
    | needInput => exact h
  | error e m =>
    cases e with
    | fault f => exact carried.faulted name m h
    | _ => exact h

theorem nextOutput (carried : Carried P) (ready : p.machine.Ready) (h : P p.machine) (fuel : Nat)
    (inputs : List Int) : P (endState (p.nextOutput fuel inputs)).machine := by
  cases free : p.obstacle? with
  | some fault =>
    unfold Program.nextOutput
    rw [free]
    exact h
  | none =>
    rw [nextOutput_of_free free]
    exact carried.settle p.name (carried.run (ready.push inputs) (carried.push inputs _ h) fuel)

end Carried

section

variable {e : Failure}

theorem outputsUpTo_error {bound : Nat} {inputs : List Int}
    (h : outputsUpTo fuel bound inputs p = .error e q)
    : e = .outOfFuel
      ∨ ∃ p' inputs', Gives fuel p p' ∧ p'.nextOutput fuel inputs' = .error e q := by
  induction bound generalizing inputs p with
  | zero =>
    cases h
    exact .inl rfl
  | succ bound ih =>
    rw [outputsUpTo_succ] at h
    split at h
    . next called =>
      cases h
      exact .inr ⟨p, inputs, .refl p, called⟩
    . contradiction
    . next called =>
      split at h
      . next rest =>
        cases h
        cases ih rest with
        | inl spent => exact .inl spent
        | inr failed =>
          obtain ⟨p', inputs', gives, failed⟩ := failed
          exact .inr ⟨p', inputs', .next called gives, failed⟩
      . contradiction

theorem take_failure {count : Nat} {taken : Taken} (h : take fuel count p = (taken, q))
    (failed : taken.failure = some e)
    : ∃ p', Gives fuel p p' ∧ p'.nextOutput fuel [] = .error e q := by
  induction count generalizing p taken with
  | zero =>
    cases h
    contradiction
  | succ count ih =>
    unfold take at h
    split at h
    . cases h
      contradiction
    . split at h
      . cases h
        contradiction
      . next value p₁ called =>
        cases h
        obtain ⟨p', gives, failed⟩ := ih rfl failed
        exact ⟨p', .next called gives, failed⟩
      . next e₁ p₁ called =>
        cases h
        cases failed
        exact ⟨p, .refl p, called⟩

theorem Use.perform_failure {use : Use} (h : use.perform fuel p = (some e, q))
    : e = .outOfFuel
      ∨ (∃ values, p.feed values = .error e q)
      ∨ ∃ p' inputs, Gives fuel p p' ∧ p'.nextOutput fuel inputs = .error e q := by
  cases use with
  | feed values => exact .inr (.inl ⟨values, ofResult_eq_some h⟩)
  | next inputs => exact .inr (.inr ⟨p, inputs, .refl p, ofResult_eq_some h⟩)
  | drain inputs =>
    cases outputsUpTo_error (ofResult_eq_some h) with
    | inl spent => exact .inl spent
    | inr failed => exact .inr (.inr failed)
  | iterate count =>
    unfold perform at h
    injection h with failed same
    have taken : take fuel count p = ((take fuel count p).1, q) := Prod.ext rfl same
    obtain ⟨p', gives, failed⟩ := take_failure taken failed
    exact .inr (.inr ⟨p', [], gives, failed⟩)

end

end Intcode.Program
