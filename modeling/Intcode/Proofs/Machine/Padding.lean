import Intcode.Proofs.Machine.Run
import Intcode.Proofs.Machine.Stop
import Intcode.Proofs.Memory.Padding
import Intcode.Proofs.Text.Numeral

/-!
Padding of machines: zeros behind the memory of a machine make no difference to what it does. They
can only be noticed where the instruction pointer has left the memory, and that is a fault with
them, too.
-/
namespace Intcode

inductive Failure.Alike : Failure → Failure → Prop where
  | same (e : Failure) : Alike e e
  | ranOff (ip : Option Int)
    : Alike (.fault { cause := .ranOffEnd, ip }) (.fault { cause := .unknownOpcode 0 0, ip })

namespace Machine

structure Padded (m n : Machine) : Prop where
  start : 0 ≤ m.ip
  ip : n.ip = m.ip
  base : n.base = m.base
  inputs : n.inputs = m.inputs
  width : n.width = m.width
  tracing : n.tracing = m.tracing
  memory : m.memory.Padded n.memory

variable {m n : Machine}

theorem Padded.view (h : Padded m n) : n.view = m.view := by
  simp only [Machine.view, h.ip, h.base, h.inputs, h.memory.peek]

theorem Padded.push (h : Padded m n) (values : List Int)
    : Padded (m.push values) (n.push values) :=
  { h with inputs := congrArg (· ++ values) h.inputs }

theorem Padded.apply (action : Action) (m n : Machine) (h : Padded m n)
    (enabled : action.Enabled m) : Padded (action.apply m) (action.apply n) := by
  cases action with
  | touch addr => exact { h with memory := h.memory.grow addr.toNat }
  | put addr value => exact { h with memory := h.memory.set addr.toNat value }
  | pop => exact { h with inputs := congrArg List.tail h.inputs }
  | emit value => exact { h with }
  | rebase base => exact { h with base := rfl }
  | goto ip => exact { h with start := enabled, ip := rfl }
  | count entry =>
    cases entry with
    | none => exact { h with }
    | some entry => exact { h with }

theorem Padded.plan (h : Padded m n)
    : n.plan = m.plan
      ∨ m.plan = { clauses := [.check (some (m.view.hazard .ranOffEnd))] }
        ∧ n.plan = { clauses := [.check (some (m.view.hazard (.unknownOpcode 0 0)))] } := by
  unfold Machine.plan View.plan
  rw [h.view, h.width, h.tracing]
  by_cases outside : m.memory.size ≤ m.view.ip
  . rw [if_pos outside]
    by_cases outside' : n.memory.size ≤ m.view.ip
    . rw [if_pos outside']
      exact .inl rfl
    . -- The longer memory has a zero where the shorter one has ended.
      have zero : m.view.cell m.view.ip = 0 := Memory.peek_of_size_le outside
      rw [if_neg outside', zero]
      exact .inr ⟨rfl, rfl⟩
  . have inside' : ¬ n.memory.size ≤ m.view.ip := by
      have := h.memory.size
      omega
    rw [if_neg outside, if_neg inside']
    exact .inl rfl

theorem alike_ranOff (v : View) : (v.fault .ranOffEnd).Alike (v.fault (.unknownOpcode 0 0)) := by
  have zero : Numeral.Short 0 := Numeral.short_of_lt (Int.le_refl 0) (by decide)
  have alone (cause : Cause) (small : ∀ i ∈ cause.numbers, Numeral.Short i)
      : v.fault cause
        = if Numeral.Short v.ip then .fault { cause, ip := some v.ip } else .unwritable := by
    rw [View.fault_eq]
    exact if_congr (List.forall_mem_cons.trans (and_iff_left small)) rfl rfl
  rw [alone .ranOffEnd (List.forall_mem_nil _),
    alone (.unknownOpcode 0 0) (List.forall_mem_cons.mpr ⟨zero, List.forall_mem_singleton.mpr zero⟩)]
  split
  . exact .ranOff _
  . exact .same _

theorem Padded.step (h : Padded m n) : Paired Failure.Alike Padded m.step n.step := by
  have start' : 0 ≤ n.ip := h.ip ▸ h.start
  cases h.plan with
  | inl same =>
    apply Related.paired _ Failure.Alike.same
    exact step_related Padded.apply h.start start' h same
  | inr ran =>
    rw [step_eq_perform h.start, step_eq_perform start', ran.1, ran.2]
    exact .error (alike_ranOff m.view) h

theorem Padded.after (h : Padded m n) (k : Nat) : Padded (m.after k) (n.after k) := by
  induction k with
  | zero => exact h
  | succ k ih => exact ih.step.endState

theorem Padded.pending {m' n' : Machine} (h : Padded m n) (stepped : m.step = .ok (some .output) m')
    (stepped' : n.step = .ok (some .output) n') : n'.pending = m'.pending := by
  have start' : 0 ≤ n.ip := h.ip ▸ h.start
  obtain ⟨instr, decoded, emitted⟩ := emitted_of_output h.start stepped
  obtain ⟨instr', decoded', emitted'⟩ := emitted_of_output start' stepped'
  rw [h.view] at decoded' emitted'
  cases decoded.symm.trans decoded'
  rw [emitted.2.2, emitted'.2.2]

theorem Padded.emitted (h : Padded m n) (emits : outcome m.step = .ok (some .output))
    : (endState n.step).pending = (endState m.step).pending := by
  have stepped := h.step
  have pending := @Padded.pending m n
  generalize m.step = r at stepped pending emits ⊢
  generalize n.step = r' at stepped pending ⊢
  cases stepped with
  | error _ _ => cases emits
  | ok _ =>
    cases emits
    exact pending h rfl rfl

theorem Padded.run (h : Padded m n) (fuel : Nat)
    : Paired Failure.Alike Padded (run fuel m) (run fuel n)
      ∧ ∀ m' n', run fuel m = .ok .output m' → run fuel n = .ok .output n' →
          n'.pending = m'.pending := by
  induction fuel generalizing m n with
  | zero =>
    refine ⟨.error (.same _) h, ?_⟩
    intro m' n' stopped
    contradiction
  | succ fuel ih =>
    have stepped := h.step
    have pending := @Padded.pending m n
    unfold Machine.run
    generalize m.step = r at stepped pending ⊢
    generalize n.step = r' at stepped pending ⊢
    cases stepped with
    | error alike related =>
      refine ⟨.error alike related, ?_⟩
      intro m' n' stopped
      contradiction
    | @ok reason m₁ n₁ related =>
      cases reason with
      | none => exact ih related
      | some reason =>
        refine ⟨.ok related, ?_⟩
        intro m' n' stopped stopped'
        cases stopped
        cases stopped'
        exact pending h rfl rfl

end Machine

end Intcode
