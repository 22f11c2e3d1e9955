import Intcode.Proofs.Machine.Overflow
import Intcode.Proofs.Program.Outcome
import Mathlib.Control.Monad.Basic

namespace Intcode

def Failure.Strained (e : Failure) : Prop :=
  e = .unwritable ∨ ∃ fault : Fault, fault.cause.isOverflow ∧ e = .fault fault

namespace Machine

variable {w w' : Width} {m : Machine}

def Widened (w w' : Width) (m n : Machine) : Prop :=
  Within w m ∧ n = m.widen w'

theorem step_widened (h : Within w m) (proper : w.Proper) (wider : w ≤ w')
    : Related Failure.Strained (Widened w w') m.step (m.widen w').step := by
  by_cases overflow : m.overflows
  . obtain ⟨fault, m', overflow, failed⟩ := step_of_overflows h.start overflow
    rw [failed]
    obtain written | unwritten := fault.raised_cases
    . exact .escape (.inr ⟨fault, overflow, written⟩)
    . exact .escape (.inl unwritten)
  . have related := step_widen (h.ready proper) (h.width ▸ wider) overflow
    have within := h.step proper
    generalize step m = r at related within ⊢
    generalize step (m.widen w') = r' at related ⊢
    cases related with
    | ok same => exact .ok ⟨within, same⟩
    | error same => exact .error ⟨within, same⟩
    | escape absurd => exact absurd.elim

theorem run_widened (h : Within w m) (proper : w.Proper) (wider : w ≤ w') (fuel : Nat)
    : Related Failure.Strained (Widened w w') (run fuel m) (run fuel (m.widen w')) := by
  induction fuel generalizing m with
  | zero => exact .error ⟨h, rfl⟩
  | succ fuel ih =>
    have related := step_widened h proper wider
    unfold run
    generalize step m = r at related ⊢
    generalize step (m.widen w') = r' at related ⊢
    cases related with
    | @ok reason n _ widened =>
      obtain ⟨within, rfl⟩ := widened
      cases reason with
      | none => exact ih within
      | some reason => exact .ok ⟨within, rfl⟩
    | error widened => exact .error widened
    | escape overflow => exact .escape overflow

end Machine

namespace Program

open Machine

variable {w w' : Width}

def Widened (w w' : Width) (p q : Program) : Prop :=
  Within w p.machine ∧ q = { p with machine := p.machine.widen w' }

theorem settle_widened {name : String} {r r' : EStateM.Result Failure Machine StopReason}
    (h : Related Failure.Strained (Machine.Widened w w') r r')
    : Related Failure.Strained (Widened w w') (settle name r) (settle name r') := by
  cases h with
  | @ok reason m _ widened =>
    obtain ⟨within, rfl⟩ := widened
    cases reason with
    | output => exact .ok ⟨{ within with pending := fun _ none => nomatch none }, rfl⟩
    | halt => exact .ok ⟨{ within with }, rfl⟩
    | needInput => exact .error ⟨within, rfl⟩
  | @error e m _ widened =>
    obtain ⟨within, rfl⟩ := widened
    cases e with
    | fault fault => exact .error ⟨{ within with }, rfl⟩
    | _ => exact .error ⟨within, rfl⟩
  | @escape e m _ overflow =>
    cases e with
    | fault fault => exact .escape overflow
    | _ => exact .escape overflow

theorem nextOutput_widened {p q : Program} (h : Widened w w' p q) (proper : w.Proper)
    (wider : w ≤ w') (fuel : Nat) (inputs : List Int)
    : Related Failure.Strained (Widened w w') (p.nextOutput fuel inputs)
        (q.nextOutput fuel inputs) := by
  obtain ⟨within, rfl⟩ := h
  have same : obstacle? { p with machine := p.machine.widen w' } = p.obstacle? := rfl
  unfold nextOutput
  rw [same]
  cases p.obstacle? with
  | some fault => exact .error ⟨within, rfl⟩
  | none =>
    apply settle_widened
    exact run_widened (within.push inputs) proper wider fuel

theorem outputsUpTo_widened {p q : Program} (h : Widened w w' p q) (proper : w.Proper)
    (wider : w ≤ w') (fuel bound : Nat) (inputs : List Int)
    : Related Failure.Strained (Widened w w') (outputsUpTo fuel bound inputs p)
        (outputsUpTo fuel bound inputs q) := by
  induction bound generalizing inputs p q with
  | zero => exact .error h
  | succ bound ih =>
    unfold outputsUpTo
    apply Related.bind (nextOutput_widened h proper wider fuel inputs)
    intro out p q h
    cases out with
    | none => exact .ok h
    | some value =>
      apply Related.bind (ih h [])
      intro values p q h
      exact .ok h

end Program

open Machine

section

variable {w w' : Width} {tracing : Bool} {image : List Int} {m : Machine}

theorem load_widen (proper : w.Proper) (wider : w ≤ w')
    (loaded : Machine.load image { width := w, tracing } = .ok m)
    : Machine.load image { width := w', tracing } = .ok (m.widen w') := by
  obtain ⟨rfl, held⟩ := (Machine.load_iff proper).mp loaded
  exact (Machine.load_iff (proper.mono wider)).mpr
    ⟨rfl, fun value mem => (held value mem).mono wider⟩

theorem runToCompletion_widen (proper : w.Proper) (wider : w ≤ w')
    (loaded : Machine.load image { width := w, tracing } = .ok m) {fuel : Nat}
    {inputs values : List Int}
    (h : (runToCompletion fuel image inputs { width := w, tracing }).result = .ok values)
    : (runToCompletion fuel image inputs { width := w', tracing }).result = .ok values := by
  have loaded' := load_widen proper wider loaded
  rw [result_runToCompletion] at h ⊢
  rw [Program.load_iff.mpr ⟨m, loaded, rfl⟩] at h
  rw [Program.load_iff.mpr ⟨m.widen w', loaded', rfl⟩]
  have widened : Program.Widened w w' { name := "program", machine := m.push inputs }
      { name := "program", machine := (m.widen w').push inputs } :=
    ⟨(within_of_load proper loaded).push inputs, rfl⟩
  have related := Program.outputsUpTo_widened widened proper wider fuel fuel []
  simp only [Except.bind, Program.outputs] at h ⊢
  generalize Program.outputsUpTo fuel fuel [] _ = r at related h
  generalize Program.outputsUpTo fuel fuel [] _ = r' at related ⊢
  cases related with
  | ok _ => exact h
  | error _ => exact h
  | escape _ => contradiction

theorem outcome_of_overflows (start : 0 ≤ m.ip) (overflow : m.overflows)
    : ∃ fault : Fault, fault.cause.isOverflow
        ∧ outcome m.step
          = .error (if ∀ v ∈ fault.numbers, Numeral.Short v then .fault fault else .unwritable) := by
  obtain ⟨fault, m', overflow, failed⟩ := step_of_overflows start overflow
  refine ⟨fault, overflow, ?_⟩
  rw [failed, Fault.raised]
  rfl

/--
Narrower words make no difference until a value overflows, every value that does not fit is caught
at once, and everything that the machine ever holds fits in its words. An overflow is a fault of its
own, but one whose message has a number of too many digits is not raised as such.
-/
theorem narrow_until_overflow (proper : w.Proper) (wider : w ≤ w')
    (loaded : Machine.load image { width := w, tracing } = .ok m)
    : Machine.load image { width := w', tracing } = .ok (m.widen w')
        ∧ (∀ inputs k,
            (∀ j < k, ¬ ((m.push inputs).after j).overflows) →
              ((m.widen w').push inputs).after k = ((m.push inputs).after k).widen w'
              ∧ ∀ j < k, outcome (((m.widen w').push inputs).after j).step
                  = outcome ((m.push inputs).after j).step)
        ∧ (∀ inputs k,
            First (fun k => ((m.push inputs).after k).overflows) k
              ↔ First (fun k => Oversteps w (((m.widen w').push inputs).after k)) k)
        ∧ (∀ n, Reachable m n → Within w n
            ∧ (n.overflows → ∃ fault : Fault, fault.cause.isOverflow
              ∧ outcome n.step
                = .error
                  (if ∀ v ∈ fault.numbers, Numeral.Short v then .fault fault else .unwritable))
            ∧ ∀ fault : Fault, outcome n.step = .error (.fault fault) → fault.cause.isOverflow
              → n.overflows)
        ∧ ∀ fuel inputs values,
            (runToCompletion fuel image inputs { width := w, tracing }).result = .ok values →
              (runToCompletion fuel image inputs { width := w', tracing }).result = .ok values := by
  have within := within_of_load proper loaded
  refine ⟨load_widen proper wider loaded, ?_, ?_, ?_,
    fun fuel inputs values => runToCompletion_widen proper wider loaded⟩
  . intro inputs k calm
    have within := within.push inputs
    refine ⟨after_widen within proper wider calm, ?_⟩
    intro j before
    have same := after_widen within proper wider fun i earlier => calm i (Nat.lt_trans earlier before)
    show outcome (((m.push inputs).widen w').after j).step = _
    rw [same]
    exact (step_widen_of_calm (within.after proper j) proper wider (calm j before)).1
  . intro inputs
    apply first_congr
    intro k calm
    have within := within.push inputs
    have same := after_widen within proper wider calm
    show _ ↔ Oversteps w (((m.push inputs).widen w').after k)
    rw [same]
    exact overflows_iff_oversteps (within.after proper k) proper wider
  . intro n reachable
    have within := within.reachable proper reachable
    refine ⟨within, outcome_of_overflows within.start, ?_⟩
    intro fault failed overflow
    exact overflows_of_step (within.ready proper) (eq_of_outcome_error failed) overflow

theorem narrow_until_overflow_squares
    : let image := [2, 8, 8, 8, 1105, 1, 0, 99, 3]
      let m : Machine := { width := .bits 12, memory := .ofImage image }
      (Width.bits 12).Proper ∧ Width.bits 12 ≤ .bits 16
        ∧ Machine.load image { width := .bits 12 } = .ok m
        ∧ First (fun k => (m.after k).overflows) 4
        ∧ First (fun k => Oversteps (.bits 12) ((m.widen (.bits 16)).after k)) 4
        ∧ (m.widen (.bits 16)).after 4 = (m.after 4).widen (.bits 16) := by
  intro image m
  have proper : (Width.bits 12).Proper := by decide
  have wider : Width.bits 12 ≤ .bits 16 := by decide
  have loaded : Machine.load image { width := .bits 12 } = .ok m := rfl
  obtain ⟨-, lockstep, first, -⟩ := narrow_until_overflow proper wider loaded
  have overflow : First (fun k => (m.after k).overflows) 4 := by
    constructor
    . decide +kernel
    . decide +kernel
  exact ⟨proper, wider, loaded, overflow, (first [] 4).mp overflow, (lockstep [] 4 overflow.2).1⟩

theorem overflow_of_long_value
    : let image := [2, 5, 5, 0, 99, 10 ^ 4000]
      let m : Machine := { width := .bits 15000, memory := .ofImage image }
      Machine.load image { width := .bits 15000 } = .ok m
        ∧ Oversteps (.bits 15000) (m.widen .unbounded)
        ∧ outcome m.step = .error .unwritable := by
  intro image m
  have loaded : Machine.load image { width := .bits 15000 } = .ok m :=
    (Machine.load_iff (by decide)).mpr ⟨rfl, by decide +kernel⟩
  have proper : (Width.bits 15000).Proper := by decide
  have within : Within (.bits 15000) m := within_of_load proper loaded
  have wider : Width.bits 15000 ≤ .unbounded := trivial
  have overflow : m.overflows := by decide +kernel
  exact ⟨loaded, oversteps_of_overflows within proper wider overflow, by decide +kernel⟩

end

end Intcode
