import Intcode.Proofs.Machine.Confinement
import Intcode.Proofs.Machine.Hazard

/-!
Widening: machines that differ in nothing but the width of their words. Their plans are the same up
to the check of the value that is stored, and that is the last check of a plan.
-/
namespace Intcode

def Cause.isOverflow : Cause → Bool
  | cellOverflow .. | baseOverflow .. => true
  | _ => false

def Machine.Hazard.isOverflow : Machine.Hazard → Bool
  | .fault f => f.cause.isOverflow
  | .other _ => false

namespace Machine

def widen (w : Width) (m : Machine) : Machine :=
  { m with width := w }

def Exceeds (w : Width) (m : Machine) : Prop :=
  (∃ addr, ¬ w.Holds (m.memory.peek addr)) ∨ ¬ w.Holds m.base

def Action.stored? : Action → Option Int
  | put _ value => some value
  | rebase base => some base
  | _ => none

def Clause.Settled : Clause → Prop
  | act action => action.stored? = none
  | check _ => False

def Overflowing (cs : List Clause) : Bool :=
  (cs.findSome? Clause.hazard?).any Hazard.isOverflow

def overflows (m : Machine) : Bool :=
  Overflowing m.plan.clauses

inductive Overstepping (w : Width) : List Clause → Prop where
  | overflow {hazard : Hazard} {rest : List Clause}
    : hazard.isOverflow → Overstepping w (.check (some hazard) :: rest)
  | stored {action : Action} {value : Int} {rest : List Clause}
    : action.stored? = some value → ¬ w.Holds value → (∀ c ∈ rest, c.Settled)
      → Overstepping w (.check none :: .act action :: rest)

inductive Narrowed (w : Width) : List Clause → List Clause → Prop where
  | nil : Narrowed w [] []
  | cons {cs ds : List Clause} (c : Clause) : Narrowed w cs ds → Narrowed w (c :: cs) (c :: ds)
  | overflow {hazard : Hazard} {cs ds : List Clause}
    : hazard.isOverflow → Overstepping w ds → Narrowed w (.check (some hazard) :: cs) ds

theorem narrowed_refl {w : Width} (cs : List Clause) : Narrowed w cs cs := by
  induction cs with
  | nil => exact .nil
  | cons c cs ih => exact .cons c ih

theorem Narrowed.append_left {w : Width} {cs ds : List Clause} (first : List Clause)
    (h : Narrowed w cs ds) : Narrowed w (first ++ cs) (first ++ ds) := by
  induction first with
  | nil => exact h
  | cons c first ih => exact .cons c ih

section

variable {w w' : Width} {v : View} {mode : Nat → Mode}

theorem narrowed_confine {value : Int} {cause : Int → Cause} {action : Action}
    {rest : List Clause} (proper : w.Proper) (wider : w ≤ w')
    (overflow : ∀ bits, (cause bits).isOverflow) (stored : action.stored? = some value)
    (settled : ∀ c ∈ rest, c.Settled)
    : Narrowed w (v.confine w value cause :: .act action :: rest)
        (v.confine w' value cause :: .act action :: rest) := by
  unfold View.confine
  rw [Width.fits_eq proper, Width.fits_eq (proper.mono wider)]
  by_cases h : w.Holds value
  . rw [decide_eq_true h, decide_eq_true (h.mono wider)]
    apply narrowed_refl
  . rw [decide_eq_false h]
    apply Narrowed.overflow
    . apply overflow
    . -- The wider words may hold the value or overflow as well.
      by_cases h' : w'.Holds value
      . rw [decide_eq_true h']
        exact .stored stored h settled
      . rw [decide_eq_false h']
        exact .overflow (overflow _)

theorem narrowed_writing {param : Nat} {value : Int} {rest : List Clause} (proper : w.Proper)
    (wider : w ≤ w') (settled : ∀ c ∈ rest, c.Settled)
    : Narrowed w (v.writing w mode param value ++ rest) (v.writing w' mode param value ++ rest) := by
  apply Narrowed.append_left [_, _, _]
  exact narrowed_confine proper wider (fun _ => rfl) rfl settled

theorem narrowed_clauses {rest : List Clause} (proper : w.Proper) (wider : w ≤ w')
    (settled : ∀ c ∈ rest, c.Settled) (opcode : Opcode)
    : Narrowed w (v.clauses w mode opcode ++ rest) (v.clauses w' mode opcode ++ rest) := by
  -- Behind the value that is stored there is nothing left that could go wrong.
  have settled (ip : Int) : ∀ c ∈ [.act (.goto ip)] ++ rest, c.Settled := by
    rw [List.singleton_append, List.forall_mem_cons]
    exact ⟨rfl, settled⟩
  cases opcode with
  | add | multiply | lessThan | equals =>
    simp only [View.clauses, View.binary, List.append_assoc]
    apply Narrowed.append_left
    apply Narrowed.append_left
    exact narrowed_writing proper wider (settled _)
  | input =>
    unfold View.clauses View.input
    cases v.inputs with
    | nil => apply narrowed_refl
    | cons value others =>
      simp only [List.cons_append, List.append_assoc]
      apply Narrowed.append_left [_, _]
      exact narrowed_writing proper wider (settled _)
  | adjustBase =>
    simp only [View.clauses, List.append_assoc]
    apply Narrowed.append_left
    exact narrowed_confine proper wider (fun _ => rfl) rfl (settled _)
  | output | jumpIfTrue | jumpIfFalse | halt => apply narrowed_refl

end

variable {w' : Width} {m : Machine}

theorem narrowed_plan (proper : m.width.Proper) (wider : m.width ≤ w')
    : Narrowed m.width m.plan.clauses (m.widen w').plan.clauses
      ∧ m.plan.reason = (m.widen w').plan.reason := by
  show Narrowed m.width (m.view.plan m.memory.size m.width m.tracing).clauses
      (m.view.plan m.memory.size w' m.tracing).clauses
    ∧ (m.view.plan m.memory.size m.width m.tracing).reason
        = (m.view.plan m.memory.size w' m.tracing).reason
  unfold View.plan
  split
  . exact ⟨narrowed_refl _, rfl⟩
  . cases Instruction.decode (m.view.cell m.view.ip) with
    | error cause => exact ⟨narrowed_refl _, rfl⟩
    | ok instr =>
      refine ⟨.cons _ (narrowed_clauses proper wider ?_ instr.opcode), rfl⟩
      intro c mem
      split at mem
      . contradiction
      . rw [List.mem_singleton.mp mem]
        rfl

theorem apply_widen (action : Action) (m : Machine)
    : action.apply (m.widen w') = (action.apply m).widen w' := by
  cases action with
  | count entry =>
    cases entry with
    | none => rfl
    | some entry => rfl
  | _ => rfl

theorem follow_settled {cs : List Clause} (settled : ∀ c ∈ cs, c.Settled) (m : Machine)
    : ∃ n, follow cs m = .ok () n ∧ n.memory.peek = m.memory.peek ∧ n.base = m.base := by
  induction cs generalizing m with
  | nil => exact ⟨m, rfl, rfl, rfl⟩
  | cons c cs ih =>
    rw [List.forall_mem_cons] at settled
    obtain ⟨settled, others⟩ := settled
    cases c with
    | check hazard => exact settled.elim
    | act action =>
      obtain ⟨n, followed, cells, base⟩ := ih others (action.apply m)
      refine ⟨n, followed, ?_, ?_⟩
      . rw [cells]
        cases action with
        | put addr value => contradiction
        | touch addr =>
          funext a
          apply Memory.peek_grow
        | count entry => cases entry <;> rfl
        | _ => rfl
      . rw [base]
        cases action with
        | rebase base => contradiction
        | count entry => cases entry <;> rfl
        | _ => rfl

theorem exceeds_of_stored {w : Width} {action : Action} {value : Int}
    (stored : action.stored? = some value) (h : ¬ w.Holds value) (m : Machine)
    : Exceeds w (action.apply m) := by
  cases action with
  | put addr value' =>
    cases stored
    refine .inl ⟨addr.toNat, ?_⟩
    show ¬ w.Holds ((m.memory.set addr.toNat value).peek addr.toNat)
    rw [Memory.peek_set, if_pos rfl]
    exact h
  | rebase base =>
    cases stored
    exact .inr h
  | _ => contradiction

theorem overstepped_of_overstepping {w : Width} {cs : List Clause} (h : Overstepping w cs)
    (m : Machine) : Overflowing cs ∨ ∃ n, follow cs m = .ok () n ∧ Exceeds w n := by
  cases h with
  | overflow h => exact .inl h
  | @stored action _ rest stored h settled =>
    obtain ⟨n, followed, cells, base⟩ := follow_settled settled (action.apply m)
    have exceeds := exceeds_of_stored stored h m
    unfold Exceeds at exceeds
    rw [← cells, ← base] at exceeds
    exact .inr ⟨n, followed, exceeds⟩

theorem follow_widen {w : Width} {cs ds : List Clause} (h : Narrowed w cs ds)
    (calm : ¬ Overflowing cs) (m : Machine)
    : Related Exact (fun m n => n = m.widen w') (follow cs m) (follow ds (m.widen w')) := by
  induction h generalizing m with
  | nil => exact .ok rfl
  | overflow h _ => exact absurd h calm
  | @cons cs ds c _ ih =>
    cases c with
    | act action =>
      show Related _ _ (follow cs (action.apply m)) (follow ds (action.apply (m.widen w')))
      rw [apply_widen]
      exact ih calm _
    | check hazard =>
      cases hazard with
      | none => exact ih calm m
      | some e => exact .error rfl

theorem overstepped_of_overflowing {w : Width} {cs ds : List Clause} (h : Narrowed w cs ds)
    (overflow : Overflowing cs) (m : Machine)
    : Overflowing ds ∨ ∃ n, follow ds m = .ok () n ∧ Exceeds w n := by
  induction h generalizing m with
  | nil => contradiction
  | overflow _ h => exact overstepped_of_overstepping h m
  | @cons cs ds c _ ih =>
    cases c with
    | act action => exact ih overflow (action.apply m)
    | check hazard =>
      cases hazard with
      | none => exact ih overflow m
      | some hazard => exact .inl overflow

theorem Narrowed.overflowing {w : Width} {cs ds : List Clause} (h : Narrowed w cs ds)
    (overflow : Overflowing ds) : Overflowing cs := by
  induction h with
  | nil => exact overflow
  | overflow h _ => exact h
  | @cons cs ds c _ ih =>
    cases c with
    | act action => exact ih overflow
    | check hazard =>
      cases hazard with
      | none => exact ih overflow
      | some hazard => exact overflow

theorem step_widen (ready : m.Ready) (wider : m.width ≤ w') (calm : ¬ m.overflows)
    : Related Exact (fun m n => n = m.widen w') (step m) (step (m.widen w')) := by
  have start : 0 ≤ (m.widen w').ip := ready.start
  obtain ⟨narrowed, reason⟩ := narrowed_plan ready.proper wider
  rw [step_eq_perform ready.start, step_eq_perform start, reason]
  apply perform_related
  exact follow_widen narrowed calm m

theorem step_overflow (ready : m.Ready) (wider : m.width ≤ w') (overflow : m.overflows)
    : (m.widen w').overflows
      ∨ ∃ reason n, step (m.widen w') = .ok reason n ∧ Exceeds m.width n := by
  have start : 0 ≤ (m.widen w').ip := ready.start
  have narrowed := (narrowed_plan ready.proper wider).1
  obtain overflows | ⟨n, followed, exceeds⟩ :=
    overstepped_of_overflowing narrowed overflow (m.widen w')
  . exact .inl overflows
  . refine .inr ⟨(m.widen w').plan.reason, n, ?_, exceeds⟩
    rw [step_eq_perform start]
    unfold perform
    rw [followed]

theorem step_of_overflows (start : 0 ≤ m.ip) (overflow : m.overflows)
    : ∃ (fault : Fault) (m' : Machine), fault.cause.isOverflow ∧ step m = .error fault.raised m' := by
  unfold overflows Overflowing at overflow
  rw [step_eq_perform start, perform_eq]
  cases found : m.plan.clauses.findSome? Clause.hazard? with
  | none =>
    rw [found] at overflow
    contradiction
  | some hazard =>
    rw [found] at overflow
    cases hazard with
    | fault f => exact ⟨f, _, overflow, rfl⟩
    | other e => contradiction

theorem overflows_of_step {fault : Fault} {m' : Machine} (ready : m.Ready)
    (failed : step m = .error (.fault fault) m') (overflow : fault.cause.isOverflow)
    : m.overflows := by
  have recordable : ¬ m.Unrecordable := by
    intro unrecordable
    rw [step_of_unrecordable ready.start unrecordable] at failed
    cases failed
  rw [step_eq_perform ready.start, perform_eq] at failed
  unfold overflows Overflowing
  cases found : m.plan.clauses.findSome? Clause.hazard? with
  | none =>
    rw [found] at failed
    contradiction
  | some hazard =>
    rw [found] at failed
    injection failed with same
    obtain ⟨c, mem, found⟩ := List.exists_of_findSome?_eq_some found
    obtain ⟨cause, -, rfl⟩ := plan_sound ready.proper recordable c mem hazard found
    obtain ⟨-, rfl⟩ := Fault.raised_eq_fault_iff.mp same
    exact overflow

end Machine

end Intcode
