import Intcode.Proofs.Lockstep
import Intcode.Proofs.Machine.Execution

/-!
Lockstep of machines: if related machines have the same plan and each action keeps the relation,
then their steps are related. `plan_enabled` says what holds whenever an action of a plan is done.
-/
namespace Intcode.Machine

def Action.Enabled : Action → Machine → Prop
  | touch addr, _ => 0 ≤ addr
  | put addr value, m => 0 ≤ addr ∧ m.width.fits value = .ok true
  | pop, m => m.inputs ≠ []
  | emit value, m => ∃ addr, value = m.memory.peek addr
  | rebase base, m => m.width.fits base = .ok true
  | goto ip, _ => 0 ≤ ip
  | count _, _ => True

def Enabled : List Clause → Machine → Prop
  | [], _ => True
  | .act action :: rest, m => action.Enabled m ∧ Enabled rest (action.apply m)
  | .check none :: rest, m => Enabled rest m
  | .check (some _) :: _, _ => True

theorem enabled_append {cs ds : List Clause} {m : Machine} (first : Enabled cs m)
    (second : ∀ m', follow cs m = .ok () m' → Enabled ds m') : Enabled (cs ++ ds) m := by
  fun_induction Enabled cs m with
  | case1 => exact second _ rfl
  | case2 action rest m ih => exact ⟨first.1, ih first.2 second⟩
  | case3 rest m ih => exact ih first second
  | case4 => trivial

theorem enabled_forbid {v : View} {p : Prop} [Decidable p] {cause : Cause} {cs : List Clause}
    {m : Machine} (h : ¬ p → Enabled cs m) : Enabled (v.forbid p cause :: cs) m := by
  unfold View.forbid
  split
  . trivial
  . next passed => exact h passed

theorem enabled_confine {v : View} {width : Width} {value : Int} {cause : Int → Cause}
    {cs : List Clause} {m : Machine} (h : width.fits value = .ok true → Enabled cs m)
    : Enabled (v.confine width value cause :: cs) m := by
  unfold View.confine
  split
  . next fits => exact h fits
  . trivial
  . trivial

theorem enabled_noting {v : View} {instr : Instruction} {tracing : Bool} {cs : List Clause}
    {m : Machine} (h : Enabled cs m) : Enabled (v.noting instr tracing :: cs) m := by
  unfold View.noting
  split
  . trivial
  . exact h

section

variable {v : View} {mode : Nat → Mode} {m : Machine}

theorem enabled_reading (start : 0 ≤ v.ip) (param : Nat) : Enabled (v.reading mode param) m := by
  have slot : 0 ≤ v.slot param := by
    unfold View.slot
    omega
  refine ⟨slot, ?_⟩
  apply enabled_forbid
  intro inside
  exact ⟨Int.not_lt.mp inside, trivial⟩

theorem enabled_writing (start : 0 ≤ v.ip) (param : Nat) (value : Int)
    : Enabled (v.writing m.width mode param value) m := by
  have slot : 0 ≤ v.slot param := by
    unfold View.slot
    omega
  apply enabled_forbid
  intro _
  refine ⟨slot, ?_⟩
  apply enabled_forbid
  intro inside
  apply enabled_confine
  intro fits
  exact ⟨⟨Int.not_lt.mp inside, fits⟩, trivial⟩

theorem enabled_goto_next (start : 0 ≤ v.ip) (opcode : Opcode)
    : Enabled [.act (.goto (v.next opcode))] m := by
  refine ⟨?_, trivial⟩
  show 0 ≤ v.ip + (opcode.arity + 1 : Nat)
  omega

theorem enabled_binary (start : 0 ≤ v.ip) (opcode : Opcode) (value : Int)
    : Enabled (v.binary m.width mode opcode value) m := by
  apply enabled_append (enabled_reading start 0)
  intro m₁ h₁
  apply enabled_append (enabled_reading start 1)
  intro m₂ h₂
  rw [← width_of_follow h₁, ← width_of_follow h₂]
  apply enabled_append (enabled_writing start 2 value)
  intro _ _
  exact enabled_goto_next start opcode

theorem enabled_jump (start : 0 ≤ v.ip) (opcode : Opcode) (taken : Bool)
    : Enabled (v.jump mode opcode taken) m := by
  apply enabled_append (enabled_reading start 0)
  intro _ _
  split
  . apply enabled_append (enabled_reading start 1)
    intro _ _
    apply enabled_forbid
    intro inside
    exact ⟨Int.not_lt.mp inside, trivial⟩
  . exact enabled_goto_next start opcode

theorem enabled_input (start : 0 ≤ m.ip) : Enabled (m.view.input m.width mode) m := by
  apply enabled_forbid
  intro _
  cases queue : m.view.inputs with
  | nil => trivial
  | cons value rest =>
    -- The rest of the plan was made before the value is taken out of the queue.
    constructor
    . show m.view.inputs ≠ []
      simp [queue]
    . apply enabled_append (enabled_writing (m := Action.pop.apply m) start 0 value)
      intro _ _
      exact enabled_goto_next start .input

theorem enabled_clauses (start : 0 ≤ m.ip) (opcode : Opcode)
    : Enabled (m.view.clauses m.width mode opcode) m := by
  have start : 0 ≤ m.view.ip := start
  cases opcode with
  | add | multiply | lessThan | equals => exact enabled_binary start _ _
  | jumpIfTrue | jumpIfFalse => exact enabled_jump start _ _
  | input => exact enabled_input start
  | output =>
    apply enabled_append (enabled_reading start 0)
    intro m₁ h₁
    refine ⟨⟨m.view.location mode 0, ?_⟩, enabled_goto_next start .output⟩
    show m.view.operand mode 0 = m₁.view.cell _
    rw [view_of_follow_reading h₁]
    rfl
  | adjustBase =>
    apply enabled_append (enabled_reading start 0)
    intro m₁ h₁
    rw [← width_of_follow h₁]
    apply enabled_confine
    intro fits
    exact ⟨fits, enabled_goto_next start .adjustBase⟩
  | halt => trivial

end

theorem plan_enabled {m : Machine} (start : 0 ≤ m.ip) : Enabled m.plan.clauses m := by
  unfold plan View.plan
  split
  . trivial
  . cases Instruction.decode (m.view.cell m.view.ip) with
    | error cause => trivial
    | ok instr =>
      apply enabled_append (enabled_noting (enabled_clauses start instr.opcode))
      intros
      split
      . trivial
      . exact ⟨trivial, trivial⟩

theorem follow_ends {P : Machine → Prop}
    (keeps : ∀ (action : Action) (m : Machine), P m → action.Enabled m → P (action.apply m))
    {cs : List Clause} {m : Machine} (enabled : Enabled cs m) (h : P m)
    : P (endState (follow cs m)) := by
  fun_induction follow cs m with
  | case1 => exact h
  | case2 action rest m ih => exact ih enabled.2 (keeps action m h enabled.1)
  | case3 rest m ih => exact ih enabled h
  | case4 => exact h

theorem step_ends {P : Machine → Prop}
    (keeps : ∀ (action : Action) (m : Machine), P m → action.Enabled m → P (action.apply m))
    {m : Machine} (start : 0 ≤ m.ip) (h : P m) : P (endState (step m)) := by
  have followed := follow_ends keeps (plan_enabled start) h
  rw [step_eq_perform start]
  unfold perform
  generalize follow m.plan.clauses m = r at followed ⊢
  cases r with
  | ok _ m' => exact followed
  | error e m' => exact followed

variable {R : Machine → Machine → Prop} {m n : Machine}

theorem follow_related
    (keeps : ∀ (action : Action) (m n : Machine), R m n → action.Enabled m →
      R (action.apply m) (action.apply n))
    {cs : List Clause} (enabled : Enabled cs m) (related : R m n)
    : Related Exact R (follow cs m) (follow cs n) := by
  induction cs generalizing m n with
  | nil => exact .ok related
  | cons c rest ih =>
    cases c with
    | act action => exact ih enabled.2 (keeps action m n related enabled.1)
    | check hazard =>
      cases hazard with
      | none => exact ih enabled related
      | some e => exact .error related

theorem perform_related {escape : Failure → Prop} {cs ds : List Clause}
    (h : Related escape R (follow cs m) (follow ds n)) (a : α)
    : Related escape R (perform cs a m) (perform ds a n) := by
  unfold perform
  generalize follow cs m = r at h ⊢
  generalize follow ds n = r' at h ⊢
  cases h with
  | ok related => exact .ok related
  | error related => exact .error related
  | escape h => exact .escape h

theorem step_related
    (keeps : ∀ (action : Action) (m n : Machine), R m n → action.Enabled m →
      R (action.apply m) (action.apply n))
    (start : 0 ≤ m.ip) (start' : 0 ≤ n.ip) (related : R m n) (same : n.plan = m.plan)
    : Related Exact R (step m) (step n) := by
  rw [step_eq_perform start, step_eq_perform start', same]
  apply perform_related
  exact follow_related keeps (plan_enabled start) related

end Intcode.Machine
