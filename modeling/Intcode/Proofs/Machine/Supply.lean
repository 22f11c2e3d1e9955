import Intcode.Proofs.Machine.Run

/-!
Supply: inputs that are queued earlier than they are needed change nothing. A machine that stalls
on an empty queue has not done anything, and every other step is the same with more inputs in the
queue behind those that are there.
-/
namespace Intcode

namespace Machine

def Supplied (rest : List Int) (m n : Machine) : Prop :=
  ∃ journal, n = { m with inputs := m.inputs ++ rest, journal }

theorem apply_supplied {rest : List Int} (action : Action) (m n : Machine)
    (h : Supplied rest m n) (enabled : action.Enabled m)
    : Supplied rest (action.apply m) (action.apply n) := by
  obtain ⟨journal, rfl⟩ := h
  cases action with
  | pop =>
    refine ⟨journal, ?_⟩
    simp only [Action.apply, List.tail_append_of_ne_nil enabled]
  | put addr value => exact ⟨_, rfl⟩
  | count entry =>
    cases entry with
    | none => exact ⟨_, rfl⟩
    | some entry => exact ⟨_, rfl⟩
  | _ => exact ⟨journal, rfl⟩

end Machine

namespace View

def supply (rest : List Int) (v : View) : View :=
  { v with inputs := v.inputs ++ rest }

def Starved (v : View) (size : Nat) : Prop :=
  ∃ instr, Instruction.decode (v.cell v.ip) = .ok instr ∧ instr.opcode = .input ∧ v.inputs = []
    ∧ ¬ size ≤ v.ip

variable {v : View} {size : Nat} {width : Width} {tracing : Bool} {mode : Nat → Mode}
  {rest : List Int} {opcode : Opcode}

theorem clauses_supply (h : ¬ (opcode = .input ∧ v.inputs = []))
    : (v.supply rest).clauses width mode opcode = v.clauses width mode opcode := by
  cases opcode with
  | input =>
    obtain ⟨value, others, queue⟩ := List.exists_cons_of_ne_nil (fun empty => h ⟨rfl, empty⟩)
    simp only [clauses, input, supply, queue, List.cons_append]
    rfl
  | _ => rfl

theorem reason_supply (h : ¬ (opcode = .input ∧ v.inputs = []))
    : (v.supply rest).reason opcode = v.reason opcode := by
  cases opcode with
  | input =>
    obtain ⟨value, others, queue⟩ := List.exists_cons_of_ne_nil (fun empty => h ⟨rfl, empty⟩)
    simp only [reason, supply, queue, List.cons_append, List.isEmpty_cons]
  | _ => rfl

theorem plan_supply (going : ¬ v.Starved size)
    : (v.supply rest).plan size width tracing = v.plan size width tracing := by
  unfold plan
  by_cases outside : size ≤ v.ip
  . rw [if_pos outside, if_pos (show size ≤ (v.supply rest).ip from outside)]
    rfl
  . rw [if_neg outside, if_neg (show ¬ size ≤ (v.supply rest).ip from outside)]
    have same : (v.supply rest).cell (v.supply rest).ip = v.cell v.ip := rfl
    rw [same]
    cases decoded : Instruction.decode (v.cell v.ip) with
    | error cause => rfl
    | ok instr =>
      have going : ¬ (instr.opcode = .input ∧ v.inputs = []) := by
        intro starved
        exact going ⟨instr, decoded, starved.1, starved.2, outside⟩
      simp only [clauses_supply going, reason_supply going]
      rfl

theorem perform_of_starved (starved : v.Starved size)
    : (∀ m, Machine.perform (v.plan size width tracing).clauses (v.plan size width tracing).reason m
        = .ok (some .needInput) m)
      ∨ ∃ e, ∀ rest m,
        Machine.perform ((v.supply rest).plan size width tracing).clauses
          ((v.supply rest).plan size width tracing).reason m = .error e m := by
  obtain ⟨instr, decoded, opcode, empty, inside⟩ := starved
  -- The line of the trace and the mode of the destination are checked before the queue is
  -- looked at.
  have noted (rest : List Int) : (v.supply rest).noting instr tracing = v.noting instr tracing := rfl
  by_cases unwritable : tracing = true ∧ ¬ (v.entry instr).IsWritable
  . refine .inr ⟨.unwritable, ?_⟩
    intro rest m
    have refused : v.noting instr tracing = .check (some (.other .unwritable)) := by
      rw [noting, if_pos unwritable]
    simp only [plan, supply, if_neg inside, decoded] at noted ⊢
    rw [noted rest, refused]
    rfl
  . have passed : v.noting instr tracing = .check none := by
      rw [noting, if_neg unwritable]
    by_cases immediate : instr.mode 0 = .immediate
    . refine .inr ⟨v.fault .immediateDestination, ?_⟩
      intro rest m
      simp only [plan, supply, if_neg inside, decoded] at noted ⊢
      rw [noted rest, passed]
      simp only [opcode, clauses, input, forbid, if_pos immediate]
      rfl
    . apply Or.inl
      intro m
      simp only [plan, if_neg inside, decoded, passed, opcode, clauses, input, forbid,
        if_neg immediate, reason, empty]
      rfl

end View

namespace Machine

structure Behind (rest : List Int) (R : Machine → Machine → Prop) : Prop where
  queued : ∀ {m n : Machine}, R m n → Supplied rest m n
  keeps : ∀ (action : Action) (m n : Machine), R m n → action.Enabled m
    → R (action.apply m) (action.apply n)

theorem behind_supplied (rest : List Int) : Behind rest (Supplied rest) :=
  ⟨id, apply_supplied⟩

theorem behind_push (rest : List Int) : Behind rest fun m n => n = m.push rest := by
  constructor
  . rintro m _ rfl
    exact ⟨m.journal, rfl⟩
  . rintro action m _ rfl enabled
    cases action with
    | pop => simp only [Action.apply, push, List.tail_append_of_ne_nil enabled]
    | count entry =>
      cases entry with
      | none => rfl
      | some entry => rfl
    | _ => rfl

variable {rest : List Int} {R : Machine → Machine → Prop} {k : Nat} {m m' n : Machine}
  {result : EStateM.Result Failure Machine StopReason}

namespace Behind

theorem step (behind : Behind rest R) (start : 0 ≤ m.ip) (h : R m n)
    : step m = .ok (some .needInput) m ∨ Related Exact R (step m) (step n) := by
  have start' : 0 ≤ n.ip := by
    obtain ⟨journal, rfl⟩ := behind.queued h
    exact start
  have supplied : n.plan = (m.view.supply rest).plan m.memory.size m.width m.tracing := by
    obtain ⟨journal, rfl⟩ := behind.queued h
    rfl
  have unsupplied : m.plan = (m.view.supply []).plan m.memory.size m.width m.tracing := by
    unfold View.supply
    rw [List.append_nil]
    rfl
  -- No other plan than that of a starved machine depends on what is behind in the queue.
  by_cases starved : m.view.Starved m.memory.size
  . rw [step_eq_perform start, step_eq_perform start', supplied]
    cases View.perform_of_starved starved with
    | inl stalled => exact .inl (stalled m)
    | inr faulty =>
      obtain ⟨e, faulty⟩ := faulty
      have first := faulty [] m
      rw [← unsupplied] at first
      rw [first, faulty rest n]
      exact .inr (.error h)
  . have same : n.plan = m.plan := by
      rw [supplied]
      exact View.plan_supply starved
    apply Or.inr
    exact step_related behind.keeps start start' h same

theorem path (behind : Behind rest R) (path : Path k m m') (ready : m.Ready) (h : R m n)
    : ∃ n', Path k n n' ∧ R m' n' := by
  induction path generalizing n with
  | refl m => exact ⟨n, .refl n, h⟩
  | @cons _ m₁ m₂ _ stepped _ ih =>
    have moved := step_ends_ready ready
    have related := behind.step ready.start h
    rw [stepped] at moved related
    cases related with
    | inl stalled => cases stalled
    | inr related =>
      obtain ⟨n₂, stepped', h⟩ := related.of_ok
      obtain ⟨n', path', h⟩ := ih moved h
      exact ⟨n', .cons stepped' path', h⟩

theorem stops (behind : Behind rest R) (stops : Stops m result) (start : 0 ≤ m.ip) (h : R m n)
    : result = .ok .needInput m
      ∨ ∃ result', Stops n result' ∧ Related Exact R result result' := by
  have related := behind.step start h
  cases result with
  | ok reason m' =>
    rw [show Machine.step m = _ from stops] at related
    cases related with
    | inl stalled =>
      cases stalled
      exact .inl rfl
    | inr related =>
      obtain ⟨n', stops', h⟩ := related.of_ok
      exact .inr ⟨.ok reason n', stops', .ok h⟩
  | error e m' =>
    rw [show Machine.step m = _ from stops] at related
    cases related with
    | inl stalled => contradiction
    | inr related =>
      obtain ⟨n', stops', h⟩ := related.of_error
      exact .inr ⟨.error e n', stops', .error h⟩

end Behind

theorem Path.supplied (path : Path k m m') (ready : m.Ready) (h : Supplied rest m n)
    : ∃ n', Path k n n' ∧ Supplied rest m' n' :=
  (behind_supplied rest).path path ready h

theorem Stops.supplied (stops : Stops m result) (start : 0 ≤ m.ip) (h : Supplied rest m n)
    : result = .ok .needInput m
      ∨ ∃ result', Stops n result' ∧ Related Exact (Supplied rest) result result' :=
  (behind_supplied rest).stops stops start h

theorem Path.push (path : Path k m m') (ready : m.Ready) (rest : List Int)
    : Path k (m.push rest) (m'.push rest) := by
  obtain ⟨_, path', rfl⟩ := (behind_push rest).path path ready rfl
  exact path'

end Machine

end Intcode
