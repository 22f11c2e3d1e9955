import Intcode.Proofs.Machine.Operation
import Intcode.Proofs.Machine.Stop

/-!
Overlooked differences: machines that differ in something that no instruction goes by. They make the
same steps, give the same answers and differ in nothing else afterwards.
-/
namespace Intcode

theorem Memory.dump_of_cells {m n : Memory} (same : n.cells = m.cells) (start length perLine : Int)
    : n.dump start length perLine = m.dump start length perLine := by
  unfold dump dumpLines between place size
  rw [same]

namespace Machine

def Operation.isWatch : Operation → Bool
  | watch _ => true
  | _ => false

def Operation.isTrace : Operation → Bool
  | enableTrace _ | clearTrace | readTrace => true
  | _ => false

structure Same (m n : Machine) : Prop where
  width : n.width = m.width
  cells : n.memory.cells = m.memory.cells
  ip : n.ip = m.ip
  base : n.base = m.base
  inputs : n.inputs = m.inputs
  pending : n.pending = m.pending

/--
Machines that are related stay related, whatever is done with both of them, unless the first one
fails in a way for which the other is not asked. The entries that they count a step with may differ.
-/
structure Overlooks (escape : Failure → Prop) (E : Option TraceEntry → Option TraceEntry → Prop)
    (R : Machine → Machine → Prop) : Prop where
  same {m n : Machine} : R m n → Same m n
  tracing {m n : Machine}
    : R m n → n.tracing = m.tracing ∨ n.tracing = false ∧ escape .unwritable
  entry {m n : Machine} : R m n → ∀ entry : TraceEntry,
    E (if m.tracing then some entry else none) (if n.tracing then some entry else none)
  count {m n : Machine} {entry entry' : Option TraceEntry}
    : E entry entry' → R m n → R (complete entry m) (complete entry' n)
  apply {m n : Machine} {action : Action}
    : (∀ entry, action ≠ .count entry) → R m n → R (action.apply m) (action.apply n)
  push {m n : Machine} (values : List Int) : R m n → R (m.push values) (n.push values)
  take {m n : Machine} : R m n → R m.takeOutput.2 n.takeOutput.2

variable {m n : Machine} {escape : Failure → Prop}
  {E : Option TraceEntry → Option TraceEntry → Prop} {R : Machine → Machine → Prop}

theorem Same.refl (m : Machine) : Same m m :=
  ⟨rfl, rfl, rfl, rfl, rfl, rfl⟩

theorem Same.trans {l : Machine} (first : Same l m) (second : Same m n) : Same l n where
  width := second.width.trans first.width
  cells := second.cells.trans first.cells
  ip := second.ip.trans first.ip
  base := second.base.trans first.base
  inputs := second.inputs.trans first.inputs
  pending := second.pending.trans first.pending

theorem Same.peek (h : Same m n) : n.memory.peek = m.memory.peek := by
  funext addr
  unfold Memory.peek
  rw [h.cells]

theorem Same.size (h : Same m n) : n.memory.size = m.memory.size :=
  congrArg Array.size h.cells

theorem Same.view (h : Same m n) : n.view = m.view := by
  simp only [Machine.view, h.peek, h.ip, h.base, h.inputs]

theorem Same.complete (h : Same m n) (entry entry' : Option TraceEntry)
    : Same (complete entry m) (complete entry' n) := by
  cases entry <;> cases entry' <;>
    exact ⟨h.width, h.cells, h.ip, h.base, h.inputs, h.pending⟩

theorem Same.grow (h : Same m n) (addr : Nat)
    : (n.memory.grow addr).cells = (m.memory.grow addr).cells := by
  simp only [Memory.grow, h.size, h.cells]
  split
  . exact h.cells
  . rfl

theorem Same.apply (h : Same m n) {action : Action} (uncounted : ∀ entry, action ≠ .count entry)
    : Same (action.apply m) (action.apply n) := by
  cases action with
  | count entry => exact absurd rfl (uncounted entry)
  | touch addr => exact ⟨h.width, h.grow _, h.ip, h.base, h.inputs, h.pending⟩
  | put addr value =>
    have cells :=
      congrArg (fun cells : Array Int => cells.set! addr.toNat value) (h.grow addr.toNat)
    exact ⟨h.width, cells, h.ip, h.base, h.inputs, h.pending⟩
  | pop => exact ⟨h.width, h.cells, h.ip, h.base, congrArg List.tail h.inputs, h.pending⟩
  | emit value => exact ⟨h.width, h.cells, h.ip, h.base, h.inputs, rfl⟩
  | rebase base => exact ⟨h.width, h.cells, h.ip, rfl, h.inputs, h.pending⟩
  | goto ip => exact ⟨h.width, h.cells, rfl, h.base, h.inputs, h.pending⟩

theorem Same.push (h : Same m n) (values : List Int) : Same (m.push values) (n.push values) :=
  ⟨h.width, h.cells, h.ip, h.base, congrArg (· ++ values) h.inputs, h.pending⟩

theorem Same.take (h : Same m n) : Same m.takeOutput.2 n.takeOutput.2 :=
  ⟨h.width, h.cells, h.ip, h.base, h.inputs, rfl⟩

theorem Same.record (h : Same m n) (event event' : Event)
    : Same (m.record event) (n.record event') :=
  ⟨h.width, h.cells, h.ip, h.base, h.inputs, h.pending⟩

theorem Same.collect_left (h : Same m n) : Same m.collect.2 n :=
  ⟨h.width, h.cells, h.ip, h.base, h.inputs, h.pending⟩

theorem tracing_complete (entry : Option TraceEntry) (m : Machine)
    : (complete entry m).tracing = m.tracing := by
  cases entry with
  | none => rfl
  | some _ => rfl

theorem tracing_apply {action : Action} (uncounted : ∀ entry, action ≠ .count entry) (m : Machine)
    : (action.apply m).tracing = m.tracing := by
  cases action with
  | count entry => exact absurd rfl (uncounted entry)
  | _ => rfl

namespace Overlooks

theorem follow (blind : Overlooks escape E R) {cs : List Clause}
    (uncounted : ∀ entry, .act (.count entry) ∉ cs) (related : R m n)
    : Related escape R (follow cs m) (follow cs n) := by
  induction cs generalizing m n with
  | nil => exact .ok related
  | cons c rest ih =>
    have uncounted' : ∀ entry, .act (.count entry) ∉ rest :=
      fun entry mem => uncounted entry (List.mem_cons_of_mem _ mem)
    cases c with
    | act action =>
      apply ih uncounted'
      apply blind.apply _ related
      rintro entry rfl
      exact uncounted entry List.mem_cons_self
    | check hazard =>
      cases hazard with
      | none => exact ih uncounted' related
      | some e => exact .error related

theorem noting (blind : Overlooks escape E R) (related : R m n) (instr : Instruction)
    : Related escape R (Machine.follow [m.view.noting instr m.tracing] m)
        (Machine.follow [m.view.noting instr n.tracing] n) := by
  unfold View.noting
  by_cases refused : m.tracing = true ∧ ¬ (m.view.entry instr).IsWritable
  . rw [if_pos refused]
    obtain same | ⟨-, escapes⟩ := blind.tracing related
    . rw [same, if_pos refused]
      exact .error related
    . exact .escape escapes
  . have passed : ¬ (n.tracing = true ∧ ¬ (m.view.entry instr).IsWritable) := by
      obtain same | ⟨untraced, -⟩ := blind.tracing related
      . rwa [same]
      . simp [untraced]
    rw [if_neg refused, if_neg passed]
    exact .ok related

theorem step (blind : Overlooks escape E R) (related : R m n) : Related escape R m.step n.step := by
  have same := blind.same related
  by_cases start : 0 ≤ m.ip
  . -- Up to the entry, the plans of both machines are made of what they have in common.
    rw [step_eq_perform start, step_eq_perform (same.ip ▸ start)]
    unfold plan View.plan
    rw [same.view, same.size, same.width]
    split
    . exact .error related
    . cases Instruction.decode (m.view.cell m.view.ip) with
      | error cause => exact .error related
      | ok instr =>
        apply perform_related
        show Related escape R (Machine.follow ([_] ++ _ ++ _) m) (Machine.follow ([_] ++ _ ++ _) n)
        rw [follow_append, follow_append, ]
        apply Related.bind
        . rw [follow_append, follow_append]
          apply Related.bind (blind.noting related instr)
          intro _ s t related'
          exact blind.follow (m.view.uncounted_clauses _ _ _) related'
        . intro _ s t related'
          split
          . exact .ok related'
          . exact .ok (blind.count (blind.entry related _) related')
  . have below : m.ip < 0 := Int.not_le.mp start
    have failed := step_of_neg (m := n) (same.ip ▸ below)
    rw [step_of_neg below, failed, same.ip]
    exact .error related

theorem run (blind : Overlooks escape E R) (related : R m n) (fuel : Nat)
    : Related escape R (run fuel m) (run fuel n) := by
  induction fuel generalizing m n with
  | zero => exact .error related
  | succ fuel ih =>
    have stepped := blind.step related
    unfold Machine.run
    generalize m.step = r at stepped ⊢
    generalize n.step = r' at stepped ⊢
    cases stepped with
    | error related => exact .error related
    | escape escapes => exact .escape escapes
    | @ok reason _ _ related =>
      cases reason with
      | none => exact ih related
      | some reason => exact .ok related

theorem fail (blind : Overlooks escape E R) (related : R m n) (cause : Cause)
    : Related escape R (fail cause m : EStateM.Result Failure Machine α) (fail cause n) := by
  unfold Machine.fail
  rw [(blind.same related).ip]
  exact .error related

theorem readCell (blind : Overlooks escape E R) (related : R m n) (addr : Int)
    : Related escape R (readCell addr m) (readCell addr n) := by
  by_cases inside : 0 ≤ addr
  . rw [readCell_eq m inside, readCell_eq n inside, (blind.same related).view]
    exact .ok (blind.apply nofun related)
  . unfold Machine.readCell Memory.read
    rw [if_pos (Int.not_le.mp inside), if_pos (Int.not_le.mp inside)]
    exact .error related

theorem writeCell (blind : Overlooks escape E R) (related : R m n) (addr value : Int)
    : Related escape R (writeCell addr value m) (writeCell addr value n) := by
  by_cases inside : 0 ≤ addr
  . rw [writeCell_eq m value inside, writeCell_eq n value inside]
    exact .ok (blind.apply nofun related)
  . unfold Machine.writeCell Memory.write
    rw [if_pos (Int.not_le.mp inside), if_pos (Int.not_le.mp inside)]
    exact .error related

theorem address (blind : Overlooks escape E R) (related : R m n) (mode : Mode) (slot : Int)
    : Related escape R (address mode slot m) (address mode slot n) := by
  unfold Machine.address
  apply Related.bind (blind.readCell related slot)
  intro raw s t related
  rw [bind_get, bind_get, (blind.same related).base]
  generalize (if mode = .relative then raw + s.base else raw) = addr
  by_cases below : addr < 0
  . rw [if_pos below]
    exact blind.fail related _
  . rw [if_neg below]
    exact .ok related

theorem resolveRead (blind : Overlooks escape E R) (related : R m n) (mode : Mode) (slot : Int)
    : Related escape R (resolveRead mode slot m) (resolveRead mode slot n) := by
  unfold Machine.resolveRead
  split
  . exact blind.readCell related slot
  . apply Related.bind (blind.address related mode slot)
    intro addr s t related
    exact blind.readCell related addr

theorem resolveWrite (blind : Overlooks escape E R) (related : R m n) (mode : Mode) (slot : Int)
    : Related escape R (resolveWrite mode slot m) (resolveWrite mode slot n) := by
  unfold Machine.resolveWrite
  split
  . exact blind.fail related _
  . exact blind.address related mode slot

theorem answer_related {x : Execution α} (h : Related escape R (x m) (x n)) (f : α → Answer)
    : Related escape R ((do return f (← x) : Execution Answer) m)
        ((do return f (← x) : Execution Answer) n) :=
  h.bind fun _ _ _ related => .ok related

theorem told_related {a b : Answer} (related : R m n) (same : b = a)
    : Related escape R (.ok a m : EStateM.Result Failure Machine Answer) (.ok b n) := by
  rw [same]
  exact .ok related

theorem perform (blind : Overlooks escape E R) (related : R m n) (fuel : Nat) {op : Operation}
    (unwatched : op.isWatch = false) (untraced : op.isTrace = false)
    : Related escape R (op.perform fuel m) (op.perform fuel n) := by
  have same := blind.same related
  cases op with
  | step => exact answer_related (blind.step related) _
  | run => exact answer_related (blind.run related fuel) _
  | push values => exact .ok (blind.push values related)
  | take =>
    simp only [Operation.perform, takeOutput, same.pending]
    exact .ok (blind.take related)
  | read addr => exact answer_related (blind.readCell related addr) _
  | write addr value => exact answer_related (blind.writeCell related addr value) fun _ => .done
  | peek addr =>
    exact told_related related (congrArg (fun peek => Answer.value (peek addr)) same.peek)
  | resolveRead mode slot => exact answer_related (blind.resolveRead related mode slot) _
  | resolveWrite mode slot => exact answer_related (blind.resolveWrite related mode slot) _
  | moveTo ip =>
    have moved : R ((Action.goto ip).apply m) ((Action.goto ip).apply n) :=
      blind.apply nofun related
    exact .ok moved
  | rebase base =>
    have moved : R ((Action.rebase base).apply m) ((Action.rebase base).apply n) :=
      blind.apply nofun related
    exact .ok moved
  | snapshot => exact told_related related (congrArg Answer.cells same.cells)
  | dump start length perLine =>
    show Related escape R (dumped start length perLine m) (dumped start length perLine n)
    unfold dumped
    rw [Memory.dump_of_cells same.cells]
    split
    . exact .ok related
    . exact .error related
  | watch | enableTrace | clearTrace | readTrace => contradiction

end Overlooks

structure Twin (m n : Machine) : Prop extends Same m n where
  tracing : n.tracing = m.tracing

theorem Twin.refl (m : Machine) : Twin m m :=
  ⟨Same.refl m, rfl⟩

theorem Twin.trans {l : Machine} (first : Twin l m) (second : Twin m n) : Twin l n :=
  ⟨first.toSame.trans second.toSame, second.tracing.trans first.tracing⟩

theorem overlooks_twin : Overlooks Exact (fun _ _ => True) Twin where
  same := Twin.toSame
  tracing h := .inl h.tracing
  entry _ _ := trivial
  count _ h := by
    refine ⟨h.toSame.complete _ _, ?_⟩
    rw [tracing_complete, tracing_complete, h.tracing]
  apply uncounted h := by
    refine ⟨h.toSame.apply uncounted, ?_⟩
    rw [tracing_apply uncounted, tracing_apply uncounted, h.tracing]
  push values h := ⟨h.toSame.push values, h.tracing⟩
  take h := ⟨h.toSame.take, h.tracing⟩

end Machine

end Intcode
