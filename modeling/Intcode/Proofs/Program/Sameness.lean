import Intcode.Proofs.Machine.Overlook
import Intcode.Proofs.Program.Session

namespace Intcode.Program

open Machine

structure Alike (R : Machine → Machine → Prop) (p q : Program) : Prop where
  name : q.name = p.name
  state : q.state = p.state
  machine : R p.machine q.machine

abbrev Same := Alike Machine.Twin

structure Untold (R : Machine → Machine → Prop) : Prop where
  halted {m n : Machine} (name : String)
    : R m n → R (m.record (.halted name m.steps)) (n.record (.halted name n.steps))
  faulted {m n : Machine} (name : String)
    : R m n → R (m.record (.faulted name m.ip)) (n.record (.faulted name n.ip))

variable {fuel : Nat} {p q : Program} {escape : Failure → Prop}
  {E : Option TraceEntry → Option TraceEntry → Prop} {R : Machine → Machine → Prop}

namespace Alike

theorem obstacle? (h : Alike R p q) (blind : Overlooks escape E R) : q.obstacle? = p.obstacle? := by
  unfold Program.obstacle?
  rw [h.state, h.name, (blind.same h.machine).ip]

theorem push (h : Alike R p q) (blind : Overlooks escape E R) (values : List Int)
    : Alike R { p with machine := p.machine.push values }
        { q with machine := q.machine.push values } :=
  ⟨h.name, h.state, blind.push values h.machine⟩

theorem settle {result result' : EStateM.Result Failure Machine StopReason}
    (h : Related escape R result result') (blind : Overlooks escape E R) (untold : Untold R)
    (name : String) : Related escape (Alike R) (settle name result) (settle name result') := by
  cases h with
  | @ok reason m n related =>
    have same := blind.same related
    cases reason with
    | output =>
      simp only [Program.settle, takeOutput, same.pending]
      exact .ok ⟨rfl, rfl, blind.take related⟩
    | halt => exact .ok ⟨rfl, rfl, untold.halted name related⟩
    | needInput =>
      simp only [Program.settle, same.ip]
      exact .error ⟨rfl, rfl, related⟩
  | @error e m n related =>
    cases e with
    | fault fault => exact .error ⟨rfl, rfl, untold.faulted name related⟩
    | _ => exact .error ⟨rfl, rfl, related⟩
  | @escape e m _ escapes =>
    cases e with
    | fault fault => exact .escape escapes
    | _ => exact .escape escapes

theorem nextOutput (h : Alike R p q) (blind : Overlooks escape E R) (untold : Untold R)
    (inputs : List Int)
    : Related escape (Alike R) (p.nextOutput fuel inputs) (q.nextOutput fuel inputs) := by
  unfold Program.nextOutput
  rw [h.obstacle? blind]
  cases p.obstacle? with
  | some fault => exact .error h
  | none =>
    rw [h.name]
    exact settle (blind.run (blind.push inputs h.machine) fuel) blind untold p.name

theorem feed (h : Alike R p q) (blind : Overlooks escape E R) (values : List Int)
    : Related escape (Alike R) (p.feed values) (q.feed values) := by
  unfold Program.feed
  rw [h.obstacle? blind]
  cases p.obstacle? with
  | some fault => exact .error h
  | none => exact .ok (h.push blind values)

end Alike

theorem Same.refl (p : Program) : Same p p :=
  ⟨rfl, rfl, .refl p.machine⟩

theorem Same.trans {r : Program} (first : Same p q) (second : Same q r) : Same p r :=
  ⟨second.name.trans first.name, second.state.trans first.state,
    first.machine.trans second.machine⟩

theorem same_record (p : Program) (event : Event)
    : Same p { p with machine := p.machine.record event } :=
  ⟨rfl, rfl, ⟨rfl, rfl, rfl, rfl, rfl, rfl⟩, rfl⟩

theorem same_collect (p : Program) : Same p p.collect.2 :=
  ⟨rfl, rfl, ⟨rfl, rfl, rfl, rfl, rfl, rfl⟩, rfl⟩

theorem untold_twin : Untold Machine.Twin where
  halted _ h := ⟨h.toSame.record _ _, h.tracing⟩
  faulted _ h := ⟨h.toSame.record _ _, h.tracing⟩

theorem Same.perform (h : Same p q) (call : Call)
    : (call.perform fuel q).1 = (call.perform fuel p).1
      ∧ Same (call.perform fuel p).2 (call.perform fuel q).2 := by
  cases call with
  | feed values =>
    have fed := h.feed overlooks_twin values
    simp only [Call.perform]
    generalize p.feed values = result at fed ⊢
    generalize q.feed values = result' at fed ⊢
    cases fed with
    | ok same => exact ⟨rfl, same⟩
    | error same => exact ⟨rfl, same⟩
    | escape absurd => exact absurd.elim
  | next inputs =>
    have resumed : Related Exact Same (p.nextOutput fuel inputs) _ :=
      h.nextOutput overlooks_twin untold_twin inputs
    simp only [Call.perform]
    generalize p.nextOutput fuel inputs = result at resumed ⊢
    generalize q.nextOutput fuel inputs = result' at resumed ⊢
    cases resumed with
    | @ok out _ _ same => cases out <;> exact ⟨rfl, same⟩
    | error same => exact ⟨rfl, same⟩
    | escape absurd => exact absurd.elim

theorem Same.session (h : Same p q) (calls : List Call)
    : (session fuel calls q).1 = (session fuel calls p).1
      ∧ Same (session fuel calls p).2 (session fuel calls q).2 := by
  induction calls generalizing p q with
  | nil => exact ⟨rfl, h⟩
  | cons call calls ih =>
    obtain ⟨replied, same⟩ := h.perform call
    obtain ⟨replied', same'⟩ := ih same
    simp only [Program.session]
    exact ⟨congrArg₂ List.cons replied replied', same'⟩

theorem load_traced {image inputs : List Int} {width : Width} {name : String} (tracing : Bool)
    (proper : width.Proper) (loaded : load image inputs { width } name = .ok p)
    : load image inputs { width, tracing } name
        = .ok { p with machine := { p.machine with tracing } } := by
  obtain ⟨m, fresh, rfl⟩ := load_iff.mp loaded
  obtain ⟨rfl, held⟩ := (Machine.load_iff proper).mp fresh
  have traced : Machine.load image { width, tracing } = .ok _ :=
    (Machine.load_iff proper).mpr ⟨rfl, held⟩
  exact load_iff.mpr ⟨_, traced, rfl⟩

theorem unloaded_traced {image inputs : List Int} {width : Width} {name : String} {e : Failure}
    (tracing : Bool) (proper : width.Proper) (failed : load image inputs { width } name = .error e)
    : ∃ e', load image inputs { width, tracing } name = .error e' := by
  cases loaded : load image inputs { width, tracing } name with
  | error e' => exact ⟨e', rfl⟩
  | ok p =>
    obtain ⟨m, fresh, -⟩ := load_iff.mp loaded
    obtain ⟨-, held⟩ := (Machine.load_iff proper).mp fresh
    have untraced : Machine.load image { width } = .ok _ :=
      (Machine.load_iff proper).mpr ⟨rfl, held⟩
    rw [load_iff.mpr ⟨_, untraced, rfl⟩] at failed
    contradiction

end Intcode.Program
