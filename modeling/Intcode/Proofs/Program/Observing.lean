import Intcode.Proofs.Machine.Watching
import Intcode.Proofs.Program.Sameness

namespace Intcode

namespace Machine

/--
The first machine is the second one as it is observed: it is traced or watched. That it is can make
no difference, but that a number is to be written which is too long.
-/
structure Observed (seen : Prop) (m n : Machine) : Prop extends Same m n where
  tracing : n.tracing = m.tracing ∨ n.tracing = false ∧ seen
  unwatched : seen ∨ m.unwatched = m

abbrev OnlyUnwritable (seen : Prop) (e : Failure) : Prop :=
  seen ∧ e = .unwritable

variable {seen : Prop} {m n : Machine}

theorem unwatched_record {event : Event} (silent : event.sighting? = none)
    : (m.record event).unwatched = m.unwatched.record event := by
  simp [record, unwatched, silent]

theorem Observed.record {event : Event} (h : Observed seen m n) (silent : event.sighting? = none)
    (event' : Event) : Observed seen (m.record event) (n.record event') := by
  refine ⟨h.toSame.record _ _, h.tracing, h.unwatched.imp_right fun same => ?_⟩
  rw [unwatched_record silent, same]

theorem Observed.collect (h : Observed seen m n) : Observed seen m.collect.2 n := by
  refine ⟨h.toSame.collect_left, h.tracing, h.unwatched.imp_right fun same => ?_⟩
  have memory : { m.memory with watches := [] } = m.memory := congrArg Machine.memory same
  simp [Machine.collect, Machine.unwatched, memory]

theorem Observed.silent (h : Observed seen m n)
    : seen ∨ ∀ event ∈ m.journal.toList, event.sighting? = none := by
  refine h.unwatched.imp_right fun same event mem => ?_
  have journal : m.journal.filter (fun event => event.sighting?.isNone) = m.journal :=
    congrArg Machine.journal same
  rw [← journal] at mem
  simpa using (Array.mem_filter.mp (Array.mem_def.mpr mem)).2

theorem overlooks_observed : Overlooks (OnlyUnwritable seen) (fun _ _ => True) (Observed seen) where
  same := Observed.toSame
  tracing h := h.tracing.imp_right fun observed => ⟨observed.1, observed.2, rfl⟩
  entry _ _ := trivial
  count {m n entry entry'} _ h := by
    refine ⟨h.toSame.complete _ _, ?_, h.unwatched.imp_right fun same => ?_⟩
    . rw [tracing_complete, tracing_complete]
      exact h.tracing
    . rw [unwatched_complete, same]
  apply {m n action} uncounted h := by
    refine ⟨h.toSame.apply uncounted, ?_, h.unwatched.imp_right fun same => ?_⟩
    . rw [tracing_apply uncounted, tracing_apply uncounted]
      exact h.tracing
    . rw [unwatched_apply uncounted, same]
  push values h :=
    ⟨h.toSame.push values, h.tracing, h.unwatched.imp_right (congrArg (push values))⟩
  take h :=
    ⟨h.toSame.take, h.tracing, h.unwatched.imp_right (congrArg fun m : Machine => m.takeOutput.2)⟩

end Machine

namespace Program

abbrev Observed (seen : Prop) := Alike (Machine.Observed seen)

variable {seen : Prop} {p q : Program}

theorem untold_observed : Untold (Machine.Observed seen) where
  halted _ h := h.record rfl _
  faulted _ h := h.record rfl _

theorem Observed.refl (observed : seen) (p : Program) : Observed seen p p :=
  ⟨rfl, rfl, .refl _, .inl rfl, .inl observed⟩

theorem Observed.nextOutput (h : Observed seen p q) (fuel : Nat) (inputs : List Int)
    : Related (Machine.OnlyUnwritable seen) (Observed seen) (p.nextOutput fuel inputs)
        (q.nextOutput fuel inputs) :=
  Alike.nextOutput h Machine.overlooks_observed untold_observed inputs

theorem Observed.collect (h : Observed seen p q) : Observed seen p.collect.2 q :=
  ⟨h.name, h.state, h.machine.collect⟩

end Program

end Intcode
