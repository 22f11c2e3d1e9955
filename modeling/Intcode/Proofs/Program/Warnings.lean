import Intcode.Log
import Intcode.Proofs.Program.Use

namespace Intcode

def Event.isWarning (event : Event) : Bool :=
  event.record?.any (·.level = .warning)

theorem Event.isWarning_of_wording {event : Event}
    (other : event.wording?.any (·.level = .warning) = false) : event.isWarning = false := by
  unfold isWarning record?
  split
  . exact other
  . rfl

namespace Machine

def warnings (m : Machine) : List Event :=
  m.journal.toList.filter Event.isWarning

variable {m : Machine}

theorem warnings_record (event : Event) (m : Machine)
    : (m.record event).warnings = m.warnings ++ [event].filter Event.isWarning := by
  unfold warnings record
  rw [Array.toList_push, List.filter_append]

theorem warnings_record_of_false {event : Event} (other : event.isWarning = false) (m : Machine)
    : (m.record event).warnings = m.warnings := by
  rw [warnings_record, List.filter_cons_of_neg (by simp [other]), List.filter_nil, List.append_nil]

theorem warnings_apply (action : Action) (m : Machine)
    : (action.apply m).warnings = m.warnings := by
  cases action with
  | put addr value =>
    have quiet : ((m.memory.sightings addr value).toArray.map Event.sighted).toList.filter
        Event.isWarning = [] := by
      have other (seen : Sighting) : (Event.sighted seen).isWarning = false :=
        Event.isWarning_of_wording rfl
      simp [other]
    unfold warnings Action.apply
    rw [Array.toList_append, List.filter_append, quiet, List.append_nil]
  | count entry =>
    cases entry with
    | none => rfl
    | some entry => exact warnings_record_of_false (Event.isWarning_of_wording rfl) _
  | _ => rfl

theorem warnings_step (start : 0 ≤ m.ip) : (endState m.step).warnings = m.warnings :=
  step_ends (P := fun n => n.warnings = m.warnings)
    (fun action n h _ => (warnings_apply action n).trans h) start rfl

end Machine

namespace Program

open Machine

theorem carried_warnings (warnings : List Event) : Carried fun m => m.warnings = warnings where
  step _ ready h := (warnings_step ready.start).trans h
  push _ _ h := h
  taken _ h := h
  halted _ m h := (warnings_record_of_false (Event.isWarning_of_wording rfl) m).trans h
  faulted _ m h := (warnings_record_of_false (Event.isWarning_of_wording rfl) m).trans h

theorem warnings_nextOutput {p : Program} (ready : p.machine.Ready) (fuel : Nat)
    (inputs : List Int)
    : (endState (p.nextOutput fuel inputs)).machine.warnings = p.machine.warnings :=
  (carried_warnings p.machine.warnings).nextOutput ready rfl fuel inputs

end Program

end Intcode
