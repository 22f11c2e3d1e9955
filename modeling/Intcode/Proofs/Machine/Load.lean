import Intcode.Program
import Intcode.Proofs.Machine.Run

namespace Intcode

namespace Machine

theorem requireFits_of_holds {m : Machine} {value : Int} {cause : Int → Cause}
    (proper : m.width.Proper) (h : m.width.Holds value)
    : requireFits value cause m = .ok () m := by
  unfold requireFits
  rw [Width.fits_eq proper, decide_eq_true h]

theorem requireFits_of_not_holds {m : Machine} {value : Int} {cause : Int → Cause}
    (proper : m.width.Proper) (h : ¬ m.width.Holds value)
    : requireFits value cause m = fail (cause m.width.bitCount) m := by
  unfold requireFits
  rw [Width.fits_eq proper, decide_eq_false h]

theorem load_go_iff {m n : Machine} {addr : Int} {image : List Int} (proper : m.width.Proper)
    : load.go m addr image = .ok n ↔ n = m ∧ ∀ value ∈ image, m.width.Holds value := by
  induction image generalizing addr with
  | nil => simp [load.go, eq_comm]
  | cons value rest ih =>
    unfold load.go
    rw [List.forall_mem_cons]
    by_cases h : m.width.Holds value
    . simp only [requireFits_of_holds proper h, ih, h, true_and]
    . simp only [requireFits_of_not_holds proper h, fail, h, false_and, and_false]
      simp

theorem load_iff {image : List Int} {config : Config} {m : Machine} (proper : config.width.Proper)
    : load image config = .ok m
        ↔ m =
            { width := config.width, memory := Memory.ofImage image, tracing := config.tracing }
          ∧ ∀ value ∈ image, config.width.Holds value := by
  unfold load
  exact load_go_iff proper

theorem overflow_of_load_go {m : Machine} {addr : Int} {image : List Int} {e : Failure}
    (proper : m.width.Proper) (h : load.go m addr image = .error e)
    : e = .unwritable
      ∨ ∃ value addr bits,
          e = .fault { cause := .cellOverflow value addr bits, ip := some m.ip } := by
  induction image generalizing addr with
  | nil => contradiction
  | cons value rest ih =>
    unfold load.go at h
    by_cases held : m.width.Holds value
    . rw [requireFits_of_holds proper held] at h
      exact ih h
    . rw [requireFits_of_not_holds proper held] at h
      cases h
      obtain written | unwritten := Fault.raised_cases
        { cause := .cellOverflow value addr m.width.bitCount, ip := some m.ip }
      . exact .inr ⟨_, _, _, written⟩
      . exact .inl unwritten

theorem ready_of_load {image : List Int} {config : Config} {m : Machine}
    (proper : config.width.Proper) (h : load image config = .ok m) : m.Ready := by
  rw [((load_iff proper).mp h).1]
  exact ⟨Int.le_refl 0, proper⟩

theorem push_nil (m : Machine) : m.push [] = m := by
  unfold push
  rw [List.append_nil]

theorem Ready.push {m : Machine} (ready : m.Ready) (values : List Int) : (m.push values).Ready :=
  ⟨ready.start, ready.proper⟩

theorem Ready.collect {m : Machine} (ready : m.Ready) : m.collect.2.Ready :=
  ⟨ready.start, ready.proper⟩

end Machine

theorem Program.load_iff {image inputs : List Int} {config : Config} {name : String} {p : Program}
    : Program.load image inputs config name = .ok p
        ↔ ∃ m, Machine.load image config = .ok m ∧ p = { name, machine := m.push inputs } := by
  unfold Program.load
  cases Machine.load image config with
  | error e => simp [Except.map]
  | ok m => simp [Except.map, eq_comm]

theorem Program.overflow_of_load {image inputs : List Int} {config : Config} {name : String}
    {e : Failure} (proper : config.width.Proper)
    (failed : Program.load image inputs config name = .error e)
    : e = .unwritable
      ∨ ∃ value addr bits,
          e = .fault { cause := .cellOverflow value addr bits, ip := some 0 } := by
  unfold Program.load at failed
  cases loaded : Machine.load image config with
  | ok m =>
    rw [loaded] at failed
    contradiction
  | error e' =>
    rw [loaded] at failed
    cases failed
    exact Machine.overflow_of_load_go proper loaded

end Intcode
