import Intcode.Proofs.Machine.Load

namespace Intcode.Machine

structure Within (w : Width) (m : Machine) : Prop where
  width : m.width = w
  start : 0 ≤ m.ip
  cells : ∀ addr, w.Holds (m.memory.peek addr)
  base : w.Holds m.base
  pending : ∀ value, m.pending = some value → w.Holds value

variable {w : Width} {m : Machine}

theorem Within.ready (h : Within w m) (proper : w.Proper) : m.Ready :=
  ⟨h.start, h.width ▸ proper⟩

theorem Within.holds_of_fits {value : Int} (h : Within w m) (proper : w.Proper)
    (fits : m.width.fits value = .ok true) : w.Holds value := by
  rw [h.width, Width.fits_eq proper] at fits
  simpa using fits

theorem Within.apply {action : Action} (h : Within w m) (proper : w.Proper)
    (enabled : action.Enabled m) : Within w (action.apply m) := by
  cases action with
  | touch addr =>
    refine { h with cells := ?_ }
    intro a
    show w.Holds ((m.memory.grow addr.toNat).peek a)
    rw [Memory.peek_grow]
    exact h.cells a
  | put addr value =>
    refine { h with cells := ?_ }
    intro a
    show w.Holds ((m.memory.set addr.toNat value).peek a)
    rw [Memory.peek_set]
    split
    . exact h.holds_of_fits proper enabled.2
    . exact h.cells a
  | pop => exact { h with }
  | emit value =>
    refine { h with pending := ?_ }
    intro value' emitted
    obtain ⟨addr, rfl⟩ := enabled
    cases emitted
    exact h.cells addr
  | rebase base => exact { h with base := h.holds_of_fits proper enabled }
  | goto ip => exact { h with start := enabled }
  | count entry =>
    cases entry with
    | none => exact { h with }
    | some entry => exact { h with }

theorem Within.step (h : Within w m) (proper : w.Proper) : Within w (endState (step m)) :=
  step_ends (fun _ _ h enabled => h.apply proper enabled) h.start h

theorem Within.push (h : Within w m) (values : List Int) : Within w (m.push values) :=
  { h with }

theorem within_of_load {image : List Int} {config : Config} (proper : config.width.Proper)
    (loaded : load image config = .ok m) : Within config.width m := by
  obtain ⟨rfl, held⟩ := (load_iff proper).mp loaded
  have zero := Width.holds_zero proper
  refine ⟨rfl, Int.le_refl 0, ?_, zero, fun _ none => nomatch none⟩
  intro addr
  show config.width.Holds ((Memory.ofImage image).peek addr)
  unfold Memory.peek Memory.ofImage
  split
  . exact zero
  . simp only [Array.getD_eq_getD_getElem?, List.getElem?_toArray]
    cases cell : image[addr.toNat]? with
    | none => exact zero
    | some value => exact held value (List.mem_of_getElem? cell)

/-- What can become of a machine by steps, whatever comes of them, with inputs put in and outputs
taken at any time. -/
inductive Reachable (m : Machine) : Machine → Prop where
  | start : Reachable m m
  | step : Reachable m n → Reachable m (endState n.step)
  | push (values : List Int) : Reachable m n → Reachable m (n.push values)
  | take : Reachable m n → Reachable m n.takeOutput.2

theorem Reachable.trans {n n' : Machine} (first : Reachable m n) (second : Reachable n n')
    : Reachable m n' := by
  induction second with
  | start => exact first
  | step _ ih => exact ih.step
  | push values _ ih => exact ih.push values
  | take _ ih => exact ih.take

theorem Path.reachable {k : Nat} {n n' : Machine} (path : Path k n n') (reached : Reachable m n)
    : Reachable m n' := by
  induction path with
  | refl n => exact reached
  | cons stepped _ ih =>
    have next := reached.step
    rw [stepped] at next
    exact ih next

theorem Ready.reachable {n : Machine} (ready : m.Ready) (reached : Reachable m n) : n.Ready := by
  induction reached with
  | start => exact ready
  | step _ ih => exact step_ends_ready ih
  | push values _ ih => exact ih.push values
  | take _ ih => exact ⟨ih.start, ih.proper⟩

theorem Within.reachable {n : Machine} (h : Within w m) (proper : w.Proper)
    (reached : Reachable m n) : Within w n := by
  induction reached with
  | start => exact h
  | step _ ih => exact ih.step proper
  | push values _ ih => exact ih.push values
  | take _ ih => exact { ih with pending := fun _ none => nomatch none }

end Intcode.Machine
