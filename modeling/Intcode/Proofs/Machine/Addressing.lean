import Mathlib.Algebra.Group.Int.Defs
import Mathlib.Control.Monad.Basic
import Intcode.Proofs.Lockstep
import Intcode.Proofs.Machine.Execution

namespace Intcode.Machine

def deposit (mode : Mode) (slot value : Int) : Execution Unit := do
  writeCell (← resolveWrite mode slot) value

variable {m : Machine} {mode : Mode} {slot value : Int}

theorem resolveWrite_eq (direct : mode ≠ .immediate) (inside : 0 ≤ slot)
    : resolveWrite mode slot m
        =
      if m.effectiveAddress mode slot < 0 then
        .error (m.view.fault (.negativeEffectiveAddress (m.effectiveAddress mode slot)))
          ((Action.touch slot).apply m)
      else
        .ok (m.effectiveAddress mode slot) ((Action.touch slot).apply m) := by
  unfold resolveWrite
  rw [if_neg direct, address_eq mode inside]

theorem resolveRead_eq (direct : mode ≠ .immediate) (inside : 0 ≤ slot)
    : resolveRead mode slot m
        =
      if m.effectiveAddress mode slot < 0 then
        .error (m.view.fault (.negativeEffectiveAddress (m.effectiveAddress mode slot)))
          ((Action.touch slot).apply m)
      else
        .ok (m.memory.peek (m.effectiveAddress mode slot))
          ((Action.touch (m.effectiveAddress mode slot)).apply ((Action.touch slot).apply m)) := by
  have found := address_eq (m := m) mode inside
  unfold resolveRead
  rw [if_neg direct]
  by_cases below : m.effectiveAddress mode slot < 0
  . rw [if_pos below] at found ⊢
    exact bind_of_error found
  . rw [if_neg below] at found ⊢
    rw [bind_of_ok found, readCell_eq _ (Int.not_lt.mp below), view_touch]
    rfl

theorem deposit_eq (direct : mode ≠ .immediate) (inside : 0 ≤ slot)
    (above : 0 ≤ m.effectiveAddress mode slot)
    : deposit mode slot value m
        = .ok () ((Action.put (m.effectiveAddress mode slot) value).apply
            ((Action.touch slot).apply m)) := by
  have found := resolveWrite_eq (m := m) direct inside
  rw [if_neg (Int.not_lt.mpr above)] at found
  unfold deposit
  rw [bind_of_ok found, writeCell_eq _ _ above]

theorem deposit_of_neg (direct : mode ≠ .immediate) (inside : 0 ≤ slot)
    (below : m.effectiveAddress mode slot < 0)
    : deposit mode slot value m
        = .error (m.view.fault (.negativeEffectiveAddress (m.effectiveAddress mode slot)))
            ((Action.touch slot).apply m) := by
  have found := resolveWrite_eq (m := m) direct inside
  rw [if_pos below] at found
  exact bind_of_error found

theorem eq_of_requireFits {m' : Machine} {cause : Int → Cause}
    (h : requireFits value cause m = .ok () m') : m' = m := by
  unfold requireFits at h
  split at h
  . cases h
    rfl
  . contradiction
  . contradiction

theorem deposit_of_store {m' : Machine} {instr : Instruction} {param : Nat}
    (stored : store instr param value m = .ok () m')
    : deposit (instr.mode param) (m.view.slot param) value m = .ok () m' := by
  change (resolveWrite (instr.mode param) (m.view.slot param) >>= _) m = _ at stored
  unfold deposit
  cases resolved : resolveWrite (instr.mode param) (m.view.slot param) m with
  | error e n =>
    rw [bind_of_error resolved] at stored
    contradiction
  | ok addr n =>
    rw [bind_of_ok resolved] at stored ⊢
    cases fits : requireFits value (.cellOverflow value addr) n with
    | error e n' =>
      rw [bind_of_error fits] at stored
      contradiction
    | ok u n' =>
      rw [bind_of_ok fits, eq_of_requireFits fits] at stored
      exact stored

theorem outcome_resolveRead (direct : mode ≠ .immediate) (inside : 0 ≤ slot)
    : outcome (resolveRead mode slot m)
        =
      if m.effectiveAddress mode slot < 0 then
        .error (m.view.fault (.negativeEffectiveAddress (m.effectiveAddress mode slot)))
      else
        .ok (m.memory.peek (m.effectiveAddress mode slot)) := by
  rw [resolveRead_eq direct inside]
  split
  . rfl
  . rfl

theorem outcome_resolveWrite (direct : mode ≠ .immediate) (inside : 0 ≤ slot)
    : outcome (resolveWrite mode slot m)
        =
      if m.effectiveAddress mode slot < 0 then
        .error (m.view.fault (.negativeEffectiveAddress (m.effectiveAddress mode slot)))
      else
        .ok (m.effectiveAddress mode slot) := by
  rw [resolveWrite_eq direct inside]
  split
  . rfl
  . rfl

theorem memory_resolveWrite (direct : mode ≠ .immediate) (inside : 0 ≤ slot)
    : (endState (resolveWrite mode slot m)).memory = m.memory.grow slot.toNat := by
  rw [resolveWrite_eq direct inside]
  split
  . rfl
  . rfl

theorem memory_resolveRead (direct : mode ≠ .immediate) (inside : 0 ≤ slot)
    : (endState (resolveRead mode slot m)).memory
        = m.memory.grow (max slot (m.effectiveAddress mode slot)).toNat := by
  rw [resolveRead_eq direct inside]
  split
  . next below =>
    have : max slot (m.effectiveAddress mode slot) = slot := by omega
    rw [this]
    rfl
  . next above =>
    have : (max slot (m.effectiveAddress mode slot)).toNat
        = max slot.toNat (m.effectiveAddress mode slot).toNat := by omega
    rw [this, ← Memory.grow_grow]
    rfl

theorem peek_deposit {stored : Machine} (direct : mode ≠ .immediate) (inside : 0 ≤ slot)
    (success : deposit mode slot value m = .ok () stored) (addr : Int)
    : 0 ≤ m.effectiveAddress mode slot
        ∧ stored.memory.peek addr
          = if addr = m.effectiveAddress mode slot then value else m.memory.peek addr := by
  have above : 0 ≤ m.effectiveAddress mode slot := by
    apply Int.not_lt.mp
    intro below
    rw [deposit_of_neg direct inside below] at success
    contradiction
  rw [deposit_eq direct inside above] at success
  cases success
  refine ⟨above, ?_⟩
  show ((m.memory.grow _).set _ value).peek addr = _
  rw [Memory.peek_set, Memory.peek_grow, Int.toNat_of_nonneg above]

theorem effectiveAddress_of_deposit {stored later : Machine} (direct : mode ≠ .immediate)
    (inside : 0 ≤ slot) (success : deposit mode slot value m = .ok () stored)
    (cells : later.memory.peek = stored.memory.peek) (base : later.base = m.base)
    : later.effectiveAddress mode slot
        =
      if m.effectiveAddress mode slot = slot then
        if mode = .relative then value + m.base else value
      else
        m.effectiveAddress mode slot := by
  obtain ⟨-, here⟩ := peek_deposit direct inside success slot
  have moved : later.effectiveAddress mode slot
      = if mode = .relative then later.memory.peek slot + later.base else later.memory.peek slot :=
    rfl
  rw [moved, cells, base, here]
  by_cases same : m.effectiveAddress mode slot = slot
  . rw [if_pos same.symm, if_pos same]
  . rw [if_neg (Ne.symm same), if_neg same]
    rfl

theorem resolveWrite_eq_ok_iff {addr : Int} (direct : mode ≠ .immediate) (inside : 0 ≤ slot)
    : outcome (resolveWrite mode slot m) = .ok addr
        ↔ addr = m.effectiveAddress mode slot ∧ 0 ≤ addr := by
  rw [outcome_resolveWrite direct inside]
  split
  . next below =>
    simp
    omega
  . next above =>
    simp
    omega

theorem resolveRead_of_resolveWrite {addr : Int} (direct : mode ≠ .immediate) (inside : 0 ≤ slot)
    (found : outcome (resolveWrite mode slot m) = .ok addr)
    : outcome (resolveRead mode slot m) = .ok (m.memory.peek addr) := by
  obtain ⟨rfl, above⟩ := (resolveWrite_eq_ok_iff direct inside).mp found
  rw [outcome_resolveRead direct inside, if_neg (Int.not_lt.mpr above)]

theorem resolveWrite_iff_resolveRead (direct : mode ≠ .immediate) (inside : 0 ≤ slot)
    : (∃ addr, outcome (resolveWrite mode slot m) = .ok addr)
        ↔ ∃ v, outcome (resolveRead mode slot m) = .ok v := by
  rw [outcome_resolveWrite direct inside, outcome_resolveRead direct inside]
  split
  . simp
  . simp

theorem resolves_of_neg (direct : mode ≠ .immediate) (inside : 0 ≤ slot)
    (below : m.effectiveAddress mode slot < 0)
    : let fault : Fault :=
        { cause := .negativeEffectiveAddress (m.effectiveAddress mode slot), ip := some m.ip }
      outcome (resolveWrite mode slot m) = .error fault.raised
        ∧ outcome (resolveRead mode slot m) = .error fault.raised := by
  rw [outcome_resolveWrite direct inside, outcome_resolveRead direct inside, if_pos below,
    if_pos below]
  exact ⟨rfl, rfl⟩

theorem memory_resolves (direct : mode ≠ .immediate) (inside : 0 ≤ slot)
    : let reading := (endState (resolveRead mode slot m)).memory
      let writing := (endState (resolveWrite mode slot m)).memory
      writing.peek = m.memory.peek ∧ reading.peek = m.memory.peek
        ∧ writing.size = max (m.memory.size : Int) (slot + 1)
        ∧ reading.size
          = max (m.memory.size : Int) (max slot (m.effectiveAddress mode slot) + 1) := by
  dsimp only
  rw [memory_resolveWrite direct inside, memory_resolveRead direct inside]
  refine ⟨funext (Memory.peek_grow _ _), funext (Memory.peek_grow _ _), ?_, ?_⟩
  . rw [Memory.size_grow]
    omega
  . rw [Memory.size_grow]
    omega

theorem reread_elsewhere {stored later : Machine} (direct : mode ≠ .immediate) (inside : 0 ≤ slot)
    (success : deposit mode slot value m = .ok () stored)
    (cells : later.memory.peek = stored.memory.peek) (base : later.base = m.base)
    (apart : m.effectiveAddress mode slot ≠ slot)
    : outcome (resolveRead mode slot later) = .ok value := by
  have moved := effectiveAddress_of_deposit direct inside success cells base
  obtain ⟨above, there⟩ := peek_deposit direct inside success (m.effectiveAddress mode slot)
  rw [if_neg apart] at moved
  rw [outcome_resolveRead direct inside, moved, if_neg (Int.not_lt.mpr above), cells, there,
    if_pos rfl]

theorem reread_itself {stored later : Machine} (direct : mode ≠ .immediate) (inside : 0 ≤ slot)
    (success : deposit mode slot value m = .ok () stored)
    (cells : later.memory.peek = stored.memory.peek) (base : later.base = m.base)
    (same : m.effectiveAddress mode slot = slot)
    : outcome (resolveRead mode slot later)
        =
      let next := if mode = .relative then value + m.base else value
      if next < 0 then
        .error (Fault.raised { cause := .negativeEffectiveAddress next, ip := some later.ip })
      else
        .ok (later.memory.peek next) := by
  have moved := effectiveAddress_of_deposit direct inside success cells base
  rw [if_pos same] at moved
  rw [outcome_resolveRead direct inside, moved]
  rfl

/--
Reading through a parameter and writing through it find one address or fail alike, and what is
written there is what is read next. Where the parameter itself is overwritten, the value that
replaces it is the address that is read.
-/
theorem resolves_alike (m : Machine) (direct : mode ≠ .immediate) (inside : 0 ≤ slot)
    : let addr := m.effectiveAddress mode slot
      let reading := resolveRead mode slot m
      let writing := resolveWrite mode slot m
      ((∃ a, outcome writing = .ok a) ↔ ∃ v, outcome reading = .ok v)
        ∧ (∀ a, outcome writing = .ok a ↔ a = addr ∧ 0 ≤ a)
        ∧ (∀ a, outcome writing = .ok a → outcome reading = .ok (m.memory.peek a))
        ∧ (addr < 0 →
          let fault : Fault := { cause := .negativeEffectiveAddress addr, ip := some m.ip }
          outcome writing = .error fault.raised ∧ outcome reading = .error fault.raised)
        ∧ (endState writing).memory.peek = m.memory.peek
        ∧ (endState reading).memory.peek = m.memory.peek
        ∧ (endState writing).memory.size = max (m.memory.size : Int) (slot + 1)
        ∧ (endState reading).memory.size = max (m.memory.size : Int) (max slot addr + 1)
        ∧ (∀ instr param value stored, instr.mode param = mode → m.view.slot param = slot →
          store instr param value m = .ok () stored → deposit mode slot value m = .ok () stored)
        ∧ (0 ≤ addr → ∀ value, ∃ stored, deposit mode slot value m = .ok () stored)
        ∧ ∀ value stored later, deposit mode slot value m = .ok () stored →
          later.memory.peek = stored.memory.peek → later.base = m.base →
          (addr ≠ slot → outcome (resolveRead mode slot later) = .ok value)
            ∧ (addr = slot →
              outcome (resolveRead mode slot later)
                =
              let next := if mode = .relative then value + m.base else value
              if next < 0 then
                .error (Fault.raised { cause := .negativeEffectiveAddress next, ip := some later.ip })
              else
                .ok (later.memory.peek next)) := by
  obtain ⟨written, read, wrote, was⟩ := memory_resolves (m := m) direct inside
  refine ⟨resolveWrite_iff_resolveRead direct inside, fun _ => resolveWrite_eq_ok_iff direct inside,
    fun _ => resolveRead_of_resolveWrite direct inside, resolves_of_neg direct inside,
    written, read, wrote, was, ?_, ?_, ?_⟩
  . rintro instr param value stored rfl rfl
    exact deposit_of_store
  . intro above value
    exact ⟨_, deposit_eq direct inside above⟩
  . intro value stored later success cells base
    exact ⟨reread_elsewhere direct inside success cells base,
      reread_itself direct inside success cells base⟩

theorem resolves_self_reference
    : let m : Machine := { width := .unbounded, memory := .ofImage [99, 7], base := 5 }
      Mode.relative ≠ .immediate ∧ (0 : Int) ≤ 5 ∧ m.effectiveAddress .relative 5 = 5
        ∧ outcome (resolveWrite .relative 5 m) = .ok 5
        ∧ outcome (resolveRead .relative 5 m) = .ok 0
        ∧ (endState (resolveRead .relative 5 m)).memory.size = 6
        ∧ ∀ stored, deposit .relative 5 (-4) m = .ok () stored →
          outcome (resolveRead .relative 5 stored) = .ok 7 := by
  intro m
  have direct : Mode.relative ≠ .immediate := by decide
  have inside : (0 : Int) ≤ 5 := by decide
  have itself : m.effectiveAddress .relative 5 = 5 := by decide
  obtain ⟨-, written, read, -, -, -, -, size, -, -, reread⟩ := resolves_alike m direct inside
  have wrote : outcome (resolveWrite .relative 5 m) = .ok 5 :=
    (written 5).mpr ⟨itself.symm, inside⟩
  refine ⟨direct, inside, itself, wrote, read 5 wrote, ?_, ?_⟩
  . rw [itself, show (m.memory.size : Int) = 2 from rfl] at size
    omega
  . intro stored success
    have above : 0 ≤ m.effectiveAddress .relative 5 := by
      rw [itself]
      decide
    have placed : deposit .relative 5 (-4) m = .ok () _ := deposit_eq direct inside above
    rw [placed] at success
    cases success
    exact (reread (-4) _ _ placed rfl rfl).2 itself

theorem resolves_long_address
    : let m : Machine := { width := .unbounded, memory := .ofImage [-10 ^ 4300] }
      m.effectiveAddress .position 0 = -10 ^ 4300
        ∧ outcome (resolveWrite .position 0 m) = .error .unwritable
        ∧ outcome (resolveRead .position 0 m) = .error .unwritable := by
  decide +kernel

end Intcode.Machine
