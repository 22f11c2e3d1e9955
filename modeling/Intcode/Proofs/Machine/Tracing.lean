import Intcode.Proofs.Machine.Effect
import Intcode.Proofs.Machine.Load
import Intcode.Proofs.Machine.Overlook
import Intcode.Proofs.Machine.TraceLine

namespace Intcode

def Event.isExecuted : Event → Bool
  | executed _ => true
  | _ => false

namespace Machine

def untraced (m : Machine) : Machine :=
  { m with
    tracing := false
    trace := #[]
    journal := m.journal.filter fun event => !event.isExecuted }

def entry? (m : Machine) : Option TraceEntry :=
  match outcome m.step with
  | .ok reason =>
    if reason = some .needInput then
      none
    else
      m.instruction?.map fun instr =>
        { ip := m.ip
          opcode := instr.opcode
          operands := (List.range instr.arity).map fun (i : Nat) => m.memory.peek (m.ip + 1 + i)
          base := m.base }
  | .error _ => none

variable {fuel : Nat} {m n : Machine} {states : List Machine}

theorem untraced_complete (entry : Option TraceEntry)
    : (complete entry m).untraced = complete none m.untraced := by
  cases entry with
  | none => rfl
  | some entry => simp [complete, record, untraced, Event.isExecuted]

theorem untraced_apply {action : Action} (uncounted : ∀ entry, action ≠ .count entry)
    : (action.apply m).untraced = action.apply m.untraced := by
  cases action with
  | put addr value =>
    have kept (seen : List Sighting)
        : (seen.toArray.map Event.sighted).filter (fun event => !event.isExecuted)
            = seen.toArray.map Event.sighted := by
      rw [Array.filter_eq_self]
      intro event mem
      obtain ⟨sighting, -, rfl⟩ := Array.mem_map.mp mem
      rfl
    simp only [Action.apply, untraced, Array.filter_append, Array.size_append, kept]
  | count entry => exact absurd rfl (uncounted entry)
  | _ => rfl

theorem overlooks_trace
    : Overlooks (· = .unwritable) (fun _ entry => entry = none) fun m n => n = m.untraced where
  same := by
    rintro m _ rfl
    exact ⟨rfl, rfl, rfl, rfl, rfl, rfl⟩
  tracing := by
    rintro m _ rfl
    exact .inr ⟨rfl, rfl⟩
  entry := by
    rintro m _ rfl _
    rfl
  count := by
    rintro m _ entry _ rfl rfl
    exact (untraced_complete entry).symm
  apply := by
    rintro m _ action uncounted rfl
    exact (untraced_apply uncounted).symm
  push := by
    rintro m _ values rfl
    rfl
  take := by
    rintro m _ rfl
    rfl

theorem perform_untraced {op : Operation} (untouched : op.isTrace = false)
    (written : outcome (op.perform fuel m) ≠ .error .unwritable)
    : outcome (op.perform fuel m.untraced) = outcome (op.perform fuel m)
      ∧ endState (op.perform fuel m.untraced) = (endState (op.perform fuel m)).untraced := by
  cases watched : op.isWatch with
  | true =>
    cases op with
    | watch addr => exact ⟨rfl, rfl⟩
    | _ => contradiction
  | false =>
    have related := overlooks_trace.perform (rfl : m.untraced = m.untraced) fuel watched untouched
    generalize op.perform fuel m = result at related written ⊢
    generalize op.perform fuel m.untraced = result' at related ⊢
    cases related with
    | ok same => exact ⟨rfl, same⟩
    | error same => exact ⟨rfl, same⟩
    | escape unwritten => exact absurd (congrArg Except.error unwritten) written

theorem drive_untraced {ops : List Operation} (untouched : ∀ op ∈ ops, op.isTrace = false)
    (written : ∀ told ∈ (drive fuel ops m).1, told.2 ≠ .error .unwritable)
    : drive fuel ops m.untraced = ((drive fuel ops m).1, (drive fuel ops m).2.untraced) := by
  induction ops generalizing m with
  | nil => rfl
  | cons op ops ih =>
    rw [List.forall_mem_cons] at untouched
    obtain ⟨first, written⟩ := List.forall_mem_cons.mp written
    obtain ⟨answered, left⟩ := perform_untraced untouched.1 first
    show ((op, outcome _) :: (drive fuel ops _).1, (drive fuel ops _).2) = _
    rw [answered, left, ih untouched.2 written]
    rfl

theorem load_untraced (image : List Int) (config : Config)
    : load image { config with tracing := false }
        =
      (load image { config with tracing := true }).map untraced := by
  have unheeded (m : Machine) (addr : Int)
      : load.go m.untraced addr image = (load.go m addr image).map untraced := by
    induction image generalizing addr with
    | nil => rfl
    | cons value rest ih =>
      have width : m.untraced.width = m.width := rfl
      unfold load.go requireFits
      rw [width]
      cases m.width.fits value with
      | error e => rfl
      | ok fits =>
        cases fits with
        | true => exact ih _
        | false => rfl
  exact unheeded { width := config.width, memory := .ofImage image, tracing := true } 0

theorem entry?_of_failed {e : Failure} (failed : m.step = .error e n) : m.entry? = none := by
  unfold entry?
  rw [failed, outcome]

structure Logged (m : Machine) (states : List Machine) (n : Machine) : Prop where
  tracing : n.tracing = m.tracing
  writable : ∀ entry ∈ states.filterMap entry?, entry.IsWritable
  trace : n.trace.toList = m.trace.toList ++ states.filterMap entry?
  steps : n.steps = m.steps + (states.filterMap entry?).length

theorem Logged.refl (m : Machine) : Logged m [] m :=
  ⟨rfl, List.forall_mem_nil _, (List.append_nil _).symm, rfl⟩

theorem Logged.trans {l : Machine} {states' : List Machine} (first : Logged l states m)
    (second : Logged m states' n) : Logged l (states ++ states') n where
  tracing := second.tracing.trans first.tracing
  writable := by
    rw [List.filterMap_append, List.forall_mem_append]
    exact ⟨first.writable, second.writable⟩
  trace := by rw [second.trace, first.trace, List.filterMap_append, List.append_assoc]
  steps := by
    rw [second.steps, first.steps, List.filterMap_append, List.length_append, Nat.add_assoc]

theorem Logged.skip (unlogged : m.entry? = none) (kept : Logged m [] n) : Logged m [m] n where
  tracing := kept.tracing
  writable := by
    rw [List.filterMap_cons_none unlogged]
    exact kept.writable
  trace := by
    rw [List.filterMap_cons_none unlogged]
    exact kept.trace
  steps := by
    rw [List.filterMap_cons_none unlogged]
    exact kept.steps

theorem Logged.complete {entry : TraceEntry} (logged : m.entry? = some entry)
    (writable : entry.IsWritable) (kept : Logged m [] n)
    : Logged m [m] (complete (some entry) n) where
  tracing := kept.tracing
  writable := by
    rw [List.filterMap_cons_some logged]
    exact List.forall_mem_singleton.mpr writable
  trace := by
    rw [List.filterMap_cons_some logged]
    show (n.trace.push entry).toList = _
    rw [Array.toList_push, kept.trace, List.filterMap_nil, List.append_nil]
  steps := by
    rw [List.filterMap_cons_some logged]
    exact congrArg (· + 1) kept.steps

theorem enact_uncounted {cs : List Clause} (uncounted : ∀ entry, .act (.count entry) ∉ cs)
    : Logged m [] (enact cs m) := by
  fun_induction enact cs m with
  | case1 m => exact Logged.refl m
  | case2 action rest m ih =>
    have rest := ih fun entry mem => uncounted entry (List.mem_cons_of_mem _ mem)
    cases action with
    | count entry => exact absurd List.mem_cons_self (uncounted entry)
    | _ => exact ⟨rest.tracing, rest.writable, rest.trace, rest.steps⟩
  | case3 hazard rest m ih =>
    exact ih fun entry mem => uncounted entry (List.mem_cons_of_mem _ mem)

theorem logged_step (tracing : m.tracing = true) : Logged m [m] (endState m.step) := by
  by_cases start : 0 ≤ m.ip
  . cases stepped : m.step with
    | ok reason m' =>
      obtain ⟨instr, entry, inside, decoded, entered, noted, -, -, rfl⟩ :=
        instruction_of_step start stepped
      have next := instruction?_eq_some_iff.mpr ⟨inside, decoded, noted⟩
      rw [if_pos tracing] at entered
      have kept : Logged m [] (enact (m.view.clauses m.width instr.mode instr.opcode) m) :=
        enact_uncounted (m.view.uncounted_clauses _ _ _)
      show Logged m [m] (enact _ m)
      rw [enact_append]
      by_cases stalled : reason = some .needInput
      . rw [if_pos stalled]
        apply kept.skip
        unfold entry?
        rw [stepped, outcome]
        exact if_pos stalled
      . rw [if_neg stalled, entered]
        apply kept.complete _ (noted tracing)
        unfold entry?
        rw [stepped, outcome, next]
        exact if_neg stalled
    | error e m' =>
      obtain ⟨addrs, left⟩ := left_of_failed start stepped
      show Logged m [m] m'
      apply Logged.skip (entry?_of_failed stepped)
      rw [left]
      exact ⟨rfl, List.forall_mem_nil _, (List.append_nil _).symm, rfl⟩
  . have failed := step_of_neg (Int.not_le.mp start)
    rw [failed]
    exact Logged.skip (entry?_of_failed failed) (Logged.refl m)

theorem Trail.logged (trail : Trail m states n) (tracing : m.tracing = true)
    : Logged m states n := by
  induction trail with
  | nil m => exact Logged.refl m
  | cons _ ih =>
    have first := logged_step tracing
    exact first.trans (ih (first.tracing.trans tracing))

theorem logged_perform (tracing : m.tracing = true) (fuel : Nat) {op : Operation}
    (untouched : op.isTrace = false)
    : Logged m (op.visits fuel m) (endState (op.perform fuel m)) := by
  have refl := Logged.refl m
  have touch (addr : Int) (n : Machine) (h : Logged m [] n)
      : Logged m [] ((Action.touch addr).apply n) :=
    ⟨h.tracing, h.writable, h.trace, h.steps⟩
  have put (addr value : Int) : Logged m [] ((Action.put addr value).apply m) :=
    ⟨refl.tracing, refl.writable, refl.trace, refl.steps⟩
  cases op with
  | step => exact answer_ends (logged_step tracing) _
  | run => exact answer_ends ((trail_run fuel m).logged tracing) _
  | read addr => exact answer_ends (readCell_ends touch refl addr) _
  | write addr value =>
    exact answer_ends (writeCell_ends refl addr value fun _ => put addr value) fun _ => .done
  | resolveRead mode slot => exact answer_ends (resolveRead_ends touch refl mode slot) _
  | resolveWrite mode slot => exact answer_ends (resolveWrite_ends touch refl mode slot) _
  | dump start length perLine =>
    show Logged m [] (endState (dumped start length perLine m))
    rw [endState_dumped]
    exact refl
  | enableTrace | clearTrace | readTrace => contradiction
  | _ => exact ⟨refl.tracing, refl.writable, refl.trace, refl.steps⟩

theorem logged_drive (tracing : m.tracing = true) (fuel : Nat) {ops : List Operation}
    (untouched : ∀ op ∈ ops, op.isTrace = false)
    : Logged m (history fuel ops m) (drive fuel ops m).2 := by
  induction ops generalizing m with
  | nil => exact Logged.refl m
  | cons op ops ih =>
    rw [List.forall_mem_cons] at untouched
    have first := logged_perform tracing fuel untouched.1
    exact first.trans (ih (first.tracing.trans tracing) untouched.2)

/--
That a machine traces makes no difference to what becomes of it or to the answers that it gives, as
long as all numbers can be written. Its trace, if it is left alone, has as many entries as the
machine has counted steps, one for each instruction that was completed, and its text a line for each
entry, from which the entry can be read.
-/
theorem trace_exact (image : List Int) {config : Config} (proper : config.width.Proper)
    : load image { config with tracing := false }
        =
      (load image { config with tracing := true }).map untraced
      ∧ ∀ m, load image { config with tracing := true } = .ok m
        → ∀ (fuel : Nat) (ops : List Operation), (∀ op ∈ ops, op.isTrace = false)
          → let q := (drive fuel ops m).2
            ((∀ told ∈ (drive fuel ops m).1, told.2 ≠ .error .unwritable)
              → drive fuel ops m.untraced = ((drive fuel ops m).1, q.untraced))
              ∧ q.trace.toList = (history fuel ops m).filterMap entry?
              ∧ ∃ text, outcome (Operation.readTrace.perform fuel q) = .ok (.text text)
                ∧ List.Forall₂ TraceEntry.Reads ((history fuel ops m).filterMap entry?)
                    (Text.lines text.toList)
                ∧ (Text.lines text.toList).length = q.steps := by
  refine ⟨load_untraced image config, ?_⟩
  intro m loaded fuel ops untouched q
  have proper : Width.Proper { config with tracing := true : Config }.width := proper
  obtain ⟨fresh, -⟩ := (load_iff proper).mp loaded
  have tracing : m.tracing = true := congrArg Machine.tracing fresh
  have trace : m.trace = #[] := congrArg Machine.trace fresh
  have steps : m.steps = 0 := congrArg Machine.steps fresh
  have logged := logged_drive tracing fuel untouched
  have entries : q.trace.toList = (history fuel ops m).filterMap entry? := by
    rw [logged.trace, trace, List.nil_append]
  have writable := logged.writable
  rw [← entries] at writable
  have reads := TraceEntry.reads_renderAll writable
  rw [entries] at reads
  refine ⟨drive_untraced untouched, entries, _, rfl, reads, ?_⟩
  rw [← reads.length_eq, logged.steps, steps, Nat.zero_add]

theorem trace_exact_stalled
    : let image : List Int := [3, 5, 4, 5, 0]
      let config : Config := { width := .bits 8 }
      let m : Machine := { width := .bits 8, memory := .ofImage image, tracing := true }
      let ops : List Operation := [.run, .run, .push [7], .run, .run, .run]
      let q := (drive 9 ops m).2
      config.width.Proper ∧ load image { config with tracing := true } = .ok m
        ∧ q.steps = 2
        ∧ outcome (Operation.readTrace.perform 9 q)
          = .ok (.text "000000: IN     [5] rb=0\n000002: OUT    [5] rb=0")
        ∧ List.Forall₂ TraceEntry.Reads
            [{ ip := 0, opcode := .input, operands := [5], base := 0 },
              { ip := 2, opcode := .output, operands := [5], base := 0 }]
            ["000000: IN     [5] rb=0".toList, "000002: OUT    [5] rb=0".toList]
        ∧ (drive 9 ops m.untraced).2 = q.untraced := by
  intro image config m ops q
  have proper : config.width.Proper := by decide
  have loaded : load image { config with tracing := true } = .ok m := rfl
  obtain ⟨-, traced⟩ := trace_exact image proper
  obtain ⟨same, entries, text, told, reads, length⟩ := traced m loaded 9 ops (by decide)
  have written : ∀ told ∈ (drive 9 ops m).1, told.2 ≠ .error .unwritable := by decide +kernel
  have logged : (history 9 ops m).filterMap entry?
      = [{ ip := 0, opcode := .input, operands := [5], base := 0 },
        { ip := 2, opcode := .output, operands := [5], base := 0 }] := by
    decide +kernel
  have whole : outcome (Operation.readTrace.perform 9 q)
      = .ok (.text "000000: IN     [5] rb=0\n000002: OUT    [5] rb=0") := by
    decide +kernel
  cases told.symm.trans whole
  have lines : Text.lines "000000: IN     [5] rb=0\n000002: OUT    [5] rb=0".toList
      = ["000000: IN     [5] rb=0".toList, "000002: OUT    [5] rb=0".toList] := by
    decide +kernel
  rw [logged, lines] at reads
  rw [lines] at length
  exact ⟨proper, loaded, length.symm, whole, reads, congrArg Prod.snd (same written)⟩

end Machine

end Intcode
