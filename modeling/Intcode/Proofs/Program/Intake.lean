import Intcode.Proofs.Machine.Intake
import Intcode.Proofs.Memory.Padding
import Intcode.Proofs.Program.History
import Intcode.Proofs.Program.Lifetime

namespace Intcode.Program

open Machine

variable {fuel : Nat} {p p' q : Program}

theorem inputs_settle (name : String) (result : EStateM.Result Failure Machine StopReason)
    : (endState (settle name result)).machine.inputs = (endState result).inputs := by
  cases result with
  | ok reason m => cases reason <;> rfl
  | error e m => cases e <;> rfl

theorem isRefusal_of_isHazard {cause : Cause} {ip : Option Int} (h : cause.IsHazard)
    : (Reply.failed (.fault { cause, ip })).isRefusal = false := by
  cases cause with
  | alreadyHalted | faultedEarlier => contradiction
  | _ => rfl

theorem isRefusal_of_free (fuel : Nat) (ready : p.machine.Ready) (free : p.obstacle? = none)
    (inputs : List Int) : (Call.perform fuel (.next inputs) p).1.isRefusal = false := by
  simp only [Call.perform]
  cases nextOutput_cases free fuel inputs with
  | inr out =>
    obtain ⟨n, -, out⟩ := out
    rw [out]
    rfl
  | inl stopped =>
    obtain ⟨k, n, result, path, stops, settled⟩ := stopped
    rw [settled]
    cases result with
    | ok reason n' =>
      cases reason with
      | output =>
        simp only [settle, takeOutput]
        cases n'.pending <;> rfl
      | _ => rfl
    | error e n' =>
      have ready := path.ready (ready.push inputs)
      obtain rfl | ⟨cause, hazard, rfl⟩ := fault_of_step ready.start ready.proper stops
      . rfl
      . exact isRefusal_of_isHazard hazard

theorem inputs_of_perform (fuel : Nat) (ready : p.machine.Ready) (call : Call)
    : p.machine.inputs ++ (if (call.perform fuel p).1.isRefusal then [] else call.values)
        =
      (call.visits fuel p).filterMap intake? ++ (call.perform fuel p).2.machine.inputs := by
  cases free : p.obstacle? with
  | some fault =>
    obtain ⟨same, refused⟩ := perform_of_obstacle free fuel call
    rw [same, if_pos refused, List.append_nil]
    cases call with
    | feed values => rfl
    | next inputs => simp only [Call.visits, free, List.filterMap_nil, List.nil_append]
  | none =>
    cases call with
    | feed values =>
      rw [perform_feed_of_free free]
      rfl
    | next inputs =>
      have accepted := isRefusal_of_free fuel ready free inputs
      rw [accepted, perform_next, nextOutput_of_free free, inputs_settle]
      simp only [Call.visits, free]
      exact (trail_run fuel (p.machine.push inputs)).inputs (ready.push inputs)

theorem perform_ready (fuel : Nat) (ready : p.machine.Ready) (call : Call)
    : (call.perform fuel p).2.machine.Ready := by
  cases call with
  | feed values =>
    simp only [Call.perform, feed]
    cases p.obstacle? with
    | some fault => exact ready
    | none => exact ready.push values
  | next inputs =>
    rw [perform_next]
    exact nextOutput_ready inputs ready

theorem visits_ready (fuel : Nat) (ready : p.machine.Ready) (call : Call)
    : ∀ s ∈ call.visits fuel p, s.Ready := by
  cases call with
  | feed values => exact List.forall_mem_nil _
  | next inputs =>
    simp only [Call.visits]
    cases p.obstacle? with
    | some fault => exact List.forall_mem_nil _
    | none => exact (trail_run fuel _).all_ready (ready.push inputs)

theorem history_ready (fuel : Nat) (ready : p.machine.Ready) (calls : List Call)
    : ∀ s ∈ history fuel calls p, s.Ready := by
  induction calls generalizing p with
  | nil => exact List.forall_mem_nil _
  | cons call calls ih =>
    unfold history
    rw [List.forall_mem_append]
    exact ⟨visits_ready fuel ready call, ih (perform_ready fuel ready call)⟩

theorem ready_of_history {calls : List Call} {before later : List Machine} {s : Machine}
    (ready : p.machine.Ready) (h : history fuel calls p = before ++ s :: later) : s.Ready := by
  apply history_ready fuel ready calls
  rw [h]
  exact List.mem_append_right before List.mem_cons_self

theorem inputs_of_session (fuel : Nat) (ready : p.machine.Ready) (calls : List Call)
    : p.machine.inputs ++ accepted calls (session fuel calls p).1
        =
      (history fuel calls p).filterMap intake? ++ (session fuel calls p).2.machine.inputs := by
  induction calls generalizing p with
  | nil =>
    rw [accepted]
    exact List.append_nil _
  | cons call calls ih =>
    have first := inputs_of_perform fuel ready call
    have rest := ih (perform_ready fuel ready call)
    unfold history session
    rw [List.filterMap_append, List.append_assoc, ← rest, ← List.append_assoc, ← first,
      List.append_assoc]
    rfl

theorem failed_of_visits {call : Call} {before later : List Machine} {s s' : Machine} {e : Failure}
    (h : call.visits fuel p = before ++ s :: later) (failed : s.step = .error e s')
    : later = [] ∧ (call.perform fuel p).1 = .failed e
        ∧ ∀ fault, e = .fault fault → (call.perform fuel p).2.state = .faulted := by
  cases call with
  | feed values =>
    simp only [Call.visits] at h
    cases before <;> contradiction
  | next inputs =>
    cases free : p.obstacle? with
    | some fault =>
      simp only [Call.visits, free] at h
      cases before <;> contradiction
    | none =>
      simp only [Call.visits, free] at h
      obtain ⟨last, ran⟩ := run_of_visited_failed h failed
      simp only [Call.perform, nextOutput_of_free free, ran]
      refine ⟨last, ?_, ?_⟩
      . cases e <;> rfl
      . rintro fault rfl
        rfl

theorem faulted_of_history {calls : List Call} {before later : List Machine} {s s' : Machine}
    {fault : Fault} (h : history fuel calls p = before ++ s :: later)
    (failed : s.step = .error (.fault fault) s')
    : later = [] ∧ (session fuel calls p).2.state = .faulted := by
  induction calls generalizing p before with
  | nil => cases before <;> contradiction
  | cons call calls ih =>
    unfold history at h
    show _ ∧ (session fuel calls (call.perform fuel p).2).2.state = _
    cases List.append_eq_append_iff.mp h with
    | inl behind =>
      obtain ⟨before, -, h⟩ := behind
      exact ih h
    | inr within =>
      obtain ⟨states, visits, rest⟩ := within
      cases states with
      | nil =>
        rw [← List.nil_append (s :: later)] at rest
        exact ih rest.symm
      | cons _ states =>
        cases rest
        -- The call has left a program that the other calls do not resume.
        obtain ⟨last, -, ended⟩ := failed_of_visits visits failed
        have ended := ended fault rfl
        have obstacle : ∃ fault, (call.perform fuel p).2.obstacle? = some fault := by
          unfold obstacle?
          rw [ended]
          exact ⟨_, rfl⟩
        obtain ⟨fault, obstacle⟩ := obstacle
        rw [last, history_of_obstacle obstacle, session_of_obstacle obstacle]
        exact ⟨rfl, ended⟩

theorem completesInput_or_spills {s : Machine} {value : Int} (ready : s.Ready)
    (taken : s.intake? = some value)
    : s.completesInput = true
      ∨ (∃ e s', s.step = .error e s') ∧ s.view.Spills s.memory.size s.width := by
  cases stepped : s.step with
  | error e s' => exact .inr ⟨⟨e, s', rfl⟩, spills_of_step ready stepped taken⟩
  | ok reason s' =>
    obtain ⟨instr, next, reason, -⟩ := effect_of_step ready.start ready.proper stepped
    obtain ⟨instr', next', opcode, -, queue⟩ := intake?_eq_some_iff.mp taken
    cases next.symm.trans next'
    obtain ⟨rest, queue⟩ := List.head?_eq_some_iff.mp queue
    have queue : s.view.inputs = value :: rest := queue
    rw [opcode, View.reason, queue] at reason
    subst reason
    exact .inl (completesInput_iff.mpr ⟨instr, s', next, opcode, stepped⟩)

theorem taken_of_history {calls : List Call} {before later : List Machine} {s : Machine}
    {value : Int} (ready : p.machine.Ready) (h : history fuel calls p = before ++ s :: later)
    (taken : s.intake? = some value)
    : s.completesInput = true
      ∨ s.view.Spills s.memory.size s.width
        ∧ ((∃ s', s.step = .error .unwritable s')
          ∨ (∃ fault s', s.step = .error (.fault fault) s')
            ∧ later = [] ∧ (session fuel calls p).2.state = .faulted) := by
  have ready' := ready_of_history ready h
  cases completesInput_or_spills ready' taken with
  | inl completed => exact .inl completed
  | inr spilt =>
    obtain ⟨⟨e, s', failed⟩, spills⟩ := spilt
    obtain rfl | ⟨cause, -, rfl⟩ := fault_of_step ready'.start ready'.proper failed
    . exact .inr ⟨spills, .inl ⟨s', failed⟩⟩
    . exact .inr ⟨spills, .inr ⟨⟨_, s', failed⟩, faulted_of_history h failed⟩⟩

theorem length_of_completed {states : List Machine} (ready : ∀ s ∈ states, s.Ready)
    (completed : ∀ s ∈ states, ∀ value, s.intake? = some value → s.completesInput = true)
    : (states.filterMap intake?).length = (states.filter completesInput).length := by
  rw [List.length_filterMap_eq_countP, ← List.countP_eq_length_filter]
  apply List.countP_congr
  intro s mem
  constructor
  . intro taken
    obtain ⟨value, taken⟩ := Option.isSome_iff_exists.mp taken
    exact completed s mem value taken
  . intro stored
    obtain ⟨instr, s', next, opcode, stepped⟩ := completesInput_iff.mp stored
    obtain ⟨value, taken, -⟩ := store_of_input (ready s mem) next opcode stepped
    rw [taken]
    rfl

def Written (states : List Machine) : Prop :=
  ∀ s ∈ states, ∀ s', s.step ≠ .error .unwritable s'

theorem length_of_history {calls : List Call} {before later : List Machine} {s : Machine}
    (ready : p.machine.Ready) (h : history fuel calls p = before ++ s :: later)
    (written : Written (history fuel calls p))
    : (before.filterMap intake?).length = (before.filter completesInput).length := by
  rw [h] at written
  apply length_of_completed
  . intro r mem
    apply history_ready fuel ready calls
    rw [h]
    exact List.mem_append_left _ mem
  . -- Nothing is visited after a value is lost, but `s` is.
    intro r mem value taken
    have named := written r (List.mem_append_left _ mem)
    obtain ⟨first, others, rfl⟩ := List.append_of_mem mem
    rw [List.append_assoc, List.cons_append] at h
    obtain completed | ⟨-, ⟨s', unwritten⟩ | ⟨-, last, -⟩⟩ := taken_of_history ready h taken
    . exact completed
    . exact absurd unwritten (named s')
    . have := congrArg List.length last
      simp at this

theorem length_of_visits {call : Call} (ready : p.machine.Ready)
    (unfailed : ∀ e, (call.perform fuel p).1 = .failed e
      → ∃ ip, e = .fault { cause := .inputExhausted, ip })
    : ((call.visits fuel p).filterMap intake?).length
        =
      ((call.visits fuel p).filter completesInput).length := by
  apply length_of_completed (visits_ready fuel ready call)
  intro s mem value taken
  have ready' := visits_ready fuel ready call s mem
  obtain ⟨before, later, visits⟩ := List.append_of_mem mem
  cases completesInput_or_spills ready' taken with
  | inl completed => exact completed
  | inr spilt =>
    obtain ⟨⟨e, s', failed⟩, -⟩ := spilt
    obtain ⟨-, replied, -⟩ := failed_of_visits visits failed
    obtain ⟨ip, rfl⟩ := unfailed e replied
    obtain absurd | ⟨cause, hazard, same⟩ := fault_of_step ready'.start ready'.proper failed
    . contradiction
    . cases same
      exact hazard.elim

theorem stored_of_history {calls : List Call} {before later : List Machine} {s : Machine}
    (ready : p.machine.Ready) (h : history fuel calls p = before ++ s :: later)
    (completed : s.completesInput = true)
    : ∃ instr value, s.instruction? = some instr
        ∧ ((history fuel calls p).filterMap intake?)[(before.filterMap intake?).length]? = some value
        ∧ (endState s.step).memory.peek
            = Function.update s.memory.peek (s.view.location instr.mode 0) value := by
  obtain ⟨instr, s', next, opcode, stepped⟩ := completesInput_iff.mp completed
  obtain ⟨value, taken, -, stored⟩ := store_of_input (ready_of_history ready h) next opcode stepped
  refine ⟨instr, value, next, ?_, ?_⟩
  . rw [h, List.filterMap_append, List.filterMap_cons_some taken,
      List.getElem?_append_right (Nat.le_refl _), Nat.sub_self]
    rfl
  . rw [stepped]
    exact stored

theorem ready_of_load {image inputs : List Int} {config : Config} {name : String}
    (proper : config.width.Proper) (loaded : load image inputs config name = .ok p)
    : p.machine.Ready ∧ p.machine.inputs = inputs := by
  obtain ⟨m, fresh, rfl⟩ := load_iff.mp loaded
  refine ⟨(Machine.ready_of_load proper fresh).push inputs, ?_⟩
  show m.inputs ++ inputs = inputs
  rw [((Machine.load_iff proper).mp fresh).1]
  rfl

theorem starved_of_visits (ready : p.machine.Ready) (fuel : Nat) (inputs : List Int)
    : ((Call.next inputs).visits fuel p).countP isStarved
        =
      match outcome (p.nextOutput fuel inputs) with
      | .error (.fault { cause := .inputExhausted, .. }) => 1
      | _ => 0 := by
  simp only [Call.visits]
  cases free : p.obstacle? with
  | some fault =>
    have refused : p.nextOutput fuel inputs = .error fault p := by
      unfold Program.nextOutput
      rw [free]
    rw [refused]
    unfold obstacle? at free
    split at free
    . cases free
      rfl
    . cases free
      rfl
    . contradiction
  | none =>
    rw [nextOutput_of_free free]
    dsimp only
    rw [countP_isStarved_visited]
    have ready := ready.push inputs
    cases ran : run fuel (p.machine.push inputs) with
    | ok reason n =>
      cases reason with
      | output =>
        unfold settle
        rfl
      | halt | needInput => rfl
    | error e n =>
      cases run_cases fuel (p.machine.push inputs) with
      | inl stopped =>
        obtain ⟨k, m, -, path, stops⟩ := stopped
        have ready := path.ready ready
        rw [ran] at stops
        obtain rfl | ⟨cause, hazard, rfl⟩ := fault_of_step ready.start ready.proper stops
        . rfl
        . cases cause with
          | inputExhausted => exact hazard.elim
          | _ => rfl
      | inr out =>
        obtain ⟨m, -, out⟩ := out
        rw [ran] at out
        cases out
        rfl

def Dry (p : Program) : Prop :=
  p.machine.inputs = [] ∨ p.state = .awaitingInput ∧ ∃ value, p.machine.inputs = [value]

theorem inputs_of_nextOutput (ready : p.machine.Ready) (fuel : Nat)
    : p.machine.inputs
        =
      ((Call.next []).visits fuel p).filterMap intake?
        ++ (endState (p.nextOutput fuel [])).machine.inputs := by
  have conserved := inputs_of_perform fuel ready (.next [])
  rw [perform_next] at conserved
  simpa [Call.values] using conserved

theorem instruction?_of_awaiting (h : p.Coherent) (awaiting : p.state = .awaitingInput)
    : ∃ instr, p.machine.instruction? = some instr ∧ instr.opcode = .input
        ∧ instr.mode 0 ≠ .immediate := by
  obtain ⟨instr, decoded, opcode, direct⟩ := h.awaiting awaiting
  -- Behind the end of the memory there are zeros, which are no instructions.
  have inside : ¬ p.machine.memory.size ≤ p.machine.ip := by
    intro outside
    have zero : p.machine.memory.peek p.machine.ip = 0 := Memory.peek_of_size_le outside
    rw [zero] at decoded
    contradiction
  have next : p.machine.view.instruction? p.machine.memory.size = some instr := by
    have decoded : Instruction.decode (p.machine.view.cell p.machine.view.ip) = .ok instr := decoded
    unfold View.instruction?
    rw [if_neg (show ¬ p.machine.memory.size ≤ p.machine.view.ip from inside), decoded]
    rfl
  exact ⟨instr, instruction?_of_view next (h.recordable awaiting), opcode, direct⟩

theorem intake?_of_awaiting {value : Int} {rest : List Int} (h : p.Coherent)
    (awaiting : p.state = .awaitingInput) (queue : p.machine.inputs = value :: rest)
    : p.machine.intake? = some value := by
  obtain ⟨instr, next, opcode, direct⟩ := instruction?_of_awaiting h awaiting
  exact intake?_eq_some_iff.mpr ⟨instr, next, opcode, direct, by rw [queue, List.head?_cons]⟩

theorem nextOutput_of_awaiting (h : p.Coherent) (awaiting : p.state = .awaitingInput)
    (empty : p.machine.inputs = []) (fuel : Nat)
    : p.nextOutput (fuel + 1) []
        =
      .error (.fault { cause := .inputExhausted, ip := some p.machine.ip }) p := by
  obtain ⟨instr, next, opcode, direct⟩ := instruction?_of_awaiting h awaiting
  have stalled := needInput_of_empty h.ready.start next opcode direct empty
  have free : p.obstacle? = none := by
    unfold obstacle?
    rw [awaiting]
  rw [nextOutput_of_free free, push_nil, run]
  simp only [stalled]
  unfold settle
  rw [← awaiting]

theorem visits_next {inputs : List Int} (free : p.obstacle? = none)
    (returned : ∀ p', p.nextOutput fuel inputs ≠ .error .outOfFuel p')
    : ∃ later, (Call.next inputs).visits fuel p = p.machine.push inputs :: later := by
  simp only [Call.visits, free]
  cases fuel with
  | zero =>
    rw [nextOutput_of_free free] at returned
    exact absurd rfl (returned _)
  | succ fuel =>
    unfold visited
    split
    . exact ⟨_, rfl⟩
    . exact ⟨_, rfl⟩

theorem Dry.inputs_of_nextOutput (dry : p.Dry) (h : p.Coherent)
    (returned : ∀ p', p.nextOutput fuel [] ≠ .error .outOfFuel p')
    : (endState (p.nextOutput fuel [])).machine.inputs = [] := by
  have conserved := Program.inputs_of_nextOutput h.ready fuel
  obtain empty | ⟨awaiting, value, queue⟩ := dry
  . rw [empty] at conserved
    exact (List.append_eq_nil_iff.mp conserved.symm).2
  . -- The first step takes the only value there is.
    have free : p.obstacle? = none := by
      unfold obstacle?
      rw [awaiting]
    obtain ⟨later, visits⟩ := visits_next free returned
    rw [push_nil] at visits
    rw [visits, List.filterMap_cons_some (intake?_of_awaiting h awaiting queue), queue] at conserved
    injection conserved with _ conserved
    exact (List.append_eq_nil_iff.mp conserved.symm).2

/--
Whatever a caller does with a program, the values that it has accepted are those that its inputs
have taken and then those that are still in the queue. An input that is completed stores the one
that it has taken, and an input that finds none leaves everything as it is. A value gets lost where
an input has taken it and cannot store it: it is the last one if the fault can be put into words,
which ends the program. If all faults can, the inputs that are completed store the values one by
one.
-/
theorem inputs_in_order {image inputs : List Int} {config : Config} {name : String}
    (proper : config.width.Proper) (loaded : load image inputs config name = .ok p) (fuel : Nat)
    (uses : List Use)
    : let calls := Use.allCalls fuel uses p
      let states := history fuel calls p
      let given := inputs ++ accepted calls (session fuel calls p).1
      let q := Use.performAll fuel uses p
      (session fuel calls p).2 = q
      ∧ given = states.filterMap intake? ++ q.machine.inputs
      ∧ (∀ (before later : List Machine) (s : Machine),
        states = before ++ s :: later → s.completesInput = true
          → ∃ instr value, s.instruction? = some instr
            ∧ given[(before.filterMap intake?).length]? = some value
            ∧ (endState s.step).memory.peek
                = Function.update s.memory.peek (s.view.location instr.mode 0) value)
      ∧ (Written states → ∀ (before later : List Machine) (s : Machine),
        states = before ++ s :: later
          → (before.filterMap intake?).length = (before.filter completesInput).length)
      ∧ (∀ s ∈ states, ∀ s', s.step = .ok (some .needInput) s' → s.intake? = none ∧ s' = s)
      ∧ ∀ (before later : List Machine) (s : Machine) (value : Int),
        states = before ++ s :: later → s.intake? = some value
          → s.completesInput = true
            ∨ s.view.Spills s.memory.size s.width
              ∧ ((∃ s', s.step = .error .unwritable s')
                ∨ (∃ fault s', s.step = .error (.fault fault) s')
                  ∧ later = [] ∧ q.state = .faulted) := by
  intro calls states given q
  obtain ⟨ready, unfed⟩ := ready_of_load proper loaded
  have same : (session fuel calls p).2 = q := session_allCalls uses
  have conserved : given = states.filterMap intake? ++ q.machine.inputs := by
    rw [← same, ← inputs_of_session fuel ready calls, unfed]
  refine ⟨same, conserved, ?_, ?_, ?_, ?_⟩
  . intro before later s visited completed
    obtain ⟨instr, value, next, taken, stored⟩ := stored_of_history ready visited completed
    refine ⟨instr, value, next, ?_, stored⟩
    rw [conserved, List.getElem?_append_left (List.getElem?_eq_some_iff.mp taken).1]
    exact taken
  . intro written before later s visited
    exact length_of_history ready visited written
  . intro s mem s' stalled
    exact intake?_of_needInput (history_ready fuel ready calls s mem).start stalled
  . intro before later s value visited taken
    rw [← same]
    exact taken_of_history ready visited taken

theorem inputs_in_order_spilled
    : let image := [3, 5, 203, -1, 99, 0]
      let config : Config := { width := .bits 12 }
      let p : Program := { name := "p", machine := { width := .bits 12, memory := .ofImage image } }
      let uses : List Use := [.next [], .feed [7], .drain [8, 9], .feed [1]]
      let states := history 9 (Use.allCalls 9 uses p) p
      let q := Use.performAll 9 uses p
      config.width.Proper ∧ load image [] config "p" = .ok p
        ∧ [7, 8, 9] = states.filterMap intake? ++ q.machine.inputs
        ∧ q.machine.inputs = [9] ∧ q.state = .faulted
        ∧ ∃ s ∈ states, s.intake? = some 8 ∧ s.view.Spills s.memory.size s.width := by
  intro image config p uses states q
  have proper : config.width.Proper := by decide
  have loaded : load image [] config "p" = .ok p := rfl
  obtain ⟨-, conserved, -, -, -, lost⟩ := inputs_in_order proper loaded 9 uses
  have given
      : accepted (Use.allCalls 9 uses p) (session 9 (Use.allCalls 9 uses p) p).1 = [7, 8, 9] := by
    decide +kernel
  have left : q.machine.inputs = [9] := by decide +kernel
  have third : states[2]?.map (fun s => (s.intake?, s.completesInput)) = some (some 8, false) := by
    decide +kernel
  obtain ⟨s, here, third⟩ := Option.map_eq_some_iff.mp third
  obtain ⟨taken, uncompleted⟩ := Prod.mk.inj third
  obtain ⟨inside, here⟩ := List.getElem?_eq_some_iff.mp here
  have visited : states = states.take 2 ++ s :: states.drop 3 := by
    rw [← here, ← List.drop_eq_getElem_cons inside, List.take_append_drop]
  rw [List.nil_append, given] at conserved
  have ended : q.state = .faulted := by decide +kernel
  obtain completed | ⟨spills, -⟩ := lost _ _ _ _ visited taken
  . rw [uncompleted] at completed
    contradiction
  . have mem : s ∈ states := here ▸ List.getElem_mem inside
    exact ⟨proper, loaded, conserved, left, ended, s, mem, taken, spills⟩

theorem inputs_of_long_address
    : let image := [2, 7, 8, 5, 3, 0, 99, 10 ^ 4000, -10 ^ 4000]
      let m : Machine := { width := .unbounded, memory := .ofImage image, inputs := [1, 2] }
      let p : Program := { name := "p", machine := m }
      let calls : List Call := [.next [], .next []]
      let q := (session 3 calls p).2
      load image [1, 2] {} "p" = .ok p
        ∧ (session 3 calls p).1 = [.failed .unwritable, .failed .unwritable]
        ∧ (history 3 calls p).filterMap intake? = [1, 2]
        ∧ (history 3 calls p).countP completesInput = 0
        ∧ q.state = .running ∧ q.machine.inputs = [] := by
  decide +kernel

end Intcode.Program
