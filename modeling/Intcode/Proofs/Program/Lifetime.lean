import Intcode.Proofs.Machine.Abort
import Intcode.Proofs.Machine.Stop
import Intcode.Proofs.Program.Session

/-!
Lifetimes: the states that a program goes through, and what its machine is like in each of them.
-/
namespace Intcode

namespace Machine

variable {m m' : Machine}

theorem Path.pending {k : Nat} (path : Path k m m') (ready : m.Ready)
    : m'.pending = m.pending := by
  induction path with
  | refl m => rfl
  | cons stepped _ ih =>
    have moved := step_ends_ready ready
    rw [stepped] at moved
    rw [ih moved, pending_of_step ready.start stepped]

theorem pending_of_error {e : Failure} (ready : m.Ready) (failed : m.step = .error e m')
    : m'.pending = m.pending := by
  obtain ⟨addrs, left⟩ := left_of_failed ready.start failed
  rw [left]

end Machine

namespace Program

open Machine

/-- What the state of a program says of its machine between two calls. -/
structure Coherent (p : Program) : Prop where
  ready : p.machine.Ready
  taken : p.machine.pending = none
  halted : p.state = .halted
    → ∃ instr, Instruction.decode (p.machine.memory.peek p.machine.ip) = .ok instr
        ∧ instr.opcode = .halt
  awaiting : p.state = .awaitingInput
    → ∃ instr, Instruction.decode (p.machine.memory.peek p.machine.ip) = .ok instr
        ∧ instr.opcode = .input ∧ instr.mode 0 ≠ .immediate
  recordable : p.state = .awaitingInput → ¬ p.machine.Unrecordable
  suspended : p.state = .suspended
    → ∃ instr, Instruction.decode (p.machine.memory.peek (p.machine.ip - 2)) = .ok instr
        ∧ instr.opcode = .output

inductive Reply.Leaves : Reply → ProgramState → Prop where
  | suspended (value : Int) : Leaves (.gave value) .suspended
  | halted : Leaves .ended .halted
  | awaiting (ip : Option Int)
    : Leaves (.failed (.fault { cause := .inputExhausted, ip })) .awaitingInput
  | faulted {fault : Fault}
    : fault.cause ≠ .inputExhausted → Leaves (.failed (.fault fault)) .faulted
  | unwritten : Leaves (.failed .unwritable) .running

theorem Reply.Leaves.eq_iff {reply : Reply} {state : ProgramState} (h : reply.Leaves state)
    (state' : ProgramState) : state = state' ↔ reply.Leaves state' := by
  constructor
  . rintro rfl
    exact h
  . intro h'
    cases h with
    | suspended value =>
      cases h'
      rfl
    | halted =>
      cases h'
      rfl
    | awaiting ip =>
      cases h' with
      | awaiting _ => rfl
      | faulted other => exact absurd rfl other
    | faulted other =>
      cases h' with
      | awaiting _ => exact absurd rfl other
      | faulted _ => rfl
    | unwritten =>
      cases h'
      rfl

theorem Reply.Leaves.running_iff {reply : Reply} {state : ProgramState} (h : reply.Leaves state)
    : state = .running ↔ reply = .failed .unwritable := by
  cases h with
  | unwritten => simp
  | _ => simp

variable {fuel : Nat} {p p' : Program}

theorem Coherent.push (h : p.Coherent) (values : List Int)
    : Coherent { p with machine := p.machine.push values } :=
  ⟨h.ready.push values, h.taken, h.halted, h.awaiting, h.recordable, h.suspended⟩

theorem coherent_of_load {image inputs : List Int} {config : Config} {name : String}
    (proper : config.width.Proper) (loaded : load image inputs config name = .ok p)
    : p.Coherent := by
  obtain ⟨m, fresh, rfl⟩ := load_iff.mp loaded
  refine ⟨(ready_of_load proper fresh).push inputs, ?_, nofun, nofun, nofun, nofun⟩
  show m.pending = none
  rw [((Machine.load_iff proper).mp fresh).1]

theorem settle_coherent {m : Machine} {name : String} {reply : Reply}
    {result : EStateM.Result Failure Machine StopReason} (ready : m.Ready)
    (taken : m.pending = none) (stops : Stops m result)
    (settled : Reply.ofResult (settle name result) = (reply, p'))
    : p'.Coherent ∧ reply.Leaves p'.state
      ∧ (p'.state = .awaitingInput → p'.machine.inputs = []) := by
  have ready' := settle_ready name (stops.ready ready)
  cases result with
  | ok reason m' =>
    cases reason with
    | output =>
      obtain ⟨instr, decoded, opcode, view, pending⟩ := emitted_of_output ready.start stops
      simp only [settle, takeOutput, pending] at settled
      cases settled
      refine ⟨⟨ready', rfl, nofun, nofun, nofun, ?_⟩, .suspended _, nofun⟩
      intro _
      refine ⟨instr, ?_, opcode⟩
      -- The output has left the memory alone and gone on by the width of its instruction.
      have ip : m'.ip = m.view.ip + 2 := congrArg View.ip view
      have cells : m'.memory.peek = m.view.cell := congrArg View.cell view
      show Instruction.decode (m'.memory.peek (m'.ip - 2)) = _
      rw [ip, cells, Int.add_sub_cancel]
      exact decoded
    | halt =>
      obtain ⟨instr, decoded, opcode, view, pending⟩ := view_of_halt ready.start stops
      cases settled
      refine ⟨⟨ready', pending.trans taken, ?_, nofun, nofun, nofun⟩, .halted, nofun⟩
      intro _
      rw [← view] at decoded
      exact ⟨instr, decoded, opcode⟩
    | needInput =>
      obtain ⟨empty, instr, decoded, opcode, direct⟩ := starved_of_needInput ready.start stops
      have same : m' = m := eq_of_needInput ready.start stops
      subst same
      cases settled
      have recordable : ¬ m'.Unrecordable := by
        intro unrecordable
        have stops : m'.step = .ok (some .needInput) m' := stops
        rw [step_of_unrecordable ready.start unrecordable] at stops
        contradiction
      exact ⟨⟨ready', taken, nofun, fun _ => ⟨instr, decoded, opcode, direct⟩,
        fun _ => recordable, nofun⟩, .awaiting _, fun _ => empty⟩
  | error e m' =>
    have pending := pending_of_error ready stops
    obtain rfl | ⟨cause, hazard, rfl⟩ := fault_of_step ready.start ready.proper stops
    . cases settled
      exact ⟨⟨ready', pending.trans taken, nofun, nofun, nofun, nofun⟩, .unwritten, nofun⟩
    . cases settled
      refine ⟨⟨ready', pending.trans taken, nofun, nofun, nofun, nofun⟩, .faulted ?_, nofun⟩
      rintro rfl
      exact hazard

theorem nextOutput_coherent {inputs : List Int} {reply : Reply} (h : p.Coherent)
    (free : p.obstacle? = none) (called : Reply.ofResult (p.nextOutput fuel inputs) = (reply, p'))
    (returned : reply ≠ .failed .outOfFuel)
    : p'.Coherent ∧ reply.Leaves p'.state
      ∧ (p'.state = .awaitingInput → p'.machine.inputs = []) := by
  have ready := h.ready.push inputs
  cases nextOutput_cases free fuel inputs with
  | inl stopped =>
    obtain ⟨k, n, result, path, stops, settled⟩ := stopped
    rw [settled] at called
    exact settle_coherent (path.ready ready) ((path.pending ready).trans h.taken) stops called
  | inr out =>
    obtain ⟨n, -, out⟩ := out
    rw [out] at called
    cases called
    contradiction

theorem nextOutput_keeps_coherent (fuel : Nat) (inputs : List Int) (p : Program) (h : p.Coherent)
    : (endState (p.nextOutput fuel inputs)).Coherent := by
  cases free : p.obstacle? with
  | some fault =>
    unfold nextOutput
    rw [free]
    exact h
  | none =>
    have ready := h.ready.push inputs
    cases nextOutput_cases free fuel inputs with
    | inl stopped =>
      obtain ⟨k, n, result, path, stops, settled⟩ := stopped
      have taken := (path.pending ready).trans h.taken
      rw [settled, ← Reply.snd_ofResult]
      exact (settle_coherent (path.ready ready) taken stops rfl).1
    | inr out =>
      obtain ⟨n, path, out⟩ := out
      rw [out]
      exact ⟨path.ready ready, (path.pending ready).trans h.taken, nofun, nofun, nofun, nofun⟩

theorem Coherent.record {p : Program} (h : p.Coherent) (event : Event)
    : Coherent { p with machine := p.machine.record event } :=
  ⟨⟨h.ready.start, h.ready.proper⟩, h.taken, h.halted, h.awaiting, h.recordable, h.suspended⟩

theorem Coherent.collect {p : Program} (h : p.Coherent) : p.collect.2.Coherent :=
  ⟨h.ready.collect, h.taken, h.halted, h.awaiting, h.recordable, h.suspended⟩

theorem awaiting_of_nextOutput {inputs : List Int} {ip : Option Int} (h : p.Coherent)
    (stalled : p.nextOutput fuel inputs = .error (.fault { cause := .inputExhausted, ip }) p')
    : p'.state = .awaitingInput ∧ p'.machine.inputs = [] ∧ ip = some p'.machine.ip := by
  have ready := h.ready.push inputs
  cases nextOutput_cases (free_of_exhausted stalled) fuel inputs with
  | inr out =>
    obtain ⟨n, -, out⟩ := out
    rw [out] at stalled
    cases stalled
  | inl stopped =>
    obtain ⟨k, n, result, path, stops, settled⟩ := stopped
    have ready := path.ready ready
    rw [settled] at stalled
    cases result with
    | ok reason n' =>
      cases reason with
      | output | halt => cases stalled
      | needInput =>
        have same : n' = n := eq_of_needInput ready.start stops
        subst same
        cases stalled
        exact ⟨rfl, (starved_of_needInput ready.start stops).1, rfl⟩
    | error e n' =>
      obtain rfl | ⟨cause, hazard, rfl⟩ := fault_of_step ready.start ready.proper stops
      . cases stalled
      . cases stalled
        exact hazard.elim

theorem halted_of_nextOutput {inputs : List Int} (h : p.Coherent)
    (ended : p.nextOutput fuel inputs = .ok none p') : p'.state = .halted := by
  have called : Reply.ofResult (p.nextOutput fuel inputs) = (.ended, p') :=
    congrArg Reply.ofResult ended
  have leaves := (nextOutput_coherent h (free_of_nextOutput ended) called Reply.noConfusion).2.1
  exact (leaves.eq_iff .halted).mpr .halted

def resumptions (calls : List Call) (replies : List Reply) : List Reply :=
  (calls.zip replies).filterMap fun
    | (.next _, reply) => some reply
    | (.feed _, _) => none

def Unsettled (replies : List Reply) : Prop :=
  ∀ reply ∈ replies.getLast?, reply = .failed .unwritable

theorem perform_coherent {call : Call} {reply : Reply} (h : p.Coherent)
    (called : call.perform fuel p = (reply, p')) (returned : reply ≠ .failed .outOfFuel)
    : p'.Coherent
      ∧ (p'.state = .running
        ↔ Unsettled (resumptions [call] [reply])
          ∧ (resumptions [call] [reply] = [] → p.state = .running)) := by
  cases free : p.obstacle? with
  | some fault =>
    rw [(perform_of_obstacle free fuel call).1] at called
    cases called
    have ended : p.state ≠ .running := by
      intro running
      rw [obstacle?, running] at free
      contradiction
    cases call with
    | feed values => exact ⟨h, by simp [resumptions, Unsettled]⟩
    | next inputs => exact ⟨h, by simp [resumptions, Unsettled, ended]⟩
  | none =>
    cases call with
    | feed values =>
      rw [perform_feed_of_free free] at called
      cases called
      exact ⟨h.push values, by simp [resumptions, Unsettled]⟩
    | next inputs =>
      obtain ⟨h, leaves, -⟩ := nextOutput_coherent h free called returned
      exact ⟨h, by simp [resumptions, Unsettled, leaves.running_iff]⟩

theorem resumptions_cons (call : Call) (calls : List Call) (reply : Reply) (replies : List Reply)
    : resumptions (call :: calls) (reply :: replies)
        = resumptions [call] [reply] ++ resumptions calls replies :=
  List.filterMap_append (l := [(call, reply)])

theorem session_coherent {calls : List Call} {replies : List Reply} (h : p.Coherent)
    (driven : session fuel calls p = (replies, p')) (returned : .failed .outOfFuel ∉ replies)
    : p'.Coherent
      ∧ (p'.state = .running
        ↔ Unsettled (resumptions calls replies)
          ∧ (resumptions calls replies = [] → p.state = .running)) := by
  induction calls generalizing p replies with
  | nil =>
    cases driven
    exact ⟨h, by simp [resumptions, Unsettled]⟩
  | cons call calls ih =>
    obtain ⟨reply, p₁, replies', called, driven', rfl⟩ := session_cons driven
    rw [List.mem_cons, not_or] at returned
    obtain ⟨h, running⟩ := perform_coherent h called (Ne.symm returned.1)
    obtain ⟨h, running'⟩ := ih h driven' returned.2
    refine ⟨h, ?_⟩
    rw [running', running, resumptions_cons call calls]
    -- Only the last of the replies counts.
    cases later : resumptions calls replies' with
    | nil => simp [Unsettled]
    | cons first rest =>
      simp [Unsettled]

theorem returns_or_goes_on (h : p.Coherent) (free : p.obstacle? = none) (inputs : List Int)
    : (∃ fuel, (Call.perform fuel (.next inputs) p).1 ≠ .failed .outOfFuel)
      ∨ ∀ k, ∃ n, Path k (p.machine.push inputs) n := by
  by_cases returns : ∃ fuel, (Call.perform fuel (.next inputs) p).1 ≠ .failed .outOfFuel
  . exact .inl returns
  . apply Or.inr
    intro k
    cases nextOutput_cases free k inputs with
    | inr out =>
      obtain ⟨n, path, -⟩ := out
      exact ⟨n, path⟩
    | inl stopped =>
      -- A machine that stops leaves the program in some state, so the call returns.
      obtain ⟨j, n, result, path, stops, settled⟩ := stopped
      have ready := h.ready.push inputs
      have taken := (path.pending ready).trans h.taken
      cases replied : Reply.ofResult (settle p.name result) with
      | mk reply p' =>
        obtain ⟨-, leaves, -⟩ := settle_coherent (path.ready ready) taken stops replied
        apply absurd ⟨k, ?_⟩ returns
        simp only [Call.perform, settled, replied]
        rintro rfl
        cases leaves

/--
A program is running until it is resumed for the first time, and from then on what it last replied
is the state that it is in; it is running again after a fault that could not be put into words.
Nothing gets a program out of its end. How much fuel there was makes no difference to a call that
has returned, and one that does not return with any goes on forever.
-/
theorem session_lifetime {image inputs : List Int} {config : Config} {name : String}
    {calls : List Call} {replies : List Reply} {q : Program} (proper : config.width.Proper)
    (loaded : load image inputs config name = .ok p) (driven : session fuel calls p = (replies, q))
    (returned : .failed .outOfFuel ∉ replies)
    : (∀ fuel' ≥ fuel, session fuel' calls p = (replies, q))
      ∧ q.Coherent
      ∧ (q.state = .running ↔ Unsettled (resumptions calls replies))
      ∧ (q.state ≠ .halted → q.state ≠ .faulted
        → (∀ fuel values, Call.perform fuel (.feed values) q
            = (.fed, { q with machine := q.machine.push values }))
          ∧ (∀ fuel inputs reply q', Call.perform fuel (.next inputs) q = (reply, q')
              → reply ≠ .failed .outOfFuel
              → (∀ state, q'.state = state ↔ reply.Leaves state)
                ∧ (q'.state = .awaitingInput → q'.machine.inputs = []))
          ∧ ∀ inputs, (∃ fuel, (Call.perform fuel (.next inputs) q).1 ≠ .failed .outOfFuel)
              ∨ ∀ k, ∃ n, Path k (q.machine.push inputs) n)
      ∧ (q.state = .halted → ∀ fuel later, session fuel later q
        = (later.map fun _ =>
            .failed (.fault { cause := .alreadyHalted q.name, ip := some q.machine.ip }), q))
      ∧ (q.state = .faulted → ∀ fuel later, session fuel later q
        = (later.map fun _ =>
            .failed (.fault { cause := .faultedEarlier q.name, ip := some q.machine.ip }), q)) := by
  obtain ⟨h, running⟩ := session_coherent (coherent_of_load proper loaded) driven returned
  obtain ⟨m, -, rfl⟩ := load_iff.mp loaded
  refine ⟨?_, h, ?_, ?_, ?_, ?_⟩
  . intro fuel' more
    rw [← driven]
    apply session_mono more
    rw [driven]
    exact returned
  . simpa using running
  . intro going going'
    have free := obstacle?_eq_none_iff.mpr ⟨going, going'⟩
    refine ⟨perform_feed_of_free free, ?_, returns_or_goes_on h free⟩
    intro fuel inputs reply q' called returned
    obtain ⟨-, leaves, empty⟩ := nextOutput_coherent h free called returned
    exact ⟨leaves.eq_iff, empty⟩
  . intro halted fuel later
    apply session_of_obstacle
    rw [obstacle?, halted]
  . intro faulted fuel later
    apply session_of_obstacle
    rw [obstacle?, faulted]

theorem session_lifetime_echo
    : let image := [3, 9, 4, 9, 99]
      let config : Config := { width := .bits 12 }
      let calls : List Call := [.next [], .feed [5], .next [], .next []]
      let p : Program := { name := "p", machine := { width := .bits 12, memory := .ofImage image } }
      let replies : List Reply :=
        [.failed (.fault { cause := .inputExhausted, ip := some 0 }), .fed, .gave 5, .ended]
      let refusal : Reply := .failed (.fault { cause := .alreadyHalted "p", ip := some 4 })
      config.width.Proper ∧ load image [] config "p" = .ok p ∧ .failed .outOfFuel ∉ replies
        ∧ ∃ q, session 3 calls p = (replies, q) ∧ q.Coherent ∧ q.state ≠ .running
            ∧ session 0 [.feed [1], .next [2]] q = ([refusal, refusal], q) := by
  intro image config calls p replies refusal
  have proper : config.width.Proper := by decide
  have loaded : load image [] config "p" = .ok p := rfl
  have replied : (session 3 calls p).1 = replies := by decide +kernel
  have driven : session 3 calls p = (replies, (session 3 calls p).2) := Prod.ext replied rfl
  have returned : .failed .outOfFuel ∉ replies := by decide
  obtain ⟨-, coherent, running, -, halted, -⟩ := session_lifetime proper loaded driven returned
  have ended : (session 3 calls p).2.state = .halted := by decide +kernel
  have there : (session 3 calls p).2.machine.ip = 4 := by decide +kernel
  have named : (session 3 calls p).2.name = "p" := by decide +kernel
  refine ⟨proper, loaded, returned, _, driven, coherent, ?_, ?_⟩
  . rw [ended]
    decide
  . rw [halted ended 0 [.feed [1], .next [2]], there, named]
    rfl

theorem session_long_word
    : let image := [2, 5, 5, 4, 99, 10 ^ 4000]
      let p : Program := { name := "p", machine := { width := .unbounded, memory := .ofImage image } }
      let q := (session 3 [.next []] p).2
      load image [] {} "p" = .ok p
        ∧ (session 3 [.next []] p).1 = [.failed .unwritable]
        ∧ Instruction.decode (q.machine.memory.peek q.machine.ip)
          = .error (.unknownOpcode 0 (10 ^ 8000))
        ∧ q.state = .running
        ∧ (session 3 [.next []] q).1 = [.failed .unwritable] := by
  decide +kernel

end Program

end Intcode
