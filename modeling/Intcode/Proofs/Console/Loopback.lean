import Intcode.Proofs.Amplifier.Confinement
import Intcode.Proofs.Console.Fifo
import Intcode.Proofs.Console.Service
import Intcode.Proofs.Program.Pace

/-!
Loopbacks: a program that is served on a port which gives back what is written is a feedback loop of
one stage. The loop hands on an output before it resumes the stage, the console when it is asked
for an input.
-/
namespace Intcode.Console

open Program Machine Amplifier FeedbackLoop Numeral

variable {π : Type}

/-- The console is where the loop will be, but for outputs that still wait in the port. -/
structure Coupled (Holds : π → List UInt8 → Prop) (start : FeedbackLoop) (c : Console π)
    (loop : FeedbackLoop) (stage : Program) (rest : List Int) : Prop where
  coherent : c.program.Coherent
  free : c.program.obstacle? = none
  flows : Flows start loop
  only : loop.stages = [stage]
  ahead : Ahead rest c.program { stage with machine := stage.machine.push [loop.signal] }
  holds : Holds c.port (rest.flatMap Port.encode)
  short : ∀ value ∈ rest, Short value
  rounds : loop.rounds = c.sent.length
  lastOutput : loop.lastOutput = c.sent.getLast?

structure Coincide (c : Console π) (loop : FeedbackLoop) (stage : Program) : Prop where
  only : loop.stages = [stage]
  rounds : loop.rounds = c.sent.length
  lastOutput : loop.lastOutput = c.sent.getLast?
  halted : c.program.state = .halted
  halted' : stage.state = .halted
  memory : stage.machine.memory = c.program.machine.memory
  ip : stage.machine.ip = c.program.machine.ip
  base : stage.machine.base = c.program.machine.base
  steps : stage.machine.steps = c.program.machine.steps

inductive Counterpart : Failure → Failure → Prop where
  | faulted {fault : Fault} : fault.cause.IsHazard → Counterpart fault fault
  | unwritten : Counterpart .unwritable .unwritable
  | starved (ip : Option Int)
    : Counterpart (.fault { cause := .readTimedOut, ip }) (.fault { cause := .inputExhausted, ip })

inductive Corresponds
    : EStateM.Result Failure (Console π) Unit → EStateM.Result Failure FeedbackLoop Unit
      → Prop where
  | ended {c : Console π} {loop : FeedbackLoop} {stage : Program}
    : Coincide c loop stage → Corresponds (.ok () c) (.ok () loop)
  | failed {c : Console π} {loop : FeedbackLoop} {e e' : Failure}
    : Counterpart e e' → Corresponds (.error e c) (.error e' loop)

inductive Concur
    : EStateM.Result Failure (Console π) (List Int)
      → EStateM.Result Failure FeedbackLoop (Option Int) → Prop where
  | returned {values : List Int} {c : Console π} {loop : FeedbackLoop} {stage : Program}
    : c.sent = values → Coincide c loop stage → Concur (.ok values c) (.ok values.getLast? loop)
  | failed {c : Console π} {loop : FeedbackLoop} {e e' : Failure}
    : Counterpart e e' → Concur (.error e c) (.error e' loop)

variable {Holds : π → List UInt8 → Prop} {start loop loop' : FeedbackLoop} {stage p : Program}
  {rest : List Int} {fuel : Nat} {c c' d : Console π} {e : Failure}

theorem Corresponds.returned {result : EStateM.Result Failure (Console π) Unit}
    {result' : EStateM.Result Failure FeedbackLoop Unit} (h : Corresponds result result')
    (loop : FeedbackLoop) : result' ≠ .error .outOfFuel loop := by
  cases h with
  | ended _ => exact ok_ne_error
  | failed counterpart =>
    rintro ⟨⟩
    cases counterpart

theorem Corresponds.halts {result : EStateM.Result Failure (Console π) Unit}
    {result' : EStateM.Result Failure FeedbackLoop Unit} (h : Corresponds result result')
    : Halts result' := by
  rintro loop rfl stage mem
  cases h with
  | ended coincide =>
    rw [coincide.only, List.mem_singleton] at mem
    rw [mem, Program.isHalted, coincide.halted']
    rfl

theorem Corresponds.concur {result : EStateM.Result Failure (Console π) Unit}
    {result' : EStateM.Result Failure FeedbackLoop Unit} (h : Corresponds result result')
    : Concur (closed result) (finished result') := by
  cases h with
  | failed counterpart => exact .failed counterpart
  | @ended c loop stage coincide =>
    have only : loop.ended.stages = [stage.collect.2] := by
      unfold FeedbackLoop.ended collectStages
      rw [coincide.only]
      rfl
    have coincide' : Coincide (c.record (.served c.program.name c.sent.length c.received.length))
        loop.ended stage.collect.2 :=
      { coincide with only }
    unfold closed finished
    dsimp only
    rw [coincide.lastOutput]
    exact .returned rfl coincide'

namespace Coupled

theorem stage_free (h : Coupled Holds start c loop stage rest) : stage.obstacle? = none :=
  (h.ahead.path h.free).1

theorem replies {reply : Reply} (h : Coupled Holds start c loop stage rest)
    (called : Reply.ofResult (c.program.nextOutput fuel []) = (reply, p))
    (returned : reply ≠ .failed .outOfFuel) (telling : reply.isTelling = true)
    : ∃ fuel' stage', Reply.ofResult (stage.nextOutput fuel' [loop.signal]) = (reply, stage')
        ∧ Ahead rest p stage' := by
  have ahead : Ahead ([] ++ rest) c.program _ := h.ahead
  obtain ⟨⟨a', yields, ahead⟩, -⟩ :=
    nextOutput_ahead h.coherent.ready h.free ahead called returned
  rw [List.filter_cons_of_pos telling] at yields
  obtain ⟨enough, replied⟩ := yields.nextOutput
  have replied := replied enough (Nat.le_refl enough)
  rw [nextOutput_push h.stage_free] at replied
  exact ⟨enough, a', replied, ahead⟩

theorem stalled {ip : Option Int} (h : Coupled Holds start c loop stage rest)
    (exhausted : c.program.nextOutput fuel []
      = .error (.fault { cause := .inputExhausted, ip }) p)
    : Ahead rest p { stage with machine := stage.machine.push [loop.signal] } := by
  have called : Reply.ofResult (c.program.nextOutput fuel [])
      = (.failed (.fault { cause := .inputExhausted, ip }), p) := congrArg Reply.ofResult exhausted
  have ahead : Ahead ([] ++ rest) c.program _ := h.ahead
  obtain ⟨⟨a', yields, ahead⟩, -⟩ := nextOutput_ahead h.coherent.ready h.free ahead called nofun
  rw [← yields.eq_of_nil]
  exact ahead

theorem short_of_gave {value : Int} (h : Coupled Holds start c loop stage rest)
    (gave : c.program.nextOutput fuel [] = .ok (some value) p)
    (short : ∀ loop, Flows start loop → ∀ v, loop.lastOutput = some v → Short v)
    : Short value := by
  have called : Reply.ofResult (c.program.nextOutput fuel []) = (.gave value, p) :=
    congrArg Reply.ofResult gave
  obtain ⟨fuel', stage', replied, -⟩ := h.replies called nofun rfl
  have stepped := step_of_stage h.only h.stage_free fuel'
  have gave' : stage.nextOutput fuel' [loop.signal] = .ok (some value) stage' :=
    Reply.ofResult_injective replied
  rw [gave'] at stepped
  exact short _ (h.flows.round stepped) value rfl

theorem gave {value : Int} {port : π} (h : Coupled Holds start c loop stage rest)
    (gave : c.program.nextOutput fuel [] = .ok (some value) p)
    (short : ∀ loop, Flows start loop → ∀ v, loop.lastOutput = some v → Short v)
    (holds : Holds port ((rest ++ [value]).flatMap Port.encode)) (journal : Array Event)
    : ∃ fuel' loop' stage', FeedbackLoop.step fuel' loop = .ok true loop'
        ∧ Coupled Holds start
            { c with program := p.collect.2, port, sent := c.sent ++ [value], journal }
            loop' stage' (rest ++ [value]) := by
  have called : Reply.ofResult (c.program.nextOutput fuel []) = (.gave value, p) :=
    congrArg Reply.ofResult gave
  have suspended : p.state = .suspended := suspended_of_nextOutput gave
  have coherent := nextOutput_keeps_coherent fuel [] c.program h.coherent
  rw [gave] at coherent
  obtain ⟨fuel', stage', replied, ahead⟩ := h.replies called nofun rfl
  have gave' : stage.nextOutput fuel' [loop.signal] = .ok (some value) stage' :=
    Reply.ofResult_injective replied
  have stepped := step_of_stage h.only h.stage_free fuel'
  rw [gave'] at stepped
  have flows := h.flows.round stepped
  refine ⟨fuel', _, stage'.collect.2, stepped, coherent.collect, ?_, flows, rfl, ?_, holds, ?_, ?_,
    ?_⟩
  . show p.obstacle? = none
    rw [obstacle?, suspended]
  . obtain ⟨state, journal', same⟩ := ahead.of_going (.inr suspended)
    unfold Ahead
    rw [show p.collect.2.state = .suspended from suspended]
    refine ⟨state.trans suspended, #[], ?_⟩
    simp only [Program.collect, Machine.collect, Machine.push, same, List.append_assoc]
  . intro v mem
    cases List.mem_append.mp mem with
    | inl waiting => exact h.short v waiting
    | inr new =>
      rw [List.mem_singleton.mp new]
      exact short _ flows value rfl
  . rw [List.length_append, ← h.rounds]
    rfl
  . rw [List.getLast?_append]
    rfl

theorem received {value : Int} {port : π} {ip : Option Int}
    (h : Coupled Holds start c loop stage (value :: rest))
    (exhausted : c.program.nextOutput fuel []
      = .error (.fault { cause := .inputExhausted, ip }) p)
    (holds : Holds port (rest.flatMap Port.encode)) (journal : Array Event)
    : Coupled Holds start
        { c with
          program := { p.collect.2 with machine := p.collect.2.machine.push [value] }
          port
          received := c.received ++ [value]
          journal }
        loop stage rest := by
  have coherent := nextOutput_keeps_coherent fuel [] c.program h.coherent
  rw [exhausted] at coherent
  have ahead : Ahead ([value] ++ rest) p _ := h.stalled exhausted
  refine ⟨coherent.collect.push [value], ?_, h.flows, h.only, ahead.collect.push, holds, ?_,
    h.rounds, h.lastOutput⟩
  . show p.obstacle? = none
    rw [obstacle?, (awaiting_of_nextOutput h.coherent exhausted).1]
  . exact (List.forall_mem_cons.mp h.short).2

theorem ended (h : Coupled Holds start c loop stage rest)
    (ended : c.program.nextOutput fuel [] = .ok none p) (journal : Array Event)
    : ∃ fuel' loop' stage', FeedbackLoop.step fuel' loop = .ok false loop'
        ∧ Coincide { c with program := p.collect.2, journal } loop' stage' := by
  have called : Reply.ofResult (c.program.nextOutput fuel []) = (.ended, p) :=
    congrArg Reply.ofResult ended
  have halted := halted_of_nextOutput h.coherent ended
  obtain ⟨fuel', stage', replied, ahead⟩ := h.replies called nofun rfl
  have ended' : stage.nextOutput fuel' [loop.signal] = .ok none stage' :=
    Reply.ofResult_injective replied
  have stepped := step_of_stage h.only h.stage_free fuel'
  rw [ended'] at stepped
  unfold Ahead at ahead
  rw [halted] at ahead
  obtain ⟨halted', journal', same⟩ := ahead
  refine ⟨fuel', _, stage'.collect.2, stepped, rfl, h.rounds, h.lastOutput, halted, halted', ?_, ?_,
    ?_, ?_⟩
  . show stage'.machine.memory = _
    rw [same]
    rfl
  . show stage'.machine.ip = _
    rw [same]
    rfl
  . show stage'.machine.base = _
    rw [same]
    rfl
  . show stage'.machine.steps = _
    rw [same]
    rfl

theorem failed (h : Coupled Holds start c loop stage rest)
    (failed : c.program.nextOutput fuel [] = .error e p) (returned : e ≠ .outOfFuel)
    (telling : (Reply.failed e).isTelling = true)
    : ∃ fuel' loop', FeedbackLoop.step fuel' loop = .error e loop' := by
  have called : Reply.ofResult (c.program.nextOutput fuel []) = (.failed e, p) :=
    congrArg Reply.ofResult failed
  obtain ⟨fuel', stage', replied, -⟩ :=
    h.replies called (mt Reply.failed.inj returned) telling
  have failed' : stage.nextOutput fuel' [loop.signal] = .error e stage' :=
    Reply.ofResult_injective replied
  have stepped := step_of_stage h.only h.stage_free fuel'
  rw [failed'] at stepped
  exact ⟨fuel', _, stepped⟩

theorem starved {ip : Option Int} (h : Coupled Holds start c loop stage [])
    (exhausted : c.program.nextOutput fuel []
      = .error (.fault { cause := .inputExhausted, ip }) p)
    : ∃ fuel' loop', FeedbackLoop.step fuel' loop
        = .error (.fault { cause := .inputExhausted, ip := some p.machine.ip }) loop' := by
  have coherent := nextOutput_keeps_coherent fuel [] c.program h.coherent
  rw [exhausted] at coherent
  obtain ⟨awaiting, empty, -⟩ := awaiting_of_nextOutput h.coherent exhausted
  obtain ⟨fuel', stage', exhausted'⟩ := (h.stalled exhausted).starved coherent awaiting empty
  rw [nextOutput_push h.stage_free] at exhausted'
  have stepped := step_of_stage h.only h.stage_free fuel'
  rw [exhausted'] at stepped
  exact ⟨fuel', _, stepped⟩

def Answered (Holds : π → List UInt8 → Prop) (start loop : FeedbackLoop) (stage : Program)
    (rest : List Int) : EStateM.Result Failure (Console π) Bool → Prop
  | .ok true c =>
    (∃ value rest', rest = value :: rest' ∧ Coupled Holds start c loop stage rest')
      ∨ ∃ fuel loop' stage' rest', FeedbackLoop.step fuel loop = .ok true loop'
          ∧ Coupled Holds start c loop' stage' rest'
  | .ok false c =>
    ∃ fuel loop' stage', FeedbackLoop.step fuel loop = .ok false loop' ∧ Coincide c loop' stage'
  | .error e _ =>
    ∃ fuel e' loop', FeedbackLoop.step fuel loop = .error e' loop' ∧ Counterpart e e'

variable [Port π]

theorem answered {result : EStateM.Result Failure (Console π) Bool} (fifo : Port.Fifo Holds)
    (short : ∀ loop, Flows start loop → ∀ v, loop.lastOutput = some v → Short v)
    (h : Coupled Holds start c loop stage rest) (first : Console.exchange fuel c = result)
    (returned : ∀ d, result ≠ .error .outOfFuel d)
    : Answered Holds start loop stage rest result := by
  have turn := exchange_turn fuel h.coherent
  rw [first] at turn
  cases turn with
  | @ended p journal ended => exact h.ended ended journal
  | @sent p value port journal gave _ write =>
    obtain ⟨port', write', holds⟩ := fifo.write (Port.encode value) h.holds
    rw [write] at write'
    cases write'
    rw [← List.flatMap_singleton Port.encode value, ← List.flatMap_append] at holds
    obtain ⟨fuel', loop', stage', stepped, h⟩ := h.gave gave short holds journal
    exact .inr ⟨fuel', loop', stage', _, stepped, h⟩
  | @unsent p value port e journal gave _ write =>
    obtain ⟨port', write', -⟩ := fifo.write (Port.encode value) h.holds
    rw [write] at write'
    cases write'
  | unwritten gave long => exact absurd (h.short_of_gave gave short) long
  | @received p ip value port journal exhausted next =>
    cases rest with
    | nil =>
      obtain ⟨port', next', -⟩ := fifo.next_nil h.holds
      rw [next] at next'
      cases next'
    | cons v rest =>
      obtain ⟨port', next', holds⟩ := fifo.next_encode h.holds (List.forall_mem_cons.mp h.short).1
      rw [next] at next'
      cases next'
      exact .inl ⟨value, rest, rfl, h.received exhausted holds journal⟩
  | @unread p ip port journal exhausted next =>
    cases rest with
    | nil =>
      obtain ⟨_, -, -, objection⟩ := fifo.next_nil h.holds
      obtain ⟨fuel', loop', stepped⟩ := h.starved exhausted
      refine ⟨fuel', _, loop', stepped, ?_⟩
      rw [objection]
      exact .starved _
    | cons v rest =>
      obtain ⟨port', next', -⟩ := fifo.next_encode h.holds (List.forall_mem_cons.mp h.short).1
      rw [next] at next'
      cases next'
  | @failed p e journal failed other =>
    obtain rfl | rfl | ⟨fault, rfl, hazard, -⟩ :=
      faulted_of_nextOutput h.coherent h.free failed other
    . exact absurd rfl (returned _)
    . obtain ⟨fuel', loop', stepped⟩ := h.failed failed nofun rfl
      exact ⟨fuel', _, loop', stepped, .unwritten⟩
    . obtain ⟨fuel', loop', stepped⟩ := h.failed failed nofun (isTelling_of_isHazard hazard)
      exact ⟨fuel', _, loop', stepped, .faulted hazard⟩

def Served (c : Console π) : Prop :=
  ∃ fuel states result, Serves fuel c states result ∧ ∀ d, result ≠ .error .outOfFuel d

theorem Served.more (first : Console.exchange fuel c = .ok true c') (h : Served c') : Served c := by
  obtain ⟨fuel', states, result, served, returned⟩ := h
  obtain ⟨states', served⟩ := served.mono (Nat.le_max_right fuel fuel') returned
  exact ⟨_, _, result,
    .more (exchange_mono (Nat.le_max_left fuel fuel') first fun _ => ok_ne_error) served, returned⟩

theorem returns (h : Coupled Holds start c loop stage rest)
    (returned : ∀ loop', FeedbackLoop.step fuel loop ≠ .error .outOfFuel loop')
    : ∃ fuel', ∀ d, Console.exchange fuel' c ≠ .error .outOfFuel d := by
  have resumed (a : Program)
      : { stage with machine := stage.machine.push [loop.signal] }.nextOutput fuel []
        ≠ .error .outOfFuel a := by
    intro spent
    rw [nextOutput_push h.stage_free] at spent
    rw [step_of_stage h.only h.stage_free, spent] at returned
    exact returned _ rfl
  obtain ⟨fuel', returns⟩ := h.ahead.returns h.coherent h.free resumed
  exact ⟨fuel', exchange_returns h.coherent returns⟩

theorem exchanged (fifo : Port.Fifo Holds)
    (short : ∀ loop, Flows start loop → ∀ v, loop.lastOutput = some v → Short v)
    (h : Coupled Holds start c loop stage rest)
    (returned : ∀ loop', FeedbackLoop.step fuel loop ≠ .error .outOfFuel loop')
    : Served c ∨ ∃ fuel' c', Console.exchange fuel' c = .ok true c'
        ∧ ((∃ value rest', rest = value :: rest' ∧ Coupled Holds start c' loop stage rest')
          ∨ ∃ loop' stage' rest', FeedbackLoop.step fuel loop = .ok true loop'
              ∧ Coupled Holds start c' loop' stage' rest') := by
  obtain ⟨fuel', returns⟩ := h.returns returned
  have answer := h.answered fifo short rfl returns
  cases first : Console.exchange fuel' c with
  | error e d =>
    refine .inl ⟨fuel', _, _, .failed first, ?_⟩
    rintro _ ⟨⟩
    exact returns d first
  | ok going d =>
    rw [first] at answer
    cases going with
    | false => exact .inl ⟨fuel', _, _, .ended first, fun _ => ok_ne_error⟩
    | true =>
      refine .inr ⟨fuel', d, first, ?_⟩
      cases answer with
      | inl received => exact .inl received
      | inr sent =>
        obtain ⟨fuel'', loop', stage', rest', stepped, h⟩ := sent
        exact .inr ⟨loop', stage', rest',
          step_unique rfl stepped returned fun _ => ok_ne_error, h⟩

theorem served_of_step (fifo : Port.Fifo Holds)
    (short : ∀ loop, Flows start loop → ∀ v, loop.lastOutput = some v → Short v)
    (returned : ∀ loop', FeedbackLoop.step fuel loop ≠ .error .outOfFuel loop')
    (later : ∀ loop', FeedbackLoop.step fuel loop = .ok true loop' →
      ∀ c stage rest, Coupled Holds start c loop' stage rest → Served c)
    (h : Coupled Holds start c loop stage rest) : Served c := by
  -- An exchange that does not go with the round takes one of the values that wait.
  induction rest generalizing c with
  | nil =>
    obtain served | ⟨_, c', first, ⟨_, _, waiting, -⟩ | ⟨loop', _, _, stepped, h⟩⟩ :=
      h.exchanged fifo short returned
    . exact served
    . contradiction
    . exact (later loop' stepped c' _ _ h).more first
  | cons value rest ih =>
    obtain served | ⟨_, c', first, ⟨_, _, waiting, h⟩ | ⟨loop', _, _, stepped, h⟩⟩ :=
      h.exchanged fifo short returned
    . exact served
    . cases waiting
      exact (ih h).more first
    . exact (later loop' stepped c' _ _ h).more first

theorem served {result : EStateM.Result Failure FeedbackLoop Unit} (fifo : Port.Fifo Holds)
    (short : ∀ loop, Flows start loop → ∀ v, loop.lastOutput = some v → Short v)
    (rounds : Rounds fuel loop result) (returned : ∀ loop', result ≠ .error .outOfFuel loop')
    (h : Coupled Holds start c loop stage rest) : Served c := by
  induction rounds generalizing c stage rest with
  | stopped stepped =>
    refine h.served_of_step fifo short (fun _ => stepped ▸ ok_ne_error) ?_
    intro loop' flows
    rw [stepped] at flows
    cases flows
  | @failed loop loop' e stepped =>
    have returned (l : FeedbackLoop) : FeedbackLoop.step fuel loop ≠ .error .outOfFuel l := by
      rw [stepped]
      exact error_ne_error returned l
    refine h.served_of_step fifo short returned ?_
    intro loop' flows
    rw [stepped] at flows
    cases flows
  | more stepped _ ih =>
    refine h.served_of_step fifo short (fun _ => stepped ▸ ok_ne_error) ?_
    intro loop' flows c stage rest h
    rw [stepped] at flows
    cases flows
    exact ih returned h

theorem exists_rounds {result : EStateM.Result Failure (Console π) Unit} {states : List Machine}
    (fifo : Port.Fifo Holds)
    (short : ∀ loop, Flows start loop → ∀ v, loop.lastOutput = some v → Short v)
    (served : Serves fuel c states result) (returned : ∀ d, result ≠ .error .outOfFuel d)
    (h : Coupled Holds start c loop stage rest)
    : ∃ fuel' result', Rounds fuel' loop result' ∧ Corresponds result result' := by
  induction served generalizing loop stage rest with
  | ended first =>
    obtain ⟨fuel', loop', stage', stepped, coincide⟩ :=
      h.answered fifo short first fun _ => ok_ne_error
    exact ⟨fuel', _, .stopped stepped, .ended coincide⟩
  | failed first =>
    obtain ⟨fuel', e', loop', stepped, counterpart⟩ :=
      h.answered fifo short first (error_ne_error returned)
    exact ⟨fuel', _, .failed stepped, .failed counterpart⟩
  | more first _ ih =>
    obtain ⟨_, _, -, received⟩ | ⟨fuel', loop', _, _, stepped, sent⟩ :=
      h.answered fifo short first fun _ => ok_ne_error
    . exact ih returned received
    . obtain ⟨fuel'', result', rounds, corresponds⟩ := ih returned sent
      have stepped := step_mono (Nat.le_max_left fuel' fuel'') stepped fun _ => ok_ne_error
      have rounds := rounds.mono (Nat.le_max_right fuel' fuel'') corresponds.returned
      exact ⟨_, result', .more stepped rounds, corresponds⟩

end Coupled

variable [Port π] {image : List Int} {phase signal : Int} {config : Config} {port : π}

theorem coupled_of_load {m : Machine} (proper : config.width.Proper)
    (loaded : Machine.load image config = .ok m) (holds : Holds port []) (phase signal : Int)
    (name : String)
    : let start : FeedbackLoop :=
        { stages := [{ name := stageName 0, machine := m.push [phase] }], signal }
      let c : Console π := { program := { name, machine := m.push [phase, signal] }, port }
      Coupled Holds start c.opened start { name := stageName 0, machine := m.push [phase] } [] := by
  intro start c
  refine ⟨?_, rfl, .start, rfl, ?_, holds, nofun, rfl, rfl⟩
  . exact coherent_of_load proper (Program.load_iff.mpr ⟨m, loaded, rfl⟩)
  . have ahead := ahead_of_push m [phase, signal] [] name (stageName 0)
    rw [List.append_nil] at ahead
    have pushed : (m.push [phase]).push [signal] = m.push [phase, signal] := by
      simp only [Machine.push, List.append_assoc, List.singleton_append]
    show Ahead [] _ { name := stageName 0, machine := (m.push [phase]).push [signal] }
    rw [pushed]
    exact ahead

theorem load_of_phase (image : List Int) (phase signal : Int) (config : Config)
    : FeedbackLoop.load image [phase] signal config
        =
      (Machine.load image config).map fun m =>
        { stages := [{ name := stageName 0, machine := m.push [phase] }], signal } := by
  unfold FeedbackLoop.load FeedbackLoop.load.go Program.load
  cases Machine.load image config with
  | error e => rfl
  | ok m => rfl

theorem short_of_load {count : Int} (proper : config.width.Proper)
    (width : config.width = .bits count) (room : 2 ^ (count - 1).toNat < 10 ^ maxDigits)
    (loaded : FeedbackLoop.load image [phase] signal config = .ok start) (flows : Flows start loop)
    {value : Int} (handed : loop.lastOutput = some value) : Short value := by
  have held := (flows.within (within_of_load proper loaded) proper).lastOutput value handed
  rw [width] at held
  exact short_of_holds room held

theorem load_error_iff {name : String} {e : Failure}
    : Program.load image [phase, signal] config name = .error e
        ↔ FeedbackLoop.load image [phase] signal config = .error e := by
  rw [load_of_phase]
  unfold Program.load
  cases Machine.load image config with
  | error e' =>
    constructor
    . rintro ⟨⟩
      rfl
    . rintro ⟨⟩
      rfl
  | ok m => exact iff_of_false (by rintro ⟨⟩) (by rintro ⟨⟩)

/--
A console on a port that gives back what is written and a feedback loop of one stage come to the
same, as far as what the loop hands on can be read back.
-/
theorem serve_eq_feedback (name : String) (fifo : Port.Fifo Holds) (proper : config.width.Proper)
    (holds : Holds port [])
    (short : ∀ start loop, FeedbackLoop.load image [phase] signal config = .ok start →
      Flows start loop → ∀ value, loop.lastOutput = some value → Short value)
    : (∀ e, Program.load image [phase, signal] config name = .error e
        ↔ FeedbackLoop.load image [phase] signal config = .error e)
      ∧ ∀ p, Program.load image [phase, signal] config name = .ok p →
        ∃ start, FeedbackLoop.load image [phase] signal config = .ok start
          ∧ (∀ fuel, (∀ c, serve fuel { program := p, port } ≠ .error .outOfFuel c) →
              ∃ enough result, (∀ fuel' ≥ enough, FeedbackLoop.run fuel' start = result)
                ∧ Concur (serve fuel { program := p, port }) result)
          ∧ (∀ fuel, (∀ loop, FeedbackLoop.run fuel start ≠ .error .outOfFuel loop) →
              ∃ enough result, (∀ fuel' ≥ enough, serve fuel' { program := p, port } = result)
                ∧ Concur result (FeedbackLoop.run fuel start)) := by
  refine ⟨fun _ => load_error_iff, ?_⟩
  intro p loaded
  obtain ⟨m, fresh, rfl⟩ := Program.load_iff.mp loaded
  have loaded' : FeedbackLoop.load image [phase] signal config
      = .ok { stages := [{ name := stageName 0, machine := m.push [phase] }], signal } := by
    rw [load_of_phase, fresh]
    rfl
  have coupled := coupled_of_load proper fresh holds phase signal name
  have short (loop : FeedbackLoop) := short _ loop loaded'
  refine ⟨_, loaded', ?_, ?_⟩
  . intro fuel returned
    obtain ⟨states, result, exchanges, returned, same⟩ := serves_of_serve returned
    obtain ⟨_, result', rounds, corresponds⟩ :=
      coupled.exists_rounds fifo short exchanges returned
    obtain ⟨enough, runs⟩ := rounds.exists_run corresponds.returned corresponds.halts
    rw [same]
    exact ⟨enough, _, runs, corresponds.concur⟩
  . intro fuel returned
    obtain ⟨result', rounds', returned', same⟩ := rounds_of_run returned
    obtain ⟨_, states, result, exchanges, returned⟩ :=
      coupled.served fifo short rounds' returned'
    obtain ⟨_, result'', rounds, corresponds⟩ :=
      coupled.exists_rounds fifo short exchanges returned
    -- The rounds that go with the exchanges are the ones that were made.
    obtain rfl := rounds.unique rounds' corresponds.returned returned'
    obtain ⟨enough, serves⟩ := exchanges.exists_serve returned
    rw [same corresponds.halts]
    exact ⟨enough, _, serves, corresponds.concur⟩

theorem serve_eq_feedback_squares
    : let image := [3, 12, 2, 12, 12, 12, 4, 12, 1005, 12, 0, 99]
      let config : Config := { width := .bits 12 }
      let port : Loopback := { url := "loop" }
      let machine (inputs : List Int) : Machine :=
        { width := .bits 12, memory := .ofImage image, inputs }
      let start (signal : Int) : FeedbackLoop :=
        { stages := [{ name := stageName 0, machine := machine [3] }], signal }
      let console (signal : Int) : Console Loopback :=
        { program := { name := "p", machine := machine [3, signal] }, port }
      let fault : Fault := { cause := .cellOverflow 6561 12 12, ip := some 2 }
      config.width.Proper ∧ port.waiting = []
        ∧ (∀ signal, ∀ loop, Flows (start signal) loop → ∀ v, loop.lastOutput = some v → Short v)
        ∧ (∃ c loop enough, serve 9 (console 0) = .ok [9, 0] c ∧ loop.rounds = 2
            ∧ ∀ fuel ≥ enough, FeedbackLoop.run fuel (start 0) = .ok (some 0) loop)
        ∧ ∃ c loop enough, serve 9 (console 2) = .error fault c ∧ c.sent = [9, 4, 81, 16]
            ∧ ∀ fuel ≥ enough, FeedbackLoop.run fuel (start 2) = .error fault loop := by
  intro image config port machine start console fault
  have proper : config.width.Proper := by decide
  have loaded (signal : Int) : FeedbackLoop.load image [3] signal config = .ok (start signal) := rfl
  have room : 2 ^ ((12 : Int) - 1).toNat < 10 ^ maxDigits := by decide +kernel
  have short (signal : Int) (s loop : FeedbackLoop)
      (loaded : FeedbackLoop.load image [3] signal config = .ok s) (flows : Flows s loop) (v : Int)
      (handed : loop.lastOutput = some v) : Short v :=
    short_of_load proper rfl room loaded flows handed
  have empty : port.waiting = [] := rfl
  refine ⟨proper, rfl, fun signal loop => short signal _ loop (loaded signal), ?_, ?_⟩
  . obtain ⟨-, concur⟩ := serve_eq_feedback "p" Loopback.fifo proper empty (short 0)
    obtain ⟨_, loaded', runs, -⟩ := concur (console 0).program rfl
    cases (loaded 0).symm.trans loaded'
    have outcome : outcome (serve 9 (console 0)) = .ok [9, 0] := by decide +kernel
    have served := eq_of_outcome_ok outcome
    obtain ⟨enough, result, runs, ends⟩ := runs 9 fun _ => served ▸ ok_ne_error
    rw [served] at ends
    cases ends with
    | @returned _ _ loop _ sent coincide =>
      refine ⟨_, loop, enough, served, ?_, runs⟩
      rw [coincide.rounds, sent]
      rfl
  . obtain ⟨-, concur⟩ := serve_eq_feedback "p" Loopback.fifo proper empty (short 2)
    obtain ⟨_, loaded', runs, -⟩ := concur (console 2).program rfl
    cases (loaded 2).symm.trans loaded'
    have outcome : outcome (serve 9 (console 2)) = .error fault := by decide +kernel
    have failed := eq_of_outcome_error outcome
    have sent : (endState (serve 9 (console 2))).sent = [9, 4, 81, 16] := by decide +kernel
    obtain ⟨enough, result, runs, ends⟩ := runs 9 fun _ => by
      rw [failed]
      rintro ⟨⟩
    rw [failed] at ends
    cases ends with
    | @failed _ loop _ e counterpart =>
      change Counterpart (.fault { cause := .cellOverflow 6561 12 12, ip := some 2 }) e
        at counterpart
      cases counterpart with
      | faulted _ => exact ⟨_, loop, enough, failed, sent, runs⟩

end Intcode.Console
