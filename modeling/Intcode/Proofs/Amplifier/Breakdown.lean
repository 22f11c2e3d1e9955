import Intcode.Proofs.Amplifier.Network
import Intcode.Proofs.Program.Lifetime

namespace Intcode.Amplifier.FeedbackLoop

open Machine Program

inductive Reached (start : FeedbackLoop) : FeedbackLoop → Prop where
  | start : Reached start start
  | step {loop : FeedbackLoop} (fuel : Nat)
    : Reached start loop → Reached start (endState (step fuel loop))
  | run {loop : FeedbackLoop} (fuel : Nat)
    : Reached start loop → Reached start (endState (run fuel loop))

def Idle (loop : FeedbackLoop) : Prop :=
  ∀ stage ∈ loop.stages, stage.Coherent ∧ stage.machine.journal = #[]

def Throughout (P : Program → Prop) (loop : FeedbackLoop) : Prop :=
  ∀ stage ∈ loop.stages, P stage

structure Kept (fuel : Nat) (I J : Program → Prop) : Prop where
  next : ∀ inputs p, I p → I (endState (p.nextOutput fuel inputs))
  starved : ∀ p : Program, I p → I { p with machine := p.machine.record (.starved p.name) }
  collected : ∀ p : Program, I p → J p.collect.2
  weaken : ∀ p, J p → I p

variable {fuel : Nat}

section

variable {I J : Program → Prop}

theorem relay_keeps (next : ∀ inputs p, I p → I (endState (p.nextOutput fuel inputs)))
    {signal : Int} {stages : List Program} (h : ∀ stage ∈ stages, I stage)
    : ∀ stage ∈ (relay fuel signal stages).2, I stage := by
  induction stages generalizing signal with
  | nil => exact h
  | cons stage stages ih =>
    obtain ⟨first, rest⟩ := List.forall_mem_cons.mp h
    have kept := next [signal] stage first
    unfold relay
    split
    . exact h
    . split
      . next called =>
        rw [called] at kept
        exact List.forall_mem_cons.mpr ⟨kept, ih rest⟩
      . next called =>
        rw [called] at kept
        exact List.forall_mem_cons.mpr ⟨kept, rest⟩
      . next called =>
        rw [called] at kept
        exact List.forall_mem_cons.mpr ⟨kept, rest⟩

theorem drainStage_keeps (next : ∀ inputs p, I p → I (endState (p.nextOutput fuel inputs)))
    (starved : ∀ p : Program, I p → I { p with machine := p.machine.record (.starved p.name) })
    (bound : Nat) {stage : Program} (h : I stage) : I (endState (drainStage fuel bound stage)) := by
  induction bound generalizing stage with
  | zero => exact h
  | succ bound ih =>
    have kept := next [] stage h
    unfold drainStage
    split
    . exact h
    . split
      . next called =>
        rw [called] at kept
        exact kept
      . next called =>
        rw [called] at kept
        exact ih kept
      . next called =>
        rw [called] at kept
        exact starved _ kept
      . next called =>
        rw [called] at kept
        exact kept

theorem drainAll_keeps (next : ∀ inputs p, I p → I (endState (p.nextOutput fuel inputs)))
    (starved : ∀ p : Program, I p → I { p with machine := p.machine.record (.starved p.name) })
    {stages : List Program} (h : ∀ stage ∈ stages, I stage)
    : ∀ stage ∈ (drainAll fuel stages).2, I stage := by
  induction stages with
  | nil => exact h
  | cons stage stages ih =>
    obtain ⟨first, rest⟩ := List.forall_mem_cons.mp h
    have kept := drainStage_keeps next starved fuel first
    unfold drainAll
    split
    . next drained =>
      rw [drained] at kept
      exact List.forall_mem_cons.mpr ⟨kept, ih rest⟩
    . next drained =>
      rw [drained] at kept
      exact List.forall_mem_cons.mpr ⟨kept, rest⟩

theorem collectStages_keeps (kept : Kept fuel I J) {loop : FeedbackLoop} (h : loop.Throughout I)
    : loop.collectStages.Throughout J := by
  intro stage mem
  simp only [collectStages, List.map_map, List.mem_map, Function.comp_apply] at mem
  obtain ⟨stage, mem, rfl⟩ := mem
  exact kept.collected stage (h stage mem)

theorem step_keeps (kept : Kept fuel I J) {loop : FeedbackLoop} (h : loop.Throughout J)
    : (endState (step fuel loop)).Throughout J := by
  have relayed : ∀ stage ∈ (relay fuel loop.signal loop.stages).2, I stage :=
    relay_keeps kept.next fun stage mem => kept.weaken stage (h stage mem)
  unfold step
  split
  . exact h
  . generalize relay fuel loop.signal loop.stages = result at relayed ⊢
    obtain ⟨result, stages⟩ := result
    have collected : { loop with stages }.collectStages.Throughout J :=
      collectStages_keeps kept relayed
    cases result with
    | error e => exact collected
    | ok out =>
      cases out with
      | none => exact collected
      | some signal => exact collected

theorem stepAll_keeps (kept : Kept fuel I J) (bound : Nat) {loop : FeedbackLoop}
    (h : loop.Throughout J) : (endState (stepAll fuel bound loop)).Throughout J := by
  induction bound generalizing loop with
  | zero => exact h
  | succ bound ih =>
    have stepped := step_keeps kept h
    unfold stepAll
    split
    . next same =>
      rw [same] at stepped
      exact ih stepped
    . next same =>
      rw [same] at stepped
      exact stepped
    . next same =>
      rw [same] at stepped
      exact stepped

theorem drain_keeps (kept : Kept fuel I J) {loop : FeedbackLoop} (h : loop.Throughout J)
    : (endState (drain fuel loop)).Throughout J := by
  have drained : ∀ stage ∈ (drainAll fuel loop.stages).2, I stage :=
    drainAll_keeps kept.next kept.starved fun stage mem => kept.weaken stage (h stage mem)
  unfold drain
  generalize drainAll fuel loop.stages = result at drained ⊢
  obtain ⟨result, stages⟩ := result
  have collected : { loop with stages }.collectStages.Throughout J :=
    collectStages_keeps kept drained
  cases result with
  | error e => exact collected
  | ok _ => exact collected

theorem run_keeps (kept : Kept fuel I J) {loop : FeedbackLoop} (h : loop.Throughout J)
    : (endState (run fuel loop)).Throughout J := by
  unfold run
  apply endState_bind (stepAll_keeps kept fuel h)
  intro _ loop h
  apply endState_bind (drain_keeps kept h)
  intro _ loop h
  exact h

end

theorem idle_kept (fuel : Nat)
    : Kept fuel Coherent fun p => p.Coherent ∧ p.machine.journal = #[] :=
  ⟨nextOutput_keeps_coherent _, fun _ h => h.record _, fun _ h => ⟨h.collect, rfl⟩, fun _ h => h.1⟩

theorem load_go_idle {image phases : List Int} {config : Config} {index : Nat}
    {stages : List Program} (proper : config.width.Proper)
    (loaded : load.go image config index phases = .ok stages)
    : ∀ stage ∈ stages, stage.Coherent ∧ stage.machine.journal = #[] := by
  induction phases generalizing index stages with
  | nil =>
    cases loaded
    exact List.forall_mem_nil _
  | cons phase phases ih =>
    obtain ⟨stage, stages', primed, remaining, rfl⟩ := load_go_cons loaded
    obtain ⟨m, fresh, rfl⟩ := load_iff.mp primed
    refine List.forall_mem_cons.mpr ⟨⟨coherent_of_load proper primed, ?_⟩, ih remaining⟩
    show m.journal = #[]
    rw [((Machine.load_iff proper).mp fresh).1]

theorem load_idle {image phases : List Int} {signal : Int} {config : Config} {loop : FeedbackLoop}
    (proper : config.width.Proper) (loaded : load image phases signal config = .ok loop)
    : Idle loop :=
  load_go_idle proper (load_eq_ok loaded).1

theorem Reached.throughout {I J : Program → Prop} {start loop : FeedbackLoop}
    (reached : Reached start loop) (kept : ∀ fuel, Kept fuel I J) (h : start.Throughout J)
    : loop.Throughout J := by
  induction reached with
  | start => exact h
  | step fuel _ ih => exact step_keeps (kept fuel) ih
  | run fuel _ ih => exact run_keeps (kept fuel) ih

theorem Reached.idle {start loop : FeedbackLoop} (reached : Reached start loop) (h : Idle start)
    : Idle loop :=
  reached.throughout idle_kept h

theorem break_of_relay {signal : Int} {stages stages' : List Program} {e : Failure}
    (h : relay fuel signal stages = (.error e, stages'))
    : ∃ (k : Nat) (s : Nat → Int), s 0 = signal ∧ stages'.length = stages.length
        ∧ (∀ i < k, ∃ stage stage', stages[i]? = some stage
          ∧ stage.nextOutput fuel [s i] = .ok (some (s (i + 1))) stage' ∧ stages'[i]? = some stage')
        ∧ (∃ stage stage', stages[k]? = some stage ∧ stage.isHalted = false
          ∧ stage.nextOutput fuel [s k] = .error e stage' ∧ stages'[k]? = some stage')
        ∧ ∀ i > k, stages'[i]? = stages[i]? := by
  induction stages generalizing signal stages' with
  | nil => cases h
  | cons stage stages ih =>
    unfold relay at h
    split at h
    . cases h
    . next going =>
      split at h
      . next next stage' emitted =>
        generalize relayed : relay fuel next stages = result at h
        obtain ⟨outcome, stages''⟩ := result
        cases h
        obtain ⟨k, s, first, length, before, broken, behind⟩ := ih relayed
        rw [← first] at emitted
        refine ⟨k + 1, Stream'.cons signal s, rfl, congrArg (· + 1) length, ?_, broken, ?_⟩
        . intro i inside
          cases i with
          | zero => exact ⟨stage, stage', rfl, emitted, rfl⟩
          | succ i => exact before i (Nat.lt_of_succ_lt_succ inside)
        . intro i beyond
          cases i with
          | zero => exact absurd beyond (Nat.not_lt_zero _)
          | succ i => exact behind i (Nat.lt_of_succ_lt_succ beyond)
      . cases h
      . next stage' failed =>
        cases h
        refine ⟨0, fun _ => signal, rfl, rfl, ?_, ⟨stage, stage', rfl, ?_, failed, rfl⟩, ?_⟩
        . intro i inside
          exact absurd inside (Nat.not_lt_zero i)
        . simpa using going
        . intro i beyond
          cases i with
          | zero => exact absurd beyond (Nat.lt_irrefl 0)
          | succ i => rfl

theorem leaves_of_fault {p p' : Program} {inputs : List Int} {fault : Fault} (h : p.Coherent)
    (going : p.isHalted = false) (failed : p.nextOutput fuel inputs = .error (.fault fault) p')
    : (Reply.failed (.fault fault)).Leaves p'.state
      ∧ (p'.state = .awaitingInput → p'.machine.inputs = []) := by
  cases free : p.obstacle? with
  | none =>
    have called : Reply.ofResult (p.nextOutput fuel inputs) = (.failed (.fault fault), p') :=
      congrArg Reply.ofResult failed
    exact (nextOutput_coherent h free called (by simp)).2
  | some obstacle =>
    -- A program that is refused without having halted has faulted in a round before.
    have ended : p.state = .faulted := by
      cases state : p.state with
      | halted =>
        rw [Program.isHalted, state] at going
        contradiction
      | faulted => rfl
      | _ =>
        rw [obstacle?, state] at free
        contradiction
    unfold nextOutput at failed
    rw [free] at failed
    cases failed
    rw [obstacle?, ended] at free
    cases free
    rw [ended]
    exact ⟨.faulted (by simp), by simp⟩

theorem break_of_step {loop loop' : FeedbackLoop} {e : Failure}
    (failed : step fuel loop = .error e loop')
    : loop'.signal = loop.signal ∧ loop'.lastOutput = loop.lastOutput ∧ loop'.rounds = loop.rounds
        ∧ ∃ stages, relay fuel loop.signal loop.stages = (.error e, stages)
          ∧ loop'.stages = stages.map (·.collect.2) := by
  unfold step at failed
  split at failed
  . cases failed
  . generalize relay fuel loop.signal loop.stages = relayed at failed
    obtain ⟨outcome, stages⟩ := relayed
    cases outcome with
    | error e' =>
      cases failed
      refine ⟨rfl, rfl, rfl, stages, rfl, ?_⟩
      simp only [collectStages, List.map_map]
      rfl
    | ok out => cases out <;> cases failed

theorem collect_of_idle {stage : Program} (h : stage.machine.journal = #[])
    : stage.collect.2 = stage := by
  obtain ⟨name, machine, state⟩ := stage
  have same : { machine with journal := #[] } = machine := by
    rw [← h]
  simp only [Program.collect, Machine.collect, same]

/--
A round that fails does so at one of the stages, and the signal and the count of rounds are what
they were. The stages before that one have each made an output of the one that they were handed, and
those behind it have not noticed anything. The stage itself has faulted, or it waits for an input.
-/
theorem step_error_breaks_one_stage {image phases : List Int} {signal : Int} {config : Config}
    {start loop loop' : FeedbackLoop} {fault : Fault} (proper : config.width.Proper)
    (loaded : load image phases signal config = .ok start) (reached : Reached start loop)
    (failed : step fuel loop = .error (.fault fault) loop')
    : loop'.signal = loop.signal ∧ loop'.lastOutput = loop.lastOutput ∧ loop'.rounds = loop.rounds
        ∧ loop'.stages.length = loop.stages.length
        ∧ ∃ (k : Nat) (s : Nat → Int), s 0 = loop.signal
          ∧ (∀ i < k, ∃ stage stage', loop.stages[i]? = some stage
            ∧ stage.nextOutput fuel [s i] = .ok (some (s (i + 1))) stage'
            ∧ stage'.state = .suspended ∧ loop'.stages[i]? = some stage'.collect.2)
          ∧ (∃ stage stage', loop.stages[k]? = some stage
            ∧ stage.nextOutput fuel [s k] = .error (.fault fault) stage'
            ∧ loop'.stages[k]? = some stage'.collect.2
            ∧ (fault.cause ≠ .inputExhausted → stage'.state = .faulted)
            ∧ (fault.cause = .inputExhausted
              → stage'.state = .awaitingInput ∧ stage'.machine.inputs = []
                ∧ stage'.obstacle? = none))
          ∧ ∀ i > k, loop'.stages[i]? = loop.stages[i]? := by
  have idle := reached.idle (load_idle proper loaded)
  obtain ⟨signal, lastOutput, rounds, stages, relayed, after⟩ := break_of_step failed
  obtain ⟨k, s, first, length, before, broken, behind⟩ := break_of_relay relayed
  have collected (i : Nat) {stage : Program} (here : stages[i]? = some stage)
      : loop'.stages[i]? = some stage.collect.2 := by
    rw [after, List.getElem?_map, here]
    rfl
  refine ⟨signal, lastOutput, rounds, ?_, k, s, first, ?_, ?_, ?_⟩
  . rw [after, List.length_map, length]
  . intro i inside
    obtain ⟨stage, stage', here, emitted, here'⟩ := before i inside
    exact ⟨stage, stage', here, emitted, suspended_of_nextOutput emitted, collected i here'⟩
  . obtain ⟨stage, stage', here, going, failed, here'⟩ := broken
    have coherent := (idle stage (List.mem_of_getElem? here)).1
    obtain ⟨leaves, empty⟩ := leaves_of_fault coherent going failed
    refine ⟨stage, stage', here, failed, collected k here', ?_, ?_⟩
    . intro other
      exact (leaves.eq_iff .faulted).mpr (.faulted other)
    . intro exhausted
      have awaiting : stage'.state = .awaitingInput := by
        obtain ⟨cause, ip⟩ := fault
        cases exhausted
        exact (leaves.eq_iff .awaitingInput).mpr (.awaiting ip)
      refine ⟨awaiting, empty awaiting, ?_⟩
      rw [obstacle?, awaiting]
  . intro i beyond
    rw [after, List.getElem?_map, behind i beyond]
    cases here : loop.stages[i]? with
    | none => rfl
    | some stage =>
      have collected := collect_of_idle (idle stage (List.mem_of_getElem? here)).2
      rw [Option.map_some, collected]

theorem step_error_breaks_one_stage_product
    : let image : List Int := [3, 15, 3, 16, 2, 16, 15, 16, 4, 16, 1105, 1, 2]
      let config : Config := { width := .bits 12 }
      let machine : Machine := { width := .bits 12, memory := .ofImage image }
      let start : FeedbackLoop :=
        { stages :=
            [{ name := stageName 0, machine := machine.push [1] },
              { name := stageName 1, machine := machine.push [60] }]
          signal := 5 }
      let loop := endState (step 9 start)
      let loop' := endState (step 9 loop)
      let fault : Fault := { cause := .cellOverflow 18000 16 12, ip := some 4 }
      config.width.Proper ∧ load image [1, 60] 5 config = .ok start ∧ Reached start loop
        ∧ step 9 loop = .error (.fault fault) loop'
        ∧ loop'.signal = 300 ∧ loop'.rounds = 1
        ∧ ∃ (k : Nat) (stage stage' : Program), loop.stages[k]? = some stage
          ∧ loop'.stages[k]? = some stage'.collect.2 ∧ stage'.state = .faulted
          ∧ ∀ i > k, loop'.stages[i]? = loop.stages[i]? := by
  intro image config machine start loop loop' fault
  have proper : config.width.Proper := by decide
  have loaded : load image [1, 60] 5 config = .ok start := rfl
  have reached : Reached start loop := .step 9 .start
  have fails : outcome (step 9 loop) = .error (.fault fault) := by decide +kernel
  have failed : step 9 loop = .error (.fault fault) loop' := eq_of_outcome_error fails
  have passed : loop.signal = 300 ∧ loop.rounds = 1 := by decide +kernel
  obtain ⟨signal, -, rounds, -, k, s, -, -, broken, behind⟩ :=
    step_error_breaks_one_stage proper loaded reached failed
  obtain ⟨stage, stage', here, -, here', faulted, -⟩ := broken
  exact ⟨proper, loaded, reached, failed, signal.trans passed.1, rounds.trans passed.2, k, stage,
    stage', here, here', faulted nofun, behind⟩

end Intcode.Amplifier.FeedbackLoop
