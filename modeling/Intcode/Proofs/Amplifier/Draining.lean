import Intcode.Proofs.Amplifier.Rounds
import Intcode.Proofs.Amplifier.Standstill
import Intcode.Proofs.Program.Warnings

/-!
Draining: a feedback loop the rounds of which are over lets its stages run on, wherever these rounds
have left them. Each of them halts, or it is left without input, and of the latter there is a
warning.
-/
namespace Intcode.Amplifier.FeedbackLoop

open Machine Program

structure Drained (stage : Program) : Prop where
  finished : stage.state = .halted ∨ stage.state = .awaitingInput ∧ stage.machine.inputs = []
  warnings : stage.machine.warnings = if stage.isHalted then [] else [.starved stage.name]

def Warns (warnings : List Event) (loop loop' : FeedbackLoop) : Prop :=
  ∃ told, loop'.journal.toList = loop.journal.toList ++ told
    ∧ told.filter Event.isWarning = warnings

variable {fuel : Nat}

theorem Warns.trans {warnings warnings' : List Event} {loop₁ loop₂ loop₃ : FeedbackLoop}
    (first : Warns warnings loop₁ loop₂) (second : Warns warnings' loop₂ loop₃)
    : Warns (warnings ++ warnings') loop₁ loop₃ := by
  obtain ⟨told, journal, rfl⟩ := first
  obtain ⟨told', journal', rfl⟩ := second
  refine ⟨told ++ told', ?_, List.filter_append _ _⟩
  rw [journal', journal, List.append_assoc]

theorem Warns.refl (loop : FeedbackLoop) : Warns [] loop loop :=
  ⟨[], (List.append_nil _).symm, rfl⟩

theorem warns_push {event : Event} (other : event.isWarning = false) (loop : FeedbackLoop)
    : Warns [] loop { loop with journal := loop.journal.push event } := by
  refine ⟨[event], Array.toList_push, ?_⟩
  rw [List.filter_cons_of_neg (by simp [other]), List.filter_nil]

theorem warns_collectStages (loop : FeedbackLoop)
    : Warns (loop.stages.flatMap (·.machine.warnings)) loop loop.collectStages := by
  refine ⟨loop.stages.flatMap (·.machine.journal.toList), ?_, List.filter_flatMap⟩
  simp only [collectStages, Array.toList_append, List.flatMap_map]
  rfl

def Quiet (p : Program) : Prop :=
  p.Coherent ∧ p.machine.warnings = []

theorem quiet_nextOutput (fuel : Nat) (inputs : List Int) (p : Program) (h : Quiet p)
    : Quiet (endState (p.nextOutput fuel inputs)) :=
  ⟨nextOutput_keeps_coherent fuel inputs p h.1, (warnings_nextOutput h.1.ready fuel inputs).trans h.2⟩

theorem Idle.quiet {loop : FeedbackLoop} (idle : Idle loop) : loop.Throughout Quiet := by
  intro stage mem
  obtain ⟨coherent, journal⟩ := idle stage mem
  refine ⟨coherent, ?_⟩
  unfold Machine.warnings
  rw [journal]
  rfl

theorem drained_of_drainStage {bound : Nat} {p q : Program} (quiet : Quiet p)
    (h : drainStage fuel bound p = .ok () q) : Drained q := by
  induction bound generalizing p with
  | zero => cases h
  | succ bound ih =>
    have next := quiet_nextOutput fuel [] p quiet
    unfold drainStage at h
    split at h
    . next halted =>
      cases h
      refine ⟨.inl (by simpa [Program.isHalted] using halted), ?_⟩
      rw [if_pos halted]
      exact quiet.2
    . split at h
      . next called =>
        cases h
        rw [called] at next
        refine ⟨.inl (halted_of_nextOutput quiet.1 called), ?_⟩
        rw [if_pos (isHalted_of_nextOutput quiet.1 called)]
        exact next.2
      . next called =>
        rw [called] at next
        exact ih next h
      . next ip p' stalled =>
        -- This is the only way in which a warning is recorded.
        cases h
        rw [stalled] at next
        obtain ⟨awaiting, empty, -⟩ := awaiting_of_nextOutput quiet.1 stalled
        refine ⟨.inr ⟨awaiting, empty⟩, ?_⟩
        have going : p'.isHalted = false := by
          rw [Program.isHalted, awaiting]
          rfl
        have before : p'.machine.warnings = [] := next.2
        show (p'.machine.record (.starved p'.name)).warnings = if p'.isHalted then [] else _
        rw [warnings_record, before, going]
        rfl
      . cases h

theorem drained_of_drainAll {stages stages' : List Program}
    (quiet : ∀ stage ∈ stages, Quiet stage) (h : drainAll fuel stages = (.ok (), stages'))
    : ∀ stage ∈ stages', Drained stage := by
  induction stages generalizing stages' with
  | nil =>
    cases h
    exact List.forall_mem_nil _
  | cons stage stages ih =>
    obtain ⟨first, others⟩ := List.forall_mem_cons.mp quiet
    unfold drainAll at h
    split at h
    . next drained =>
      generalize rest : drainAll fuel stages = result at h
      obtain ⟨outcome, stages''⟩ := result
      cases h
      exact List.forall_mem_cons.mpr ⟨drained_of_drainStage first drained, ih others rest⟩
    . cases h

def notices (stages : List Program) : List Event :=
  (stages.filter (!·.isHalted)).map (.starved ·.name)

theorem flatMap_warnings {stages : List Program} (drained : ∀ stage ∈ stages, Drained stage)
    : stages.flatMap (·.machine.warnings) = notices stages := by
  induction stages with
  | nil => rfl
  | cons stage stages ih =>
    obtain ⟨first, rest⟩ := List.forall_mem_cons.mp drained
    unfold notices at ih ⊢
    rw [List.flatMap_cons, ih rest, first.warnings]
    cases halted : stage.isHalted with
    | true => rw [List.filter_cons_of_neg (by simp [halted])]; rfl
    | false => rw [List.filter_cons_of_pos (by simp [halted])]; rfl

theorem notices_collect (stages : List Program)
    : notices (stages.map (·.collect.2)) = notices stages := by
  unfold notices
  rw [List.filter_map, List.map_map]
  rfl

theorem drain_finishes {loop loop' : FeedbackLoop} (quiet : loop.Throughout Quiet)
    (h : drain fuel loop = .ok () loop')
    : (∀ stage ∈ loop'.stages,
        stage.state = .halted ∨ stage.state = .awaitingInput ∧ stage.machine.inputs = [])
      ∧ Warns (notices loop'.stages) loop loop' := by
  unfold drain at h
  generalize drained : drainAll fuel loop.stages = result at h
  obtain ⟨outcome, stages⟩ := result
  cases outcome with
  | error e => cases h
  | ok _ =>
    cases h
    have drained := drained_of_drainAll quiet drained
    have collected : { loop with stages }.collectStages.stages = stages.map (·.collect.2) := by
      simp only [collectStages, List.map_map]
      rfl
    have warns := warns_collectStages { loop with stages }
    rw [flatMap_warnings drained] at warns
    rw [collected, notices_collect]
    refine ⟨?_, warns⟩
    intro stage mem
    obtain ⟨stage, inside, rfl⟩ := List.mem_map.mp mem
    exact (drained stage inside).finished

theorem warns_step (fuel : Nat) {loop : FeedbackLoop} (quiet : loop.Throughout Quiet)
    : Warns [] loop (endState (step fuel loop)) := by
  have relayed : ∀ stage ∈ (relay fuel loop.signal loop.stages).2, Quiet stage :=
    relay_keeps (quiet_nextOutput fuel) quiet
  unfold step
  split
  . exact .refl loop
  . generalize relay fuel loop.signal loop.stages = result at relayed ⊢
    obtain ⟨outcome, stages⟩ := result
    have warns := warns_collectStages { loop with stages }
    rw [List.flatMap_eq_nil_iff.mpr fun stage mem => (relayed stage mem).2] at warns
    cases outcome with
    | error e => exact warns
    | ok out =>
      cases out with
      | none => exact warns
      | some signal => exact warns

theorem warns_stepAll (fuel bound : Nat) {loop : FeedbackLoop} (idle : Idle loop)
    : Warns [] loop (endState (stepAll fuel bound loop)) := by
  induction bound generalizing loop with
  | zero => exact .refl loop
  | succ bound ih =>
    have warns := warns_step fuel idle.quiet
    have idle := step_keeps (idle_kept fuel) idle
    unfold stepAll
    generalize step fuel loop = result at warns idle ⊢
    cases result with
    | error e loop' => exact warns
    | ok flows loop' =>
      cases flows with
      | false => exact warns
      | true => exact warns.trans (ih idle)

theorem notices_eq_nil_iff {loop : FeedbackLoop}
    : notices loop.stages = [] ↔ loop.isHalted = true := by
  unfold notices FeedbackLoop.isHalted
  simp

theorem Reached.standstill {start loop : FeedbackLoop} (reached : Reached start loop)
    (still : Still start.stages) : Standstill start loop := by
  induction reached with
  | start => exact ⟨still, rfl, rfl, rfl⟩
  | step fuel _ ih => exact (ih.perform fuel .step).1
  | run fuel _ ih => exact (ih.perform fuel .run).1

theorem Reached.no_stages {start loop : FeedbackLoop} (reached : Reached start loop)
    (none : start.stages = []) : loop.stages = [] := by
  -- What is true of no program is kept, so that it remains true of all stages.
  have kept (fuel : Nat) : Kept fuel (fun _ => False) fun _ => False :=
    ⟨fun _ _ => id, fun _ => id, fun _ => id, fun _ => id⟩
  have nothing : start.Throughout fun _ => False := by
    unfold Throughout
    rw [none]
    exact List.forall_mem_nil _
  exact List.eq_nil_iff_forall_not_mem.mpr (reached.throughout kept nothing)

theorem run_of_no_stages {loop : FeedbackLoop} (none : loop.stages = []) (fuel : Nat)
    : run (fuel + 1) loop = .ok loop.lastOutput loop.ended := by
  have halted : loop.isHalted = true := by
    rw [FeedbackLoop.isHalted, none]
    rfl
  have stepped : stepAll (fuel + 1) (fuel + 1) loop = .ok () loop := by
    simp only [stepAll, step, if_pos halted]
  apply run_of_stepAll stepped
  rintro _ ⟨⟩
  exact List.all_eq_true.mp halted

theorem run_finishes {loop loop' : FeedbackLoop} {result : Option Int} (idle : Idle loop)
    (ran : run fuel loop = .ok result loop')
    : (∀ stage ∈ loop'.stages,
        stage.state = .halted ∨ stage.state = .awaitingInput ∧ stage.machine.inputs = [])
      ∧ Warns (notices loop'.stages) loop loop'
      ∧ ∃ stopped, stepAll fuel fuel loop = .ok () stopped ∧ loop'.signal = stopped.signal
        ∧ loop'.lastOutput = stopped.lastOutput ∧ loop'.rounds = stopped.rounds
        ∧ result = stopped.lastOutput := by
  have warns := warns_stepAll fuel fuel idle
  have idle := stepAll_keeps (idle_kept fuel) fuel idle
  rw [run_eq] at ran
  generalize stepAll fuel fuel loop = outcome at ran warns idle ⊢
  cases outcome with
  | error e stopped => cases ran
  | ok _ stopped =>
    have idle : Idle stopped := idle
    have tally := drain_tally fuel stopped
    dsimp only at ran
    generalize drained : drain fuel stopped = outcome at ran tally
    cases outcome with
    | error e ended => cases ran
    | ok _ ended =>
      cases ran
      obtain ⟨finished, warns'⟩ := drain_finishes idle.quiet drained
      obtain ⟨signal, lastOutput, rounds⟩ := tally
      have last : (Event.loopEnded ended.rounds ended.lastOutput).isWarning = false :=
        Event.isWarning_of_wording rfl
      have warns := (warns.trans warns').trans (warns_push last ended)
      rw [List.nil_append, List.append_nil] at warns
      exact ⟨finished, warns, stopped, rfl, signal, lastOutput, rounds, lastOutput⟩

/--
A run that returns leaves all stages halted or without input, however far each of them had come when
the rounds stopped. There is one warning for each stage that has not halted, in the order of the
stages, and none if the loop has halted; signal, last output and count of rounds are what the rounds
have made them. Without any stages there is no round, and nothing comes out.
-/
theorem run_leaves_finished {image phases : List Int} {signal : Int} {config : Config}
    {start loop : FeedbackLoop} (proper : config.width.Proper)
    (loaded : load image phases signal config = .ok start) (reached : Reached start loop)
    : (∀ fuel result loop', run fuel loop = .ok result loop'
      → (∀ stage ∈ loop'.stages,
          stage.state = .halted ∨ stage.state = .awaitingInput ∧ stage.machine.inputs = [])
        ∧ (∃ warnings, Warns warnings loop loop'
          ∧ warnings = (loop'.stages.filter (!·.isHalted)).map (.starved ·.name)
          ∧ (loop'.isHalted = true ↔ warnings = []))
        ∧ ∃ stopped, stepAll fuel fuel loop = .ok () stopped ∧ loop'.signal = stopped.signal
          ∧ loop'.lastOutput = stopped.lastOutput ∧ loop'.rounds = stopped.rounds
          ∧ result = stopped.lastOutput)
      ∧ (phases = [] → ∀ fuel > 0, ∃ loop', run fuel loop = .ok none loop' ∧ loop'.rounds = 0) := by
  have idle := reached.idle (load_idle proper loaded)
  constructor
  . intro fuel result loop' ran
    obtain ⟨finished, warns, tally⟩ := run_finishes idle ran
    exact ⟨finished, ⟨_, warns, rfl, notices_eq_nil_iff.symm⟩, tally⟩
  . intro unstaged fuel positive
    obtain ⟨primed, fresh⟩ := load_eq_ok loaded
    have none : start.stages = [] := by
      rw [unstaged] at primed
      exact (Except.ok.inj primed).symm
    have still := reached.standstill (.inl none)
    obtain ⟨fuel, rfl⟩ := Nat.exists_eq_add_one.mpr positive
    refine ⟨loop.ended, ?_, ?_⟩
    . rw [run_of_no_stages (reached.no_stages none), still.lastOutput, fresh]
    . exact still.rounds.trans (by rw [fresh])

theorem run_leaves_finished_uneven
    : let image : List Int := [3, 15, 3, 16, 4, 16, 101, -1, 15, 15, 1005, 15, 2, 99]
      let config : Config := { width := .bits 12 }
      let machine : Machine := { width := .bits 12, memory := .ofImage image }
      let start : FeedbackLoop :=
        { stages :=
            [{ name := stageName 0, machine := machine.push [3] },
              { name := stageName 1, machine := machine.push [1] }]
          signal := 5 }
      let loop := endState (step 9 start)
      config.width.Proper ∧ load image [3, 1] 5 config = .ok start ∧ Reached start loop
        ∧ ∃ loop', run 9 loop = .ok (some 5) loop' ∧ loop'.stages.map (·.isHalted) = [false, true]
          ∧ Warns [.starved (stageName 0)] loop loop' ∧ loop'.isHalted = false
          ∧ load image [] 5 config = .ok { stages := [], signal := 5 }
          ∧ ∃ ended, run 1 { stages := [], signal := 5 } = .ok none ended ∧ ended.rounds = 0 := by
  intro image config machine start loop
  have proper : config.width.Proper := by decide
  have loaded : load image [3, 1] 5 config = .ok start := rfl
  have reached : Reached start loop := .step 9 .start
  have returned : outcome (run 9 loop) = .ok (some 5) := by decide +kernel
  have ran := eq_of_outcome_ok returned
  have halted : (endState (run 9 loop)).stages.map (·.isHalted) = [false, true] := by
    decide +kernel
  have left : (((endState (run 9 loop)).stages.filter (!·.isHalted)).map (Event.starved ·.name))
      = [.starved (stageName 0)] := by decide +kernel
  obtain ⟨-, ⟨warnings, warns, same, silent⟩, -⟩ :=
    (run_leaves_finished proper loaded reached).1 9 _ _ ran
  rw [left] at same
  subst same
  have unstaged : load image [] 5 config = .ok { stages := [], signal := 5 } := rfl
  obtain ⟨-, nothing⟩ := run_leaves_finished proper unstaged .start
  refine ⟨proper, loaded, reached, _, ran, halted, warns, ?_, unstaged, nothing rfl 1 Nat.one_pos⟩
  rw [← Bool.not_eq_true, silent]
  exact List.cons_ne_nil _ _

end Intcode.Amplifier.FeedbackLoop
