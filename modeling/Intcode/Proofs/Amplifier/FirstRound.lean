import Intcode.Proofs.Amplifier.Breakdown
import Intcode.Proofs.Program.Blame
import Intcode.Proofs.Program.Outcome
import Intcode.Proofs.Text.Numeral

/-!
First rounds: a chain comes to what the first round of a feedback loop comes to, though it makes
each of its stages only when the signal has got there.
-/
namespace Intcode.Amplifier

open Program FeedbackLoop

def silence (index : Nat) : Failure :=
  .fault { cause := .silentStage (stageName index) }

inductive Shifted (offset : Nat) : Failure → Failure → Prop where
  | same {e : Failure} : (∀ i, e ≠ silence i) → Shifted offset e e
  | silent (index : Nat) : Shifted offset (silence (offset + index)) (silence index)

structure HaltedAt (k : Nat) (stages stages' : List Program) : Prop where
  before : ∀ i < k, ∃ stage, stages'[i]? = some stage ∧ stage.state = .suspended
  here : ∃ stage, stages'[k]? = some stage ∧ stage.state = .halted
  behind : ∀ i > k, stages'[i]? = stages[i]?

inductive Alike (index : Nat) (stages : List Program)
    : Except Failure Int → Except Failure (Option Int) × List Program → Prop where
  | gave {value : Int} {stages' : List Program}
    : Alike index stages (.ok value) (.ok (some value), stages')
  | silent {k : Nat} {stages' : List Program}
    : HaltedAt k stages stages'
      → Alike index stages (.error (silence (index + k))) (.ok none, stages')
  | failed {e : Failure} {stages' : List Program}
    : (∀ i, e ≠ silence i) → Alike index stages (.error e) (.error e, stages')

variable {fuel : Nat} {image phases : List Int} {config : Config} {index : Nat}

theorem stageName_injective : Function.Injective stageName := by
  intro i j same
  simp only [stageName, Numeral.render, toString, String.append_right_inj] at same
  exact Numeral.writeNat_injective (String.ofList_inj.mp same)

theorem silence_injective : Function.Injective silence := by
  intro i j same
  injection same with same
  injection same with same
  injection same with same
  exact stageName_injective same

theorem HaltedAt.unique {k k' : Nat} {stages stages' : List Program} (h : HaltedAt k stages stages')
    (h' : HaltedAt k' stages stages') : k = k' := by
  have clash {i j : Nat} (h : HaltedAt i stages stages') (h' : HaltedAt j stages stages')
      : ¬ i < j := by
    intro before
    obtain ⟨stage, here, halted⟩ := h.here
    obtain ⟨stage', here', suspended⟩ := h'.before i before
    rw [here] at here'
    cases here'
    rw [halted] at suspended
    contradiction
  have := clash h h'
  have := clash h' h
  omega

theorem HaltedAt.cons {k : Nat} {stage stage' : Program} {stages stages' : List Program}
    (suspended : stage'.state = .suspended) (h : HaltedAt k stages stages')
    : HaltedAt (k + 1) (stage :: stages) (stage' :: stages') := by
  refine ⟨?_, h.here, ?_⟩
  . intro i before
    cases i with
    | zero => exact ⟨stage', rfl, suspended⟩
    | succ i => exact h.before i (Nat.lt_of_succ_lt_succ before)
  . intro i beyond
    cases i with
    | zero => contradiction
    | succ i => exact h.behind i (Nat.lt_of_succ_lt_succ beyond)

theorem load_cases (image : List Int) (config : Config)
    : (∃ m : Machine, ∀ inputs name,
        Program.load image inputs config name = .ok { name, machine := m.push inputs })
      ∨ ∃ e, ∀ inputs name, Program.load image inputs config name = .error e := by
  unfold Program.load
  cases Machine.load image config with
  | ok m => exact .inl ⟨m, fun _ _ => rfl⟩
  | error e => exact .inr ⟨e, fun _ _ => rfl⟩

theorem running_of_load {inputs : List Int} {name : String} {p : Program}
    (loaded : Program.load image inputs config name = .ok p)
    : p.obstacle? = none ∧ p.isHalted = false := by
  obtain ⟨m, -, rfl⟩ := load_iff.mp loaded
  exact ⟨rfl, rfl⟩

theorem ne_silence_of_load {inputs : List Int} {name : String} {e : Failure}
    (proper : config.width.Proper) (failed : Program.load image inputs config name = .error e)
    : ∀ i, e ≠ silence i := by
  intro i
  obtain rfl | ⟨value, addr, bits, rfl⟩ := Program.overflow_of_load proper failed
  . nofun
  . nofun

theorem ne_silence_of_nextOutput {inputs inputs' : List Int} {name : String} {p : Program}
    {e : Failure} (proper : config.width.Proper)
    (loaded : Program.load image inputs config name = .ok p)
    (failed : outcome (p.nextOutput fuel inputs') = .error e) : ∀ i, e ≠ silence i := by
  rintro i rfl
  have coherent := coherent_of_load proper loaded
  have free := (running_of_load loaded).1
  obtain spent | unwritten | ⟨fault, same, hazard, -⟩ :=
    faulted_of_nextOutput coherent free (eq_of_outcome_error failed) nofun
  . contradiction
  . contradiction
  . cases same
    exact hazard

theorem runStages_of_error {phase : Int} {rest : List Int} {signal : Int} {e : Failure}
    (failed : Program.load image [phase] config (stageName index) = .error e)
    : (runStages fuel image config index (phase :: rest) signal).result = .error e := by
  rw [runStages, Report.result_bind, failed]
  rfl

theorem runStages_of_load {phase : Int} {rest : List Int} {signal : Int} {stage : Program}
    (primed : Program.load image [phase] config (stageName index) = .ok stage)
    : (runStages fuel image config index (phase :: rest) signal).result
        =
      match outcome (stage.nextOutput fuel [signal]) with
      | .ok (some next) => (runStages fuel image config (index + 1) rest next).result
      | .ok none => .error (silence index)
      | .error e => .error e := by
  rw [runStages, Report.result_bind, primed]
  show Report.result (_ >>= _) = _
  rw [Report.result_bind, result_report]
  cases outcome (stage.nextOutput fuel [signal]) with
  | error e => rfl
  | ok out => cases out <;> rfl

theorem alike_of_load_go {stages : List Program} (proper : config.width.Proper)
    (loaded : load.go image config index phases = .ok stages) (signal : Int)
    : Alike index stages (runStages fuel image config index phases signal).result
        (relay fuel signal stages) := by
  induction phases generalizing index stages signal with
  | nil =>
    cases loaded
    exact .gave
  | cons phase phases ih =>
    obtain ⟨stage, stages', primed, remaining, rfl⟩ := load_go_cons loaded
    have coherent := coherent_of_load proper primed
    rw [runStages_of_load primed, relay, if_neg (Bool.not_eq_true _ ▸ (running_of_load primed).2)]
    cases replied : stage.nextOutput fuel [signal] with
    | error e stage' =>
      have failed : outcome (stage.nextOutput fuel [signal]) = .error e := congrArg outcome replied
      exact .failed (ne_silence_of_nextOutput proper primed failed)
    | ok out stage' =>
      cases out with
      | none =>
        have halted : HaltedAt 0 (stage :: stages') (stage' :: stages') := by
          refine ⟨nofun, ⟨stage', rfl, halted_of_nextOutput coherent replied⟩, ?_⟩
          intro i beyond
          cases i with
          | zero => contradiction
          | succ i => rfl
        exact .silent (k := 0) halted
      | some next =>
        have rest := ih remaining next
        dsimp only [outcome]
        generalize (runStages fuel image config (index + 1) phases next).result = chain at rest ⊢
        generalize relay fuel next stages' = relayed at rest ⊢
        cases rest with
        | gave => exact .gave
        | failed other => exact .failed other
        | @silent k _ halted =>
          rw [Nat.add_right_comm index 1]
          exact .silent (k := k + 1) (halted.cons (suspended_of_nextOutput replied))

theorem runStages_append {front rest : List Int} {signal value : Int}
    (passed : (runStages fuel image config index front signal).result = .ok value)
    : (runStages fuel image config index (front ++ rest) signal).result
        = (runStages fuel image config (index + front.length) rest value).result := by
  induction front generalizing index signal with
  | nil =>
    cases passed
    rfl
  | cons phase front ih =>
    cases primed : Program.load image [phase] config (stageName index) with
    | error e =>
      rw [runStages_of_error primed] at passed
      contradiction
    | ok stage =>
      rw [runStages_of_load primed] at passed
      rw [List.cons_append, runStages_of_load primed, List.length_cons, Nat.add_comm front.length,
        ← Nat.add_assoc]
      cases replied : outcome (stage.nextOutput fuel [signal]) with
      | error e =>
        rw [replied] at passed
        contradiction
      | ok out =>
        rw [replied] at passed
        cases out with
        | none => contradiction
        | some next => exact ih passed

theorem outcome_settle (name name' : String) (result : EStateM.Result Failure Machine StopReason)
    : outcome (settle name result) = outcome (settle name' result) := by
  cases result with
  | ok reason m => cases reason <;> rfl
  | error e m => cases e <;> rfl

theorem shifted_runStages (proper : config.width.Proper) (offset index : Nat) (phases : List Int)
    (signal : Int)
    : Agree (Shifted offset) (· = ·)
        (runStages fuel image config (offset + index) phases signal).result
        (runStages fuel image config index phases signal).result := by
  induction phases generalizing index signal with
  | nil => exact .ok rfl
  | cons phase phases ih =>
    obtain ⟨m, made⟩ | ⟨e, failed⟩ := load_cases image config
    -- The name of a stage tells its index, and no reply tells the name.
    . let stage (index : Nat) : Program := { name := stageName index, machine := m.push [phase] }
      have same : outcome ((stage (offset + index)).nextOutput fuel [signal])
          = outcome ((stage index).nextOutput fuel [signal]) := outcome_settle _ _ _
      rw [runStages_of_load (made _ _), runStages_of_load (made _ _), same]
      cases replied : outcome ((stage index).nextOutput fuel [signal]) with
      | error e => exact .error (.same (ne_silence_of_nextOutput proper (made _ _) replied))
      | ok out =>
        cases out with
        | none => exact .error (.silent index)
        | some next => exact ih (index + 1) next
    . rw [runStages_of_error (failed _ _), runStages_of_error (failed _ _)]
      exact .error (.same (ne_silence_of_load proper (failed [] "")))

theorem step_of_load {signal : Int} {start : FeedbackLoop} (staged : phases ≠ [])
    (loaded : load image phases signal config = .ok start)
    : step fuel start
        =
      let (outcome, stages) := relay fuel signal start.stages
      let loop := { start with stages }.collectStages
      match outcome with
      | .ok (some signal) => .ok true { loop with signal, lastOutput := some signal, rounds := 1 }
      | .ok none => .ok false loop
      | .error e => .error e loop := by
  obtain ⟨loaded, fresh⟩ := load_eq_ok loaded
  obtain ⟨phase, phases, rfl⟩ := List.exists_cons_of_ne_nil staged
  obtain ⟨stage, stages, primed, -, first⟩ := load_go_cons loaded
  have going : start.isHalted = false := by
    unfold FeedbackLoop.isHalted
    rw [first, List.all_cons, (running_of_load primed).2, Bool.false_and]
  unfold step
  rw [going, fresh]
  rfl

theorem load_go_of_made {m : Machine} (phases : List Int) (index : Nat)
    (made : ∀ inputs name,
      Program.load image inputs config name = .ok { name, machine := m.push inputs })
    : ∃ stages, load.go image config index phases = .ok stages := by
  induction phases generalizing index with
  | nil => exact ⟨[], rfl⟩
  | cons phase phases ih =>
    obtain ⟨stages, remaining⟩ := ih (index + 1)
    refine ⟨{ name := stageName index, machine := m.push [phase] } :: stages, ?_⟩
    unfold load.go
    rw [made, remaining]
    rfl

theorem HaltedAt.collect {k : Nat} {stages stages' : List Program}
    (idle : ∀ stage ∈ stages, stage.Coherent ∧ stage.machine.journal = #[])
    (h : HaltedAt k stages stages') : HaltedAt k stages (stages'.map (·.collect.2)) := by
  have collected {i : Nat} {state : ProgramState}
      (h : ∃ stage, stages'[i]? = some stage ∧ stage.state = state)
      : ∃ stage, (stages'.map (·.collect.2))[i]? = some stage ∧ stage.state = state := by
    obtain ⟨stage, here, left⟩ := h
    refine ⟨stage.collect.2, ?_, left⟩
    rw [List.getElem?_map, here]
    rfl
  refine ⟨fun i before => collected (h.before i before), collected h.here, ?_⟩
  intro i beyond
  rw [List.getElem?_map, h.behind i beyond]
  cases here : stages[i]? with
  | none => rfl
  | some stage =>
    have same := collect_of_idle (idle stage (List.mem_of_getElem? here)).2
    rw [Option.map_some, same]

inductive Matches (first : FeedbackLoop)
    : EStateM.Result Failure FeedbackLoop Bool → Except Failure Int → Prop where
  | passed {loop : FeedbackLoop}
    : loop.lastOutput = some loop.signal → loop.rounds = 1
      → Matches first (.ok true loop) (.ok loop.signal)
  | silent {k : Nat} {loop : FeedbackLoop}
    : HaltedAt k first.stages loop.stages → Matches first (.ok false loop) (.error (silence k))
  | failed {e : Failure} {loop : FeedbackLoop}
    : (∀ i, e ≠ silence i) → Matches first (.error e loop) (.error e)

section

variable {first : FeedbackLoop} {stepped : EStateM.Result Failure FeedbackLoop Bool}
  {chain : Except Failure Int}

theorem Matches.ok_iff (h : Matches first stepped chain) (value : Int)
    : chain = .ok value ↔ ∃ loop, stepped = .ok true loop ∧ loop.signal = value := by
  cases h with
  | passed => simp
  | silent => simp
  | failed => simp

theorem Matches.silence_iff (h : Matches first stepped chain) (index : Nat)
    : chain = .error (silence index)
        ↔ ∃ loop, stepped = .ok false loop ∧ HaltedAt index first.stages loop.stages := by
  cases h with
  | passed => simp
  | failed loud => simpa using loud index
  | @silent k loop halted =>
    constructor
    . intro same
      injection same with same
      rw [← silence_injective same]
      exact ⟨loop, rfl, halted⟩
    . rintro ⟨loop, ended, halted'⟩
      cases ended
      rw [halted.unique halted']

theorem Matches.error_iff (h : Matches first stepped chain) (e : Failure)
    : (chain = .error e ∧ ∀ index, e ≠ silence index) ↔ ∃ loop, stepped = .error e loop := by
  cases h with
  | passed => simp
  | failed loud =>
    constructor
    . rintro ⟨same, -⟩
      cases same
      exact ⟨_, rfl⟩
    . rintro ⟨loop, same⟩
      cases same
      exact ⟨rfl, loud⟩
  | @silent k =>
    constructor
    . rintro ⟨same, loud⟩
      cases same
      exact absurd rfl (loud k)
    . nofun

end

theorem runChain_cases (proper : config.width.Proper) (staged : phases ≠ []) (signal : Int)
    (fuel : Nat)
    : (∃ e, FeedbackLoop.load image phases signal config = .error e
        ∧ (runChain fuel image phases signal config).result = .error e ∧ ∀ i, e ≠ silence i)
      ∨ ∃ first, FeedbackLoop.load image phases signal config = .ok first
          ∧ Matches first (step fuel first) (runChain fuel image phases signal config).result := by
  unfold runChain
  obtain ⟨m, made⟩ | ⟨e, failed⟩ := load_cases image config
  . apply Or.inr
    obtain ⟨stages, primed⟩ := load_go_of_made phases 0 made
    have loaded : FeedbackLoop.load image phases signal config = .ok { stages, signal } := by
      unfold FeedbackLoop.load
      rw [primed]
      rfl
    refine ⟨_, loaded, ?_⟩
    rw [step_of_load staged loaded]
    dsimp only
    have alike : Alike 0 stages _ (relay fuel signal stages) :=
      alike_of_load_go proper primed signal
    generalize relay fuel signal stages = relayed at alike ⊢
    generalize (runStages fuel image config 0 phases signal).result = chain at alike ⊢
    cases alike with
    | gave => exact .passed rfl rfl
    | failed loud => exact .failed loud
    | silent halted =>
      rw [Nat.zero_add]
      apply Matches.silent
      simp only [collectStages, List.map_map]
      exact halted.collect (load_idle proper loaded)
  . obtain ⟨phase, phases, rfl⟩ := List.exists_cons_of_ne_nil staged
    refine .inl ⟨e, ?_, runStages_of_error (failed _ _), ne_silence_of_load proper (failed [] "")⟩
    unfold FeedbackLoop.load load.go
    rw [failed]
    rfl

/--
A chain comes to what the first round of the loop with these stages comes to: to the signal that
goes round, to the silence of the stage that has halted, or to the failure of making the stages or
of the round. And a chain can be cut in two wherever a signal is passed on.
-/
theorem runChain_eq_first_round {image phases : List Int} {signal : Int} {config : Config}
    (proper : config.width.Proper) (staged : phases ≠ []) (fuel : Nat)
    : let chain := (runChain fuel image phases signal config).result
      let start := FeedbackLoop.load image phases signal config
      (∀ value, chain = .ok value
        ↔ ∃ first loop, start = .ok first ∧ step fuel first = .ok true loop ∧ loop.signal = value)
      ∧ (∀ index, chain = .error (silence index)
        ↔ ∃ first loop, start = .ok first ∧ step fuel first = .ok false loop
            ∧ HaltedAt index first.stages loop.stages)
      ∧ (∀ e, (chain = .error e ∧ ∀ index, e ≠ silence index)
        ↔ start = .error e ∨ ∃ first loop, start = .ok first ∧ step fuel first = .error e loop)
      ∧ (∀ first loop, start = .ok first → step fuel first = .ok true loop
        → loop.lastOutput = some loop.signal ∧ loop.rounds = 1)
      ∧ (∀ first loop, start = .ok first → step fuel first = .ok false loop
        → ∃ index, HaltedAt index first.stages loop.stages)
      ∧ ∀ front rest signal value, (runChain fuel image front signal config).result = .ok value
        → Agree (Shifted front.length) (· = ·)
            (runChain fuel image (front ++ rest) signal config).result
            (runChain fuel image rest value config).result := by
  have cut : ∀ front rest signal value, (runChain fuel image front signal config).result = .ok value
      → Agree (Shifted front.length) (· = ·)
          (runChain fuel image (front ++ rest) signal config).result
          (runChain fuel image rest value config).result := by
    intro front rest signal value passed
    unfold runChain
    rw [runStages_append passed, Nat.zero_add]
    exact shifted_runStages proper front.length 0 rest value
  obtain ⟨e, unmade, failed, loud⟩ | ⟨first, made, met⟩ :=
    @runChain_cases image phases config proper staged signal fuel
  . rw [unmade, failed]
    refine ⟨by simp, ?_, ?_, nofun, nofun, cut⟩
    . simpa using loud
    . intro e'
      constructor
      . rintro ⟨same, -⟩
        cases same
        exact .inl rfl
      . rintro (same | ⟨first, loop, same, -⟩)
        . cases same
          exact ⟨rfl, loud⟩
        . contradiction
  . rw [made]
    simp only [Except.ok.injEq, reduceCtorEq, false_or, exists_and_left, exists_eq_left']
    generalize (runChain fuel image phases signal config).result = chain at met ⊢
    refine ⟨met.ok_iff, met.silence_iff, met.error_iff, ?_, ?_, cut⟩
    . rintro first loop rfl stepped
      rw [stepped] at met
      cases met with
      | passed lastOutput rounds => exact ⟨lastOutput, rounds⟩
    . rintro first loop rfl stepped
      rw [stepped] at met
      cases met with
      | silent halted => exact ⟨_, halted⟩

theorem runChain_eq_first_round_silent
    : let image : List Int := [3, 13, 3, 14, 1005, 13, 8, 99, 4, 14, 99]
      let config : Config := { width := .bits 12 }
      let chain := (runChain 9 image [1, 0, 2] 5 config).result
      config.width.Proper ∧ chain = .error (silence 1)
        ∧ (∃ first loop, FeedbackLoop.load image [1, 0, 2] 5 config = .ok first
          ∧ step 9 first = .ok false loop ∧ HaltedAt 1 first.stages loop.stages)
        ∧ (runChain 9 image [1] 5 config).result = .ok 5
        ∧ Agree (Shifted 1) (· = ·) chain (runChain 9 image [0, 2] 5 config).result := by
  intro image config chain
  have proper : config.width.Proper := by decide
  have silent : chain = .error (silence 1) := by decide +kernel
  have passed : (runChain 9 image [1] 5 config).result = .ok 5 := by decide +kernel
  obtain ⟨-, silences, -, -, -, cut⟩ :=
    @runChain_eq_first_round image [1, 0, 2] 5 config proper (by decide) 9
  exact ⟨proper, silent, (silences 1).mp silent, passed, cut [1] [0, 2] 5 5 passed⟩

end Intcode.Amplifier
