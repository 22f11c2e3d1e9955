import Intcode.Amplifier.Feedback
import Intcode.Proofs.Program.Schedule
import Mathlib.Data.Stream.Defs
import Mathlib.Tactic.Choose

/-!
Networks: what the stages of a feedback loop hand to each other. Round by round each stage emits
what it would emit by itself, had it been given all that it is handed from the start.
-/
namespace Intcode.Amplifier.FeedbackLoop

open Machine Program

theorem load_go_cons {image phases : List Int} {config : Config} {index : Nat} {phase : Int}
    {stages : List Program} (h : load.go image config index (phase :: phases) = .ok stages)
    : ∃ stage stages', Program.load image [phase] config (stageName index) = .ok stage
        ∧ load.go image config (index + 1) phases = .ok stages' ∧ stages = stage :: stages' := by
  unfold load.go at h
  cases loaded : Program.load image [phase] config (stageName index) with
  | error e =>
    rw [loaded] at h
    contradiction
  | ok stage =>
    rw [loaded] at h
    cases remaining : load.go image config (index + 1) phases with
    | error e =>
      simp only [bind, Except.bind, remaining] at h
      contradiction
    | ok stages' =>
      simp only [bind, Except.bind, remaining] at h
      cases h
      exact ⟨stage, stages', rfl, rfl, rfl⟩

theorem length_of_load_go {image phases : List Int} {config : Config} {index : Nat}
    {stages : List Program} (h : load.go image config index phases = .ok stages)
    : stages.length = phases.length := by
  induction phases generalizing index stages with
  | nil =>
    cases h
    rfl
  | cons phase phases ih =>
    obtain ⟨stage, stages', -, remaining, rfl⟩ := load_go_cons h
    exact congrArg (· + 1) (ih remaining)

theorem getElem?_of_load_go {image phases : List Int} {config : Config} {index : Nat}
    {stages : List Program} (h : load.go image config index phases = .ok stages)
    {i : Nat} {phase : Int} (phased : phases[i]? = some phase)
    : ∃ stage name, stages[i]? = some stage ∧ Program.load image [phase] config name = .ok stage := by
  induction phases generalizing index stages i with
  | nil => contradiction
  | cons first phases ih =>
    obtain ⟨stage, stages', loaded, remaining, rfl⟩ := load_go_cons h
    cases i with
    | zero =>
      cases phased
      exact ⟨stage, _, rfl, loaded⟩
    | succ i => exact ih remaining phased

theorem signals_of_relay {fuel : Nat} {signal out : Int} {stages stages' : List Program}
    (h : relay fuel signal stages = (.ok (some out), stages'))
    : ∃ s : Nat → Int, s 0 = signal ∧ s stages.length = out ∧ stages'.length = stages.length
        ∧ ∀ (i : Nat) (stage : Program), stages[i]? = some stage →
            ∃ stage', stage.nextOutput fuel [s i] = .ok (some (s (i + 1))) stage'
              ∧ stages'[i]? = some stage' := by
  induction stages generalizing signal stages' with
  | nil =>
    cases h
    refine ⟨fun _ => out, rfl, rfl, rfl, ?_⟩
    intro i stage h
    contradiction
  | cons stage stages ih =>
    unfold relay at h
    split at h
    . cases h
    . split at h
      . next next stage' emitted =>
        generalize relayed : relay fuel next stages = result at h
        obtain ⟨outcome, stages''⟩ := result
        cases h
        obtain ⟨s, first, last, length, exchanged⟩ := ih relayed
        rw [← first] at emitted
        refine ⟨Stream'.cons signal s, rfl, last, ?_, ?_⟩
        . exact congrArg (· + 1) length
        . intro i
          cases i with
          | zero =>
            intro stage h
            cases h
            exact ⟨stage', emitted, rfl⟩
          | succ i => exact exchanged i
      . cases h
      . cases h

theorem signals_of_step {fuel : Nat} {loop loop' : FeedbackLoop}
    (h : step fuel loop = .ok true loop')
    : loop'.rounds = loop.rounds + 1 ∧ loop'.lastOutput = some loop'.signal
        ∧ loop'.stages.length = loop.stages.length
        ∧ ∃ s : Nat → Int, s 0 = loop.signal ∧ s loop.stages.length = loop'.signal
            ∧ ∀ (i : Nat) (stage : Program), loop.stages[i]? = some stage →
                ∃ stage', stage.nextOutput fuel [s i] = .ok (some (s (i + 1))) stage'
                  ∧ loop'.stages[i]? = some stage'.collect.2 := by
  unfold step at h
  split at h
  . cases h
  . generalize relayed : relay fuel loop.signal loop.stages = result at h
    obtain ⟨outcome, stages⟩ := result
    cases outcome with
    | error e => cases h
    | ok out =>
      cases out with
      | none => cases h
      | some out =>
        cases h
        obtain ⟨s, first, last, length, exchanged⟩ := signals_of_relay relayed
        refine ⟨rfl, rfl, ?_, s, first, last, ?_⟩
        . simp only [collectStages, List.length_map, length]
        . intro i stage h
          obtain ⟨stage', emitted, h⟩ := exchanged i stage h
          refine ⟨stage', emitted, ?_⟩
          simp only [collectStages, List.map_map, List.getElem?_map, h, Option.map_some,
            Function.comp_apply]

/-- In each of the rounds a stage was handed `x` and emitted `o`. -/
def Exchanged (fuel rounds : Nat) (loops : Nat → FeedbackLoop) (i : Nat) (x o : Nat → Int) : Prop :=
  ∀ j < rounds, ∃ stage stage', (loops j).stages[i]? = some stage
    ∧ stage.nextOutput fuel [x (j + 1)] = .ok (some (o (j + 1))) stage'
    ∧ (loops (j + 1)).stages[i]? = some stage'.collect.2

theorem ahead_of_exchanged {fuel : Nat} {loops : Nat → FeedbackLoop} {i t : Nat} {x o : Nat → Int}
    {stage a : Program} {rest : List Int} (ready : stage.machine.Ready)
    (fresh : stage.state = .running) (h : (loops 0).stages[i]? = some stage)
    (exchanged : Exchanged fuel t loops i x o)
    (ahead : Ahead ((List.range t).map (fun j => x (j + 1)) ++ rest) stage a)
    : ∃ stage' a', (loops t).stages[i]? = some stage' ∧ stage'.machine.Ready
        ∧ (stage'.state = .running ∨ stage'.state = .suspended)
        ∧ Yields a ((List.range t).map fun j => .gave (o (j + 1))) a' ∧ Ahead rest stage' a' := by
  induction t generalizing rest with
  | zero => exact ⟨stage, a, h, ready, .inl fresh, .nil a, ahead⟩
  | succ t ih =>
    have exchanged' : Exchanged fuel t loops i x o :=
      fun j before => exchanged j (Nat.lt_succ_of_lt before)
    -- The input of the last round is one of those still to come in the rounds before.
    rw [List.range_succ, List.map_append, List.append_assoc] at ahead
    obtain ⟨stage₁, a₁, h₁, ready, open_, yields, ahead⟩ := ih exchanged' ahead
    obtain ⟨_, stage₂, same, emitted, h₂⟩ := exchanged t (Nat.lt_succ_self t)
    rw [h₁] at same
    cases same
    have called : Reply.ofResult (stage₁.nextOutput fuel [x (t + 1)])
        = (.gave (o (t + 1)), stage₂) := congrArg Reply.ofResult emitted
    obtain ⟨⟨a₂, yields', ahead⟩, -, ready⟩ :=
      nextOutput_ahead ready (free_of_nextOutput emitted) ahead called Reply.noConfusion
    have suspended := suspended_of_nextOutput emitted
    refine ⟨stage₂.collect.2, a₂, h₂, ready.collect, .inr suspended, ?_, ahead.collect⟩
    rw [List.range_succ, List.map_append]
    exact yields.append yields'

theorem load_eq_ok {image phases : List Int} {signal : Int} {config : Config} {loop : FeedbackLoop}
    (h : load image phases signal config = .ok loop)
    : load.go image config 0 phases = .ok loop.stages ∧ loop = { stages := loop.stages, signal } := by
  unfold load at h
  cases loaded : load.go image config 0 phases with
  | error e =>
    rw [loaded] at h
    contradiction
  | ok stages =>
    rw [loaded] at h
    cases h
    exact ⟨rfl, rfl⟩

section

variable {image phases : List Int} {signal : Int} {config : Config} {fuel t : Nat}
  {loops : Nat → FeedbackLoop}

theorem length_of_rounds (loaded : load image phases signal config = .ok (loops 0))
    (rounds : ∀ j < t, step fuel (loops j) = .ok true (loops (j + 1)))
    : (loops t).stages.length = phases.length ∧ (loops t).rounds = t := by
  induction t with
  | zero =>
    obtain ⟨loaded, fresh⟩ := load_eq_ok loaded
    rw [fresh]
    exact ⟨length_of_load_go loaded, rfl⟩
  | succ t ih =>
    obtain ⟨length, count⟩ := ih fun j before => rounds j (Nat.lt_succ_of_lt before)
    obtain ⟨counted, -, kept, -⟩ := signals_of_step (rounds t (Nat.lt_succ_self t))
    rw [kept, counted, length, count]
    exact ⟨rfl, rfl⟩

theorem signals_of_rounds (loaded : load image phases signal config = .ok (loops 0))
    (rounds : ∀ j < t, step fuel (loops j) = .ok true (loops (j + 1)))
    : ∃ s : Nat → Nat → Int,
        (∀ j, s j 0 = (loops j).signal)
        ∧ (∀ j < t, s j phases.length = (loops (j + 1)).signal)
        ∧ ∀ i < phases.length,
            Exchanged fuel t loops i (fun j => s (j - 1) i) (fun j => s (j - 1) (i + 1)) := by
  have signals : ∀ j, ∃ s : Nat → Int, s 0 = (loops j).signal ∧ (j < t →
      s phases.length = (loops (j + 1)).signal
      ∧ ∀ (i : Nat) (stage : Program), (loops j).stages[i]? = some stage →
          ∃ stage', stage.nextOutput fuel [s i] = .ok (some (s (i + 1))) stage'
            ∧ (loops (j + 1)).stages[i]? = some stage'.collect.2) := by
    intro j
    by_cases before : j < t
    . obtain ⟨-, -, -, s, first, last, exchanged⟩ := signals_of_step (rounds j before)
      have length := length_of_rounds loaded fun k h => rounds k (Nat.lt_trans h before)
      rw [length.1] at last
      exact ⟨s, first, fun _ => ⟨last, exchanged⟩⟩
    . exact ⟨fun _ => (loops j).signal, rfl, fun h => absurd h before⟩
  choose s first through using signals
  refine ⟨s, first, fun j before => (through j before).1, ?_⟩
  intro i inside j before
  have length := length_of_rounds loaded fun k h => rounds k (Nat.lt_trans h before)
  rw [← length.1] at inside
  obtain ⟨stage', emitted, next⟩ := (through j before).2 i _ (List.getElem?_eq_getElem inside)
  exact ⟨_, stage', List.getElem?_eq_getElem inside, emitted, next⟩

/--
The values that the stages are handed and emit flow through the loop as through a network of
streams, and each stage makes of its stream what a program of its own makes of it.
-/
theorem exists_streams_of_rounds (proper : config.width.Proper) (staged : phases ≠ [])
    (loaded : load image phases signal config = .ok (loops 0))
    (rounds : ∀ j < t, step fuel (loops j) = .ok true (loops (j + 1)))
    : ∃ x o : Nat → Nat → Int,
        x 0 1 = signal
        ∧ (∀ i j, i + 1 < phases.length → 1 ≤ j → j ≤ t → x (i + 1) j = o i j)
        ∧ (∀ j, 1 ≤ j → j < t → x 0 (j + 1) = o (phases.length - 1) j)
        ∧ (loops t).rounds = t
        ∧ (1 ≤ t → (loops t).signal = o (phases.length - 1) t
            ∧ (loops t).lastOutput = some (o (phases.length - 1) t))
        ∧ ∀ i phase, phases[i]? = some phase →
            Exchanged fuel t loops i (x i) (o i)
            ∧ ∃ stage p q, (loops t).stages[i]? = some stage
                ∧ Program.load image (phase :: (List.range t).map fun j => x i (j + 1)) config
                    = .ok p
                ∧ Yields p ((List.range t).map fun j => .gave (o i (j + 1))) q
                ∧ q.state = stage.state
                ∧ ∃ journal, q.machine = { stage.machine with journal } := by
  obtain ⟨s, first, last, exchanged⟩ := signals_of_rounds loaded rounds
  have staged : phases.length - 1 + 1 = phases.length :=
    Nat.sub_add_cancel (List.length_pos_iff.mpr staged)
  have emitted : ∀ j, 1 ≤ j → j ≤ t → (loops j).signal = s (j - 1) (phases.length - 1 + 1) := by
    intro j started before
    have through := last (j - 1) (by omega)
    rw [Nat.sub_add_cancel started] at through
    rw [staged, through]
  refine ⟨fun i j => s (j - 1) i, fun i j => s (j - 1) (i + 1), ?_, fun _ _ _ _ _ => rfl, ?_,
    (length_of_rounds loaded rounds).2, ?_, ?_⟩
  . show s 0 0 = signal
    rw [first, (load_eq_ok loaded).2]
  . intro j started before
    show s j 0 = s (j - 1) (phases.length - 1 + 1)
    rw [← emitted j started (Nat.le_of_lt before)]
    exact first j
  . intro started
    have emitted := emitted t started (Nat.le_refl t)
    have round := rounds (t - 1) (by omega)
    rw [Nat.sub_add_cancel started] at round
    have same := (signals_of_step round).2.1
    rw [emitted] at same
    exact ⟨emitted, same⟩
  . intro i phase phased
    have inside : i < phases.length := (List.getElem?_eq_some_iff.mp phased).1
    refine ⟨exchanged i inside, ?_⟩
    obtain ⟨stage, name, h, loaded⟩ := getElem?_of_load_go (load_eq_ok loaded).1 phased
    obtain ⟨m, fresh, rfl⟩ := load_iff.mp loaded
    -- The stage has its phase; the program by itself has the signals of all rounds, too.
    let inputs := (List.range t).map fun j => s j i
    have ahead : Ahead (inputs ++ []) { name, machine := m.push [phase] }
        { name := "program", machine := m.push (phase :: inputs) } := by
      refine ⟨rfl, m.journal, ?_⟩
      simp only [Machine.push, List.append_assoc, List.append_nil, List.singleton_append]
    have ready := (ready_of_load proper fresh).push [phase]
    obtain ⟨stage, q, h, -, going, yields, ahead⟩ :=
      ahead_of_exchanged ready rfl h (exchanged i inside) ahead
    refine ⟨stage, _, q, h, load_iff.mpr ⟨m, fresh, rfl⟩, yields, ?_⟩
    obtain ⟨same, journal, supplied⟩ := ahead.of_going going
    rw [List.append_nil] at supplied
    exact ⟨same, journal, supplied⟩

end

theorem exists_streams_of_rounds_waiting
    : let image : List Int := [3, 20, 3, 21, 1, 20, 21, 21, 4, 21, 4, 20, 1105, 1, 2]
      let config : Config := { width := .bits 12 }
      let machine : Machine := { width := .bits 12, memory := .ofImage image }
      let loops : Nat → FeedbackLoop :=
        Nat.rec
          { stages :=
              [{ name := stageName 0, machine := machine.push [5] },
                { name := stageName 1, machine := machine.push [6] }]
            signal := 1 }
          fun _ loop =>
            match step 9 loop with
            | .ok _ loop => loop
            | .error _ loop => loop
      config.width.Proper ∧ load image [5, 6] 1 config = .ok (loops 0)
        ∧ (∀ j < 3, step 9 (loops j) = .ok true (loops (j + 1)))
        ∧ ∃ x o : Nat → Nat → Int, x 0 1 = 1 ∧ x 1 3 = o 0 3 ∧ x 0 3 = o 1 2
          ∧ (loops 3).signal = o 1 3
          ∧ ∃ p q, Program.load image [6, x 1 1, x 1 2, x 1 3] config = .ok p
            ∧ Yields p [.gave (o 1 1), .gave (o 1 2), .gave (o 1 3)] q := by
  intro image config machine loops
  have proper : config.width.Proper := by decide
  have loaded : load image [5, 6] 1 config = .ok (loops 0) := rfl
  have flows : ∀ j < 3, outcome (step 9 (loops j)) = .ok true := by decide +kernel
  have rounds : ∀ j < 3, step 9 (loops j) = .ok true (loops (j + 1)) := by
    intro j before
    have stepped := eq_of_outcome_ok (flows j before)
    simp only [loops] at stepped ⊢
    rw [stepped]
  obtain ⟨x, o, first, wired, back, -, signal, stages⟩ :=
    @exists_streams_of_rounds image [5, 6] 1 config 9 3 loops proper (by decide) loaded rounds
  obtain ⟨-, -, p, q, -, loaded', yields, -⟩ := stages 1 6 rfl
  exact ⟨proper, loaded, rounds, x, o, first, wired 0 3 (by decide) (by decide) (by decide),
    back 2 (by decide) (by decide), (signal (by decide)).1, p, q, loaded', yields⟩

end Intcode.Amplifier.FeedbackLoop
