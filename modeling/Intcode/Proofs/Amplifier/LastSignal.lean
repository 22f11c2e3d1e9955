import Intcode.Proofs.Amplifier.Rounds
import Intcode.Proofs.Amplifier.Standstill
import Intcode.Proofs.Program.Sameness

namespace Intcode.Amplifier.FeedbackLoop

open Program

def emitted (replies : List Reply) : List Int :=
  replies.filterMap fun
    | .gave value => some value
    | _ => none

def handing (signals : List Int) : List Call :=
  signals.map fun signal => .next [signal]

def signals (fuel : Nat) : (bound : Nat) → FeedbackLoop → List Int
  | 0, _ => []
  | bound + 1, loop =>
    match step fuel loop with
    | .ok true loop => loop.signal :: signals fuel bound loop
    | _ => []

/-- The calls bring the one program to what the other is but for its reports, with these outputs. -/
def Reaches (fuel : Nat) (calls : List Call) (values : List Int) (p q : Program) : Prop :=
  ∃ replies p', session fuel calls p = (replies, p') ∧ emitted replies = values ∧ Same p' q

variable {fuel : Nat}

theorem emitted_append (replies replies' : List Reply)
    : emitted (replies ++ replies') = emitted replies ++ emitted replies' :=
  List.filterMap_append

theorem Reaches.refl (p : Program) : Reaches fuel [] [] p p :=
  ⟨[], p, rfl, rfl, .refl p⟩

theorem Reaches.trans {calls calls' : List Call} {values values' : List Int} {p q r : Program}
    (first : Reaches fuel calls values p q) (second : Reaches fuel calls' values' q r)
    : Reaches fuel (calls ++ calls') (values ++ values') p r := by
  obtain ⟨replies, p', driven, rfl, same⟩ := first
  obtain ⟨replies', q', driven', rfl, same'⟩ := second
  obtain ⟨replied, same⟩ := @Same.session fuel _ _ same calls'
  rw [driven'] at replied same
  refine ⟨replies ++ replies', (session fuel calls' p').2, ?_, emitted_append _ _, same.trans same'⟩
  rw [session_append, driven, ← replied]

theorem Reaches.same {calls : List Call} {values : List Int} {p q r : Program}
    (h : Reaches fuel calls values p q) (same : Same q r) : Reaches fuel calls values p r := by
  obtain ⟨replies, p', driven, gave, same'⟩ := h
  exact ⟨replies, p', driven, gave, same'.trans same⟩

theorem reaches_of_ok {inputs : List Int} {out : Option Int} {p q : Program}
    (h : p.nextOutput fuel inputs = .ok out q) : Reaches fuel [.next inputs] out.toList p q := by
  cases out with
  | none =>
    exact ⟨[.ended], q, by simp only [session, Call.perform, h, Reply.ofResult], rfl, .refl q⟩
  | some value =>
    exact ⟨[.gave value], q, by simp only [session, Call.perform, h, Reply.ofResult], rfl, .refl q⟩

theorem reaches_of_error {inputs : List Int} {e : Failure} {p q : Program}
    (h : p.nextOutput fuel inputs = .error e q) : Reaches fuel [.next inputs] [] p q :=
  ⟨[.failed e], q, by simp only [session, Call.perform, h, Reply.ofResult], rfl, .refl q⟩

theorem reaches_of_relay {signal : Int} {stages stages' : List Program} {out : Option Int}
    {first : Program} (h : relay fuel signal stages = (.ok out, stages'))
    (here : stages.getLast? = some first)
    : ∃ handed last, stages'.getLast? = some last
        ∧ Reaches fuel (handing handed) out.toList first last := by
  induction stages generalizing signal stages' with
  | nil => contradiction
  | cons stage stages ih =>
    unfold relay at h
    split at h
    . cases h
      exact ⟨[], first, here, .refl first⟩
    . rw [List.getLast?_cons] at here
      split at h
      . next next stage' gave =>
        generalize relayed : relay fuel next stages = result at h
        obtain ⟨outcome, stages''⟩ := result
        cases h
        cases last : stages.getLast? with
        | none =>
          rw [List.getLast?_eq_none_iff.mp last] at here relayed
          cases here
          cases relayed
          exact ⟨[signal], stage', rfl, reaches_of_ok gave⟩
        | some final =>
          rw [last] at here
          cases here
          obtain ⟨handed, final', last', reaches⟩ := ih relayed last
          refine ⟨handed, final', ?_, reaches⟩
          rw [List.getLast?_cons, last']
          rfl
      . next stage' ended =>
        cases h
        cases last : stages.getLast? with
        | none =>
          rw [List.getLast?_eq_none_iff.mp last] at here ⊢
          cases here
          exact ⟨[signal], stage', rfl, reaches_of_ok ended⟩
        | some final =>
          rw [last] at here
          cases here
          refine ⟨[], final, ?_, .refl final⟩
          rw [List.getLast?_cons, last]
          rfl
      . cases h

theorem getLast?_collectStages {loop : FeedbackLoop} {last : Program}
    (here : loop.stages.getLast? = some last)
    : loop.collectStages.stages.getLast? = some last.collect.2 := by
  simp only [collectStages, List.map_map, List.getLast?_map, here]
  rfl

theorem reaches_of_step {loop loop' : FeedbackLoop} {flows : Bool} {first : Program}
    (h : step fuel loop = .ok flows loop') (here : loop.stages.getLast? = some first)
    : ∃ handed last, loop'.stages.getLast? = some last
        ∧ Reaches fuel (handing handed) (if flows then [loop'.signal] else []) first last := by
  unfold step at h
  split at h
  . cases h
    exact ⟨[], first, here, .refl first⟩
  . generalize relayed : relay fuel loop.signal loop.stages = result at h
    obtain ⟨outcome, stages⟩ := result
    cases outcome with
    | error e => cases h
    | ok out =>
      obtain ⟨handed, last, there, reaches⟩ := reaches_of_relay relayed here
      have collected : { loop with stages }.collectStages.stages.getLast? = some last.collect.2 :=
        getLast?_collectStages there
      have reaches := reaches.same (same_collect last)
      cases out with
      | none =>
        cases h
        exact ⟨handed, last.collect.2, collected, reaches⟩
      | some out =>
        cases h
        exact ⟨handed, last.collect.2, collected, reaches⟩

theorem handing_append (handed handed' : List Int)
    : handing handed ++ handing handed' = handing (handed ++ handed') :=
  List.map_append.symm

theorem reaches_of_stepAll {bound : Nat} {loop loop' : FeedbackLoop} {first : Program}
    (h : stepAll fuel bound loop = .ok () loop') (here : loop.stages.getLast? = some first)
    : ∃ handed last, loop'.stages.getLast? = some last
        ∧ Reaches fuel (handing handed) (signals fuel bound loop) first last := by
  -- The stage is followed from one round to the next, whatever the others do.
  induction bound generalizing loop first with
  | zero => cases h
  | succ bound ih =>
    unfold stepAll at h
    unfold signals
    generalize stepped : step fuel loop = result at h
    cases result with
    | error e _ => cases h
    | ok flows loop₁ =>
      obtain ⟨handed, mid, there, reaches⟩ := reaches_of_step stepped here
      cases flows with
      | false =>
        cases h
        exact ⟨handed, mid, there, reaches⟩
      | true =>
        obtain ⟨handed', last, there', reaches'⟩ := ih h there
        refine ⟨handed ++ handed', last, there', ?_⟩
        rw [← handing_append]
        exact reaches.trans reaches'

theorem tally_of_stepAll {bound : Nat} {loop loop' : FeedbackLoop}
    (h : stepAll fuel bound loop = .ok () loop')
    : loop'.rounds = loop.rounds + (signals fuel bound loop).length
        ∧ loop'.lastOutput = (signals fuel bound loop).getLast?.or loop.lastOutput := by
  induction bound generalizing loop with
  | zero => cases h
  | succ bound ih =>
    unfold stepAll at h
    unfold signals
    generalize stepped : step fuel loop = result at h
    cases result with
    | error e _ => cases h
    | ok flows loop₁ =>
      cases flows with
      | false =>
        cases h
        have same := step_cases fuel loop
        rw [stepped] at same
        obtain ⟨-, -, _, clash, -⟩ | ⟨-, -, -, lastOutput, rounds⟩ := same
        . cases clash
        . exact ⟨rounds, lastOutput⟩
      | true =>
        obtain ⟨rounds, lastOutput, -⟩ := signals_of_step stepped
        obtain ⟨rounds', lastOutput'⟩ := ih h
        rw [rounds', lastOutput', rounds, lastOutput, List.length_cons, List.getLast?_cons,
          Nat.add_assoc, Nat.add_comm 1]
        refine ⟨rfl, ?_⟩
        cases (signals fuel bound loop₁).getLast? <;> rfl

theorem reaches_of_drainStage {bound : Nat} {p q : Program}
    (h : drainStage fuel bound p = .ok () q)
    : ∃ count, Reaches fuel (List.replicate count (.next [])) (take fuel bound p).1.values p q := by
  induction bound generalizing p with
  | zero => cases h
  | succ bound ih =>
    unfold drainStage at h
    unfold take
    split at h
    . next halted =>
      cases h
      rw [if_pos halted]
      exact ⟨0, .refl _⟩
    . next going =>
      rw [if_neg going]
      split at h
      . next ended =>
        cases h
        rw [ended]
        exact ⟨1, reaches_of_ok ended⟩
      . next gave =>
        obtain ⟨count, reaches⟩ := ih h
        rw [gave]
        exact ⟨count + 1, (reaches_of_ok gave).trans reaches⟩
      . next stalled =>
        cases h
        rw [stalled]
        exact ⟨1, (reaches_of_error stalled).same (same_record _ _)⟩
      . cases h

theorem reaches_of_drainAll {stages stages' : List Program} {p : Program}
    (h : drainAll fuel stages = (.ok (), stages')) (here : stages.getLast? = some p)
    : ∃ count q, stages'.getLast? = some q
        ∧ Reaches fuel (List.replicate count (.next [])) (take fuel fuel p).1.values p q := by
  induction stages generalizing stages' with
  | nil => contradiction
  | cons stage stages ih =>
    unfold drainAll at h
    rw [List.getLast?_cons] at here
    split at h
    . next stage' drained =>
      generalize rest : drainAll fuel stages = result at h
      obtain ⟨outcome, stages''⟩ := result
      cases h
      cases last : stages.getLast? with
      | none =>
        rw [List.getLast?_eq_none_iff.mp last] at here rest
        cases here
        cases rest
        obtain ⟨count, reaches⟩ := reaches_of_drainStage drained
        exact ⟨count, stage', rfl, reaches⟩
      | some final =>
        rw [last] at here
        cases here
        obtain ⟨count, q, last', reaches⟩ := ih rest last
        refine ⟨count, q, ?_, reaches⟩
        rw [List.getLast?_cons, last']
        rfl
    . cases h

theorem reaches_of_drain {loop loop' : FeedbackLoop} {p : Program}
    (h : drain fuel loop = .ok () loop') (here : loop.stages.getLast? = some p)
    : ∃ count q, loop'.stages.getLast? = some q
        ∧ Reaches fuel (List.replicate count (.next [])) (take fuel fuel p).1.values p q := by
  unfold drain at h
  generalize drained : drainAll fuel loop.stages = result at h
  obtain ⟨outcome, stages⟩ := result
  cases outcome with
  | error e => cases h
  | ok _ =>
    cases h
    obtain ⟨count, q, there, reaches⟩ := reaches_of_drainAll drained here
    exact ⟨count, q.collect.2, getLast?_collectStages there, reaches.same (same_collect q)⟩

theorem take_eq_nil_iff {count : Nat} {p : Program} (allowed : count ≠ 0)
    : (take fuel count p).1.values = []
        ↔ ∀ value, outcome (p.nextOutput fuel []) ≠ .ok (some value) := by
  obtain ⟨count, rfl⟩ := Nat.exists_eq_succ_of_ne_zero allowed
  unfold take
  split
  . next halted =>
    obtain ⟨fault, obstacle⟩ := obstacle?_of_isHalted halted
    simp [nextOutput, obstacle, outcome]
  . cases p.nextOutput fuel [] with
    | error e q => simp [outcome]
    | ok out q => cases out <;> simp [outcome]

/--
The result of a run is the last signal that came round, and there is none if no round was completed.
What the final stage emits while it is left to run on is not looked at. There is nothing of it if
the stage has nothing more to give when the rounds are over.
-/
theorem run_returns_last_signal {image phases : List Int} {signal : Int} {config : Config}
    {start loop : FeedbackLoop} {result : Option Int} {fuel : Nat} (staged : phases ≠ [])
    (loaded : load image phases signal config = .ok start) (ran : run fuel start = .ok result loop)
    : ∃ handed count first mid last late,
        start.stages.getLast? = some first ∧ loop.stages.getLast? = some last
        ∧ Reaches fuel (handing handed) (signals fuel fuel start) first mid
        ∧ Reaches fuel (List.replicate count (.next [])) late mid last
        ∧ late = (take fuel fuel mid).1.values
        ∧ result = (signals fuel fuel start).getLast?
        ∧ loop.rounds = (signals fuel fuel start).length
        ∧ (result = none ↔ loop.rounds = 0)
        ∧ (late = [] ↔ ∀ value, outcome (mid.nextOutput fuel []) ≠ .ok (some value)) := by
  obtain ⟨primed, fresh⟩ := load_eq_ok loaded
  have nonempty : start.stages ≠ [] := by
    rw [← List.length_pos_iff, length_of_load_go primed]
    exact List.length_pos_iff.mpr staged
  have here := List.getLast?_eq_some_getLast nonempty
  generalize start.stages.getLast nonempty = first at here
  rw [run_eq] at ran
  generalize stepped : stepAll fuel fuel start = outcome at ran
  cases outcome with
  | error e stopped => cases ran
  | ok _ stopped =>
    dsimp only at ran
    generalize drained : drain fuel stopped = outcome at ran
    cases outcome with
    | error e ended => cases ran
    | ok _ ended =>
      cases ran
      obtain ⟨handed, mid, there, reaches⟩ := reaches_of_stepAll stepped here
      obtain ⟨count, last, there', reaches'⟩ := reaches_of_drain drained there
      obtain ⟨rounds, lastOutput⟩ := tally_of_stepAll stepped
      obtain ⟨-, lastOutput', rounds'⟩ := drain_tally fuel stopped
      rw [drained] at lastOutput' rounds'
      rw [fresh] at rounds lastOutput
      rw [Nat.zero_add, ← fresh] at rounds
      rw [Option.or_none, ← fresh] at lastOutput
      have result : ended.lastOutput = _ := lastOutput'.trans lastOutput
      have counted : ended.rounds = _ := rounds'.trans rounds
      refine ⟨handed, _, first, mid, last, _, here, there', reaches, reaches', rfl, result, counted,
        ?_, ?_⟩
      . rw [result, List.getLast?_eq_none_iff, counted, List.length_eq_zero_iff]
      . apply take_eq_nil_iff
        rintro rfl
        cases stepped

theorem run_returns_last_signal_late
    : let image : List Int := [3, 13, 3, 14, 4, 14, 1005, 13, 11, 104, 7, 99]
      let machine : Machine := { width := .unbounded, memory := .ofImage image }
      let start : FeedbackLoop :=
        { stages :=
            [{ name := stageName 0, machine := machine.push [1] },
              { name := stageName 1, machine := machine.push [0] }]
          signal := 5 }
      FeedbackLoop.load image [1, 0] 5 = .ok start
        ∧ ∃ loop count mid last, run 9 start = .ok (some 5) loop ∧ loop.rounds = 1
          ∧ loop.stages.getLast? = some last
          ∧ Reaches 9 (List.replicate count (.next [])) (take 9 9 mid).1.values mid last := by
  intro image machine start
  have loaded : FeedbackLoop.load image [1, 0] 5 = .ok start := rfl
  have returned : outcome (run 9 start) = .ok (some 5) := by decide +kernel
  have ran := eq_of_outcome_ok returned
  obtain ⟨-, count, -, mid, last, -, -, there, -, reaches, rfl, -, rounds, -⟩ :=
    run_returns_last_signal (by decide) loaded ran
  have once : (signals 9 9 start).length = 1 := by decide +kernel
  exact ⟨loaded, _, count, mid, last, ran, rounds.trans once, there, reaches⟩

theorem run_misses_late_signal
    : let image : List Int := [3, 13, 3, 14, 4, 14, 1005, 13, 11, 104, 7, 99]
      let start : FeedbackLoop :=
        { stages :=
            [{ name := stageName 0
               machine := { width := .unbounded, memory := .ofImage image, inputs := [1] } },
              { name := stageName 1
                machine := { width := .unbounded, memory := .ofImage image, inputs := [0] } }]
          signal := 5 }
      FeedbackLoop.load image [1, 0] 5 = .ok start
        ∧ ∃ loop first last values, run 9 start = .ok (some 5) loop
          ∧ start.stages.getLast? = some first ∧ loop.stages.getLast? = some last
          ∧ Reaches 9 [.next [5], .next [], .next []] values first last
          ∧ values.getLast? = some 7 := by
  intro image start
  have returned : outcome (run 9 start) = .ok (some 5) := by decide +kernel
  let first : Program :=
    { name := stageName 1
      machine := { width := .unbounded, memory := .ofImage image, inputs := [0] } }
  let calls : List Call := [.next [5], .next [], .next []]
  let p := (session 9 calls first).2
  have replied : (session 9 calls first).1 = [.gave 5, .gave 7, .ended] := by decide +kernel
  have left : (endState (run 9 start)).stages.getLast? = some p.collect.2 := by decide +kernel
  refine ⟨rfl, _, first, p.collect.2, [5, 7], eq_of_outcome_ok returned, rfl, left, ?_, rfl⟩
  exact ⟨_, p, Prod.ext replied rfl, rfl, same_collect p⟩

end Intcode.Amplifier.FeedbackLoop
