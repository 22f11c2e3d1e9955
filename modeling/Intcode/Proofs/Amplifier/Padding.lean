import Intcode.Amplifier.Tuning
import Intcode.Proofs.Program.Padding
import Mathlib.Data.List.Forall2

namespace Intcode

namespace Amplifier

theorem runStages_padded {config : Config} (proper : config.width.Proper) (fuel : Nat)
    (image : List Int) (extra index : Nat) (phases : List Int) (signal : Int)
    : Agree Failure.Alike (· = ·) (runStages fuel image config index phases signal).result
        (runStages fuel (image ++ List.replicate extra 0) config index phases signal).result := by
  induction phases generalizing index signal with
  | nil => exact .ok rfl
  | cons phase rest ih =>
    unfold runStages
    simp only [Report.result_bind, Program.result_report]
    apply Agree.bind (Program.load_padded proper image [phase] extra (stageName index))
    intro p q h
    apply Agree.bind (h.nextOutput fuel [signal]).outcome
    rintro out _ rfl
    cases out with
    | none => exact .error (.same _)
    | some next => exact ih (index + 1) next

namespace FeedbackLoop

theorem isHalted_padded {p q : Program} (h : p.Padded q) : q.isHalted = p.isHalted := by
  unfold Program.isHalted
  rw [h.state]

theorem all_isHalted_padded {stages stages' : List Program}
    (h : List.Forall₂ Program.Padded stages stages')
    : stages'.all (·.isHalted) = stages.all (·.isHalted) := by
  induction h with
  | nil => rfl
  | cons h _ ih => rw [List.all_cons, List.all_cons, isHalted_padded h, ih]

theorem relay_padded {stages stages' : List Program}
    (h : List.Forall₂ Program.Padded stages stages') (fuel : Nat) (signal : Int)
    : Agree Failure.Alike (· = ·) (relay fuel signal stages).1 (relay fuel signal stages').1
      ∧ List.Forall₂ Program.Padded (relay fuel signal stages).2 (relay fuel signal stages').2 := by
  induction h generalizing signal with
  | nil => exact ⟨.ok rfl, .nil⟩
  | @cons p q stages stages' h others ih =>
    unfold relay
    rw [isHalted_padded h]
    split
    . exact ⟨.ok rfl, .cons h others⟩
    . have next := h.nextOutput fuel [signal]
      generalize p.nextOutput fuel [signal] = r at next ⊢
      generalize q.nextOutput fuel [signal] = r' at next ⊢
      cases next with
      | error alike h => exact ⟨.error alike, .cons h others⟩
      | @ok out p q h =>
        cases out with
        | none => exact ⟨.ok rfl, .cons h others⟩
        | some next =>
          obtain ⟨same, others⟩ := ih next
          exact ⟨same, .cons h others⟩

structure Padded (loop loop' : FeedbackLoop) : Prop where
  stages : List.Forall₂ Program.Padded loop.stages loop'.stages
  signal : loop'.signal = loop.signal
  lastOutput : loop'.lastOutput = loop.lastOutput
  rounds : loop'.rounds = loop.rounds

variable {loop loop' : FeedbackLoop}

theorem Padded.isHalted (h : Padded loop loop') : loop'.isHalted = loop.isHalted := by
  unfold FeedbackLoop.isHalted
  exact all_isHalted_padded h.stages

theorem Padded.collectStages (h : Padded loop loop')
    : Padded loop.collectStages loop'.collectStages := by
  refine { h with stages := ?_ }
  simp only [FeedbackLoop.collectStages, List.map_map, List.forall₂_map_left_iff,
    List.forall₂_map_right_iff]
  apply h.stages.imp
  intro p q h
  exact ⟨h.name, h.state, { h.machine with }⟩

theorem Padded.step (h : Padded loop loop') (fuel : Nat)
    : Paired Failure.Alike Padded (step fuel loop) (step fuel loop') := by
  unfold FeedbackLoop.step
  rw [h.isHalted]
  split
  . exact .ok h
  . obtain ⟨same, stages⟩ := relay_padded h.stages fuel loop.signal
    generalize relay fuel loop.signal loop.stages = r at same stages ⊢
    rw [← h.signal] at same stages
    generalize relay fuel loop'.signal loop'.stages = r' at same stages ⊢
    obtain ⟨outcome, stages₁⟩ := r
    obtain ⟨outcome', stages₁'⟩ := r'
    have collected : Padded { loop with stages := stages₁ }.collectStages
        { loop' with stages := stages₁' }.collectStages :=
      Padded.collectStages { h with stages }
    cases same with
    | error alike => exact .error alike collected
    | @ok signal _ same =>
      cases same
      cases signal with
      | none => exact .ok collected
      | some signal =>
        exact .ok
          { collected with
            signal := rfl, lastOutput := rfl, rounds := congrArg (· + 1) collected.rounds }

theorem drainStage_padded {p q : Program} (h : p.Padded q) (fuel bound : Nat)
    : Paired Failure.Alike Program.Padded (drainStage fuel bound p) (drainStage fuel bound q) := by
  induction bound generalizing p q with
  | zero => exact .error (.same _) h
  | succ bound ih =>
    unfold drainStage
    show Paired _ _ (if p.isHalted then _ else _) (if q.isHalted then _ else _)
    rw [isHalted_padded h]
    split
    . exact .ok h
    . have next := h.nextOutput fuel []
      generalize p.nextOutput fuel [] = r at next ⊢
      generalize q.nextOutput fuel [] = r' at next ⊢
      cases next with
      | @ok out p q h =>
        cases out with
        | none => exact .ok h
        | some value => exact ih h
      | @error e e' p q alike h =>
        cases alike with
        | ranOff ip => exact .error (.ranOff ip) h
        | same =>
          cases e with
          | fault fault =>
            obtain ⟨cause, ip⟩ := fault
            cases cause with
            | inputExhausted => exact .ok ⟨h.name, h.state, { h.machine with }⟩
            | _ => exact .error (.same _) h
          | _ => exact .error (.same _) h

theorem drainAll_padded {stages stages' : List Program}
    (h : List.Forall₂ Program.Padded stages stages') (fuel : Nat)
    : Agree Failure.Alike (· = ·) (drainAll fuel stages).1 (drainAll fuel stages').1
      ∧ List.Forall₂ Program.Padded (drainAll fuel stages).2 (drainAll fuel stages').2 := by
  induction h with
  | nil => exact ⟨.ok rfl, .nil⟩
  | @cons p q stages stages' h others ih =>
    have drained := drainStage_padded h fuel fuel
    unfold drainAll
    generalize drainStage fuel fuel p = r at drained ⊢
    generalize drainStage fuel fuel q = r' at drained ⊢
    cases drained with
    | error alike h => exact ⟨.error alike, .cons h others⟩
    | ok h => exact ⟨ih.1, .cons h ih.2⟩

theorem Padded.drain (h : Padded loop loop') (fuel : Nat)
    : Paired Failure.Alike Padded (drain fuel loop) (drain fuel loop') := by
  obtain ⟨same, stages⟩ := drainAll_padded h.stages fuel
  unfold FeedbackLoop.drain
  generalize drainAll fuel loop.stages = r at same stages ⊢
  generalize drainAll fuel loop'.stages = r' at same stages ⊢
  obtain ⟨outcome, stages₁⟩ := r
  obtain ⟨outcome', stages₁'⟩ := r'
  have collected : Padded { loop with stages := stages₁ }.collectStages
      { loop' with stages := stages₁' }.collectStages :=
    Padded.collectStages { h with stages }
  cases same with
  | error alike => exact .error alike collected
  | ok _ => exact .ok collected

theorem Padded.stepAll (h : Padded loop loop') (fuel bound : Nat)
    : Paired Failure.Alike Padded (stepAll fuel bound loop) (stepAll fuel bound loop') := by
  induction bound generalizing loop loop' with
  | zero => exact .error (.same _) h
  | succ bound ih =>
    have stepped := h.step fuel
    unfold FeedbackLoop.stepAll
    generalize FeedbackLoop.step fuel loop = r at stepped ⊢
    generalize FeedbackLoop.step fuel loop' = r' at stepped ⊢
    cases stepped with
    | error alike h => exact .error alike h
    | @ok flows _ _ h =>
      cases flows with
      | true => exact ih h
      | false => exact .ok h

theorem Padded.run (h : Padded loop loop') (fuel : Nat)
    : Paired Failure.Alike Padded (run fuel loop) (run fuel loop') := by
  unfold FeedbackLoop.run
  apply Paired.bind (h.stepAll fuel fuel)
  intro _ loop loop' h
  apply Paired.bind (h.drain fuel)
  intro _ loop loop' h
  show Paired _ _ (.ok loop.lastOutput _) (.ok loop'.lastOutput _)
  rw [h.lastOutput]
  exact .ok { h with lastOutput := rfl }

theorem load_go_padded {config : Config} (proper : config.width.Proper) (image : List Int)
    (extra index : Nat) (phases : List Int)
    : Agree Failure.Alike (List.Forall₂ Program.Padded) (load.go image config index phases)
        (load.go (image ++ List.replicate extra 0) config index phases) := by
  induction phases generalizing index with
  | nil => exact .ok .nil
  | cons phase rest ih =>
    unfold load.go
    apply Agree.bind (Program.load_padded proper image [phase] extra (stageName index))
    intro p q h
    apply Agree.bind (ih (index + 1))
    intro stages stages' others
    exact .ok (.cons h others)

theorem load_padded {config : Config} (proper : config.width.Proper) (image : List Int)
    (extra : Nat) (phases : List Int) (signal : Int)
    : Agree Failure.Alike Padded (load image phases signal config)
        (load (image ++ List.replicate extra 0) phases signal config) := by
  have loaded := load_go_padded proper image extra 0 phases
  unfold load
  generalize load.go image config 0 phases = r at loaded ⊢
  generalize load.go (image ++ List.replicate extra 0) config 0 phases = r' at loaded ⊢
  cases loaded with
  | ok stages => exact .ok ⟨stages, rfl, rfl, rfl⟩
  | error alike => exact .error alike

theorem result_report (x : EStateM Failure FeedbackLoop α) (loop : FeedbackLoop)
    : (report x loop).result = outcome (x loop) := by
  unfold report
  cases x loop with
  | ok a loop => rfl
  | error e loop => rfl

end FeedbackLoop

theorem runFeedbackLoop_padded {config : Config} (proper : config.width.Proper) (fuel : Nat)
    (image : List Int) (extra : Nat) (phases : List Int) (signal : Int)
    : Agree Failure.Alike (· = ·) (runFeedbackLoop fuel image phases signal config).result
        (runFeedbackLoop fuel (image ++ List.replicate extra 0) phases signal config).result := by
  unfold runFeedbackLoop
  simp only [Report.result_bind, FeedbackLoop.result_report]
  apply Agree.bind (FeedbackLoop.load_padded proper image extra phases signal)
  intro loop loop' h
  exact (h.run fuel).outcome

theorem Layout.run_padded {config : Config} (proper : config.width.Proper) (layout : Layout)
    (fuel : Nat) (image : List Int) (extra : Nat) (phases : List Int) (signal : Int)
    : Agree Failure.Alike (· = ·) (layout.run fuel image phases signal config).result
        (layout.run fuel (image ++ List.replicate extra 0) phases signal config).result := by
  cases layout with
  | chain =>
    unfold Layout.run
    simp only [Report.result_bind]
    apply Agree.bind (runStages_padded proper fuel image extra 0 phases signal)
    rintro out _ rfl
    exact .ok rfl
  | feedback => exact runFeedbackLoop_padded proper fuel image extra phases signal

theorem maxSignal_go_padded {config : Config} (proper : config.width.Proper) (layout : Layout)
    (fuel : Nat) (image : List Int) (extra : Nat) (best : Option (Int × List Int))
    (orders : List (List Int))
    : Agree Failure.Alike (· = ·) (maxSignal.go fuel image layout config best orders).result
        (maxSignal.go fuel (image ++ List.replicate extra 0) layout config best orders).result := by
  induction orders generalizing best with
  | nil => exact .ok rfl
  | cons order rest ih =>
    unfold maxSignal.go
    simp only [Report.result_bind]
    apply Agree.bind (layout.run_padded proper fuel image extra order initialSignal)
    rintro signal _ rfl
    exact ih (better best signal order)

theorem maxSignal_padded {config : Config} (proper : config.width.Proper) (layout : Layout)
    (fuel : Nat) (image : List Int) (extra : Nat) (phases : List Int)
    : Agree Failure.Alike (· = ·) (maxSignal fuel image layout phases config).result
        (maxSignal fuel (image ++ List.replicate extra 0) layout phases config).result := by
  unfold maxSignal
  simp only [Report.result_bind]
  apply Agree.bind (maxSignal_go_padded proper layout fuel image extra none (permutations phases))
  rintro best _ rfl
  cases best with
  | none => exact .error (.same _)
  | some best => exact .ok rfl

end Amplifier

open Amplifier

/--
Zeros at the end of the memory are never noticed, but where a machine runs off the end of the
shorter memory it may find a zero in the longer one, which is no instruction either. So they make no
difference to what programs and amplifiers come to.
-/
theorem padding_unobservable {m n : Machine} {config : Config} (padded : m.Padded n)
    (proper : config.width.Proper) (image : List Int) (extra : Nat)
    : let longer := image ++ List.replicate extra 0
      (∀ k, (m.after k).Padded (n.after k)
          ∧ Agree Failure.Alike (· = ·) (outcome (m.after k).step) (outcome (n.after k).step)
          ∧ (outcome (m.after k).step = .ok (some .output) →
              (n.after (k + 1)).pending = (m.after (k + 1)).pending))
        ∧ (∀ fuel inputs,
            Agree Failure.Alike (· = ·) (runToCompletion fuel image inputs config).result
              (runToCompletion fuel longer inputs config).result)
        ∧ (∀ fuel noun verb,
            Agree Failure.Alike PaddedCells (finalMemory fuel image noun verb config).result
              (finalMemory fuel longer noun verb config).result)
        ∧ (∀ fuel target candidates,
            Agree Failure.Alike (· = ·) (searchNounVerb fuel image target candidates config).result
              (searchNounVerb fuel longer target candidates config).result)
        ∧ (∀ fuel phases signal,
            Agree Failure.Alike (· = ·) (runChain fuel image phases signal config).result
              (runChain fuel longer phases signal config).result)
        ∧ (∀ fuel phases signal,
            Agree Failure.Alike (· = ·) (runFeedbackLoop fuel image phases signal config).result
              (runFeedbackLoop fuel longer phases signal config).result)
        ∧ ∀ fuel layout phases,
            Agree Failure.Alike (· = ·) (maxSignal fuel image layout phases config).result
              (maxSignal fuel longer layout phases config).result := by
  refine ⟨?_, ?_, ?_, ?_, ?_, ?_, ?_⟩
  . intro k
    have padded := padded.after k
    exact ⟨padded, padded.step.outcome, padded.emitted⟩
  . intro fuel inputs
    exact runToCompletion_padded proper fuel image inputs extra
  . intro fuel noun verb
    exact finalMemory_padded proper fuel image extra noun verb
  . intro fuel target candidates
    exact searchNounVerb_padded proper fuel image extra target candidates
  . intro fuel phases signal
    exact runStages_padded proper fuel image extra 0 phases signal
  . intro fuel phases signal
    exact runFeedbackLoop_padded proper fuel image extra phases signal
  . intro fuel layout phases
    exact maxSignal_padded proper layout fuel image extra phases

theorem padding_unobservable_jump
    : let leap : List Int := [1106, 0, 9]
      let m : Machine := { width := .bits 8, memory := .ofImage leap }
      let n : Machine := { width := .bits 8, memory := .ofImage (leap ++ List.replicate 8 0) }
      let config : Config := { width := .bits 12 }
      -- This one is going to halt on an instruction that it writes behind its image.
      let image : List Int := [1101, 98, 1, 9, 104, 42, 1105, 1, 9]
      m.Padded n ∧ config.width.Proper
        ∧ outcome (m.after 1).step = .error (.fault { cause := .ranOffEnd, ip := some 9 })
        ∧ outcome (n.after 1).step
            = .error (.fault { cause := .unknownOpcode 0 0, ip := some 9 })
        ∧ (m.after 1).Padded (n.after 1)
        ∧ (runToCompletion 9 (image ++ List.replicate 5 0) [] config).result = .ok [42]
        ∧ ∃ cells, (finalMemory 9 (image ++ List.replicate 5 0) none none config).result
            = .ok cells ∧ PaddedCells (image ++ [99]).toArray cells := by
  intro leap m n config image
  have padded : m.Padded n :=
    ⟨by decide, rfl, rfl, rfl, rfl, rfl, Memory.padded_ofImage leap 8⟩
  have proper : config.width.Proper := by decide
  obtain ⟨lockstep, completion, final, -⟩ := padding_unobservable padded proper image 5
  have outputs : (runToCompletion 9 image [] config).result = .ok [42] := by decide +kernel
  have memory : (finalMemory 9 image none none config).result = .ok (image ++ [99]).toArray := by
    decide +kernel
  have final := final 9 none none
  rw [memory] at final
  refine ⟨padded, proper, by decide +kernel, by decide +kernel, (lockstep 1).1,
    ((completion 9 []).ok_iff [42]).mp outputs, ?_⟩
  generalize (finalMemory 9 (image ++ List.replicate 5 0) none none config).result = r at final ⊢
  cases final with
  | ok same => exact ⟨_, rfl, same⟩

end Intcode
