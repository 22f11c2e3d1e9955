import Intcode.Proofs.Amplifier.Breakdown
import Intcode.Proofs.Program.History

/-!
Standstills: feedback loops in which a stage has halted. Whatever is done with such a loop, no round
of it gets the signal to its end any more.
-/
namespace Intcode.Amplifier.FeedbackLoop

open Program

inductive Operation where
  | step
  | run
  | onStage (index : Nat) (call : Call)
  deriving Repr, DecidableEq

def begun (fuel : Nat) : (bound : Nat) → FeedbackLoop → List FeedbackLoop
  | 0, _ => []
  | bound + 1, loop =>
    loop ::
      match step fuel loop with
      | .ok true loop => begun fuel bound loop
      | _ => []

namespace Operation

def perform (fuel : Nat) : Operation → FeedbackLoop → FeedbackLoop
  | step, loop => endState (FeedbackLoop.step fuel loop)
  | run, loop => endState (FeedbackLoop.run fuel loop)
  | onStage index call, loop =>
    { loop with stages := loop.stages.modify index fun p => (call.perform fuel p).2 }

def begins (fuel : Nat) : Operation → FeedbackLoop → List FeedbackLoop
  | step, loop => [loop]
  | run, loop => begun fuel fuel loop
  | onStage .., _ => []

end Operation

def drive (fuel : Nat) : List Operation → FeedbackLoop → FeedbackLoop
  | [], loop => loop
  | op :: ops, loop => drive fuel ops (op.perform fuel loop)

def history (fuel : Nat) : List Operation → FeedbackLoop → List FeedbackLoop
  | [], _ => []
  | op :: ops, loop => op.begins fuel loop ++ history fuel ops (op.perform fuel loop)

def emissions (fuel : Nat) : (signal : Int) → List Program → List Int
  | _, [] => []
  | signal, stage :: rest =>
    match stage.nextOutput fuel [signal] with
    | .ok (some next) _ => next :: emissions fuel next rest
    | _ => []

def isFull (fuel : Nat) (loop : FeedbackLoop) : Bool :=
  loop.stages ≠ [] ∧ (emissions fuel loop.signal loop.stages).length = loop.stages.length

def Still (stages : List Program) : Prop :=
  stages = [] ∨ ∃ stage ∈ stages, stage.isHalted = true

structure Standstill (origin loop : FeedbackLoop) : Prop where
  still : Still loop.stages
  signal : loop.signal = origin.signal
  lastOutput : loop.lastOutput = origin.lastOutput
  rounds : loop.rounds = origin.rounds

def Tallied (loop : FeedbackLoop) : Prop :=
  loop.lastOutput = if loop.rounds = 0 then none else some loop.signal

variable {fuel : Nat}

theorem obstacle?_of_isHalted {p : Program} (h : p.isHalted = true)
    : ∃ fault, p.obstacle? = some fault := by
  have halted : p.state = .halted := by simpa [Program.isHalted] using h
  unfold obstacle?
  rw [halted]
  exact ⟨_, rfl⟩

theorem perform_of_isHalted {p : Program} (h : p.isHalted = true) (call : Call)
    : (call.perform fuel p).2 = p := by
  obtain ⟨fault, obstacle⟩ := obstacle?_of_isHalted h
  rw [(perform_of_obstacle obstacle fuel call).1]

theorem drainStage_of_isHalted {stage : Program} (h : stage.isHalted = true) (fuel bound : Nat)
    : endState (drainStage fuel bound stage) = stage := by
  cases bound with
  | zero => rfl
  | succ bound =>
    unfold drainStage
    rw [if_pos h]
    rfl

theorem isHalted_of_nextOutput {p p' : Program} {inputs : List Int} (h : p.Coherent)
    (ended : p.nextOutput fuel inputs = .ok none p') : p'.isHalted = true := by
  simp [Program.isHalted, halted_of_nextOutput h ended]

theorem mem_relay {signal : Int} {stages : List Program} {stage : Program} (mem : stage ∈ stages)
    (halted : stage.isHalted = true) : stage ∈ (relay fuel signal stages).2 := by
  induction stages generalizing signal with
  | nil => contradiction
  | cons first stages ih =>
    unfold relay
    split
    . exact mem
    . next going =>
      have mem : stage ∈ stages := by
        refine (List.mem_cons.mp mem).resolve_left ?_
        rintro rfl
        contradiction
      split
      . exact List.mem_cons_of_mem _ (ih mem)
      . exact List.mem_cons_of_mem _ mem
      . exact List.mem_cons_of_mem _ mem

theorem mem_drainAll {stages : List Program} {stage : Program} (mem : stage ∈ stages)
    (halted : stage.isHalted = true) : stage ∈ (drainAll fuel stages).2 := by
  induction stages with
  | nil => contradiction
  | cons first stages ih =>
    unfold drainAll
    rw [List.mem_cons] at mem
    cases mem with
    | inl same =>
      subst same
      have unchanged := drainStage_of_isHalted halted fuel fuel
      split
      . next drained =>
        rw [drained] at unchanged
        exact List.mem_cons.mpr (.inl unchanged.symm)
      . next drained =>
        rw [drained] at unchanged
        exact List.mem_cons.mpr (.inl unchanged.symm)
    | inr mem =>
      split
      . exact List.mem_cons_of_mem _ (ih mem)
      . exact List.mem_cons_of_mem _ mem

namespace Still

theorem relay {stages : List Program} (h : Still stages) (fuel : Nat) (signal : Int)
    : Still (relay fuel signal stages).2 := by
  obtain rfl | ⟨stage, mem, halted⟩ := h
  . exact .inl rfl
  . exact .inr ⟨stage, mem_relay mem halted, halted⟩

theorem drainAll {stages : List Program} (h : Still stages) (fuel : Nat)
    : Still (drainAll fuel stages).2 := by
  obtain rfl | ⟨stage, mem, halted⟩ := h
  . exact .inl rfl
  . exact .inr ⟨stage, mem_drainAll mem halted, halted⟩

theorem collectStages {loop : FeedbackLoop} (h : Still loop.stages)
    : Still loop.collectStages.stages := by
  simp only [FeedbackLoop.collectStages, List.map_map]
  obtain none | ⟨stage, mem, halted⟩ := h
  . rw [none]
    exact .inl rfl
  . exact .inr ⟨stage.collect.2, List.mem_map_of_mem mem, halted⟩

theorem modify {stages : List Program} (h : Still stages) (index : Nat) (call : Call)
    : Still (stages.modify index fun p => (call.perform fuel p).2) := by
  obtain rfl | ⟨stage, mem, halted⟩ := h
  . exact .inl (List.modify_nil _ _)
  . obtain ⟨i, here⟩ := List.mem_iff_getElem?.mp mem
    refine .inr ⟨stage, List.mem_iff_getElem?.mpr ⟨i, ?_⟩, halted⟩
    -- A stage that has halted refuses the call.
    rw [List.getElem?_modify, here]
    refine congrArg some ?_
    split
    . exact perform_of_isHalted halted call
    . rfl

end Still

theorem still_of_relay {signal : Int} {stages stages' : List Program}
    (coherent : ∀ stage ∈ stages, stage.Coherent)
    (h : relay fuel signal stages = (.ok none, stages'))
    : ∃ stage ∈ stages', stage.isHalted = true := by
  induction stages generalizing signal stages' with
  | nil => cases h
  | cons stage stages ih =>
    obtain ⟨first, others⟩ := List.forall_mem_cons.mp coherent
    unfold relay at h
    split at h
    . next halted =>
      cases h
      exact ⟨stage, List.mem_cons_self, halted⟩
    . split at h
      . next next stage' emitted =>
        generalize relayed : relay fuel next stages = result at h
        obtain ⟨result, stages''⟩ := result
        cases h
        obtain ⟨halted, mem, done⟩ := ih others relayed
        exact ⟨halted, List.mem_cons_of_mem _ mem, done⟩
      . next stage' ended =>
        cases h
        exact ⟨stage', List.mem_cons_self, isHalted_of_nextOutput first ended⟩
      . cases h

theorem isHalted_of_relay {signal out : Int} {stages stages' : List Program}
    (h : relay fuel signal stages = (.ok (some out), stages'))
    : ∀ stage ∈ stages, stage.isHalted = false := by
  obtain ⟨s, -, -, -, exchanged⟩ := signals_of_relay h
  intro stage mem
  obtain ⟨i, here⟩ := List.mem_iff_getElem?.mp mem
  obtain ⟨stage', emitted, -⟩ := exchanged i stage here
  have going := (obstacle?_eq_none_iff.mp (free_of_nextOutput emitted)).1
  simpa [Program.isHalted] using going

theorem relay_eq_some_iff (signal : Int) (stages : List Program)
    : (∃ out, (relay fuel signal stages).1 = .ok (some out))
        ↔ (emissions fuel signal stages).length = stages.length := by
  induction stages generalizing signal with
  | nil => simp [relay, emissions]
  | cons stage stages ih =>
    unfold relay emissions
    by_cases halted : stage.isHalted = true
    . obtain ⟨fault, obstacle⟩ := obstacle?_of_isHalted halted
      simp [halted, nextOutput, obstacle]
    . rw [if_neg halted]
      cases stage.nextOutput fuel [signal] with
      | error e stage' => simp
      | ok out stage' =>
        cases out with
        | none => simp
        | some next => simpa using ih next

theorem isHalted_eq_false {loop : FeedbackLoop} {stage : Program} (mem : stage ∈ loop.stages)
    (going : stage.isHalted = false) : loop.isHalted = false := by
  rw [← Bool.not_eq_true]
  intro halted
  have := List.all_eq_true.mp halted stage mem
  rw [going] at this
  contradiction

theorem step_cases (fuel : Nat) (loop : FeedbackLoop)
    : (loop.isFull fuel = true ∧ (∀ stage ∈ loop.stages, stage.isHalted = false)
        ∧ ∃ loop', step fuel loop = .ok true loop' ∧ loop'.rounds = loop.rounds + 1
          ∧ loop'.lastOutput = some loop'.signal)
      ∨ loop.isFull fuel = false ∧ outcome (step fuel loop) ≠ .ok true
        ∧ (endState (step fuel loop)).signal = loop.signal
        ∧ (endState (step fuel loop)).lastOutput = loop.lastOutput
        ∧ (endState (step fuel loop)).rounds = loop.rounds := by
  by_cases full : loop.isFull fuel = true
  . obtain ⟨staged, emitted⟩ : loop.stages ≠ [] ∧ _ := by simpa [isFull] using full
    obtain ⟨out, passed⟩ := (relay_eq_some_iff loop.signal loop.stages).mpr emitted
    have relayed : relay fuel loop.signal loop.stages = (.ok (some out), _) := Prod.ext passed rfl
    have going := isHalted_of_relay relayed
    obtain ⟨stage, mem⟩ := List.exists_mem_of_ne_nil _ staged
    refine .inl ⟨full, going, ?_⟩
    unfold step
    rw [isHalted_eq_false mem (going stage mem), relayed]
    exact ⟨_, rfl, rfl, rfl⟩
  . rw [Bool.not_eq_true] at full
    refine .inr ⟨full, ?_⟩
    unfold step
    split
    . exact ⟨nofun, rfl, rfl, rfl⟩
    . next going =>
      generalize relayed : relay fuel loop.signal loop.stages = result
      obtain ⟨result, stages⟩ := result
      cases result with
      | error e => exact ⟨nofun, rfl, rfl, rfl⟩
      | ok out =>
        cases out with
        | none => exact ⟨nofun, rfl, rfl, rfl⟩
        | some out =>
          have emitted := (relay_eq_some_iff loop.signal loop.stages).mp ⟨out, by rw [relayed]⟩
          have staged : loop.stages ≠ [] := by
            intro none
            rw [isHalted, none] at going
            contradiction
          rw [isFull, decide_eq_false_iff_not] at full
          exact absurd ⟨staged, emitted⟩ full

theorem still_step {loop : FeedbackLoop} (h : Still loop.stages)
    : Still (endState (step fuel loop)).stages := by
  have relayed := h.relay fuel loop.signal
  unfold step
  split
  . exact h
  . generalize relay fuel loop.signal loop.stages = result at relayed ⊢
    obtain ⟨result, stages⟩ := result
    have collected : Still { loop with stages }.collectStages.stages := relayed.collectStages
    cases result with
    | error e => exact collected
    | ok out =>
      cases out with
      | none => exact collected
      | some out => exact collected

theorem still_of_step {loop : FeedbackLoop} (coherent : loop.Throughout Coherent)
    (stopped : outcome (step fuel loop) = .ok false)
    : Still (endState (step fuel loop)).stages := by
  unfold step at stopped ⊢
  split
  . next halted =>
    cases staged : loop.stages with
    | nil => exact .inl staged
    | cons stage stages =>
      have mem : stage ∈ loop.stages := by
        rw [staged]
        exact List.mem_cons_self
      exact .inr ⟨stage, mem, List.all_eq_true.mp halted stage mem⟩
  . next going =>
    rw [if_neg going] at stopped
    generalize relayed : relay fuel loop.signal loop.stages = result at stopped ⊢
    obtain ⟨result, stages⟩ := result
    cases result with
    | error e => cases stopped
    | ok out =>
      cases out with
      | none =>
        have still : Still { loop with stages }.stages := .inr (still_of_relay coherent relayed)
        exact still.collectStages
      | some out => cases stopped

theorem step_of_still {loop : FeedbackLoop} (h : Still loop.stages) (fuel : Nat)
    : outcome (step fuel loop) ≠ .ok true
        ∧ (endState (step fuel loop)).signal = loop.signal
        ∧ (endState (step fuel loop)).lastOutput = loop.lastOutput
        ∧ (endState (step fuel loop)).rounds = loop.rounds := by
  cases step_cases fuel loop with
  | inr left => exact left.2
  | inl full =>
    obtain ⟨full, going, -⟩ := full
    obtain ⟨staged, -⟩ : loop.stages ≠ [] ∧ _ := by simpa [isFull] using full
    obtain none | ⟨stage, mem, halted⟩ := h
    . exact absurd none staged
    . rw [going stage mem] at halted
      contradiction

theorem drain_tally (fuel : Nat) (loop : FeedbackLoop)
    : (endState (drain fuel loop)).signal = loop.signal
        ∧ (endState (drain fuel loop)).lastOutput = loop.lastOutput
        ∧ (endState (drain fuel loop)).rounds = loop.rounds := by
  unfold drain
  generalize drainAll fuel loop.stages = result
  obtain ⟨result, stages⟩ := result
  cases result with
  | error e => exact ⟨rfl, rfl, rfl⟩
  | ok _ => exact ⟨rfl, rfl, rfl⟩

namespace Standstill

variable {origin loop : FeedbackLoop}

theorem of_step (coherent : loop.Throughout Coherent)
    (stopped : outcome (FeedbackLoop.step fuel loop) = .ok false)
    : Standstill loop (endState (FeedbackLoop.step fuel loop)) := by
  obtain ⟨full, -, loop', flows, -⟩ | ⟨-, -, signal, lastOutput, rounds⟩ := step_cases fuel loop
  . rw [flows] at stopped
    cases stopped
  . exact ⟨still_of_step coherent stopped, signal, lastOutput, rounds⟩

theorem step (h : Standstill origin loop) (fuel : Nat)
    : Standstill origin (endState (FeedbackLoop.step fuel loop)) := by
  obtain ⟨-, signal, lastOutput, rounds⟩ := step_of_still h.still fuel
  exact ⟨still_step h.still, signal.trans h.signal, lastOutput.trans h.lastOutput,
    rounds.trans h.rounds⟩

theorem drain (h : Standstill origin loop)
    : Standstill origin (endState (FeedbackLoop.drain fuel loop)) := by
  obtain ⟨signal, lastOutput, rounds⟩ := drain_tally fuel loop
  refine ⟨?_, signal.trans h.signal, lastOutput.trans h.lastOutput, rounds.trans h.rounds⟩
  have drained := h.still.drainAll fuel
  unfold FeedbackLoop.drain
  generalize FeedbackLoop.drainAll fuel loop.stages = result at drained ⊢
  obtain ⟨result, stages⟩ := result
  have collected : Still { loop with stages }.collectStages.stages := drained.collectStages
  cases result with
  | error e => exact collected
  | ok _ => exact collected

theorem stepAll (fuel bound : Nat) (h : Standstill origin loop)
    : Standstill origin (endState (FeedbackLoop.stepAll fuel bound loop))
      ∧ ∀ r ∈ begun fuel bound loop, Standstill origin r := by
  cases bound with
  | zero => exact ⟨h, List.forall_mem_nil _⟩
  | succ bound =>
    have stopped := (step_of_still h.still fuel).1
    have stepped := h.step fuel
    unfold FeedbackLoop.stepAll begun
    generalize FeedbackLoop.step fuel loop = result at stopped stepped ⊢
    cases result with
    | error e loop' => exact ⟨stepped, List.forall_mem_singleton.mpr h⟩
    | ok flows loop' =>
      cases flows with
      | true => contradiction
      | false => exact ⟨stepped, List.forall_mem_singleton.mpr h⟩

theorem perform (h : Standstill origin loop) (fuel : Nat) (op : Operation)
    : Standstill origin (op.perform fuel loop)
        ∧ ∀ r ∈ op.begins fuel loop, Standstill origin r := by
  cases op with
  | step => exact ⟨h.step fuel, List.forall_mem_singleton.mpr h⟩
  | run =>
    obtain ⟨ended, began⟩ := h.stepAll fuel fuel
    refine ⟨?_, began⟩
    show Standstill origin (endState (FeedbackLoop.run fuel loop))
    unfold FeedbackLoop.run
    apply endState_bind ended
    intro _ loop h
    apply endState_bind h.drain
    intro _ loop h
    exact ⟨h.still, h.signal, h.lastOutput, h.rounds⟩
  | onStage index call =>
    exact ⟨⟨h.still.modify index call, h.signal, h.lastOutput, h.rounds⟩, List.forall_mem_nil _⟩

theorem drive (h : Standstill origin loop) (ops : List Operation)
    : ∀ l ∈ history fuel ops loop ++ [FeedbackLoop.drive fuel ops loop], Standstill origin l := by
  induction ops generalizing loop with
  | nil => exact List.forall_mem_singleton.mpr h
  | cons op ops ih =>
    obtain ⟨performed, began⟩ := h.perform fuel op
    unfold history FeedbackLoop.drive
    rw [List.append_assoc, List.forall_mem_append]
    exact ⟨began, ih performed⟩

end Standstill

theorem coherent_kept (fuel : Nat) : Kept fuel Coherent Coherent :=
  ⟨nextOutput_keeps_coherent _, fun _ h => h.record _, fun _ h => h.collect, fun _ h => h⟩

theorem perform_keeps_coherent {p : Program} (h : p.Coherent) (call : Call)
    : (call.perform fuel p).2.Coherent := by
  cases call with
  | feed values =>
    simp only [Call.perform, feed]
    cases p.obstacle? with
    | some fault => exact h
    | none => exact h.push values
  | next inputs =>
    rw [perform_next]
    exact nextOutput_keeps_coherent _ inputs p h

theorem perform_coherent {loop : FeedbackLoop} (h : loop.Throughout Coherent) (fuel : Nat)
    (op : Operation)
    : (op.perform fuel loop).Throughout Coherent := by
  cases op with
  | step => exact step_keeps (coherent_kept fuel) h
  | run => exact run_keeps (coherent_kept fuel) h
  | onStage index call =>
    intro stage mem
    obtain ⟨i, modified⟩ := List.mem_iff_getElem?.mp mem
    simp only [Operation.perform, List.getElem?_modify] at modified
    obtain ⟨stage, here, rfl⟩ := Option.map_eq_some_iff.mp modified
    have coherent := h stage (List.mem_of_getElem? here)
    split
    . exact perform_keeps_coherent coherent call
    . exact coherent

theorem standstill_of_begun {bound : Nat} {loop stopped : FeedbackLoop}
    {before later : List FeedbackLoop} (coherent : loop.Throughout Coherent)
    (h : begun fuel bound loop = before ++ stopped :: later)
    (ended : outcome (step fuel stopped) = .ok false)
    : later = [] ∧ Standstill stopped (endState (stepAll fuel bound loop)) := by
  induction bound generalizing loop before with
  | zero => cases before <;> contradiction
  | succ bound ih =>
    have stepped := step_keeps (coherent_kept fuel) coherent
    unfold begun at h
    cases before with
    | nil =>
      injection h with same h
      subst same
      have still := Standstill.of_step coherent ended
      unfold stepAll
      generalize step fuel loop = result at ended still h
      cases result with
      | error e loop' => cases ended
      | ok flows loop' =>
        cases ended
        exact ⟨h.symm, still⟩
    | cons first before =>
      injection h with _ h
      unfold stepAll
      generalize step fuel loop = result at stepped h
      cases result with
      | error e loop' => cases before <;> contradiction
      | ok flows loop' =>
        cases flows with
        | false => cases before <;> contradiction
        | true => exact ih stepped h

theorem standstill_of_begins {op : Operation} {loop stopped : FeedbackLoop}
    {before later : List FeedbackLoop} (coherent : loop.Throughout Coherent)
    (h : op.begins fuel loop = before ++ stopped :: later)
    (ended : outcome (step fuel stopped) = .ok false)
    : later = [] ∧ Standstill stopped (op.perform fuel loop) := by
  cases op with
  | onStage index call => cases before <;> contradiction
  | step =>
    obtain ⟨rfl, rfl, rfl⟩ : before = [] ∧ loop = stopped ∧ later = [] := by
      cases before with
      | nil =>
        cases h
        exact ⟨rfl, rfl, rfl⟩
      | cons first before =>
        injection h with _ h
        cases before <;> contradiction
    exact ⟨rfl, .of_step coherent ended⟩
  | run =>
    obtain ⟨last, still⟩ := standstill_of_begun coherent h ended
    refine ⟨last, ?_⟩
    show Standstill stopped (endState (run fuel loop))
    unfold run
    apply endState_bind still
    intro _ loop h
    apply endState_bind h.drain
    intro _ loop h
    exact ⟨h.still, h.signal, h.lastOutput, h.rounds⟩

theorem standstill_of_history {ops : List Operation} {loop stopped : FeedbackLoop}
    {before later : List FeedbackLoop} (coherent : loop.Throughout Coherent)
    (h : history fuel ops loop = before ++ stopped :: later)
    (ended : outcome (step fuel stopped) = .ok false)
    : ∀ l ∈ later ++ [drive fuel ops loop], Standstill stopped l := by
  induction ops generalizing loop before with
  | nil => cases before <;> contradiction
  | cons op ops ih =>
    have performed := perform_coherent coherent fuel op
    unfold history at h
    unfold drive
    cases List.append_eq_append_iff.mp h with
    | inl behind =>
      obtain ⟨before, -, h⟩ := behind
      exact ih performed h
    | inr within =>
      obtain ⟨states, begins, rest⟩ := within
      cases states with
      | nil =>
        rw [← List.nil_append (stopped :: later)] at rest
        exact ih performed rest.symm
      | cons first states =>
        cases rest
        obtain ⟨rfl, still⟩ := standstill_of_begins coherent begins ended
        exact still.drive ops

def Counts (fuel : Nat) (rounds : List FeedbackLoop) (loop loop' : FeedbackLoop) : Prop :=
  loop'.rounds = loop.rounds + rounds.countP (·.isFull fuel) ∧ (Tallied loop → Tallied loop')

theorem Counts.append {rounds rounds' : List FeedbackLoop} {loop₁ loop₂ loop₃ : FeedbackLoop}
    (first : Counts fuel rounds loop₁ loop₂) (second : Counts fuel rounds' loop₂ loop₃)
    : Counts fuel (rounds ++ rounds') loop₁ loop₃ := by
  refine ⟨?_, fun tallied => second.2 (first.2 tallied)⟩
  rw [second.1, first.1, List.countP_append, Nat.add_assoc]

theorem Counts.of_same {loop loop' : FeedbackLoop} (signal : loop'.signal = loop.signal)
    (lastOutput : loop'.lastOutput = loop.lastOutput) (rounds : loop'.rounds = loop.rounds)
    : Counts fuel [] loop loop' := by
  refine ⟨rounds, ?_⟩
  unfold Tallied
  rw [signal, lastOutput, rounds]
  exact id

theorem counts_step (fuel : Nat) (loop : FeedbackLoop)
    : Counts fuel [loop] loop (endState (step fuel loop)) := by
  cases step_cases fuel loop with
  | inl passed =>
    obtain ⟨full, -, loop', stepped, rounds, lastOutput⟩ := passed
    rw [stepped]
    refine ⟨?_, fun _ => ?_⟩
    . rw [List.countP_singleton, if_pos full]
      exact rounds
    . show loop'.lastOutput = _
      rw [show (endState (EStateM.Result.ok true loop')).rounds = loop.rounds + 1 from rounds]
      exact lastOutput
  | inr left =>
    obtain ⟨uneven, -, signal, lastOutput, rounds⟩ := left
    have same : Counts fuel [] loop _ := .of_same signal lastOutput rounds
    refine ⟨?_, same.2⟩
    rw [List.countP_singleton, uneven]
    exact rounds

theorem counts_stepAll (bound : Nat) (loop : FeedbackLoop)
    : Counts fuel (begun fuel bound loop) loop (endState (stepAll fuel bound loop)) := by
  induction bound generalizing loop with
  | zero => exact .of_same rfl rfl rfl
  | succ bound ih =>
    have first := counts_step fuel loop
    unfold stepAll begun
    cases stepped : step fuel loop with
    | error e loop' =>
      rw [stepped] at first
      exact first
    | ok flows loop' =>
      rw [stepped] at first
      cases flows with
      | false => exact first
      | true => exact first.append (ih loop')

theorem counts_perform (op : Operation) (loop : FeedbackLoop)
    : Counts fuel (op.begins fuel loop) loop (op.perform fuel loop) := by
  cases op with
  | step => exact counts_step fuel loop
  | onStage index call => exact .of_same rfl rfl rfl
  | run =>
    show Counts fuel (begun fuel fuel loop) loop (endState (run fuel loop))
    unfold run
    apply endState_bind (counts_stepAll fuel loop)
    intro _ loop' first
    have drained : Counts fuel (begun fuel fuel loop ++ []) loop (endState (drain fuel loop')) := by
      obtain ⟨signal, lastOutput, rounds⟩ := drain_tally fuel loop'
      exact first.append (.of_same signal lastOutput rounds)
    rw [List.append_nil] at drained
    apply endState_bind drained
    intro _ loop' counted
    exact counted

theorem counts_drive (fuel : Nat) (ops : List Operation) (loop : FeedbackLoop)
    : Counts fuel (history fuel ops loop) loop (drive fuel ops loop) := by
  induction ops generalizing loop with
  | nil => exact .of_same rfl rfl rfl
  | cons op ops ih => exact (counts_perform op loop).append (ih _)

/--
A loop counts the rounds in which all of its stages emit, and its last output is what it hands to
the first stage next. Once a round has not got the signal to its end, none does any more, and signal
and count stay as they were, whatever is done with the loop and with its stages.
-/
theorem rounds_count_full_until_stopped {image phases : List Int} {signal : Int} {config : Config}
    {start : FeedbackLoop} (proper : config.width.Proper)
    (loaded : load image phases signal config = .ok start) (fuel : Nat) (ops : List Operation)
    : let rounds := history fuel ops start
      let loop := drive fuel ops start
      loop.rounds = rounds.countP (·.isFull fuel)
      ∧ (loop.lastOutput = none ↔ loop.rounds = 0)
      ∧ (0 < loop.rounds → loop.lastOutput = some loop.signal)
      ∧ ∀ (before later : List FeedbackLoop) (stopped : FeedbackLoop),
        rounds = before ++ stopped :: later → outcome (step fuel stopped) = .ok false
          → ∀ l ∈ later ++ [loop],
            (∀ fuel', outcome (step fuel' l) ≠ .ok true)
            ∧ l.signal = stopped.signal ∧ l.lastOutput = stopped.lastOutput
            ∧ l.rounds = stopped.rounds := by
  intro rounds loop
  obtain ⟨-, fresh⟩ := load_eq_ok loaded
  have coherent : start.Throughout Coherent :=
    fun stage mem => (load_idle proper loaded stage mem).1
  obtain ⟨counted, tallied⟩ := counts_drive fuel ops start
  have counted : loop.rounds = rounds.countP (·.isFull fuel) := by
    have unstarted : start.rounds = 0 := by rw [fresh]
    rw [counted, unstarted, Nat.zero_add]
  have tallied : loop.lastOutput = if loop.rounds = 0 then none else some loop.signal := by
    apply tallied
    rw [fresh]
    rfl
  refine ⟨counted, ?_, ?_, ?_⟩
  . rw [tallied]
    split
    . next none => simp [none]
    . next some => simp [some]
  . intro started
    rw [tallied, if_neg (Nat.ne_of_gt started)]
  . intro before later stopped split ended l mem
    have still := standstill_of_history coherent split ended l mem
    exact ⟨fun fuel' => (step_of_still still.still fuel').1, still.signal, still.lastOutput,
      still.rounds⟩

theorem rounds_count_full_until_stopped_uneven
    : let image : List Int := [3, 15, 3, 16, 4, 16, 101, -1, 15, 15, 1005, 15, 2, 99]
      let config : Config := { width := .bits 12 }
      let machine : Machine := { width := .bits 12, memory := .ofImage image }
      let start : FeedbackLoop :=
        { stages :=
            [{ name := stageName 0, machine := machine.push [3] },
              { name := stageName 1, machine := machine.push [1] }]
          signal := 5 }
      let ops : List Operation := [.step, .step, .onStage 0 (.feed [7]), .run, .step]
      let rounds := history 9 ops start
      let loop := drive 9 ops start
      config.width.Proper ∧ load image [3, 1] 5 config = .ok start
        ∧ rounds.length = 4 ∧ rounds.countP (·.isFull 9) = 1
        ∧ (∃ stopped, rounds[1]? = some stopped ∧ outcome (step 9 stopped) = .ok false
          ∧ (∀ fuel', outcome (step fuel' loop) ≠ .ok true) ∧ loop.signal = stopped.signal)
        ∧ loop.rounds = 1 ∧ loop.lastOutput = some loop.signal := by
  intro image config machine start ops rounds loop
  have proper : config.width.Proper := by decide
  have loaded : load image [3, 1] 5 config = .ok start := rfl
  obtain ⟨counted, -, signal, still⟩ := rounds_count_full_until_stopped proper loaded 9 ops
  have once : loop.rounds = 1 := by decide +kernel
  have second : rounds[1]?.map (fun l => outcome (step 9 l)) = some (.ok false) := by decide +kernel
  obtain ⟨stopped, here, ended⟩ := Option.map_eq_some_iff.mp second
  obtain ⟨inside, there⟩ := List.getElem?_eq_some_iff.mp here
  have split : rounds = rounds.take 1 ++ stopped :: rounds.drop 2 := by
    rw [← there, ← List.drop_eq_getElem_cons inside, List.take_append_drop]
  have mem : loop ∈ rounds.drop 2 ++ [loop] := List.mem_append_right _ List.mem_cons_self
  obtain ⟨never, kept, -⟩ := still _ _ _ split ended loop mem
  exact ⟨proper, loaded, by decide +kernel, counted.symm.trans once,
    ⟨stopped, here, ended, never, kept⟩, once, signal (once ▸ Nat.one_pos)⟩

end Intcode.Amplifier.FeedbackLoop
