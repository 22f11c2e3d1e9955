import Intcode.Proofs.Program.Intake
import Intcode.Proofs.Program.Schedule

namespace Intcode.Program

open Machine

variable {fuel : Nat} {rest : List Int} {a a' b p : Program}

theorem Yields.nextOutput {reply : Reply} (h : Yields a [reply] a')
    : ∃ enough, ∀ fuel ≥ enough, Reply.ofResult (a.nextOutput fuel []) = (reply, a') := by
  obtain ⟨enough, h⟩ := h
  refine ⟨enough, ?_⟩
  intro fuel more
  obtain ⟨_, _, _, called, driven, replied⟩ := session_cons (h fuel more)
  cases driven
  cases replied
  exact called

theorem Yields.result {reply : Reply} {result : EStateM.Result Failure Program (Option Int)}
    (h : Yields a [reply] a') (replied : Reply.ofResult result = (reply, a'))
    : ∃ enough, ∀ fuel ≥ enough, a.nextOutput fuel [] = result := by
  obtain ⟨enough, h⟩ := h.nextOutput
  refine ⟨enough, ?_⟩
  intro fuel more
  exact Reply.ofResult_injective ((h fuel more).trans replied.symm)

theorem Yields.unique {reply reply' : Reply} {a'' : Program} (h : Yields a [reply] a')
    (h' : Yields a [reply'] a'') : reply = reply' ∧ a' = a'' := by
  obtain ⟨enough, h⟩ := h.nextOutput
  obtain ⟨enough', h'⟩ := h'.nextOutput
  have called := h (max enough enough') (Nat.le_max_left _ _)
  rw [h' _ (Nat.le_max_right _ _)] at called
  cases called
  exact ⟨rfl, rfl⟩

theorem Yields.coherent {reply : Reply} (h : Yields a [reply] a') (coherent : a.Coherent)
    : a'.Coherent := by
  obtain ⟨enough, called⟩ := h.nextOutput
  have kept := nextOutput_keeps_coherent enough [] a coherent
  rw [← Reply.snd_ofResult, called enough (Nat.le_refl enough)] at kept
  exact kept

theorem Yields.going {value : Int} (h : Yields a [.gave value] a') : a'.obstacle? = none := by
  obtain ⟨enough, gave⟩ := h.result (rfl : Reply.ofResult (.ok (some value) a') = _)
  exact free_of_gave (gave enough (Nat.le_refl enough))

theorem yields_of_nextOutput {reply : Reply}
    (called : Reply.ofResult (a.nextOutput fuel []) = (reply, a'))
    (returned : reply ≠ .failed .outOfFuel) : Yields a [reply] a' := by
  refine ⟨fuel, ?_⟩
  intro fuel' more
  have same : a.nextOutput fuel' [] = a.nextOutput fuel [] := by
    apply nextOutput_mono more
    intro p spent
    rw [spent] at called
    cases called
    contradiction
  simp only [List.length_singleton, List.replicate_one, session, Call.perform, same, called]

theorem Yields.eq_of_nil (h : Yields a [] a') : a' = a := by
  obtain ⟨enough, h⟩ := h
  cases h enough (Nat.le_refl enough)
  rfl

theorem Yields.ahead {reply : Reply} {b' : Program} (h : Yields b [reply] b')
    (ready : b.machine.Ready) (free : b.obstacle? = none) (ahead : Ahead rest b a)
    (returned : reply ≠ .failed .outOfFuel)
    : (∃ a', Yields a ([reply].filter (·.isTelling)) a' ∧ Ahead rest b' a')
      ∧ reply.isRefusal = false := by
  obtain ⟨enough, called⟩ := h.nextOutput
  have ahead : Ahead ([] ++ rest) b a := ahead
  obtain ⟨told, accepted, -⟩ :=
    nextOutput_ahead ready free ahead (called enough (Nat.le_refl enough)) returned
  exact ⟨told, accepted⟩

theorem nextOutput_push (free : p.obstacle? = none) (inputs : List Int) (fuel : Nat)
    : { p with machine := p.machine.push inputs }.nextOutput fuel []
        = p.nextOutput fuel inputs := by
  have free' : { p with machine := p.machine.push inputs }.obstacle? = none := free
  rw [nextOutput_of_free free, nextOutput_of_free free', push_nil]

theorem Ahead.returns (h : Ahead rest b a) (coherent : b.Coherent) (free : b.obstacle? = none)
    (returned : ∀ p, a.nextOutput fuel [] ≠ .error .outOfFuel p)
    : ∃ fuel', ∀ p, b.nextOutput fuel' [] ≠ .error .outOfFuel p := by
  cases returns_or_goes_on coherent free [] with
  | inl returns =>
    obtain ⟨fuel', returns⟩ := returns
    refine ⟨fuel', ?_⟩
    intro p spent
    apply returns
    simp only [Call.perform, spent]
    rfl
  | inr forever =>
    -- The other program goes the same way and does not get to the end of it either.
    obtain ⟨free', j, n, path, supplied⟩ := h.path free
    obtain ⟨b', path'⟩ := forever fuel
    rw [push_nil] at path'
    obtain ⟨n', path'', -⟩ := path'.supplied coherent.ready supplied
    obtain ⟨m, spent⟩ := run_of_long_path (path.trans path'') (Nat.le_add_left fuel j)
    apply absurd _ (returned { name := a.name, machine := m, state := .running })
    rw [nextOutput_of_free free', push_nil, spent]
    rfl

theorem Ahead.starved (h : Ahead [] b a) (coherent : b.Coherent)
    (awaiting : b.state = .awaitingInput) (empty : b.machine.inputs = [])
    : ∃ fuel a', a.nextOutput fuel []
        = .error (.fault { cause := .inputExhausted, ip := some b.machine.ip }) a' := by
  unfold Ahead at h
  rw [awaiting] at h
  obtain ⟨free, k, n, path, journal, rfl⟩ := h
  obtain ⟨instr, next, opcode, direct⟩ := instruction?_of_awaiting coherent awaiting
  have stalled := needInput_of_empty
    (m := { b.machine with inputs := b.machine.inputs ++ [], journal })
    coherent.ready.start next opcode direct (by rw [empty]; rfl)
  have stops : Stops _ (.ok .needInput _) := stalled
  refine ⟨k + 1, ?_⟩
  rw [nextOutput_of_free free, push_nil, run_of_path path stops (Nat.lt_succ_self k)]
  exact ⟨_, rfl⟩

end Intcode.Program
