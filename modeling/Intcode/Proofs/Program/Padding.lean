import Intcode.Proofs.Machine.Load
import Intcode.Proofs.Machine.Padding
import Intcode.Proofs.Program.Outcome

namespace Intcode

namespace Machine

theorem load_go_padded {m n : Machine} (h : Padded m n) (proper : m.width.Proper) (addr : Int)
    (image : List Int) (extra : Nat)
    : Agree Failure.Alike Padded (load.go m addr image)
        (load.go n addr (image ++ List.replicate extra 0)) := by
  have proper' : n.width.Proper := h.width ▸ proper
  induction image generalizing addr with
  | nil =>
    have zeros : load.go n addr (List.replicate extra 0) = .ok n := by
      rw [load_go_iff proper']
      refine ⟨rfl, ?_⟩
      intro value mem
      rw [List.eq_of_mem_replicate mem]
      exact Width.holds_zero proper'
    rw [List.nil_append, zeros]
    exact .ok h
  | cons value rest ih =>
    rw [List.cons_append]
    unfold load.go
    by_cases holds : m.width.Holds value
    . have holds' : n.width.Holds value := h.width ▸ holds
      rw [requireFits_of_holds proper holds, requireFits_of_holds proper' holds']
      exact ih (addr + 1)
    . have holds' : ¬ n.width.Holds value := h.width ▸ holds
      rw [requireFits_of_not_holds proper holds, requireFits_of_not_holds proper' holds', h.width]
      unfold fail
      rw [h.ip]
      exact .error (.same _)

theorem load_padded {config : Config} (proper : config.width.Proper) (image : List Int)
    (extra : Nat)
    : Agree Failure.Alike Padded (load image config)
        (load (image ++ List.replicate extra 0) config) := by
  unfold load
  refine load_go_padded ?_ proper 0 image extra
  exact ⟨Int.le_refl 0, rfl, rfl, rfl, rfl, rfl, Memory.padded_ofImage image extra⟩

end Machine

namespace Program

structure Padded (p q : Program) : Prop where
  name : q.name = p.name
  state : q.state = p.state
  machine : p.machine.Padded q.machine

variable {p q : Program}

theorem load_padded {config : Config} (proper : config.width.Proper) (image inputs : List Int)
    (extra : Nat) (name : String)
    : Agree Failure.Alike Padded (load image inputs config name)
        (load (image ++ List.replicate extra 0) inputs config name) := by
  have loaded := Machine.load_padded proper image extra
  unfold load
  generalize Machine.load image config = r at loaded ⊢
  generalize Machine.load (image ++ List.replicate extra 0) config = r' at loaded ⊢
  cases loaded with
  | ok h => exact .ok ⟨rfl, rfl, h.push inputs⟩
  | error alike => exact .error alike

theorem Padded.obstacle (h : Padded p q) : q.obstacle? = p.obstacle? := by
  unfold obstacle?
  rw [h.state, h.name, h.machine.ip]

theorem settle_padded {name : String} {r r' : EStateM.Result Failure Machine StopReason}
    (h : Paired Failure.Alike Machine.Padded r r')
    (emitted : ∀ m n, r = .ok .output m → r' = .ok .output n → n.pending = m.pending)
    : Paired Failure.Alike Padded (settle name r) (settle name r') := by
  cases h with
  | @ok reason m n h =>
    cases reason with
    | output =>
      simp only [settle, Machine.takeOutput, emitted m n rfl rfl]
      exact .ok ⟨rfl, rfl, { h with }⟩
    | halt => exact .ok ⟨rfl, rfl, { h with }⟩
    | needInput =>
      simp only [settle, h.ip]
      exact .error (.same _) ⟨rfl, rfl, h⟩
  | @error e _ m n alike h =>
    cases alike with
    | ranOff ip => exact .error (.ranOff ip) ⟨rfl, rfl, { h with }⟩
    | same =>
      cases e with
      | fault fault => exact .error (.same _) ⟨rfl, rfl, { h with }⟩
      | _ => exact .error (.same _) ⟨rfl, rfl, h⟩

theorem Padded.nextOutput (h : Padded p q) (fuel : Nat) (inputs : List Int)
    : Paired Failure.Alike Padded (p.nextOutput fuel inputs) (q.nextOutput fuel inputs) := by
  unfold Program.nextOutput
  rw [h.obstacle, h.name]
  cases p.obstacle? with
  | some fault => exact .error (.same _) h
  | none =>
    obtain ⟨ran, emitted⟩ := (h.machine.push inputs).run fuel
    exact settle_padded ran emitted

theorem Padded.outputsUpTo (h : Padded p q) (fuel bound : Nat) (inputs : List Int)
    : Paired Failure.Alike Padded (outputsUpTo fuel bound inputs p)
        (outputsUpTo fuel bound inputs q) := by
  induction bound generalizing inputs p q with
  | zero => exact .error (.same _) h
  | succ bound ih =>
    unfold Program.outputsUpTo
    apply Paired.bind (h.nextOutput fuel inputs)
    intro out p q h
    cases out with
    | none => exact .ok h
    | some value =>
      apply Paired.bind (ih h [])
      intro values p q h
      exact .ok h

end Program

theorem runToCompletion_padded {config : Config} (proper : config.width.Proper) (fuel : Nat)
    (image inputs : List Int) (extra : Nat)
    : Agree Failure.Alike (· = ·) (runToCompletion fuel image inputs config).result
        (runToCompletion fuel (image ++ List.replicate extra 0) inputs config).result := by
  rw [result_runToCompletion, result_runToCompletion]
  apply Agree.bind (Program.load_padded proper image inputs extra _)
  intro p q h
  exact (h.outputsUpTo fuel fuel []).outcome

theorem patch_append_zeros (image : List Int) (extra : Nat) (noun verb : Option Int)
    : ∃ extra', patch (image ++ List.replicate extra 0) noun verb
        = patch image noun verb ++ List.replicate extra' 0 := by
  have padded := Memory.padded_ofImage image extra
  cases noun with
  | none =>
    cases verb with
    | none => exact padded.snapshot
    | some verb => exact (padded.set 2 verb).snapshot
  | some noun =>
    cases verb with
    | none => exact (padded.set 1 noun).snapshot
    | some verb => exact ((padded.set 1 noun).set 2 verb).snapshot

theorem finalMemory_padded {config : Config} (proper : config.width.Proper) (fuel : Nat)
    (image : List Int) (extra : Nat) (noun verb : Option Int)
    : Agree Failure.Alike PaddedCells (finalMemory fuel image noun verb config).result
        (finalMemory fuel (image ++ List.replicate extra 0) noun verb config).result := by
  obtain ⟨extra', patched⟩ := patch_append_zeros image extra noun verb
  rw [result_finalMemory, result_finalMemory, patched]
  apply Agree.bind (Program.load_padded proper _ [] extra' _)
  intro p q h
  have ran := h.outputsUpTo fuel fuel []
  simp only [bind, EStateM.bind, Program.outputs]
  generalize Program.outputsUpTo fuel fuel [] p = r at ran ⊢
  generalize Program.outputsUpTo fuel fuel [] q = r' at ran ⊢
  cases ran with
  | ok h => exact .ok h.machine.memory.cells
  | error alike _ => exact .error alike

theorem answer_padded {cells cells' : Array Int} (h : PaddedCells cells cells')
    : answer cells' = answer cells := by
  have padded : Memory.Padded { cells } { cells := cells' } := Memory.padded_of_cells h
  exact congrFun padded.peek 0

theorem searchAnswer_go_padded {config : Config} (proper : config.width.Proper) (fuel : Nat)
    (image : List Int) (extra : Nat) (wanted : Int → Bool) (candidates : List (Int × Int))
    : Agree Failure.Alike (· = ·) (searchAnswer.go fuel image wanted config candidates).result
        (searchAnswer.go fuel (image ++ List.replicate extra 0) wanted config candidates).result := by
  induction candidates with
  | nil => exact .ok rfl
  | cons pair rest ih =>
    obtain ⟨noun, verb⟩ := pair
    have ran := finalMemory_padded proper fuel image extra (some noun) (some verb)
    unfold searchAnswer.go
    generalize finalMemory fuel image (some noun) (some verb) config = r at ran ⊢
    generalize finalMemory fuel (image ++ List.replicate extra 0) (some noun) (some verb) config = r'
      at ran ⊢
    obtain ⟨events, result⟩ := r
    obtain ⟨events', result'⟩ := r'
    cases ran with
    | @ok cells cells' padded =>
      dsimp only
      rw [answer_padded padded]
      split
      . exact .ok rfl
      . exact ih
    | @error e e' alike =>
      -- What is skipped is a fault in either case.
      cases alike with
      | ranOff ip => exact ih
      | same =>
        cases e with
        | fault fault => exact ih
        | _ => exact .error (.same _)

theorem searchNounVerb_padded {config : Config} (proper : config.width.Proper) (fuel : Nat)
    (image : List Int) (extra : Nat) (target : Int) (candidates : List Int)
    : Agree Failure.Alike (· = ·) (searchNounVerb fuel image target candidates config).result
        (searchNounVerb fuel (image ++ List.replicate extra 0) target candidates config).result :=
  searchAnswer_go_padded proper fuel image extra _ _

end Intcode
