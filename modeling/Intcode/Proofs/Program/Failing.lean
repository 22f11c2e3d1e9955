import Intcode.NounVerb
import Intcode.Proofs.Failing
import Intcode.Proofs.Program.Outcome
import Intcode.Proofs.Program.Session

namespace Intcode

def Failure.IsOwn : Failure → Prop
  | fault _ | widthNotPositive | unwritable | outOfFuel => True
  | _ => False

theorem Fault.isOwn_raised (fault : Fault) : fault.raised.IsOwn := by
  obtain written | unwritten := fault.raised_cases
  . rw [written]
    trivial
  . rw [unwritten]
    trivial

theorem isOwn_of_writing {numbers : List Int} {a : α} {e : Failure}
    (long : writing numbers a = .error e) : e.IsOwn := by
  rw [(writing_eq_error_iff.mp long).2]
  trivial

theorem Instruction.isOwn_of_decodeAt {ip : Option Int} {word : Int} {e : Failure}
    (refused : decodeAt ip word = .error e) : e.IsOwn := by
  obtain ⟨cause, -, rfl⟩ := mapError_eq_error_iff.mp refused
  exact Fault.isOwn_raised _

namespace Machine

abbrev Plain (x : Execution α) : Prop :=
  FailsOnly Failure.IsOwn x

theorem plain_fail (cause : Cause) : Plain (fail cause : Execution α) := by
  constructor
  rintro m e m' ⟨⟩
  exact Fault.isOwn_raised _

theorem plain_readCell (addr : Int) : Plain (readCell addr) := by
  constructor
  intro m e m' failed
  unfold readCell Memory.read at failed
  split at failed
  . contradiction
  . next refused =>
    cases failed
    split at refused
    . cases refused
      exact Fault.isOwn_raised _
    . contradiction

theorem plain_writeCell (addr value : Int) : Plain (writeCell addr value) := by
  constructor
  intro m e m' failed
  unfold writeCell Memory.write at failed
  split at failed
  . contradiction
  . next refused =>
    cases failed
    split at refused
    . cases refused
      exact Fault.isOwn_raised _
    . contradiction

theorem isOwn_of_fits {width : Width} {value : Int} {e : Failure}
    (failed : width.fits value = .error e) : e.IsOwn := by
  unfold Width.fits Width.limits at failed
  split at failed
  . contradiction
  . split at failed
    . cases failed
      trivial
    . contradiction

theorem plain_requireFits (value : Int) (cause : Int → Cause)
    : Plain (requireFits value cause) := by
  constructor
  intro m e m' failed
  unfold requireFits at failed
  split at failed
  . contradiction
  . exact (plain_fail _).of_error failed
  . next fits =>
    cases failed
    exact isOwn_of_fits fits

theorem plain_address (mode : Mode) (slot : Int) : Plain (address mode slot) := by
  unfold address
  apply (plain_readCell slot).bind
  intro raw
  apply FailsOnly.get.bind
  intro m
  extract_lets base addr
  split
  . exact plain_fail _
  . exact .pure _

theorem plain_resolveRead (mode : Mode) (slot : Int) : Plain (resolveRead mode slot) := by
  unfold resolveRead
  split
  . exact plain_readCell slot
  . exact (plain_address mode slot).bind plain_readCell

theorem plain_resolveWrite (mode : Mode) (slot : Int) : Plain (resolveWrite mode slot) := by
  unfold resolveWrite
  split
  . exact plain_fail _
  . exact plain_address mode slot

theorem plain_operand (instr : Instruction) (param : Nat) : Plain (operand instr param) :=
  FailsOnly.get.bind fun _ => plain_resolveRead _ _

theorem plain_store (instr : Instruction) (param : Nat) (value : Int)
    : Plain (store instr param value) := by
  apply FailsOnly.get.bind
  intro m
  apply (plain_resolveWrite _ _).bind
  intro addr
  exact (plain_requireFits value _).bind fun _ => plain_writeCell addr value

theorem plain_advance (instr : Instruction) : Plain (advance instr) :=
  .modify _

theorem plain_jump (target : Int) : Plain (jump target) := by
  unfold jump
  split
  . exact plain_fail _
  . exact .modify _

theorem plain_binary (instr : Instruction) (f : Int → Int → Int) : Plain (binary instr f) := by
  apply (plain_operand instr 0).bind
  intro a
  apply (plain_operand instr 1).bind
  intro b
  apply (plain_store instr 2 _).bind
  intro _
  exact (plain_advance instr).bind fun _ => .pure _

theorem plain_jumpWhen (instr : Instruction) (condition : Int → Bool)
    : Plain (jumpWhen instr condition) := by
  apply (plain_operand instr 0).bind
  intro a
  split
  . apply (plain_operand instr 1).bind
    intro target
    exact (plain_jump target).bind fun _ => .pure _
  . exact (plain_advance instr).bind fun _ => .pure _

theorem plain_input (instr : Instruction) : Plain (input instr) := by
  unfold input
  split
  . exact plain_fail _
  . apply FailsOnly.get.bind
    intro m
    split
    . exact .pure _
    . next value rest _ =>
      apply (FailsOnly.modify _).bind
      intro _
      apply (plain_store instr 0 value).bind
      intro _
      exact (plain_advance instr).bind fun _ => .pure _

theorem plain_execute (instr : Instruction) : Plain (execute instr) := by
  unfold execute
  cases instr.opcode with
  | add | multiply | lessThan | equals => exact plain_binary instr _
  | jumpIfTrue | jumpIfFalse => exact plain_jumpWhen instr _
  | input => exact plain_input instr
  | halt => exact .pure _
  | output =>
    apply (plain_operand instr 0).bind
    intro value
    apply (FailsOnly.modify _).bind
    intro _
    exact (plain_advance instr).bind fun _ => .pure _
  | adjustBase =>
    apply FailsOnly.get.bind
    intro m
    apply (plain_operand instr 0).bind
    intro offset
    apply (plain_requireFits _ _).bind
    intro _
    apply (FailsOnly.modify _).bind
    intro _
    exact (plain_advance instr).bind fun _ => .pure _

theorem plain_fetch : Plain fetch := by
  apply FailsOnly.get.bind
  intro m
  apply (plain_readCell m.ip).bind
  intro word
  split
  . exact .pure _
  . next refused => exact .throw (Instruction.isOwn_of_decodeAt refused)

theorem plain_note (instr : Instruction) : Plain (note instr) := by
  constructor
  intro m e m' failed
  unfold note at failed
  split at failed
  . dsimp only at failed
    split at failed
    . contradiction
    . next refused =>
      cases failed
      exact isOwn_of_writing refused
  . contradiction

theorem plain_step : Plain step := by
  unfold step
  apply FailsOnly.get.bind
  intro m
  apply FailsOnly.get.bind
  intro m'
  split
  . exact plain_fail _
  . apply plain_fetch.bind
    intro instr
    apply (plain_note instr).bind
    intro entry
    apply (plain_execute instr).bind
    intro reason
    split
    . exact (FailsOnly.modify _).bind fun _ => .pure _
    . exact .pure _

theorem plain_run (fuel : Nat) : Plain (run fuel) := by
  induction fuel with
  | zero => exact .throw trivial
  | succ fuel ih =>
    constructor
    intro m e m' failed
    unfold run at failed
    split at failed
    . contradiction
    . exact ih.of_error failed
    . next stepped =>
      cases failed
      exact plain_step.of_error stepped

theorem isOwn_of_load_go {m : Machine} {addr : Int} {image : List Int} {e : Failure}
    (failed : load.go m addr image = .error e) : e.IsOwn := by
  induction image generalizing m addr with
  | nil => contradiction
  | cons value rest ih =>
    unfold load.go at failed
    split at failed
    . exact ih failed
    . next overflow =>
      cases failed
      exact (plain_requireFits _ _).of_error overflow

theorem isOwn_of_load {image : List Int} {config : Config} {e : Failure}
    (failed : load image config = .error e) : e.IsOwn :=
  isOwn_of_load_go failed

end Machine

namespace Program

theorem isOwn_of_load {image inputs : List Int} {config : Config} {name : String} {e : Failure}
    (failed : load image inputs config name = .error e) : e.IsOwn := by
  unfold load at failed
  cases loaded : Machine.load image config with
  | ok m =>
    rw [loaded] at failed
    contradiction
  | error e' =>
    rw [loaded] at failed
    cases failed
    exact Machine.isOwn_of_load loaded

theorem plain_nextOutput (fuel : Nat) (inputs : List Int)
    : FailsOnly Failure.IsOwn (nextOutput fuel inputs) := by
  constructor
  intro p e q failed
  unfold nextOutput at failed
  split at failed
  . cases failed
    trivial
  . generalize ran : Machine.run fuel (p.machine.push inputs) = result at failed
    cases result with
    | ok reason m =>
      cases reason with
      | output | halt => cases failed
      | needInput =>
        cases failed
        trivial
    | error e' m =>
      have own := (Machine.plain_run _).of_error ran
      cases e' with
      | fault _ =>
        cases failed
        trivial
      | _ =>
        cases failed
        exact own

theorem outlasts_nextOutput {fuel fuel' : Nat} (more : fuel ≤ fuel') (inputs : List Int)
    : Outlasts Failure.outOfFuel (nextOutput fuel' inputs) (nextOutput fuel inputs) :=
  fun _ returned => nextOutput_mono more returned

theorem outlasts_outputsUpTo {fuel fuel' bound bound' : Nat} (more : fuel ≤ fuel')
    (further : bound ≤ bound') (inputs : List Int)
    : Outlasts Failure.outOfFuel (outputsUpTo fuel' bound' inputs)
        (outputsUpTo fuel bound inputs) := by
  induction bound generalizing bound' inputs with
  | zero =>
    intro p returned
    exact absurd rfl (returned p)
  | succ bound ih =>
    obtain ⟨bound', rfl⟩ := Nat.exists_eq_add_of_le' (Nat.le_trans (Nat.le_add_left 1 _) further)
    apply (outlasts_nextOutput more inputs).bind
    intro out
    cases out with
    | none => exact .refl _
    | some value =>
      exact (ih (Nat.le_of_succ_le_succ further) []).bind fun _ => .refl _

end Program

section

variable {fuel fuel' : Nat} {image : List Int} {config : Config}

theorem outlasts_finalMemory (more : fuel ≤ fuel') (noun verb : Option Int)
    : (finalMemory fuel' image noun verb config).Outlasts .outOfFuel
        (finalMemory fuel image noun verb config) := by
  apply (Report.Outlasts.refl _).bind
  intro p _
  apply Report.Outlasts.of_outcome _ (Program.result_report _ _) (Program.result_report _ _)
  exact (Program.outlasts_outputsUpTo more more []).bind fun _ => .refl _

variable {wanted : Int → Bool}

theorem result_searchAnswer_go (noun verb : Int) (rest : List (Int × Int))
    : (searchAnswer.go fuel image wanted config ((noun, verb) :: rest)).result
        =
      match (finalMemory fuel image noun verb config).result with
      | .ok cells =>
        if wanted (answer cells) then .ok (some (noun, verb))
        else (searchAnswer.go fuel image wanted config rest).result
      | .error (.fault _) => (searchAnswer.go fuel image wanted config rest).result
      | .error e => .error e := by
  rw [searchAnswer.go]
  generalize finalMemory fuel image noun verb config = run
  obtain ⟨events, result⟩ := run
  cases result with
  | ok cells =>
    dsimp only
    split
    . rfl
    . rfl
  | error e =>
    cases e with
    | fault _ => rfl
    | _ => rfl

theorem outlasts_searchAnswer (more : fuel ≤ fuel') (candidates : List Int)
    : (searchAnswer fuel' image wanted candidates config).Outlasts .outOfFuel
        (searchAnswer fuel image wanted candidates config) := by
  unfold searchAnswer
  induction pairs candidates with
  | nil => exact .refl _
  | cons pair rest ih =>
    obtain ⟨noun, verb⟩ := pair
    intro returned
    rw [result_searchAnswer_go] at returned ⊢
    have same : (finalMemory fuel' image noun verb config).result
        = (finalMemory fuel image noun verb config).result := by
      apply outlasts_finalMemory more
      intro lacking
      rw [lacking] at returned
      exact returned rfl
    rw [result_searchAnswer_go, same]
    generalize (finalMemory fuel image noun verb config).result = result at returned ⊢
    cases result with
    | ok cells =>
      dsimp only at returned ⊢
      split
      . rfl
      . next missed =>
        rw [if_neg missed] at returned
        exact ih returned
    | error e =>
      cases e with
      | fault _ => exact ih returned
      | _ => rfl

end

end Intcode
