import Intcode.Text.Numeral
import Intcode.Text.Quoted

/-!
What can go wrong. A `Fault` is a cause together with the address of the instruction that could not
be executed, if there is one. `Failure` adds to the faults what is no fault of a program: settings
that make no sense, a number with too many digits to be written, and a run that was given too little
fuel. Faults are put into words where they are raised, and so with such a number they are none.
-/
namespace Intcode

inductive Cause where
  | unknownOpcode (opcode word : Int)
  | unknownMode (digit : Nat) (word : Int)
  | immediateDestination
  | inputExhausted
  | ranOffEnd
  | negativeAddress (addr : Int)
  | negativeEffectiveAddress (addr : Int)
  | negativeJump (target : Int)
  | cellOverflow (value addr bits : Int)
  | baseOverflow (base bits : Int)
  | alreadyHalted (name : String)
  | faultedEarlier (name : String)
  | unreadableField (field : Nat) (text : String)
  | emptyProgram
  | silentStage (name : String)
  | silentPermutations
  | portUnavailable (url reason : String)
  | writeFailed (reason : String)
  | readFailed (reason : String)
  | readTimedOut
  | unreadableLine (text : String)
  deriving Repr, DecidableEq

namespace Cause

open Numeral

def message : Cause → String
  | unknownOpcode opcode word => s!"invalid opcode {render opcode} (word {render word})"
  | unknownMode digit word => s!"unknown parameter mode {render digit} in word {render word}"
  | immediateDestination => "destination parameter in immediate mode"
  | inputExhausted => "input instruction with empty input queue"
  | ranOffEnd => "ran past end of memory without HALT"
  | negativeAddress addr => s!"negative address {render addr}"
  | negativeEffectiveAddress addr => s!"negative effective address {render addr}"
  | negativeJump target => s!"jump to negative address {render target}"
  | cellOverflow value addr bits =>
    s!"value {render value} at [{render addr}] exceeds {render bits}-bit word"
  | baseOverflow base bits => s!"relative base {render base} exceeds {render bits}-bit word"
  | alreadyHalted name => s!"{name} already halted"
  | faultedEarlier name => s!"{name} faulted earlier"
  | unreadableField field text => s!"field {render field}: not an integer: {Text.quote text}"
  | emptyProgram => "empty program"
  | silentStage name => s!"{name} halted without producing a signal"
  | silentPermutations => "no phase permutation produced a signal"
  | portUnavailable url reason => s!"cannot open {url}: {reason}"
  | writeFailed reason => s!"write failed: {reason}"
  | readFailed reason => s!"read failed: {reason}"
  | readTimedOut => "timed out waiting for input"
  | unreadableLine text => s!"not an integer: {Text.quote text}"

def numbers : Cause → List Int
  | unknownOpcode opcode word => [opcode, word]
  | unknownMode digit word => [digit, word]
  | negativeAddress v | negativeEffectiveAddress v | negativeJump v => [v]
  | cellOverflow value addr bits => [value, addr, bits]
  | baseOverflow base bits => [base, bits]
  | unreadableField field _ => [field]
  | _ => []

def field? : Cause → Option Int
  | unreadableField field _ => some field
  | emptyProgram => some (-1)
  | _ => none

end Cause

structure Fault where
  cause : Cause
  ip : Option Int := none
  deriving Repr, DecidableEq

namespace Fault

def message (fault : Fault) : String :=
  match fault.ip with
  | some ip => s!"ip={Numeral.render ip}: {fault.cause.message}"
  | none => fault.cause.message

def numbers (fault : Fault) : List Int :=
  fault.ip.toList ++ fault.cause.numbers

end Fault

/-- An error that is none of this library's, and whether commands end with a message for it. -/
structure Mishap where
  kind : String
  message : String
  isForeseen : Bool
  deriving Repr, DecidableEq

inductive Failure where
  | fault (f : Fault)
  | widthNotPositive
  | unknownProfile (name : String)
  | emptyDumpLine
  | unwritable
  | mishap (m : Mishap)
  | outOfFuel
  deriving Repr, DecidableEq

def Failure.message : Failure → String
  | fault f => f.message
  | widthNotPositive => "negative shift count"
  | unknownProfile name => s!"Unknown word profile: {name}"
  | emptyDumpLine => "range() arg 3 must not be zero"
  | unwritable =>
    "Exceeds the limit (4300 digits) for integer string conversion; "
      ++ "use sys.set_int_max_str_digits() to increase the limit"
  | mishap m => m.message
  | outOfFuel => "out of fuel"

instance : Coe Fault Failure := ⟨.fault⟩

@[irreducible]
def writing (numbers : List Int) (a : α) : Except Failure α :=
  if ∀ v ∈ numbers, Numeral.Short v then .ok a else .error .unwritable

theorem writing_of_short {numbers : List Int} (short : ∀ v ∈ numbers, Numeral.Short v) (a : α)
    : writing numbers a = .ok a := by
  rw [writing, if_pos short]

theorem writing_of_long {numbers : List Int} (long : ¬ ∀ v ∈ numbers, Numeral.Short v) (a : α)
    : writing numbers a = .error .unwritable := by
  rw [writing, if_neg long]

theorem writing_eq_ok_iff {numbers : List Int} {a b : α}
    : writing numbers a = .ok b ↔ (∀ v ∈ numbers, Numeral.Short v) ∧ a = b := by
  unfold writing
  split
  . next short => exact ⟨fun h => ⟨short, Except.ok.inj h⟩, fun h => congrArg _ h.2⟩
  . next long => exact ⟨nofun, fun h => absurd h.1 long⟩

theorem writing_eq_error_iff {numbers : List Int} {a : α} {e : Failure}
    : writing numbers a = .error e
        ↔ (¬ ∀ v ∈ numbers, Numeral.Short v) ∧ e = .unwritable := by
  unfold writing
  split
  . next short => exact ⟨nofun, fun h => absurd short h.1⟩
  . next long => exact ⟨fun h => ⟨long, (Except.error.inj h).symm⟩, fun h => congrArg _ h.2.symm⟩

namespace Fault

def IsWritable (fault : Fault) : Prop :=
  ∀ v ∈ fault.numbers, Numeral.Short v

instance (fault : Fault) : Decidable fault.IsWritable :=
  inferInstanceAs (Decidable (∀ v ∈ fault.numbers, Numeral.Short v))

@[irreducible]
def raised (fault : Fault) : Failure :=
  if fault.IsWritable then .fault fault else .unwritable

theorem raised_of_writable {fault : Fault} (h : fault.IsWritable)
    : fault.raised = .fault fault := by
  rw [raised, if_pos h]

theorem raised_of_unwritable {fault : Fault} (h : ¬ fault.IsWritable)
    : fault.raised = .unwritable := by
  rw [raised, if_neg h]

theorem raised_eq_fault_iff {fault fault' : Fault}
    : fault.raised = .fault fault' ↔ fault.IsWritable ∧ fault = fault' := by
  rw [raised]
  split <;> simp_all

theorem raised_cases (fault : Fault)
    : fault.raised = .fault fault ∨ fault.raised = .unwritable := by
  rw [raised]
  split <;> simp

end Fault

end Intcode
