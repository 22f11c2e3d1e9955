import Intcode.Console.Script
import Intcode.Proofs.Console.Account

namespace Intcode

def Cause.isLink : Cause → Bool
  | writeFailed _ | readFailed _ | readTimedOut | unreadableLine _ => true
  | _ => false

def Failure.isLink : Failure → Bool
  | fault { cause, .. } => cause.isLink
  | mishap _ => true
  | _ => false

theorem PortError.isLink_failure (e : PortError) {cause : String → Cause}
    (h : ∀ reason, (cause reason).isLink = true) : (e.failure cause).isLink = true := by
  cases e with
  | refused reason => exact h reason
  | mishap m => rfl

theorem Port.isLink_objection {π : Type} [Port π] (ip : Int) (port : π)
    : (Port.objection ip port).isLink = true := by
  unfold Port.objection
  split
  . next e _ => exact e.isLink_failure fun _ => rfl
  . rfl
  . rfl

namespace Script

def value? : Option (List UInt8) → Option Int
  | some (b :: line) => (Numeral.read (Port.decode (b :: line))).toOption
  | _ => none

def numbers (items : List (Option (List UInt8))) : List Int :=
  items.filterMap value?

def Willing (script : Script) : Prop :=
  script.refused = []

variable {script script' : Script} {value : Int}

theorem next_nil (h : script.lines = []) : Port.next script = (none, script) := by
  unfold Port.next
  simp only [Port.readLine, h]

theorem next_cons {item : Option (List UInt8)} {rest : List (Option (List UInt8))}
    (h : script.lines = item :: rest)
    : Port.next script = (value? item, { script with lines := rest }) := by
  unfold Port.next
  simp only [Port.readLine, h]
  cases item with
  | none => rfl
  | some line => cases line <;> rfl

theorem numbers_cons_of_some {item : Option (List UInt8)} (h : value? item = some value)
    (rest : List (Option (List UInt8))) : numbers (item :: rest) = value :: numbers rest :=
  List.filterMap_cons_some h

theorem numbers_cons_of_none {item : Option (List UInt8)} (h : value? item = none)
    (rest : List (Option (List UInt8))) : numbers (item :: rest) = numbers rest :=
  List.filterMap_cons_none h

theorem numbers_singleton (item : Option (List UInt8)) : numbers [item] = (value? item).toList := by
  cases read : value? item with
  | none => exact numbers_cons_of_none read []
  | some value => exact numbers_cons_of_some read []

theorem write_willing (h : script.Willing) (line : List UInt8)
    : Port.write line script
        =
      (.ok (),
        { script with
          attempts := script.attempts + 1
          written := script.written ++ [line] }) := by
  simp only [Port.write, show script.refused = [] from h, List.contains_nil]
  rfl

theorem lines_of_write {line : List UInt8} {outcome : Except PortError Unit}
    (h : Port.write line script = (outcome, script')) : script'.lines = script.lines := by
  simp only [Port.write] at h
  split at h
  . cases h
    rfl
  . cases h
    rfl

theorem lines_of_next (h : Port.next script = (some value, script'))
    : ∃ item rest, script.lines = item :: rest ∧ value? item = some value
        ∧ script' = { script with lines := rest } := by
  cases lines : script.lines with
  | nil =>
    rw [next_nil lines] at h
    cases h
  | cons item rest =>
    rw [next_cons lines] at h
    obtain ⟨readable, rfl⟩ := Prod.mk.inj h
    exact ⟨item, rest, rfl, readable, rfl⟩

theorem carried {written read : List Int} (h : script.Willing)
    (carries : Port.Carries script written read script')
    : script'.Willing ∧ script'.written = script.written ++ written.map Port.encode
      ∧ ∃ items, script.lines = items ++ script'.lines ∧ items.map value? = read.map some := by
  induction carries with
  | none port =>
    exact ⟨h, (List.append_nil _).symm, [], rfl, rfl⟩
  | write _ one _ ih =>
    rw [write_willing h] at one
    cases one
    obtain ⟨willing, kept, read⟩ := ih h
    refine ⟨willing, ?_, read⟩
    rw [kept, List.append_assoc]
    rfl
  | @read port _ _ value _ _ one _ ih =>
    cases lines : port.lines with
    | nil =>
      rw [next_nil lines] at one
      cases one
    | cons item rest =>
      rw [next_cons lines] at one
      obtain ⟨readable, rfl⟩ := Prod.mk.inj one
      obtain ⟨willing, kept, items, rest, values⟩ := ih h
      refine ⟨willing, kept, item :: items, ?_, ?_⟩
      . exact congrArg (item :: ·) rest
      . rw [List.map_cons, List.map_cons, readable, values]

end Script

end Intcode
