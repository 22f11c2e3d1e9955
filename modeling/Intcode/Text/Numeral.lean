import Intcode.Text.Blank
import Intcode.Text.Digit
import Intcode.Text.Padding

namespace Intcode.Numeral

open Text

def maxDigits : Nat := 4300

inductive Unreadable where
  | malformed
  | tooLong (digits : Nat)
  deriving Repr, DecidableEq

/--
The digits at the front of a text, and what follows them. There must be one, and an underscore has
to stand between two of them: `bare` says that the next character may not be an underscore.
-/
def scan : (bare : Bool) → List Char → Option (List Nat × List Char)
  | bare, [] => if bare then none else some ([], [])
  | bare, c :: rest =>
    if c = '_' then
      if bare then none else scan true rest
    else
      match digitValue? c with
      | some d => (scan false rest).map fun (ds, tail) => (d :: ds, tail)
      | none => if bare then none else some ([], c :: rest)

def valueOf (digits : List Nat) : Nat :=
  digits.foldl (fun value d => 10 * value + d) 0

def readNat (s : List Char) : Except Unreadable Nat :=
  match scan true s with
  | none => .error .malformed
  | some (digits, rest) =>
    if maxDigits < digits.length then
      .error (.tooLong digits.length)
    else if rest.isEmpty then
      .ok (valueOf digits)
    else
      .error .malformed

def readSigned : List Char → Except Unreadable Int
  | '-' :: s => (readNat s).map fun n => -(n : Int)
  | '+' :: s => (readNat s).map fun n => (n : Int)
  | s => (readNat s).map fun n => (n : Int)

def read (s : List Char) : Except Unreadable Int :=
  readSigned (trim isNumeralBlank s)

def digits (n : Nat) : List Nat :=
  if n < 10 then [n] else digits (n / 10) ++ [n % 10]

def digitChar (d : Nat) : Char :=
  Char.ofNat (0x30 + d)

def writeNat (n : Nat) : List Char :=
  (digits n).map digitChar

def write : Int → List Char
  | .ofNat n => writeNat n
  | .negSucc n => '-' :: writeNat (n + 1)

def writeSigned (v : Int) : List Char :=
  if v < 0 then write v else '+' :: write v

def writeZeroPadded (width : Nat) (v : Int) : List Char :=
  if v < 0 then
    '-' :: padStart (width - 1) '0' (writeNat v.natAbs)
  else
    padStart width '0' (writeNat v.natAbs)

def render (v : Int) : String :=
  String.ofList (write v)

def renderList (separator : String) (vs : List Int) : String :=
  separator.intercalate (vs.map render)

theorem digits_lt (n : Nat) : ∀ d ∈ digits n, d < 10 := by
  fun_induction digits n with
  | case1 n h => simpa using h
  | case2 n h ih =>
    intro d hd
    rcases List.mem_append.1 hd with hd | hd
    . exact ih d hd
    . have : d = n % 10 := by simpa using hd
      omega

theorem length_digits_le {n k : Nat} (positive : k ≠ 0) (small : n < Nat.pow 10 k)
    : (digits n).length ≤ k := by
  induction k generalizing n with
  | zero => contradiction
  | succ k ih =>
    unfold digits
    split
    . exact Nat.le_add_left 1 k
    . next great =>
      have more : k ≠ 0 := by
        rintro rfl
        contradiction
      have shorter : n / 10 < Nat.pow 10 k := (Nat.div_lt_iff_lt_mul (by decide)).2 small
      rw [List.length_append]
      exact Nat.succ_le_succ (ih more shorter)

theorem lt_pow_length_digits (n : Nat) : n < Nat.pow 10 (digits n).length := by
  fun_induction digits n with
  | case1 n h => simpa using h
  | case2 n h ih =>
    rw [List.length_append]
    exact (Nat.div_lt_iff_lt_mul (by decide)).1 ih

theorem length_digits_le_iff {n k : Nat} (positive : k ≠ 0)
    : (digits n).length ≤ k ↔ n < Nat.pow 10 k := by
  constructor
  . intro few
    exact Nat.lt_of_lt_of_le (lt_pow_length_digits n) (Nat.pow_le_pow_right (by decide) few)
  . exact length_digits_le positive

/-- Not so many digits that the numeral is neither read nor written. -/
def Short (v : Int) : Prop :=
  (digits v.natAbs).length ≤ maxDigits

theorem short_iff_lt {v : Int} : Short v ↔ v.natAbs < Nat.pow 10 maxDigits :=
  length_digits_le_iff (by decide)

instance (v : Int) : Decidable (Short v) :=
  decidable_of_iff _ short_iff_lt.symm

theorem valueOf_append (ds : List Nat) (d : Nat) : valueOf (ds ++ [d]) = 10 * valueOf ds + d := by
  simp [valueOf]

theorem valueOf_digits (n : Nat) : valueOf (digits n) = n := by
  fun_induction digits n with
  | case1 n h => simp [valueOf]
  | case2 n h ih =>
    rw [valueOf_append, ih]
    omega

end Intcode.Numeral
