import Intcode.Text.Numeral

/-!
Decimal fractions, as they are given for times: digits with a point among them, a power of ten
behind an `e`, or a word for infinity or for no number at all. A fraction is held with 53 binary
digits, to which what is read is rounded.
-/
namespace Intcode

inductive Fraction where
  | nan
  | infinite (negative : Bool)
  | finite (negative : Bool) (mantissa : Nat) (exponent : Int)
  deriving Repr, DecidableEq

namespace Fraction

open Numeral

def scale (base : Nat) (n : Nat) (exponent : Int) : Nat × Nat :=
  (n * Nat.pow base exponent.toNat, Nat.pow base (-exponent).toNat)

def mantissaBound : Nat := 9007199254740992

def leastExponent : Int := -1074

def greatestExponent : Int := 971

def roundDiv (num den : Nat) : Nat :=
  let quotient := num / den
  let rest := num % den
  if 2 * rest < den ∨ (2 * rest = den ∧ quotient % 2 = 0) then quotient else quotient + 1

def exponentOf (num den : Nat) : Int :=
  let guess : Int := (Nat.log2 num : Int) - Nat.log2 den - 52
  let (n, d) := scale 2 num (-guess)
  max leastExponent (if n / (d * den) < mantissaBound / 2 then guess - 1 else guess)

def ofQuotient (negative : Bool) (num den : Nat) : Fraction :=
  if num = 0 then
    finite negative 0 leastExponent
  else
    let exponent := exponentOf num den
    let (n, d) := scale 2 num (-exponent)
    let mantissa := roundDiv n (d * den)
    let (mantissa, exponent) :=
      if mantissa = mantissaBound then (mantissaBound / 2, exponent + 1) else (mantissa, exponent)
    if greatestExponent < exponent then infinite negative else finite negative mantissa exponent

/--
The fraction nearest to a number times a power of ten. What is out of reach is not worked out.
-/
def ofDecimal (negative : Bool) (n : Nat) (exponent : Int) : Fraction :=
  let places := (digits n).length + exponent
  if n = 0 ∨ places < -323 then
    finite negative 0 leastExponent
  else if 309 < places then
    infinite negative
  else
    let (num, den) := scale 10 n exponent
    ofQuotient negative num den

def splitSign : List Char → Bool × List Char
  | '-' :: rest => (true, rest)
  | '+' :: rest => (false, rest)
  | rest => (false, rest)

def splitDigits (s : List Char) : List Nat × List Char :=
  (scan true s).getD ([], s)

def readExponent? : List Char → Option Int
  | [] => some 0
  | e :: rest =>
    if e = 'e' ∨ e = 'E' then
      let (negative, rest) := splitSign rest
      match scan true rest with
      | some (ds, []) => some (if negative then -(valueOf ds : Int) else valueOf ds)
      | _ => none
    else
      none

def readDecimal? (negative : Bool) (s : List Char) : Option Fraction :=
  let (whole, rest) := splitDigits s
  let (part, rest) := match rest with
    | '.' :: more => splitDigits more
    | _ => ([], rest)
  if whole.isEmpty ∧ part.isEmpty then
    none
  else
    (readExponent? rest).map fun exponent =>
      ofDecimal negative (valueOf (whole ++ part)) (exponent - part.length)

def read? (s : List Char) : Option Fraction :=
  let (negative, body) := splitSign (Text.trim Text.isNumeralBlank s)
  let word := String.ofList (body.map Char.toLower)
  if word = "nan" then some nan
  else if word = "inf" ∨ word = "infinity" then some (infinite negative)
  else readDecimal? negative body

end Fraction

end Intcode
