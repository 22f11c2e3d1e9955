import Intcode.Fault

/-!
Instruction words. The two least significant decimal digits of a word are its opcode, each digit
above is the mode of one parameter, and a parameter without a digit is in position mode.
-/
namespace Intcode

inductive Opcode where
  | add
  | multiply
  | input
  | output
  | jumpIfTrue
  | jumpIfFalse
  | lessThan
  | equals
  | adjustBase
  | halt
  deriving Repr, DecidableEq

namespace Opcode

def code : Opcode → Nat
  | add => 1
  | multiply => 2
  | input => 3
  | output => 4
  | jumpIfTrue => 5
  | jumpIfFalse => 6
  | lessThan => 7
  | equals => 8
  | adjustBase => 9
  | halt => 99

def ofCode? : Nat → Option Opcode
  | 1 => some add
  | 2 => some multiply
  | 3 => some input
  | 4 => some output
  | 5 => some jumpIfTrue
  | 6 => some jumpIfFalse
  | 7 => some lessThan
  | 8 => some equals
  | 9 => some adjustBase
  | 99 => some halt
  | _ => none

def mnemonic : Opcode → String
  | add => "ADD"
  | multiply => "MUL"
  | input => "IN"
  | output => "OUT"
  | jumpIfTrue => "JNZ"
  | jumpIfFalse => "JZ"
  | lessThan => "LT"
  | equals => "EQ"
  | adjustBase => "ARB"
  | halt => "HALT"

def arity : Opcode → Nat
  | add | multiply | lessThan | equals => 3
  | jumpIfTrue | jumpIfFalse => 2
  | input | output | adjustBase => 1
  | halt => 0

theorem ofCode?_eq_some_iff {n : Nat} {opcode : Opcode}
    : ofCode? n = some opcode ↔ opcode.code = n := by
  constructor
  . intro h
    unfold ofCode? at h
    split at h <;> cases h <;> rfl
  . rintro rfl
    cases opcode <;> rfl

end Opcode

inductive Mode where
  | position
  | immediate
  | relative
  deriving Repr, DecidableEq

namespace Mode

def digit : Mode → Nat
  | position => 0
  | immediate => 1
  | relative => 2

def ofDigit? : Nat → Option Mode
  | 0 => some position
  | 1 => some immediate
  | 2 => some relative
  | _ => none

theorem ofDigit?_digit (mode : Mode) : ofDigit? mode.digit = some mode := by
  cases mode <;> rfl

end Mode

structure Instruction where
  opcode : Opcode
  modes : List Mode
  deriving Repr, DecidableEq

namespace Instruction

def arity (instr : Instruction) : Nat :=
  instr.opcode.arity

def width (instr : Instruction) : Nat :=
  instr.arity + 1

def mode (instr : Instruction) (param : Nat) : Mode :=
  instr.modes.getD param .position

def modesOf (n : Nat) : Except Nat (List Mode) :=
  if n = 0 then
    .ok []
  else
    match Mode.ofDigit? (n % 10) with
    | some mode => (modesOf (n / 10)).map (mode :: ·)
    | none => .error (n % 10)

def decode (word : Int) : Except Cause Instruction :=
  if word < 0 then
    .error (.unknownOpcode word word)
  else
    match Opcode.ofCode? (word.toNat % 100) with
    | none => .error (.unknownOpcode (word % 100) word)
    | some opcode =>
      match modesOf (word.toNat / 100) with
      | .ok modes => .ok { opcode, modes }
      | .error digit => .error (.unknownMode digit word)

def decodeAt (ip : Option Int) (word : Int) : Except Failure Instruction :=
  (decode word).mapError fun cause => Fault.raised { cause, ip }

def ofDigits : List Int → Int
  | [] => 0
  | d :: ds => d + 10 * ofDigits ds

def pack (opcode : Int) (digits : List Int) : Int :=
  opcode + 100 * ofDigits digits

def word (instr : Instruction) : Int :=
  pack instr.opcode.code (instr.modes.map fun mode => (mode.digit : Int))

end Instruction

end Intcode
