import Intcode.Instruction
import Intcode.Memory

namespace Intcode.Listing

open Numeral Text
open MonadExcept (ofExcept)

abbrev Reading := EStateM Failure Memory

def readCell (addr : Int) : Reading Int := fun m =>
  match m.read addr with
  | .ok (v, m) => .ok v m
  | .error e => .error e m

def readRow (addr : Int) : (count : Nat) → Reading (List Int)
  | 0 => return []
  | count + 1 => do
    let v ← readCell addr
    return v :: (← readRow (addr + 1) count)

def renderOperand : Mode → Int → String
  | .position, raw => s!"[{render raw}]"
  | .immediate, raw => s!"#{render raw}"
  | .relative, raw => s!"[rb{String.ofList (writeSigned raw)}]"

def margin (addr word : Int) : String :=
  String.ofList (writeZeroPadded 6 addr) ++ "  " ++ String.ofList (padEnd 12 ' ' (write word))
    ++ " "

def dataLine (addr word : Int) : Except Failure String :=
  writing [addr, word] s!"{margin addr word}DATA   {render word}"

def instructionLine (addr word : Int) (instr : Instruction) (operands : List Int)
    : Except Failure String :=
  let mnemonic := instr.opcode.mnemonic
  writing (addr :: word :: operands) <|
    match operands.mapIdx fun i raw => renderOperand (instr.mode i) raw with
    | [] => margin addr word ++ mnemonic
    | shown =>
      margin addr word ++ String.ofList (padEnd 6 ' ' mnemonic.toList) ++ " "
        ++ ", ".intercalate shown

def line (addr stop : Int) : Reading (String × Nat) := do
  let word ← readCell addr
  match Instruction.decodeAt none word with
  | .error (.fault _) => return (← ofExcept (dataLine addr word), 1)
  | .error e => throw e
  | .ok instr =>
    if addr + instr.width > stop then
      return (← ofExcept (dataLine addr word), 1)
    else
      let operands ← readRow (addr + 1) instr.arity
      return (← ofExcept (instructionLine addr word instr operands), instr.width)

def lines (stop : Int) : (room : Nat) → (addr : Int) → Reading (List String)
  | 0, _ => return []
  | room + 1, addr => do
    if addr < stop then
      let (text, count) ← line addr stop
      return text :: (← lines stop room (addr + count))
    else
      return []

end Intcode.Listing

namespace Intcode

def Memory.disassemble (start : Int) (stop : Option Int) : EStateM Failure Memory (List String) :=
  fun m =>
    let stop := stop.getD m.size
    Listing.lines stop (stop - start).toNat start m

end Intcode
