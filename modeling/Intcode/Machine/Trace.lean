import Intcode.Instruction

namespace Intcode

structure TraceEntry where
  ip : Int
  opcode : Opcode
  operands : List Int
  base : Int
  deriving Repr, DecidableEq

namespace TraceEntry

open Numeral Text

def layout (ip : Int) (opcode : Opcode) (operands : List String) (base : Int) : String :=
  String.ofList (writeZeroPadded 6 ip) ++ ": "
    ++ String.ofList (padEnd 6 ' ' opcode.mnemonic.toList) ++ " ["
    ++ ", ".intercalate operands ++ "] rb=" ++ Numeral.render base

def render (entry : TraceEntry) : String :=
  layout entry.ip entry.opcode (entry.operands.map Numeral.render) entry.base

def numbers (entry : TraceEntry) : List Int :=
  entry.ip :: entry.base :: entry.operands

def IsWritable (entry : TraceEntry) : Prop :=
  ∀ v ∈ entry.numbers, Numeral.Short v

instance (entry : TraceEntry) : Decidable entry.IsWritable :=
  inferInstanceAs (Decidable (∀ v ∈ entry.numbers, Numeral.Short v))

def renderAll (entries : Array TraceEntry) : String :=
  joinLines (entries.toList.map render)

end TraceEntry

end Intcode
