import Intcode.Fault
import Intcode.Text.Numeral

namespace Intcode

inductive PortError where
  | refused (reason : String)
  | mishap (m : Mishap)
  deriving Repr, DecidableEq

def PortError.failure (cause : String → Cause) : PortError → Failure
  | refused reason => .fault { cause := cause reason }
  | mishap m => .mishap m

class Port (π : Type) where
  name : π → String
  /-- The next line with its line break, or why there is none. -/
  readLine : π → Except PortError (List UInt8) × π
  write : List UInt8 → π → Except PortError Unit × π

namespace Port

def lineBreak : UInt8 := 0x0A

def encode (v : Int) : List UInt8 :=
  (Numeral.write v).map Char.toUInt8 ++ [lineBreak]

-- Bytes beyond seven bits stand for no character.
def decodeByte (b : UInt8) : Char :=
  if b < 0x80 then Char.ofNat b.toNat else '\uFFFD'

def decode (line : List UInt8) : List Char :=
  Text.trim Text.isBlank (line.map decodeByte)

end Port

end Intcode
