import Intcode.Text.Numeral
import Intcode.Text.Quoted

namespace Intcode.CommandLine

inductive SystemError where
  | missing (path : String)
  | denied (path : String)
  | alreadyExists (path : String)
  | notADirectory (path : String)
  | isADirectory (path : String)
  | nameTooLong (path : String)
  | other (number : Nat) (text path : String)
  | nulByte
  deriving Repr, DecidableEq

namespace SystemError

def message : SystemError → String
  | missing path => numbered 2 "No such file or directory" path
  | denied path => numbered 13 "Permission denied" path
  | alreadyExists path => numbered 17 "File exists" path
  | notADirectory path => numbered 20 "Not a directory" path
  | isADirectory path => numbered 21 "Is a directory" path
  | nameTooLong path => numbered 36 "File name too long" path
  | other number text path => numbered number text path
  | nulByte => "embedded null byte"
where
  numbered (number : Nat) (text path : String) : String :=
    s!"[Errno {Numeral.render number}] {text}: {Text.quote path}"

end SystemError

class FileSystem (σ : Type) where
  read : (path : String) → σ → Except SystemError (List UInt8)
  /-- Opens a file to be written at its end, with the directories on its path. -/
  openLog : (path : String) → σ → Except SystemError σ
  append : (path : String) → (bytes : List UInt8) → σ → σ
  /-- Whether what is written to the path gets to the standard output. -/
  echoes : (path : String) → σ → Bool

end Intcode.CommandLine
