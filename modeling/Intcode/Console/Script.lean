import Intcode.Console.Port

namespace Intcode

structure Script where
  lines : List (Option (List UInt8))
  refused : List Nat := []
  reason : String := "port gone"
  attempts : Nat := 0
  written : List (List UInt8) := []
  deriving Repr, DecidableEq

instance : Port Script where
  name _ := "script"
  readLine script :=
    match script.lines with
    | [] => (.ok [], script)
    | some line :: rest => (.ok line, { script with lines := rest })
    | none :: rest => (.error (.refused script.reason), { script with lines := rest })
  write line script :=
    let attempted := { script with attempts := script.attempts + 1 }
    if script.refused.contains script.attempts then
      (.error (.refused script.reason), attempted)
    else
      (.ok (), { attempted with written := script.written ++ [line] })

end Intcode
