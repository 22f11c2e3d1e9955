import Intcode.Memory

namespace Intcode.Memory

open Numeral Text

def heads (first bound step : Int) : List Int :=
  let count :=
    if 0 < step then
      (bound - first + step - 1) / step
    else
      (first - bound - step - 1) / -step
  (List.range count.toNat).map fun (i : Nat) => first + i * step

/-- A place between cells; one below zero is counted from the end. -/
def place (m : Memory) (i : Int) : Nat :=
  if i < 0 then (i + m.size).toNat else min i.toNat m.size

def between (m : Memory) (first last : Int) : List Int :=
  (m.cells.extract (m.place first) (m.place last)).toList

def dumpLine (addr : Int) (row : List Int) : Except Failure String :=
  writing (addr :: row) <|
    String.ofList (writeZeroPadded 6 addr) ++ "  "
      ++ " ".intercalate (row.map fun v => String.ofList (padStart 8 ' ' (Numeral.write v)))

def dumpLines (m : Memory) (start length perLine : Int) : Except Failure (List String) :=
  let stop := min (start + length) m.size
  if perLine = 0 then
    .error .emptyDumpLine
  else
    (heads start stop perLine).mapM fun addr =>
      dumpLine addr (m.between addr (min (addr + perLine) stop))

def dump (m : Memory) (start length perLine : Int) : Except Failure String :=
  (m.dumpLines start length perLine).map joinLines

end Intcode.Memory
