import Intcode.Fault

namespace Intcode

inductive Width where
  | unbounded
  | bits (count : Int)
  deriving Repr, DecidableEq

namespace Width

def half (count : Int) : Int :=
  Nat.pow 2 (count - 1).toNat

-- A width of no bits has no limits to speak of.
def limits : Width → Except Failure (Option (Int × Int))
  | unbounded => .ok none
  | bits count =>
    if count ≤ 0 then
      .error .widthNotPositive
    else
      .ok (some (-half count, half count - 1))

def fits (width : Width) (value : Int) : Except Failure Bool :=
  width.limits.map fun
    | none => true
    | some (least, greatest) => least ≤ value && value ≤ greatest

def bitCount : Width → Int
  | unbounded => 0
  | bits count => count

end Width

inductive Profile where
  | i32
  | i64
  | i128
  | bigint
  deriving Repr, DecidableEq

namespace Profile

def all : List Profile :=
  [i32, i64, i128, bigint]

def name : Profile → String
  | i32 => "i32"
  | i64 => "i64"
  | i128 => "i128"
  | bigint => "bigint"

def width : Profile → Width
  | i32 => .bits 32
  | i64 => .bits 64
  | i128 => .bits 128
  | bigint => .unbounded

def ofName? (name : String) : Option Profile :=
  all.find? (·.name == name)

def ofName (name : String) : Except Failure Profile :=
  match ofName? name with
  | some profile => .ok profile
  | none => .error (.unknownProfile name)

theorem ofName?_name (profile : Profile) : ofName? profile.name = some profile := by
  cases profile <;> decide

end Profile

structure Config where
  width : Width := .unbounded
  tracing : Bool := false
  deriving Repr, DecidableEq

end Intcode
