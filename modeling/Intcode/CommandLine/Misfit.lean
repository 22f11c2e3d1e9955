import Intcode.CommandLine.Grammar
import Intcode.Text.Numeral

namespace Intcode.CommandLine

def renderGiven : Given Int → String
  | .nothing => "[]"
  | .value v => Numeral.render v

def Given.numbers (given : Given Int) : List Int :=
  given.toOption.toList

inductive Sign where
  | less
  | atMost
  deriving Repr, DecidableEq

def Sign.text : Sign → String
  | less => "<"
  | atMost => "<="

inductive Misfit where
  | nothingBefore (sign : Sign)
  | nothingBehind (sign : Sign)
  | nothingPlusNumber
  | numberPlusNothing
  | nothingTimesNothing
  | nothingTimesTooMuch
  | noKey
  | noElements
  | noColumn
  deriving Repr, DecidableEq

def Misfit.message : Misfit → String
  | nothingBefore sign =>
    s!"'{sign.text}' not supported between instances of 'list' and 'int'"
  | nothingBehind sign =>
    s!"'{sign.text}' not supported between instances of 'int' and 'list'"
  | nothingPlusNumber => "can only concatenate list (not \"int\") to list"
  | numberPlusNothing => "unsupported operand type(s) for +: 'int' and 'list'"
  | nothingTimesNothing => "can't multiply sequence by non-int of type 'list'"
  | nothingTimesTooMuch => "cannot fit 'int' into an index-sized integer"
  | noKey => "unhashable type: 'list'"
  | noElements => "'int' object is not iterable"
  | noColumn => "unsupported format string passed to list.__format__"

end Intcode.CommandLine
