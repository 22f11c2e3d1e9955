import Intcode.CommandLine.FileSystem
import Intcode.CommandLine.Misfit
import Intcode.CommandLine.Output
import Intcode.Source
import Intcode.Text.Utf8

namespace Intcode.CommandLine

inductive Trouble where
  | failure (f : Failure)
  | system (e : SystemError)
  | badText (m : Utf8.Malformed)
  | notANumber (text : String)
  | numberTooLong (digits : Nat)
  | endOfInput
  | misfit (m : Misfit)
  deriving Repr, DecidableEq

def maxShown : Nat := 200

def Trouble.message : Trouble → String
  | failure f => f.message
  | system e => e.message
  | badText m => m.message
  | notANumber text =>
    let shown := String.ofList ((Text.quoteChars text.toList).take maxShown)
    s!"invalid literal for int() with base 10: {shown}"
  | numberTooLong digits =>
    "Exceeds the limit (4300 digits) for integer string conversion: "
      ++ s!"value has {Numeral.render digits} digits; "
      ++ "use sys.set_int_max_str_digits() to increase the limit"
  | endOfInput => "EOF when reading a line"
  | misfit m => m.message

def Trouble.isForeseen : Trouble → Bool
  | failure (.unknownProfile _) => false
  | failure (.mishap m) => m.isForeseen
  | misfit _ => false
  | _ => true

abbrev Action := Report Output Trouble

namespace Action

def ofReport (x : Report Event Failure α) : Action α :=
  x.translate Output.ofEvent .failure

def ofExcept (x : Except Failure α) : Action α :=
  ofReport (Report.ofExcept x)

def write (output : Output) : Action Unit :=
  Report.tell [output]

def print (line : String) : Action Unit :=
  write (.out (line ++ "\n"))

def printShowing (numbers : List Int) (line : String) : Action Unit := do
  print (← ofExcept (writing numbers line))

def tell : List Event → Action Unit
  | [] => return
  | event :: rest => do
    if let .sighted _ := event then
      ofExcept (writing event.numbers ())
    Report.tell (Output.ofEvents [event])
    tell rest

def log (level : Level) (message : String) : Action Unit :=
  write (.log { level, channel := .commandLine, message })

def fail (trouble : Trouble) : Action α :=
  Report.fail trouble

def insist (m : Misfit) : Given α → Action α
  | .nothing => fail (.misfit m)
  | .value a => return a

def readNumber (text : List Char) : Action Int :=
  match Numeral.read text with
  | .ok v => return v
  | .error .malformed => fail (.notANumber (String.ofList text))
  | .error (.tooLong digits) => fail (.numberTooLong digits)

def unifyBreaks : List Char → List Char
  | [] => []
  | '\r' :: '\n' :: rest => '\n' :: unifyBreaks rest
  | '\r' :: rest => '\n' :: unifyBreaks rest
  | c :: rest => c :: unifyBreaks rest

def loadProgram (source : Except SystemError (List UInt8)) : Action (List Int) :=
  match source with
  | .error e => fail (.system e)
  | .ok bytes =>
    match Utf8.decode bytes with
    | .error m => fail (.badText m)
    | .ok text =>
      match Source.parse (String.ofList (unifyBreaks text)) with
      | .error fault => fail (.failure fault)
      | .ok image => return image

end Action

end Intcode.CommandLine
