import Intcode.Log
import Intcode.Report

namespace Intcode.CommandLine

inductive Output where
  | out (text : String)
  | err (text : String)
  | log (record : Record)
  deriving Repr, DecidableEq

namespace Output

def watchLine (addr : Int) (old new : String) : Output :=
  .err s!"watch [{Numeral.render addr}] {old} -> {new}\n"

def ofEvent : Event → Option Output
  | .sighted s => some (watchLine s.addr (Numeral.render s.old) (Numeral.render s.new))
  | event => event.record?.map .log

def ofEvents (events : List Event) : List Output :=
  events.filterMap ofEvent

def onStdout : Output → String
  | out text => text
  | _ => ""

def onStderr (threshold : Level) : Output → String
  | err text => text
  | log record => if threshold.rank ≤ record.level.rank then record.line else ""
  | out _ => ""

def logged : Output → Option Record
  | log record => some record
  | _ => none

def stdout (written : List Output) : String :=
  String.join (written.map onStdout)

def stderr (threshold : Level) (written : List Output) : String :=
  String.join (written.map (onStderr threshold))

def records (written : List Output) : List Record :=
  written.filterMap logged

end Output

end Intcode.CommandLine
