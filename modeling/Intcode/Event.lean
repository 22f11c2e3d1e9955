import Intcode.Machine.Trace
import Intcode.Memory

namespace Intcode

inductive Event where
  | sighted (sighting : Sighting)
  | executed (entry : TraceEntry)
  | halted (name : String) (steps : Nat)
  | faulted (name : String) (ip : Int)
  | skipped (noun verb : Int) (fault : Fault)
  | found (noun verb target : Int)
  | starved (name : String)
  | loopEnded (rounds : Nat) (signal : Option Int)
  | serving (name port : String)
  | sent (value : Int)
  | received (value : Int)
  | served (name : String) (sent received : Nat)
  deriving Repr, DecidableEq

end Intcode
