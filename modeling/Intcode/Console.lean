import Intcode.Console.Port
import Intcode.Program

/-!
Consoles: a program whose outputs are written to a port, one line each, and which reads a line from
the port whenever it has no input left.
-/
namespace Intcode

structure Console (π : Type) where
  program : Program
  port : π
  sent : List Int := []
  received : List Int := []
  journal : Array Event := #[]

namespace Console

variable {π : Type} [Port π]

def record (event : Event) (c : Console π) : Console π :=
  { c with journal := c.journal.push event }

def collectProgram (c : Console π) : Console π :=
  let (events, program) := c.program.collect
  { c with program, journal := c.journal ++ events.toArray }

def collect (c : Console π) : List Event × Console π :=
  let c := c.collectProgram
  (c.journal.toList, { c with journal := #[] })

def onProgram (x : EStateM Failure Program α) : EStateM Failure (Console π) α := fun c =>
  match x c.program with
  | .ok a program => .ok a { c with program }.collectProgram
  | .error e program => .error e { c with program }.collectProgram

-- A value that could not be written is not sent again.
def send (value : Int) : EStateM Failure (Console π) Unit := fun c =>
  match writing [value] (Port.encode value) with
  | .error e => .error e c
  | .ok line =>
    match Port.write line c.port with
    | (.ok (), port) =>
      .ok () ({ c with port, sent := c.sent ++ [value] }.record (.sent value))
    | (.error e, port) => .error (e.failure .writeFailed) { c with port }

def receive : EStateM Failure (Console π) Int := fun c =>
  match Port.readLine c.port with
  | (.error e, port) => .error (e.failure .readFailed) { c with port }
  | (.ok [], port) =>
    .error (.fault { cause := .readTimedOut, ip := some c.program.machine.ip }) { c with port }
  | (.ok line, port) =>
    let text := Port.decode line
    match Numeral.read text with
    | .ok value =>
      .ok value ({ c with port, received := c.received ++ [value] }.record (.received value))
    | .error _ =>
      .error
        (.fault { cause := .unreadableLine (String.ofList text), ip := some c.program.machine.ip })
        { c with port }

def stepUpTo (fuel : Nat) : (bound : Nat) → EStateM Failure (Console π) (Option Int)
  | 0 => throw .outOfFuel
  | bound + 1 => fun c =>
    match onProgram (Program.nextOutput fuel) c with
    | .error (.fault { cause := .inputExhausted, .. }) c =>
      match receive c with
      | .error e c => .error e c
      | .ok value c =>
        match onProgram (Program.feed [value]) c with
        | .error e c => .error e c
        | .ok () c => stepUpTo fuel bound c
    | result => result

def step (fuel : Nat) : EStateM Failure (Console π) (Option Int) :=
  stepUpTo fuel fuel

def serveUpTo (fuel : Nat) : (bound : Nat) → EStateM Failure (Console π) Unit
  | 0 => throw .outOfFuel
  | bound + 1 => fun c =>
    match step fuel c with
    | .error e c => .error e c
    | .ok none c => .ok () c
    | .ok (some value) c =>
      match send value c with
      | .error e c => .error e c
      | .ok () c => serveUpTo fuel bound c

def serve (fuel : Nat) : EStateM Failure (Console π) (List Int) := do
  modify fun c => c.record (.serving c.program.name (Port.name c.port))
  serveUpTo fuel fuel
  modifyGet fun c =>
    (c.sent, c.record (.served c.program.name c.sent.length c.received.length))

def report (x : EStateM Failure (Console π) α) (c : Console π) : Report Event Failure α :=
  match x c with
  | .ok a c => { events := c.collect.1, result := .ok a }
  | .error e c => { events := c.collect.1, result := .error e }

end Console

end Intcode
