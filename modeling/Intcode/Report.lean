/-!
Reports: the result of a computation together with what it had to tell on the way, in the order in
which it was told. A computation that fails has told what came before the failure.
-/
namespace Intcode

structure Report (ω ε α : Type) where
  events : List ω
  result : Except ε α

namespace Report

variable {ω ω' ε ε' α β : Type}

def pure (a : α) : Report ω ε α :=
  { events := [], result := .ok a }

def bind (x : Report ω ε α) (f : α → Report ω ε β) : Report ω ε β :=
  match x.result with
  | .ok a =>
    let y := f a
    { events := x.events ++ y.events, result := y.result }
  | .error e => { events := x.events, result := .error e }

instance : Monad (Report ω ε) where
  pure := pure
  bind := bind

def fail (e : ε) : Report ω ε α :=
  { events := [], result := .error e }

def ofExcept (result : Except ε α) : Report ω ε α :=
  { events := [], result }

def tell (events : List ω) : Report ω ε Unit :=
  { events, result := .ok () }

def after (events : List ω) (x : Report ω ε α) : Report ω ε α :=
  { x with events := events ++ x.events }

def translate (event : ω → Option ω') (error : ε → ε') (x : Report ω ε α) : Report ω' ε' α :=
  { events := x.events.filterMap event, result := x.result.mapError error }

theorem result_pure (a : α) : (Pure.pure a : Report ω ε α).result = .ok a := rfl

theorem result_bind (x : Report ω ε α) (f : α → Report ω ε β)
    : (x >>= f).result = x.result >>= fun a => (f a).result := by
  show (x.bind f).result = _
  unfold bind
  cases x.result <;> rfl

end Report

end Intcode
