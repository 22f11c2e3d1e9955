import Intcode.Proofs.Machine.Trail
import Intcode.Proofs.Program.Use

namespace Intcode.Program

open Machine

def Call.visits (fuel : Nat) : Call → Program → List Machine
  | feed _, _ => []
  | next inputs, p =>
    match p.obstacle? with
    | some _ => []
    | none => visited fuel (p.machine.push inputs)

def history (fuel : Nat) : List Call → Program → List Machine
  | [], _ => []
  | call :: rest, p => call.visits fuel p ++ history fuel rest (call.perform fuel p).2

def drainCalls (fuel : Nat) : (bound : Nat) → (inputs : List Int) → Program → List Call
  | 0, _, _ => []
  | bound + 1, inputs, p =>
    .next inputs ::
      match p.nextOutput fuel inputs with
      | .ok (some _) p => drainCalls fuel bound [] p
      | _ => []

def takeCalls (fuel : Nat) : (count : Nat) → Program → List Call
  | 0, _ => []
  | count + 1, p =>
    if p.isHalted then
      []
    else
      .next [] ::
        match p.nextOutput fuel [] with
        | .ok (some _) p => takeCalls fuel count p
        | _ => []

namespace Use

def calls (fuel : Nat) : Use → Program → List Call
  | feed values, _ => [.feed values]
  | next inputs, _ => [.next inputs]
  | drain inputs, p => drainCalls fuel fuel inputs p
  | iterate count, p => takeCalls fuel count p

def performAll (fuel : Nat) : List Use → Program → Program
  | [], p => p
  | use :: rest, p => performAll fuel rest (use.perform fuel p).2

def allCalls (fuel : Nat) : List Use → Program → List Call
  | [], _ => []
  | use :: rest, p => use.calls fuel p ++ allCalls fuel rest (use.perform fuel p).2

end Use

variable {fuel : Nat} {p : Program}

theorem perform_next (fuel : Nat) (inputs : List Int) (p : Program)
    : (Call.perform fuel (.next inputs) p).2 = endState (p.nextOutput fuel inputs) :=
  Reply.snd_ofResult _

theorem session_drainCalls (bound : Nat) (inputs : List Int)
    : (session fuel (drainCalls fuel bound inputs p) p).2
        =
      endState (outputsUpTo fuel bound inputs p) := by
  induction bound generalizing inputs p with
  | zero => rfl
  | succ bound ih =>
    rw [outputsUpTo_succ]
    unfold drainCalls session
    dsimp only
    rw [perform_next]
    cases p.nextOutput fuel inputs with
    | error e p => rfl
    | ok out p =>
      cases out with
      | none => rfl
      | some value =>
        show (session fuel (drainCalls fuel bound [] p) p).2 = _
        rw [ih]
        dsimp only
        cases outputsUpTo fuel bound [] p with
        | error e p => rfl
        | ok values p => rfl

theorem session_takeCalls (count : Nat)
    : (session fuel (takeCalls fuel count p) p).2 = (take fuel count p).2 := by
  induction count generalizing p with
  | zero => rfl
  | succ count ih =>
    unfold takeCalls take
    split
    . rfl
    . unfold session
      dsimp only
      rw [perform_next]
      cases p.nextOutput fuel [] with
      | error e p => rfl
      | ok out p =>
        cases out with
        | none => rfl
        | some value => exact ih

theorem session_calls (use : Use)
    : (session fuel (use.calls fuel p) p).2 = (use.perform fuel p).2 := by
  cases use with
  | feed values =>
    simp only [Use.calls, Use.perform, session, Call.perform]
    cases p.feed values with
    | error e p => rfl
    | ok _ p => rfl
  | next inputs =>
    rw [Use.perform, Use.snd_ofResult]
    exact perform_next fuel inputs p
  | drain inputs =>
    rw [Use.perform, Use.snd_ofResult]
    exact session_drainCalls fuel inputs
  | iterate count => exact session_takeCalls count

theorem session_allCalls (uses : List Use)
    : (session fuel (Use.allCalls fuel uses p) p).2 = Use.performAll fuel uses p := by
  induction uses generalizing p with
  | nil => rfl
  | cons use rest ih =>
    unfold Use.allCalls Use.performAll
    rw [session_append, session_calls]
    exact ih

theorem history_of_obstacle {fault : Fault} (h : p.obstacle? = some fault) (calls : List Call)
    : history fuel calls p = [] := by
  induction calls with
  | nil => rfl
  | cons call calls ih =>
    have still : (call.perform fuel p).2 = p := by
      rw [(perform_of_obstacle h fuel call).1]
    unfold history
    rw [still, ih, List.append_nil]
    cases call with
    | feed values => rfl
    | next inputs => simp only [Call.visits, h]

end Intcode.Program
