import Intcode.Memory.Dump
import Intcode.Proofs.Machine.Trail

namespace Intcode.Machine

inductive Operation where
  | step
  | run
  | push (values : List Int)
  | take
  | read (addr : Int)
  | write (addr value : Int)
  | peek (addr : Int)
  | resolveRead (mode : Mode) (slot : Int)
  | resolveWrite (mode : Mode) (slot : Int)
  | moveTo (ip : Int)
  | rebase (base : Int)
  | snapshot
  | dump (start length perLine : Int)
  | watch (addr : Int)
  | enableTrace (on : Bool)
  | clearTrace
  | readTrace
  deriving Repr, DecidableEq

inductive Answer where
  | done
  | stopped (reason : Option StopReason)
  | value (value : Int)
  | output (value : Option Int)
  | cells (cells : Array Int)
  | text (text : String)
  deriving Repr, DecidableEq

def dumped (start length perLine : Int) : Execution Answer := fun m =>
  match m.memory.dump start length perLine with
  | .ok text => .ok (.text text) m
  | .error e => .error e m

def Operation.perform (fuel : Nat) : Operation → Execution Answer
  | step => do return .stopped (← Machine.step)
  | run => do return .stopped (some (← Machine.run fuel))
  | push values => fun m => .ok .done (m.push values)
  | take => fun m => .ok (.output m.takeOutput.1) m.takeOutput.2
  | read addr => do return .value (← readCell addr)
  | write addr value => do
    writeCell addr value
    return .done
  | peek addr => fun m => .ok (.value (m.memory.peek addr)) m
  | resolveRead mode slot => do return .value (← Machine.resolveRead mode slot)
  | resolveWrite mode slot => do return .value (← Machine.resolveWrite mode slot)
  | moveTo ip => fun m => .ok .done { m with ip }
  | rebase base => fun m => .ok .done { m with base }
  | snapshot => fun m => .ok (.cells m.memory.snapshot) m
  | dump start length perLine => dumped start length perLine
  | watch addr => fun m => .ok .done (m.watch m.memory.watches.length addr)
  | enableTrace on => fun m => .ok .done (m.enableTrace on)
  | clearTrace => fun m => .ok .done m.clearTrace
  | readTrace => fun m => .ok (.text (TraceEntry.renderAll m.trace)) m

def drive (fuel : Nat)
    : List Operation → Machine → List (Operation × Except Failure Answer) × Machine
  | [], m => ([], m)
  | op :: ops, m =>
    let result := op.perform fuel m
    let rest := drive fuel ops (endState result)
    ((op, outcome result) :: rest.1, rest.2)

def Operation.visits (fuel : Nat) : Operation → Machine → List Machine
  | step, m => [m]
  | run, m => visited fuel m
  | _, _ => []

def history (fuel : Nat) : List Operation → Machine → List Machine
  | [], _ => []
  | op :: ops, m => op.visits fuel m ++ history fuel ops (endState (op.perform fuel m))

variable {fuel : Nat} {m : Machine}

theorem drive_append (ops later : List Operation)
    : drive fuel (ops ++ later) m
        =
      ((drive fuel ops m).1 ++ (drive fuel later (drive fuel ops m).2).1,
        (drive fuel later (drive fuel ops m).2).2) := by
  induction ops generalizing m with
  | nil => rfl
  | cons op ops ih =>
    show ((op, _) :: (drive fuel (ops ++ later) _).1, (drive fuel (ops ++ later) _).2) = _
    rw [ih]
    rfl

theorem answer_ends {P : Machine → Prop} {x : Execution α} (h : P (endState (x m)))
    (f : α → Answer) : P (endState ((do return f (← x) : Execution Answer) m)) :=
  endState_bind h fun _ _ h => h

theorem endState_dumped (start length perLine : Int)
    : endState (dumped start length perLine m) = m := by
  unfold dumped
  split
  . rfl
  . rfl

section

variable {P : Machine → Prop}
  (touch : ∀ (addr : Int) (m : Machine), P m → P ((Action.touch addr).apply m))

include touch

theorem readCell_ends (h : P m) (addr : Int) : P (endState (readCell addr m)) := by
  by_cases inside : 0 ≤ addr
  . rw [readCell_eq m inside]
    exact touch addr m h
  . unfold readCell Memory.read
    rw [if_pos (Int.not_le.mp inside)]
    exact h

theorem address_ends (h : P m) (mode : Mode) (slot : Int)
    : P (endState (address mode slot m)) := by
  unfold address
  apply endState_bind (readCell_ends touch h slot)
  intro raw n h
  rw [bind_get]
  generalize (if mode = .relative then raw + n.base else raw) = addr
  by_cases below : addr < 0
  . rw [if_pos below]
    exact h
  . rw [if_neg below]
    exact h

theorem resolveRead_ends (h : P m) (mode : Mode) (slot : Int)
    : P (endState (resolveRead mode slot m)) := by
  unfold resolveRead
  split
  . exact readCell_ends touch h slot
  . apply endState_bind (address_ends touch h mode slot)
    intro addr n h
    exact readCell_ends touch h addr

theorem resolveWrite_ends (h : P m) (mode : Mode) (slot : Int)
    : P (endState (resolveWrite mode slot m)) := by
  unfold resolveWrite
  split
  . exact h
  . exact address_ends touch h mode slot

end

theorem writeCell_ends {P : Machine → Prop} (h : P m) (addr value : Int)
    (put : 0 ≤ addr → P ((Action.put addr value).apply m))
    : P (endState (writeCell addr value m)) := by
  by_cases inside : 0 ≤ addr
  . rw [writeCell_eq m value inside]
    exact put inside
  . unfold writeCell Memory.write
    rw [if_pos (Int.not_le.mp inside)]
    exact h

theorem run_ends {P : Machine → Prop} (step : ∀ m : Machine, P m → P (endState m.step)) (h : P m)
    (fuel : Nat) : P (endState (Machine.run fuel m)) := by
  induction fuel generalizing m with
  | zero => exact h
  | succ fuel ih =>
    have stepped := step m h
    unfold Machine.run
    generalize m.step = r at stepped ⊢
    cases r with
    | error e m' => exact stepped
    | ok reason m' =>
      cases reason with
      | none => exact ih stepped
      | some reason => exact stepped

theorem step_of_neg (below : m.ip < 0)
    : m.step = .error (Fault.raised { cause := .negativeAddress m.ip }) m := by
  have inside : ¬ m.memory.size ≤ m.ip := by omega
  have unread : readCell m.ip m = .error (Fault.raised { cause := .negativeAddress m.ip }) m := by
    unfold readCell Memory.read
    rw [if_pos below]
  have unfetched : fetch m = .error (Fault.raised { cause := .negativeAddress m.ip }) m := by
    unfold fetch
    rw [bind_get]
    exact bind_of_error unread
  unfold step
  rw [bind_get, bind_get, if_neg inside]
  exact bind_of_error unfetched

structure Lasting (P : Machine → Prop) : Prop where
  step (m : Machine) : P m → P (endState m.step)
  touch (addr : Int) (m : Machine) : P m → P ((Action.touch addr).apply m)
  put (addr value : Int) (m : Machine) : P m → P ((Action.put addr value).apply m)
  registers (ip base : Int) (inputs : List Int) (pending : Option Int) (m : Machine)
    : P m → P { m with ip, base, inputs, pending }
  watch (addr : Int) (m : Machine) : P m → P (m.watch m.memory.watches.length addr)
  tracing (tracing : Bool) (trace : Array TraceEntry) (m : Machine)
    : P m → P { m with tracing, trace }

theorem Lasting.perform {P : Machine → Prop} (lasting : Lasting P) (h : P m) (fuel : Nat)
    (op : Operation) : P (endState (op.perform fuel m)) := by
  have registers (ip base : Int) (inputs : List Int) (pending : Option Int)
      : P { m with ip, base, inputs, pending } := lasting.registers ip base inputs pending m h
  cases op with
  | step => exact answer_ends (lasting.step m h) _
  | run => exact answer_ends (run_ends lasting.step h fuel) _
  | push values => exact registers m.ip m.base (m.inputs ++ values) m.pending
  | take => exact registers m.ip m.base m.inputs none
  | moveTo ip => exact registers ip m.base m.inputs m.pending
  | rebase base => exact registers m.ip base m.inputs m.pending
  | read addr => exact answer_ends (readCell_ends lasting.touch h addr) _
  | write addr value =>
    have put := lasting.put addr value m h
    exact answer_ends (writeCell_ends h addr value fun _ => put) fun _ => .done
  | resolveRead mode slot => exact answer_ends (resolveRead_ends lasting.touch h mode slot) _
  | resolveWrite mode slot => exact answer_ends (resolveWrite_ends lasting.touch h mode slot) _
  | dump start length perLine =>
    show P (endState (dumped start length perLine m))
    rw [endState_dumped]
    exact h
  | watch addr => exact lasting.watch addr m h
  | enableTrace on => exact lasting.tracing on m.trace m h
  | clearTrace => exact lasting.tracing m.tracing #[] m h
  | _ => exact h

theorem Lasting.drive {P : Machine → Prop} (lasting : Lasting P) (h : P m) (fuel : Nat)
    (ops : List Operation) : P (drive fuel ops m).2 := by
  induction ops generalizing m with
  | nil => exact h
  | cons op ops ih => exact ih (lasting.perform h fuel op)

end Intcode.Machine
