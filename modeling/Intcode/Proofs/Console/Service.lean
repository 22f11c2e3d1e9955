import Intcode.Proofs.Console.Line
import Intcode.Proofs.Console.Script
import Intcode.Proofs.Program.Blame
import Intcode.Proofs.Program.Outcome

namespace Intcode

namespace Console

open Program Machine

variable {π : Type} [Port π] {fuel : Nat} {c d : Console π} {states : List Machine}

theorem free_of_exchange (h : c.program.Coherent) (going : exchange fuel c = .ok true d)
    : d.program.obstacle? = none := by
  have turn := exchange_turn fuel h
  rw [going] at turn
  cases turn with
  | @sent p _ _ _ gave _ _ =>
    show p.obstacle? = none
    exact free_of_gave gave
  | @received p _ _ _ _ exhausted _ =>
    show p.obstacle? = none
    rw [obstacle?, (awaiting_of_nextOutput h exhausted).1]

theorem Serves.faulted {result : EStateM.Result Failure (Console π) Unit} (h : c.program.Coherent)
    (free : c.program.obstacle? = none) (served : Serves fuel c states result) {e : Failure}
    (failed : result = .error e d)
    : e = .outOfFuel ∨ e = .unwritable ∨ e.isLink = true
      ∨ ∃ fault, e = .fault fault ∧ fault.cause.IsHazard ∧ fault.ip = some d.program.machine.ip
          ∧ d.program.state = .faulted := by
  induction served with
  | ended _ => cases failed
  | failed first =>
    cases failed
    have turn := exchange_turn fuel h
    rw [first] at turn
    cases turn with
    | @unsent _ _ _ e _ _ _ _ => exact .inr (.inr (.inl (e.isLink_failure fun _ => rfl)))
    | unwritten _ _ => exact .inr (.inl rfl)
    | unread _ _ => exact .inr (.inr (.inl (Port.isLink_objection _ _)))
    | failed failed other =>
      obtain spent | unwritten | faulted := faulted_of_nextOutput h free failed other
      . exact .inl spent
      . exact .inr (.inl unwritten)
      . exact .inr (.inr (.inr faulted))
  | @more c c' _ _ first _ ih =>
    have kept := (exchange_turn fuel h).coherent h
    rw [first] at kept
    exact ih kept (free_of_exchange h first) failed

theorem Serves.halted {result : EStateM.Result Failure (Console π) Unit} (h : c.program.Coherent)
    (served : Serves fuel c states result) (ended : result = .ok () d)
    : d.program.state = .halted := by
  induction served with
  | ended first =>
    cases ended
    have turn := exchange_turn fuel h
    rw [first] at turn
    cases turn with
    | @ended p _ ended =>
      show p.state = .halted
      exact halted_of_nextOutput h ended
  | failed _ => cases ended
  | more first _ ih =>
    have kept := (exchange_turn fuel h).coherent h
    rw [first] at kept
    exact ih kept ended

/--
A console that reads from a script serves what the program gives when it is loaded with the
numbers of the script that were read, and reads a line only when the program has come to an input
without one.
-/
theorem serve_eq_run {image inputs : List Int} {config : Config} {name : String} {p : Program}
    {script : Script} (proper : config.width.Proper)
    (loaded : load image inputs config name = .ok p) (willing : script.Willing) (fuel : Nat)
    : let start : Console Script := { program := p, port := script }
      (∀ values c, serve fuel start = .ok values c
        → values = c.sent
          ∧ (∃ enough, ∀ fuel' ≥ enough,
              (runToCompletion fuel' image (inputs ++ c.received) config).result = .ok values)
          ∧ (∃ lines, c.port.written = script.written ++ lines
              ∧ lines.map Port.text = values.map fun v => s!"{v}\n")
          ∧ ∃ states d read, Serves fuel start.opened states (.ok () d)
              ∧ closed (.ok () d) = .ok values c
              ∧ inputs ++ c.received = states.filterMap intake? ++ c.program.machine.inputs
              ∧ (c.received ≠ [] → c.program.machine.inputs = [])
              ∧ script.lines = read ++ c.port.lines
              ∧ read.map Script.value? = c.received.map some
              ∧ read.length = states.countP isStarved
              ∧ read.length = (states.filter completesInput).length - inputs.length)
      ∧ ∀ fault c, serve fuel start = .error (.fault fault) c → fault.cause.isLink = false
        → ∃ a a', fault.ip = some a'.machine.ip
            ∧ load image (inputs ++ c.received) config name = .ok a
            ∧ Yields a (c.sent.map .gave ++ [.failed fault]) a'
            ∧ Supplied [] c.program.machine a'.machine := by
  intro start
  have coherent : start.opened.program.Coherent := coherent_of_load proper loaded
  have unfed : start.opened.program.machine.inputs = inputs := (ready_of_load proper loaded).2
  obtain ⟨m, fresh, rfl⟩ := load_iff.mp loaded
  constructor
  . intro values c served
    obtain ⟨states, d, exchanges, closes⟩ := serves_of_ok served
    obtain ⟨written, read, replies, port, progress, smooth, carries, rfl, rfl⟩ :=
      exchanges.progress coherent fun _ => ok_ne_error
    have progress : Progress start.opened states d written read _ := progress
    obtain ⟨-, kept, items, lines, readable⟩ := Script.carried willing carries
    have halted := exchanges.halted coherent rfl
    have length : items.length = read.length := by
      rw [← List.length_map Script.value?, readable, List.length_map]
    obtain rfl : d.sent = written := progress.sent
    obtain rfl : d.received = read := progress.received
    cases closes
    refine ⟨rfl, ?_, ⟨_, kept, ?_⟩, states, d, items, exchanges, rfl, ?_, ?_, lines, readable, ?_,
      ?_⟩
    . obtain ⟨a', yields, -⟩ := progress.ahead (ahead_of_push m inputs _ name "program")
      rw [List.append_nil] at yields
      exact runToCompletion_of_yields (load_iff.mpr ⟨m, fresh, rfl⟩) yields
    . rw [List.map_map]
      exact List.map_congr_left fun v _ => Port.text_encode v
    . rw [← unfed]
      exact progress.intake
    . exact progress.inputs_eq_nil halted
    . rw [length, (smooth d rfl).starved]
    . rw [length, progress.length_read (smooth d rfl) halted, unfed]
  . intro fault c failed unlinked
    obtain ⟨states, exchanges⟩ := serves_of_error failed nofun
    obtain ⟨⟨⟩⟩ | ⟨⟨⟩⟩ | linked | ⟨_, ⟨⟩, hazard, ip, faulted⟩ :=
      exchanges.faulted coherent rfl rfl
    . rw [show fault.cause.isLink = true from linked] at unlinked
      contradiction
    . obtain ⟨written, read, replies, port, progress, -, -, closes⟩ :=
        exchanges.progress coherent (by rintro _ ⟨⟩)
      have progress : Progress start.opened states c written read replies := progress
      obtain ⟨rfl, -⟩ := closes fault rfl hazard
      obtain rfl : c.sent = written := progress.sent
      obtain rfl : c.received = read := progress.received
      obtain ⟨a', yields, ahead⟩ := progress.ahead (ahead_of_push m inputs _ name name)
      rw [List.append_nil] at yields
      unfold Ahead at ahead
      rw [faulted] at ahead
      obtain ⟨-, journal, same⟩ := ahead
      refine ⟨_, a', ?_, load_iff.mpr ⟨m, fresh, rfl⟩, yields, journal, same⟩
      rw [ip, same]

theorem serve_eq_run_overflow
    : let image := [3, 9, 4, 9, 1005, 9, 0, 99]
      let config : Config := { width := .bits 12 }
      let p : Program :=
        { name := "p", machine := { width := .bits 12, memory := .ofImage image, inputs := [5] } }
      let script : Script := { lines := [some [0x37, 0x0A], some [0x30, 0x0A]] }
      let script' : Script := { lines := [some [0x35, 0x30, 0x30, 0x30, 0x0A]] }
      let fault : Fault := { cause := .cellOverflow 5000 9 12, ip := some 0 }
      config.width.Proper ∧ load image [5] config "p" = .ok p ∧ script.Willing ∧ script'.Willing
        ∧ (∃ c, serve 9 { program := p, port := script } = .ok [5, 7, 0] c ∧ c.received = [7, 0]
          ∧ c.port.written = [[0x35, 0x0A], [0x37, 0x0A], [0x30, 0x0A]]
          ∧ c.port.written.map Port.text = ["5\n", "7\n", "0\n"]
          ∧ ∃ enough, ∀ fuel' ≥ enough,
              (runToCompletion fuel' image [5, 7, 0] config).result = .ok [5, 7, 0])
        ∧ ∃ c, serve 9 { program := p, port := script' } = .error fault c ∧ c.sent = [5]
          ∧ ∃ a a', load image [5, 5000] config "p" = .ok a
              ∧ Yields a [.gave 5, .failed fault] a' ∧ a'.machine.ip = 0 := by
  intro image config p script script' fault
  have proper : config.width.Proper := by decide
  have loaded : load image [5] config "p" = .ok p := rfl
  have willing : script.Willing := rfl
  have willing' : script'.Willing := rfl
  obtain ⟨returns, -⟩ := serve_eq_run proper loaded willing 9
  obtain ⟨-, fails⟩ := serve_eq_run proper loaded willing' 9
  refine ⟨proper, loaded, rfl, rfl, ?_, ?_⟩
  . have outcome : outcome (serve 9 { program := p, port := script }) = .ok [5, 7, 0] := by
      decide +kernel
    have served := eq_of_outcome_ok outcome
    have received : (endState (serve 9 { program := p, port := script })).received = [7, 0] := by
      decide +kernel
    have written : (endState (serve 9 { program := p, port := script })).port.written
        = [[0x35, 0x0A], [0x37, 0x0A], [0x30, 0x0A]] := by
      decide +kernel
    obtain ⟨-, same, ⟨lines, kept, shown⟩, -⟩ := returns _ _ served
    rw [received] at same
    refine ⟨_, served, received, written, ?_, same⟩
    rw [kept]
    exact shown
  . have outcome : outcome (serve 9 { program := p, port := script' }) = .error fault := by
      decide +kernel
    have failed := eq_of_outcome_error outcome
    have received : (endState (serve 9 { program := p, port := script' })).received = [5000] := by
      decide +kernel
    have sent : (endState (serve 9 { program := p, port := script' })).sent = [5] := by
      decide +kernel
    obtain ⟨a, a', ip, loaded, yields, -⟩ := fails _ _ failed rfl
    rw [received] at loaded
    rw [sent] at yields
    exact ⟨_, failed, sent, a, a', loaded, yields, Option.some.inj ip.symm⟩

end Console

end Intcode
