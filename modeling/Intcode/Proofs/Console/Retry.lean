import Intcode.Proofs.Console.Service

/-!
Retries: a read that fails costs the item that was read and nothing else. Who serves again whenever
the link has failed gets as far as who serves once and has nothing bad to read.
-/
namespace Intcode

namespace Script

def isGood (item : Option (List UInt8)) : Bool :=
  (value? item).isSome

theorem isGood_eq_false_iff {item : Option (List UInt8)}
    : isGood item = false ↔ value? item = none := by
  rw [isGood, Option.isSome_eq_false_iff, Option.isNone_iff_eq_none]

theorem numbers_filter (items : List (Option (List UInt8)))
    : numbers (items.filter isGood) = numbers items := by
  unfold numbers
  rw [List.filterMap_filter]
  congr 1
  funext item
  cases read : isGood item with
  | false => exact (isGood_eq_false_iff.mp read).symm
  | true => rfl

def clean (script : Script) : Script :=
  { script with lines := script.lines.filter isGood }

end Script

namespace Program

def Stalled (fuel : Nat) (p p' : Program) : Prop :=
  ∃ ip q, p.nextOutput fuel [] = .error (.fault { cause := .inputExhausted, ip }) q
    ∧ p' = q.collect.2

variable {fuel : Nat} {p p' : Program}

theorem Stalled.coherent (h : p.Coherent) (stalled : p.Stalled fuel p') : p'.Coherent := by
  obtain ⟨ip, q, exhausted, rfl⟩ := stalled
  have kept := nextOutput_keeps_coherent fuel [] p h
  rw [exhausted] at kept
  exact kept.collect

theorem Stalled.awaiting (h : p.Coherent) (stalled : p.Stalled fuel p')
    : p'.state = .awaitingInput ∧ p'.machine.inputs = [] := by
  obtain ⟨ip, q, exhausted, rfl⟩ := stalled
  obtain ⟨awaiting, empty, -⟩ := awaiting_of_nextOutput h exhausted
  exact ⟨awaiting, empty⟩

theorem Stalled.again (h : p.Coherent) (stalled : p.Stalled fuel p') (fuel' : Nat)
    : p'.nextOutput (fuel' + 1) []
        =
      .error (.fault { cause := .inputExhausted, ip := some p'.machine.ip }) p' := by
  obtain ⟨awaiting, empty⟩ := stalled.awaiting h
  exact nextOutput_of_awaiting (stalled.coherent h) awaiting empty fuel'

theorem Stalled.again_same (h : p.Coherent) (stalled : p.Stalled fuel p')
    : p'.nextOutput fuel []
          = .error (.fault { cause := .inputExhausted, ip := some p'.machine.ip }) p'
        ∧ p'.collect.2 = p' := by
  have again := stalled.again h
  obtain ⟨ip, q, exhausted, rfl⟩ := stalled
  cases fuel with
  | zero =>
    rw [nextOutput_of_free (free_of_exhausted exhausted)] at exhausted
    cases exhausted
  | succ fuel => exact ⟨again fuel, rfl⟩

theorem Stalled.still (h : p.Coherent) (stalled : p.Stalled fuel p') : p'.Stalled fuel p' := by
  obtain ⟨again, same⟩ := stalled.again_same h
  exact ⟨_, p', again, same.symm⟩

def Rests (fuel : Nat) (p p' : Program) : Prop :=
  p = p' ∨ p'.Stalled fuel p

theorem Rests.coherent (h : p.Rests fuel p') (coherent : p'.Coherent) : p.Coherent := by
  cases h with
  | inl same =>
    rw [same]
    exact coherent
  | inr stalled => exact stalled.coherent coherent

theorem Rests.resumed {result : EStateM.Result Failure Program (Option Int)}
    (h : p.Rests fuel p') (coherent : p'.Coherent) (called : p.nextOutput fuel [] = result)
    (going : ∀ ip q, result ≠ .error (.fault { cause := .inputExhausted, ip }) q)
    : p'.nextOutput fuel [] = result := by
  cases h with
  | inl same =>
    rw [← same]
    exact called
  | inr stalled =>
    rw [(stalled.again_same coherent).1] at called
    exact absurd called.symm (going _ _)

theorem Rests.stalled {q : Program} {ip : Option Int} (h : p.Rests fuel p')
    (coherent : p'.Coherent)
    (exhausted : p.nextOutput fuel [] = .error (.fault { cause := .inputExhausted, ip }) q)
    : p'.Stalled fuel q.collect.2 := by
  cases h with
  | inl same =>
    rw [← same]
    exact ⟨ip, q, exhausted, rfl⟩
  | inr stalled =>
    obtain ⟨again, same⟩ := stalled.again_same coherent
    rw [again] at exhausted
    cases exhausted
    rw [same]
    exact stalled

theorem isLink_of_isHazard {cause : Cause} (h : cause.IsHazard) : cause.isLink = false := by
  cases cause with
  | writeFailed | readFailed | readTimedOut | unreadableLine => contradiction
  | _ => rfl

theorem isLink_of_nextOutput {inputs : List Int} {e : Failure} (h : p.Coherent)
    (failed : p.nextOutput fuel inputs = .error e p')
    (other : ∀ ip, e ≠ .fault { cause := .inputExhausted, ip }) : e.isLink = false := by
  cases free : p.obstacle? with
  | none =>
    obtain rfl | rfl | ⟨fault, rfl, hazard, -⟩ := faulted_of_nextOutput h free failed other
    . rfl
    . rfl
    . exact isLink_of_isHazard hazard
  | some fault =>
    unfold nextOutput at failed
    rw [free] at failed
    cases failed
    unfold obstacle? at free
    split at free <;> cases free <;> rfl

end Program

namespace Console

open Program Machine

def persistUpTo (fuel : Nat) : (bound : Nat) → EStateM Failure (Console Script) (List Int)
  | 0 => throw .outOfFuel
  | bound + 1 => fun c =>
    match serve fuel c with
    | .ok values c => .ok values c
    | .error e c =>
      if e.isLink ∧ c.port.lines ≠ [] then persistUpTo fuel bound c else .error e c

def persist (fuel : Nat) : EStateM Failure (Console Script) (List Int) :=
  persistUpTo fuel fuel

inductive Attempts {π : Type} [Port π] (fuel : Nat) : Console π → Console π → Prop where
  | refl (c : Console π) : Attempts fuel c c
  | goes {c c' d : Console π}
    : exchange fuel c = .ok true c' → Attempts fuel c' d → Attempts fuel c d
  | again {c c' d : Console π} {e : Failure}
    : exchange fuel c = .error e c' → e.isLink = true → Attempts fuel c'.opened d
      → Attempts fuel c d

structure Matches (fuel : Nat) (c d : Console Script) : Prop where
  coherent : d.program.Coherent
  program : c.program = d.program ∨ d.program.Stalled fuel c.program
  sent : d.sent = c.sent
  received : d.received = c.received
  written : d.port.written = c.port.written
  lines : d.port.lines = c.port.lines.filter Script.isGood
  willing : c.port.Willing
  willing' : d.port.Willing

variable {fuel : Nat} {c c' d d' : Console Script} {p : Program} {states : List Machine}
  {e : Failure}

theorem unread_of_linked (h : c.program.Coherent) (willing : c.port.Willing)
    (failed : exchange fuel c = .error e c') (linked : e.isLink = true)
    : c.program.Stalled fuel c'.program ∧ c'.sent = c.sent ∧ c'.received = c.received
      ∧ c'.port = { c.port with lines := c.port.lines.tail }
      ∧ ∀ item ∈ c.port.lines.head?, Script.isGood item = false := by
  have turn := exchange_turn fuel h
  rw [failed] at turn
  cases turn with
  | unsent _ _ write =>
    rw [Script.write_willing willing] at write
    cases write
  | unwritten _ _ => contradiction
  | failed called other =>
    rw [isLink_of_nextOutput h called other] at linked
    contradiction
  | @unread p ip port journal exhausted read =>
    refine ⟨⟨ip, p, exhausted, rfl⟩, rfl, rfl, ?_⟩
    cases lines : c.port.lines with
    | nil =>
      rw [Script.next_nil lines] at read
      cases read
      refine ⟨?_, nofun⟩
      rw [List.tail_nil, ← lines]
    | cons item rest =>
      rw [Script.next_cons lines] at read
      obtain ⟨unreadable, rfl⟩ := Prod.mk.inj read
      refine ⟨rfl, ?_⟩
      rintro _ ⟨⟩
      unfold Script.isGood
      rw [unreadable]
      rfl

theorem Matches.coherent' (h : Matches fuel c d) : c.program.Coherent :=
  Rests.coherent h.program h.coherent

theorem Matches.going (h : Matches fuel c d) (going : exchange fuel c = .ok true c')
    : ∃ d', exchange fuel d = .ok true d' ∧ Matches fuel c' d' := by
  have turn := exchange_turn fuel h.coherent'
  rw [going] at turn
  have kept := turn.coherent h.coherent'
  cases turn with
  | @sent p value port journal gave short write =>
    have gave' := Rests.resumed h.program h.coherent gave fun _ _ => ok_ne_error
    rw [Script.write_willing h.willing] at write
    cases write
    obtain ⟨journal', goes⟩ := exchange_of_sent gave' short (Script.write_willing h.willing' _)
    refine ⟨_, goes, kept, .inl rfl, ?_, h.received, ?_, h.lines, h.willing, h.willing'⟩
    . rw [h.sent]
    . rw [h.written]
  | @received p ip value port journal exhausted read =>
    obtain ⟨ip', q, exhausted', same⟩ := Rests.stalled h.program h.coherent exhausted
    cases lines : c.port.lines with
    | nil =>
      rw [Script.next_nil lines] at read
      cases read
    | cons item rest =>
      rw [Script.next_cons lines] at read
      obtain ⟨readable, rfl⟩ := Prod.mk.inj read
      have good : Script.isGood item = true := by
        unfold Script.isGood
        rw [readable]
        rfl
      have lines' : d.port.lines = item :: rest.filter Script.isGood := by
        rw [h.lines, lines, List.filter_cons_of_pos good]
      have read' := Script.next_cons lines'
      rw [readable] at read'
      obtain ⟨journal', goes⟩ := exchange_of_received h.coherent exhausted' read'
      rw [← same] at goes
      refine ⟨_, goes, kept, .inl rfl, h.sent, ?_, h.written, rfl, h.willing, h.willing'⟩
      rw [h.received]

theorem Matches.linked (h : Matches fuel c d) (failed : exchange fuel c = .error e c')
    (linked : e.isLink = true) : Matches fuel c' d ∧ d.program.Stalled fuel c'.program := by
  obtain ⟨⟨ip, p, exhausted, stalled⟩, sent, received, port, bad⟩ :=
    unread_of_linked h.coherent' h.willing failed linked
  have stalled : d.program.Stalled fuel c'.program := by
    rw [stalled]
    exact Rests.stalled h.program h.coherent exhausted
  refine ⟨⟨h.coherent, .inr stalled, ?_, ?_, ?_, ?_, ?_, h.willing'⟩, stalled⟩
  . rw [sent, h.sent]
  . rw [received, h.received]
  . rw [port, h.written]
  . rw [port, h.lines]
    cases lines : c.port.lines with
    | nil => rfl
    | cons item rest =>
      have bad : ¬ Script.isGood item = true := by
        rw [bad item (by rw [lines]; rfl)]
        exact Bool.false_ne_true
      rw [List.filter_cons_of_neg bad]
      rfl
  . rw [port]
    exact h.willing

theorem Matches.opened (h : Matches fuel c d) : Matches fuel c.opened d :=
  ⟨h.coherent, h.program, h.sent, h.received, h.written, h.lines, h.willing, h.willing'⟩

inductive Goes {π : Type} [Port π] (fuel : Nat) : Console π → Console π → Prop where
  | refl (c : Console π) : Goes fuel c c
  | more {c c' d : Console π} : exchange fuel c = .ok true c' → Goes fuel c' d → Goes fuel c d

theorem Attempts.matches (attempts : Attempts fuel c c') (h : Matches fuel c d)
    : ∃ d', Goes fuel d d' ∧ Matches fuel c' d' := by
  induction attempts generalizing d with
  | refl c => exact ⟨d, .refl d, h⟩
  | goes first _ ih =>
    obtain ⟨d₁, first', h⟩ := h.going first
    obtain ⟨d', goes, h⟩ := ih h
    exact ⟨d', .more first' goes, h⟩
  | again first linked _ ih => exact ih (h.linked first linked).1.opened

theorem Goes.serves {result : EStateM.Result Failure (Console Script) Unit}
    (goes : Goes fuel d d') (served : Serves fuel d' states result)
    : ∃ states, Serves fuel d states result := by
  induction goes with
  | refl d => exact ⟨_, served⟩
  | more first _ ih =>
    obtain ⟨states, served⟩ := ih served
    exact ⟨_, .more first served⟩

theorem Attempts.trans {π : Type} [Port π] {c c' d : Console π} (first : Attempts fuel c c')
    (second : Attempts fuel c' d) : Attempts fuel c d := by
  induction first with
  | refl c => exact second
  | goes one _ ih => exact .goes one (ih second)
  | again one linked _ ih => exact .again one linked (ih second)

def Last (fuel : Nat) (last : Console Script)
    (result : EStateM.Result Failure (Console Script) Unit) : Prop :=
  (∃ d, exchange fuel last = .ok false d ∧ result = .ok () d)
    ∨ ∃ e d, exchange fuel last = .error e d ∧ result = .error e d

theorem Serves.attempts {result : EStateM.Result Failure (Console Script) Unit}
    (served : Serves fuel c states result)
    : ∃ last, Attempts fuel c last ∧ Last fuel last result := by
  induction served with
  | @ended c d first => exact ⟨c, .refl c, .inl ⟨d, first, rfl⟩⟩
  | @failed c d e first => exact ⟨c, .refl c, .inr ⟨e, d, first, rfl⟩⟩
  | more first _ ih =>
    obtain ⟨last, attempts, final⟩ := ih
    exact ⟨last, .goes first attempts, final⟩

theorem attempts_of_persistUpTo {bound : Nat}
    {result : EStateM.Result Failure (Console Script) (List Int)}
    (persisted : persistUpTo fuel bound c = result) (returned : ∀ d, result ≠ .error .outOfFuel d)
    : ∃ last ended, Attempts fuel c.opened last ∧ Last fuel last ended ∧ result = closed ended
        ∧ ∀ e d, ended = .error e d → e.isLink = true → d.port.lines = [] := by
  induction bound generalizing c with
  | zero =>
    have spent : result = .error .outOfFuel c := persisted.symm
    exact absurd spent (returned c)
  | succ bound ih =>
    unfold persistUpTo at persisted
    cases served : serve fuel c with
    | ok values d =>
      rw [served] at persisted
      obtain ⟨states, c', exchanges, closes⟩ := serves_of_ok served
      obtain ⟨last, attempts, final⟩ := exchanges.attempts
      dsimp only at persisted
      refine ⟨last, .ok () c', attempts, final, persisted.symm.trans closes.symm, ?_⟩
      rintro _ _ ⟨⟩
    | error e d =>
      rw [served] at persisted
      dsimp only at persisted
      split at persisted
      . next again =>
        have spent : e ≠ .outOfFuel := by
          rintro rfl
          exact absurd again.1 Bool.false_ne_true
        obtain ⟨states, exchanges⟩ := serves_of_error served spent
        obtain ⟨last, attempts, ⟨_, _, ended⟩ | ⟨_, _, failed, same⟩⟩ := exchanges.attempts
        . cases ended
        . cases same
          obtain ⟨last', ended, attempts', final⟩ := ih persisted
          exact ⟨last', ended, attempts.trans (.again failed again.1 attempts'), final⟩
      . next stop =>
        have spent : e ≠ .outOfFuel := by
          rintro rfl
          exact returned d persisted.symm
        obtain ⟨states, exchanges⟩ := serves_of_error served spent
        obtain ⟨last, attempts, final⟩ := exchanges.attempts
        refine ⟨last, _, attempts, final, persisted.symm, ?_⟩
        rintro _ _ ⟨⟩ linked
        apply Decidable.byContradiction
        intro more
        exact stop ⟨linked, more⟩

structure Alike (c d : Console Script) : Prop where
  program : d.program = c.program
  sent : d.sent = c.sent
  received : d.received = c.received
  written : d.port.written = c.port.written

/-- The two have the same numbers left to read, and the first may have read in vain. -/
structure Abreast (fuel : Nat) (c d : Console Script) : Prop where
  coherent : d.program.Coherent
  program : c.program.Rests fuel d.program
  sent : d.sent = c.sent
  received : d.received = c.received
  written : d.port.written = c.port.written
  numbers : Script.numbers d.port.lines = Script.numbers c.port.lines
  willing : c.port.Willing
  willing' : d.port.Willing

theorem Abreast.ended (h : Abreast fuel c d) (ended : exchange fuel c = .ok false c')
    : ∃ d', exchange fuel d = .ok false d' ∧ Alike c' d' := by
  have turn := exchange_turn fuel (h.program.coherent h.coherent)
  rw [ended] at turn
  cases turn with
  | ended called =>
    have called' := h.program.resumed h.coherent called fun _ _ => ok_ne_error
    obtain ⟨journal, same⟩ := exchange_of_ended called'
    exact ⟨_, same, rfl, h.sent, h.received, h.written⟩

theorem Abreast.failed (h : Abreast fuel c d) (failed : exchange fuel c = .error e c')
    (unlinked : e.isLink = false) : ∃ d', exchange fuel d = .error e d' ∧ Alike c' d' := by
  have turn := exchange_turn fuel (h.program.coherent h.coherent)
  rw [failed] at turn
  cases turn with
  | @unsent _ _ _ e =>
    rw [e.isLink_failure fun _ => rfl] at unlinked
    contradiction
  | unwritten gave long =>
    have gave' := h.program.resumed h.coherent gave fun _ _ => ok_ne_error
    obtain ⟨journal, same⟩ := exchange_of_unwritten gave' long
    exact ⟨_, same, rfl, h.sent, h.received, h.written⟩
  | unread _ _ =>
    rw [Port.isLink_objection] at unlinked
    contradiction
  | failed called other =>
    have called' := h.program.resumed h.coherent called (by rintro ip p ⟨⟩; exact other ip rfl)
    obtain ⟨journal, same⟩ := exchange_of_failed called' other
    exact ⟨_, same, rfl, h.sent, h.received, h.written⟩

theorem Matches.abreast (h : Matches fuel c d) : Abreast fuel c d :=
  ⟨h.coherent, h.program, h.sent, h.received, h.written, by rw [h.lines, Script.numbers_filter],
    h.willing, h.willing'⟩

theorem Matches.ended (h : Matches fuel c d) (ended : exchange fuel c = .ok false c')
    : ∃ d', exchange fuel d = .ok false d' ∧ Alike c' d' :=
  h.abreast.ended ended

theorem Matches.faulted (h : Matches fuel c d) (failed : exchange fuel c = .error e c')
    (unlinked : e.isLink = false) : ∃ d', exchange fuel d = .error e d' ∧ Alike c' d' :=
  h.abreast.failed failed unlinked

theorem Matches.used (h : Matches fuel c d) (stalled : d.program.Stalled fuel c.program)
    (used : c.port.lines = [])
    : ∃ d', exchange fuel d
          = .error (.fault { cause := .readTimedOut, ip := some c.program.machine.ip }) d'
        ∧ Alike c d' := by
  obtain ⟨ip, p, exhausted, same⟩ := stalled
  have used : d.port.lines = [] := by
    rw [h.lines, used]
    rfl
  obtain ⟨journal, failed⟩ := exchange_of_unread exhausted (Script.next_nil used)
  have objection : Port.objection p.machine.ip d.port
      = .fault { cause := .readTimedOut, ip := some c.program.machine.ip } := by
    unfold Port.objection
    simp only [Port.readLine, used]
    rw [same]
    rfl
  rw [objection] at failed
  exact ⟨_, failed, same.symm, h.sent, h.received, h.written⟩

/--
A client that serves again after every failure of the link ends like one that serves once and has
only good items to read, with the same program and the same values sent and received. When it stops
because the script is used up, the other one waits for input at the same instruction. What a bad
item costs is the item.
-/
theorem persist_eq_serve_clean {image inputs : List Int} {config : Config} {name : String}
    {p : Program} {script : Script} (proper : config.width.Proper)
    (loaded : load image inputs config name = .ok p) (willing : script.Willing) (fuel : Nat)
    : let start : Console Script := { program := p, port := script }
      let clean : Console Script := { program := p, port := script.clean }
      (∀ result, persist fuel start = result → (∀ c, result ≠ .error .outOfFuel c)
        → ∃ result', (∃ enough, ∀ fuel' ≥ enough, serve fuel' clean = result')
            ∧ Alike (endState result) (endState result')
            ∧ match result with
              | .ok values _ => outcome result' = .ok values
              | .error e c =>
                if e.isLink then
                  c.port.lines = []
                    ∧ outcome result' = .error (.fault
                        { cause := .readTimedOut, ip := some c.program.machine.ip })
                else
                  outcome result' = .error e)
      ∧ ∀ c e c', Attempts fuel start.opened c → exchange fuel c = .error e c' → e.isLink = true
        → c'.port.lines = c.port.lines.tail
          ∧ (∀ item ∈ c.port.lines.head?, Script.isGood item = false)
          ∧ c'.sent = c.sent ∧ c'.received = c.received ∧ c'.port.written = c.port.written
          ∧ c.program.Stalled fuel c'.program ∧ c'.program.state = .awaitingInput
          ∧ c'.program.machine.inputs = []
          ∧ ∀ fuel', c'.program.nextOutput (fuel' + 1) []
              = .error (.fault { cause := .inputExhausted, ip := some c'.program.machine.ip })
                  c'.program := by
  intro start clean
  have h : Matches fuel start.opened clean.opened :=
    ⟨coherent_of_load proper loaded, .inl rfl, rfl, rfl, rfl, rfl, willing, willing⟩
  constructor
  . intro result persisted returned
    obtain ⟨last, ended, attempts, final, rfl, used⟩ := attempts_of_persistUpTo persisted returned
    obtain ⟨d, goes, h⟩ := attempts.matches h
    obtain ⟨c, first, rfl⟩ | ⟨e, c, first, rfl⟩ := final
    . obtain ⟨d', first', alike⟩ := h.ended first
      obtain ⟨states, served⟩ := goes.serves (.ended first')
      refine ⟨_, served.exists_serve fun _ => ok_ne_error,
        ⟨alike.program, alike.sent, alike.received, alike.written⟩, ?_⟩
      show Except.ok d'.sent = .ok c.sent
      rw [alike.sent]
    . show ∃ result', _ ∧ Alike c _ ∧ if e.isLink then _ else _
      cases linked : e.isLink with
      | true =>
        obtain ⟨h, stalled⟩ := h.linked first linked
        obtain ⟨d', first', alike⟩ := h.used stalled (used e c rfl linked)
        obtain ⟨states, served⟩ := goes.serves (.failed first')
        exact ⟨_, served.exists_serve (by rintro _ ⟨⟩), alike, used e c rfl linked, rfl⟩
      | false =>
        obtain ⟨d', first', alike⟩ := h.faulted first linked
        obtain ⟨states, served⟩ := goes.serves (.failed first')
        refine ⟨_, served.exists_serve ?_, alike, rfl⟩
        rintro _ ⟨⟩
        exact returned c rfl
  . intro c e c' attempts failed linked
    obtain ⟨d, -, h⟩ := attempts.matches h
    obtain ⟨stalled, sent, received, port, bad⟩ :=
      unread_of_linked h.coherent' h.willing failed linked
    obtain ⟨awaiting, empty⟩ := stalled.awaiting h.coherent'
    have again := stalled.again h.coherent'
    rw [port]
    exact ⟨rfl, bad, sent, received, rfl, stalled, awaiting, empty, again⟩

theorem persist_eq_serve_clean_noise
    : let image := [3, 9, 4, 9, 1005, 9, 0, 99]
      let config : Config := { width := .bits 12 }
      let p : Program :=
        { name := "p", machine := { width := .bits 12, memory := .ofImage image, inputs := [5] } }
      let script : Script :=
        { lines := [none, some [0x78, 0x0A], some [], some [0x37, 0x0A], none, some [0x30, 0x0A],
            none] }
      config.width.Proper ∧ load image [5] config "p" = .ok p ∧ script.Willing
        ∧ script.clean.lines = [some [0x37, 0x0A], some [0x30, 0x0A]]
        ∧ ∃ c result, persist 9 { program := p, port := script } = .ok [5, 7, 0] c
            ∧ (∃ enough, ∀ fuel ≥ enough,
                serve fuel { program := p, port := script.clean } = result)
            ∧ outcome result = .ok [5, 7, 0] ∧ Alike c (endState result) := by
  intro image config p script
  have proper : config.width.Proper := by decide
  have loaded : load image [5] config "p" = .ok p := rfl
  have outcome : outcome (persist 9 { program := p, port := script }) = .ok [5, 7, 0] := by
    decide +kernel
  have persisted := eq_of_outcome_ok outcome
  have willing : script.Willing := rfl
  obtain ⟨same, -⟩ := persist_eq_serve_clean proper loaded willing 9
  obtain ⟨result, served, alike, returned⟩ := same _ persisted fun _ => ok_ne_error
  have cleaned : script.clean.lines = [some [0x37, 0x0A], some [0x30, 0x0A]] := by decide +kernel
  exact ⟨proper, loaded, rfl, cleaned, _, result, persisted, served, returned, alike⟩

end Console

end Intcode
