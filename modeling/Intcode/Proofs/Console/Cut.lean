import Intcode.Proofs.Console.Pursuit
import Intcode.Proofs.Text.Numeral

/-!
Cuts: what is read at once is taken for a line, whether there is a line break at its end or not. So
a time-out in the middle of a line makes two lines of it.
-/
namespace Intcode

namespace Console

open Program Machine

def persistsAt (e : Failure) (c : Console Script) : Bool :=
  e.isLink && !c.port.lines.isEmpty

theorem persistUpTo_eq (fuel bound : Nat)
    : persistUpTo fuel bound = retryUpTo persistsAt fuel bound := by
  induction bound with
  | zero => rfl
  | succ bound ih =>
    funext c
    unfold persistUpTo retryUpTo
    cases serve fuel c with
    | ok values d => rfl
    | error e d =>
      dsimp only
      rw [ih]
      simp [persistsAt]

def EndsLike {α : Type} (result result' : EStateM.Result Failure (Console Script) α) : Prop :=
  Alike (endState result) (endState result')
    ∧ match outcome result, outcome result' with
      | .ok a, .ok a' => a = a'
      | .error e, .error e' => e = e' ∨ e.isLink = true ∧ e'.isLink = true
      | _, _ => False

variable {fuel : Nat} {c c' d : Console Script} {p : Program} {e : Failure}

structure Reads (p : Program) (d d' : Console Script) (values : List Int) : Prop where
  program : d'.program = { p with machine := p.machine.push values }
  sent : d'.sent = d.sent
  received : d'.received = d.received ++ values
  written : d'.port.written = d.port.written
  refused : d'.port.refused = d.port.refused

theorem Reads.trans {d' d'' : Console Script} {values : List Int} (first : Reads p d d' [])
    (second : Reads p d' d'' values) : Reads p d d'' values := by
  refine ⟨second.program, second.sent.trans first.sent, ?_, second.written.trans first.written,
    second.refused.trans first.refused⟩
  rw [second.received, first.received, List.append_nil]

theorem Reads.still {d' : Console Script} (h : Reads p d d' [])
    : d'.program = p ∧ d'.received = d.received := by
  rw [h.program, h.received, push_nil, List.append_nil]
  exact ⟨rfl, rfl⟩

theorem exchange_bad (stalled : d.program.Stalled fuel p)
    (bad : ∀ item ∈ d.port.lines.head?, Script.value? item = none)
    : ∃ e d', exchange fuel d = .error e d' ∧ e.isLink = true ∧ Reads p d d' []
        ∧ d'.port.lines = d.port.lines.tail := by
  obtain ⟨ip, q, exhausted, rfl⟩ := stalled
  have next : Port.next d.port = (none, { d.port with lines := d.port.lines.tail }) := by
    cases lines : d.port.lines with
    | nil =>
      rw [Script.next_nil lines, List.tail_nil, ← lines]
    | cons item rest =>
      rw [Script.next_cons lines, bad item (by rw [lines]; rfl)]
      rfl
  obtain ⟨journal, failed⟩ := exchange_of_unread exhausted next
  refine ⟨_, _, failed, Port.isLink_objection _ _, ?_, rfl⟩
  refine ⟨?_, rfl, (List.append_nil _).symm, rfl, rfl⟩
  rw [push_nil]

theorem exchange_good {item : Option (List UInt8)} {rest : List (Option (List UInt8))} {value : Int}
    (h : d.program.Coherent) (stalled : d.program.Stalled fuel p)
    (lines : d.port.lines = item :: rest) (good : Script.value? item = some value)
    : ∃ d', exchange fuel d = .ok true d' ∧ Reads p d d' [value] ∧ d'.port.lines = rest := by
  obtain ⟨ip, q, exhausted, rfl⟩ := stalled
  have next := Script.next_cons lines
  rw [good] at next
  obtain ⟨journal, going⟩ := exchange_of_received h exhausted next
  exact ⟨_, going, ⟨rfl, rfl, rfl, rfl, rfl⟩, rfl⟩

theorem pursues_of_stalled (h : d.program.Coherent) (stalled : d.program.Stalled fuel p)
    : match Script.numbers d.port.lines with
      | [] => ∃ e d', Pursues persistsAt fuel d (.error e d') ∧ e.isLink = true ∧ Reads p d d' []
      | value :: more =>
        ∃ d', (∀ result, Pursues persistsAt fuel d' result → Pursues persistsAt fuel d result)
          ∧ Reads p d d' [value] ∧ Script.numbers d'.port.lines = more := by
  induction lines : d.port.lines generalizing d with
  | nil =>
    obtain ⟨e, d', failed, linked, reads, left⟩ := exchange_bad stalled (by rw [lines]; exact nofun)
    refine ⟨e, d', .failed failed ?_, linked, reads⟩
    rw [persistsAt, left, lines]
    exact Bool.and_false _
  | cons item rest ih =>
    cases read : Script.value? item with
    | some value =>
      rw [Script.numbers_cons_of_some read]
      obtain ⟨d', going, reads, left⟩ := exchange_good h stalled lines read
      exact ⟨d', fun _ => .more going, reads, congrArg Script.numbers left⟩
    | none =>
      rw [Script.numbers_cons_of_none read]
      obtain ⟨e, d', failed, linked, reads, left⟩ :=
        exchange_bad stalled (by rw [lines]; rintro _ ⟨⟩; exact read)
      rw [lines, List.tail_cons] at left
      have program : d'.opened.program = p := reads.still.1
      have ih := @ih d'.opened (program ▸ stalled.coherent h)
        (by rw [program]; exact stalled.still h) left
      by_cases more : rest = []
      . rw [more]
        refine ⟨e, d', .failed failed ?_, linked, reads⟩
        rw [persistsAt, left, more]
        exact Bool.and_false _
      . have again : persistsAt e d' = true := by
          rw [persistsAt, left, linked, List.isEmpty_eq_false_iff.mpr more]
          rfl
        have reads : Reads p d d'.opened [] :=
          ⟨reads.program, reads.sent, reads.received, reads.written, reads.refused⟩
        split at ih
        . obtain ⟨e', d'', pursued, linked', reads'⟩ := ih
          exact ⟨e', d'', .retried failed again pursued, linked', reads.trans reads'⟩
        . obtain ⟨d'', pursued, reads', left'⟩ := ih
          exact ⟨d'', fun result rest => .retried failed again (pursued result rest),
            reads.trans reads', left'⟩

theorem Abreast.opened (h : Abreast fuel c d) : Abreast fuel c.opened d :=
  ⟨h.coherent, h.program, h.sent, h.received, h.written, h.numbers, h.willing, h.willing'⟩

theorem Abreast.linked (h : Abreast fuel c d) (failed : exchange fuel c = .error e c')
    (linked : e.isLink = true) : Abreast fuel c' d ∧ d.program.Stalled fuel c'.program := by
  obtain ⟨⟨ip, p, exhausted, stalled⟩, sent, received, port, bad⟩ :=
    unread_of_linked (h.program.coherent h.coherent) h.willing failed linked
  have stalled : d.program.Stalled fuel c'.program := by
    rw [stalled]
    exact h.program.stalled h.coherent exhausted
  refine ⟨⟨h.coherent, .inr stalled, ?_, ?_, ?_, ?_, ?_, h.willing'⟩, stalled⟩
  . rw [sent, h.sent]
  . rw [received, h.received]
  . rw [port, h.written]
  . rw [port, h.numbers]
    cases lines : c.port.lines with
    | nil => rfl
    | cons item rest =>
      have unreadable := Script.isGood_eq_false_iff.mp (bad item (by rw [lines]; rfl))
      exact (Script.numbers_cons_of_none unreadable rest)
  . rw [port]
    exact h.willing

theorem Abreast.going (h : Abreast fuel c d) (going : exchange fuel c = .ok true c')
    : ∃ d', (∀ result, Pursues persistsAt fuel d' result → Pursues persistsAt fuel d result)
        ∧ Abreast fuel c' d' := by
  have turn := exchange_turn fuel (h.program.coherent h.coherent)
  rw [going] at turn
  have kept := turn.coherent (h.program.coherent h.coherent)
  cases turn with
  | @sent p value port journal gave short write =>
    have gave' := h.program.resumed h.coherent gave fun _ _ => ok_ne_error
    rw [Script.write_willing h.willing] at write
    cases write
    obtain ⟨journal', goes⟩ := exchange_of_sent gave' short (Script.write_willing h.willing' _)
    refine ⟨_, fun _ => .more goes, kept, .inl rfl, ?_, h.received, ?_, h.numbers, h.willing,
      h.willing'⟩
    . rw [h.sent]
    . rw [h.written]
  | @received p ip value port journal exhausted read =>
    have stalled := h.program.stalled h.coherent exhausted
    obtain ⟨item, rest, lines, readable, rfl⟩ := Script.lines_of_next read
    have numbers := h.numbers
    rw [lines, Script.numbers_cons_of_some readable] at numbers
    have pursues := pursues_of_stalled h.coherent stalled
    rw [numbers] at pursues
    obtain ⟨d', pursues, reads, left⟩ := pursues
    refine ⟨d', pursues, ?_, .inl reads.program.symm, ?_, ?_, ?_, ?_, ?_, ?_⟩
    . rw [reads.program]
      exact kept
    . rw [reads.sent, h.sent]
    . rw [reads.received, h.received]
    . exact reads.written.trans h.written
    . exact left
    . exact h.willing
    . exact reads.refused.trans h.willing'

theorem Abreast.pursues {result : EStateM.Result Failure (Console Script) Unit}
    (h : Abreast fuel c d) (pursued : Pursues persistsAt fuel c result)
    : ∃ result', Pursues persistsAt fuel d result' ∧ EndsLike result result' := by
  induction pursued generalizing d with
  | ended first =>
    obtain ⟨d', ended, alike⟩ := h.ended first
    exact ⟨_, .ended ended, alike, rfl⟩
  | @failed c c' e first ends =>
    cases linked : e.isLink with
    | false =>
      obtain ⟨d', failed, alike⟩ := h.failed first linked
      refine ⟨_, .failed failed ?_, alike, .inl rfl⟩
      rw [persistsAt, linked]
      rfl
    | true =>
      obtain ⟨h', stalled⟩ := h.linked first linked
      have used : c'.port.lines = [] := by
        rw [persistsAt, linked] at ends
        simpa using ends
      have pursues := pursues_of_stalled h.coherent stalled
      rw [h'.numbers, used] at pursues
      obtain ⟨e', d', pursued, linked', reads⟩ := pursues
      refine ⟨_, pursued, ⟨?_, ?_, ?_, ?_⟩, .inr ⟨linked, linked'⟩⟩
      . exact reads.still.1
      . exact reads.sent.trans h'.sent
      . exact reads.still.2.trans h'.received
      . exact reads.written.trans h'.written
  | more first _ ih =>
    obtain ⟨d', pursues, h'⟩ := h.going first
    obtain ⟨result', pursued, ends⟩ := ih h'
    exact ⟨result', pursues _ pursued, ends⟩
  | retried first again _ ih =>
    have linked := (Bool.and_eq_true_iff.mp again).1
    exact ih (h.linked first linked).1.opened

def PersistsTo (c : Console Script)
    (result : EStateM.Result Failure (Console Script) (List Int)) : Prop :=
  ∃ enough, ∀ fuel ≥ enough, persist fuel c = result

theorem PersistsTo.unique {result result' : EStateM.Result Failure (Console Script) (List Int)}
    (h : PersistsTo c result) (h' : PersistsTo c result') : result = result' := by
  obtain ⟨enough, h⟩ := h
  obtain ⟨enough', h'⟩ := h'
  rw [← h (max enough enough') (Nat.le_max_left _ _)]
  exact h' _ (Nat.le_max_right _ _)

theorem persistsTo_of_pursues {result : EStateM.Result Failure (Console Script) Unit}
    (pursued : Pursues persistsAt fuel c.opened result)
    (returned : ∀ d, result ≠ .error .outOfFuel d) : PersistsTo c (closed result) := by
  obtain ⟨enough, same⟩ := pursued.retriesTo (fun _ => rfl) returned
  refine ⟨enough, ?_⟩
  intro fuel more
  rw [persist, persistUpTo_eq]
  exact same fuel more fuel more

theorem pursues_of_persist {result : EStateM.Result Failure (Console Script) (List Int)}
    (persisted : persist fuel c = result) (returned : ∀ d, result ≠ .error .outOfFuel d)
    : ∃ ended, Pursues persistsAt fuel c.opened ended ∧ result = closed ended := by
  rw [persist, persistUpTo_eq] at persisted
  exact pursues_of_retryUpTo (fun _ => rfl) persisted returned

def Interchangeable (items items' : List (Option (List UInt8))) : Prop :=
  ∀ (image inputs : List Int) (config : Config) (name : String) (p : Program)
    (before after : List (Option (List UInt8))) (fuel : Nat)
    (result : EStateM.Result Failure (Console Script) (List Int)),
    config.width.Proper → load image inputs config name = .ok p
    → persist fuel { program := p, port := { lines := before ++ items ++ after } } = result
    → (∀ c, result ≠ .error .outOfFuel c)
    → ∃ result',
        PersistsTo { program := p, port := { lines := before ++ items' ++ after } } result'
          ∧ EndsLike result result'

theorem EndsLike.closed {result result' : EStateM.Result Failure (Console Script) Unit}
    (h : EndsLike result result') : EndsLike (closed result) (closed result') := by
  obtain ⟨alike, ends⟩ := h
  cases result with
  | ok _ c =>
    cases result' with
    | ok _ d => exact ⟨⟨alike.program, alike.sent, alike.received, alike.written⟩, alike.sent.symm⟩
    | error e d => exact ends.elim
  | error e c =>
    cases result' with
    | ok _ d => exact ends.elim
    | error e' d => exact ⟨alike, ends⟩

theorem EndsLike.returned {result result' : EStateM.Result Failure (Console Script) Unit}
    (h : EndsLike result result') (returned : ∀ c, result ≠ .error .outOfFuel c)
    (d : Console Script) : result' ≠ .error .outOfFuel d := by
  rintro rfl
  cases result with
  | ok _ c => exact h.2
  | error e c =>
    obtain rfl | ⟨-, linked⟩ := h.2
    . exact returned c rfl
    . contradiction

theorem returned_of_closed {result : EStateM.Result Failure (Console Script) Unit}
    (returned : ∀ c, closed result ≠ .error .outOfFuel c) (d : Console Script)
    : result ≠ .error .outOfFuel d := by
  rintro rfl
  exact returned d rfl

theorem interchangeable_of_numbers {items items' : List (Option (List UInt8))}
    (same : Script.numbers items = Script.numbers items') : Interchangeable items items' := by
  intro image inputs config name p before after fuel result proper loaded persisted returned
  obtain ⟨ended, pursued, rfl⟩ := pursues_of_persist persisted returned
  let start (lines : List (Option (List UInt8))) : Console Script :=
    { program := p, port := { lines } }
  have abreast : Abreast fuel (start (before ++ items ++ after)).opened
      (start (before ++ items' ++ after)).opened := by
    refine ⟨coherent_of_load proper loaded, .inl rfl, rfl, rfl, rfl, ?_, rfl, rfl⟩
    show Script.numbers (before ++ items' ++ after) = Script.numbers (before ++ items ++ after)
    unfold Script.numbers at same ⊢
    simp only [List.filterMap_append]
    rw [same]
  obtain ⟨ended', pursued', ends⟩ := abreast.pursues pursued
  have returned' := ends.returned (returned_of_closed returned)
  exact ⟨_, persistsTo_of_pursues pursued' returned', ends.closed⟩

def reading (last : Int) (steps : Nat) (inputs : List Int) (ip : Int) : Machine :=
  { width := .unbounded, memory := .ofImage [3, 6, 5, 0, 5, 0, last], steps, inputs, ip }

theorem reading_takes (last value : Int) (steps : Nat)
    : (reading last steps [value] 0).step = .ok none (reading value (steps + 1) [] 2) := by
  with_unfolding_all rfl

theorem reading_jumps (last : Int) (steps : Nat)
    : (reading last steps [] 2).step = .ok none (reading last (steps + 1) [] 0) := by
  with_unfolding_all rfl

theorem reading_stalls (last : Int) (steps : Nat)
    : (reading last steps [] 0).step = .ok (some .needInput) (reading last steps [] 0) := by
  with_unfolding_all rfl

def Reader (p : Program) : Prop :=
  p.obstacle? = none
    ∧ ∃ last steps inputs, inputs.length ≤ 1 ∧ p.machine = reading last steps inputs 0

theorem Reader.stalls (h : Reader p)
    : ∃ q, p.Stalled 3 q ∧ ∀ value, Reader { q with machine := q.machine.push [value] } := by
  obtain ⟨free, last, steps, inputs, short, same⟩ := h
  unfold Stalled
  rw [nextOutput_of_free free, push_nil, same]
  match inputs, short with
  | [], _ =>
    simp only [Machine.run, reading_stalls]
    exact ⟨_, ⟨_, _, rfl, rfl⟩, fun value => ⟨rfl, last, steps, [value], Nat.le_refl 1, rfl⟩⟩
  | [taken], _ =>
    simp only [Machine.run, reading_takes, reading_jumps, reading_stalls]
    exact ⟨_, ⟨_, _, rfl, rfl⟩, fun value => ⟨rfl, taken, steps + 2, [value], Nat.le_refl 1, rfl⟩⟩

theorem Reader.pursues (h : Reader d.program) (coherent : d.program.Coherent)
    : ∃ e d', Pursues persistsAt 3 d (.error e d') ∧ e.isLink = true
        ∧ d'.received = d.received ++ Script.numbers d.port.lines := by
  obtain ⟨q, stalled, reader⟩ := h.stalls
  have pursues := pursues_of_stalled coherent stalled
  induction numbers : Script.numbers d.port.lines generalizing d q with
  | nil =>
    rw [numbers] at pursues
    obtain ⟨e, d', pursued, linked, reads⟩ := pursues
    exact ⟨e, d', pursued, linked, reads.received⟩
  | cons value more ih =>
    rw [numbers] at pursues
    obtain ⟨d', pursues, reads, left⟩ := pursues
    have reader' : Reader d'.program := by
      rw [reads.program]
      exact reader value
    have coherent' : d'.program.Coherent := by
      rw [reads.program]
      exact (stalled.coherent coherent).push [value]
    obtain ⟨q', stalled', reader''⟩ := reader'.stalls
    obtain ⟨e, d'', pursued, linked, received⟩ :=
      ih reader' coherent' q' stalled' reader'' (pursues_of_stalled coherent' stalled') left
    refine ⟨e, d'', pursues _ pursued, linked, ?_⟩
    rw [received, reads.received, List.append_assoc]
    rfl

theorem numbers_of_interchangeable {items items' : List (Option (List UInt8))}
    (h : Interchangeable items items') : Script.numbers items = Script.numbers items' := by
  let p : Program := { name := "reader", machine := reading 0 0 [] 0 }
  let start (lines : List (Option (List UInt8))) : Console Script :=
    { program := p, port := { lines } }
  have loaded : load [3, 6, 5, 0, 5, 0, 0] [] {} "reader" = .ok p := rfl
  have proper : ({} : Config).width.Proper := trivial
  have ends (lines : List (Option (List UInt8)))
      : ∃ e d, PersistsTo (start lines) (.error e d) ∧ e.isLink = true
          ∧ d.received = Script.numbers lines := by
    have reader : Reader (start lines).opened.program := ⟨rfl, 0, 0, [], Nat.zero_le 1, rfl⟩
    obtain ⟨e, d, pursued, linked, received⟩ := reader.pursues (coherent_of_load proper loaded)
    refine ⟨e, d, persistsTo_of_pursues pursued ?_, linked, received⟩
    rintro _ ⟨⟩
    contradiction
  obtain ⟨e, d, ⟨enough, persists⟩, linked, received⟩ := ends items
  obtain ⟨e', d', persists', -, received'⟩ := ends items'
  have persisted : persist enough (start ([] ++ items ++ [])) = .error e d := by
    rw [List.nil_append, List.append_nil]
    exact persists enough (Nat.le_refl enough)
  obtain ⟨result, persists'', alike, -⟩ := h _ _ _ _ p [] [] _ _ proper loaded persisted
    (by rintro _ ⟨⟩; contradiction)
  rw [List.nil_append, List.append_nil] at persists''
  obtain rfl := persists'.unique persists''
  rw [← received, ← received']
  exact alike.received.symm

end Console

namespace Script

theorem value?_some (line : List UInt8)
    : value? (some line) = (Numeral.read (Port.decode line)).toOption := by
  cases line with
  | nil => rfl
  | cons b line => rfl

def Blank (bytes : List UInt8) : Prop :=
  ∀ c ∈ bytes.map Port.decodeByte, Text.isBlank c = true

theorem value?_of_blank {bytes : List UInt8} (blank : Blank bytes)
    : value? (some bytes) = none := by
  have empty : Port.decode bytes = [] := Text.trim_append_of_blank [] blank
  rw [value?_some, empty]
  rfl

theorem numbers_of_blank {a b : List UInt8} (blank : Blank a ∨ Blank b)
    : numbers [some a, some b] = numbers [some (a ++ b)] := by
  cases blank with
  | inl blank =>
    have same : Port.decode (a ++ b) = Port.decode b := by
      unfold Port.decode
      rw [List.map_append, Text.trim_append_of_blank_start blank]
    rw [numbers_cons_of_none (value?_of_blank blank), numbers_singleton, numbers_singleton,
      value?_some, value?_some, same]
  | inr blank =>
    have same : Port.decode (a ++ b) = Port.decode a := by
      unfold Port.decode
      rw [List.map_append, Text.trim_append_of_blank _ blank]
    have alone : numbers [some a, some b] = numbers [some a] := by
      rw [← List.singleton_append, numbers, List.filterMap_append]
      show numbers [some a] ++ numbers [some b] = _
      rw [numbers_singleton (some b), value?_of_blank blank]
      exact List.append_nil _
    rw [alone, numbers_singleton, numbers_singleton, value?_some, value?_some, same]

end Script

namespace Console

open Program Machine

theorem interchangeable_iff_same_numbers {items items' : List (Option (List UInt8))}
    : Interchangeable items items' ↔ Script.numbers items = Script.numbers items' :=
  ⟨numbers_of_interchangeable, interchangeable_of_numbers⟩

theorem numbers_ne_of_good {a b : List UInt8} (good : Script.isGood (some a) = true)
    (good' : Script.isGood (some b) = true) (line : List UInt8)
    : Script.numbers [some a, some b] ≠ Script.numbers [some line] := by
  obtain ⟨value, read⟩ := Option.isSome_iff_exists.mp good
  obtain ⟨value', read'⟩ := Option.isSome_iff_exists.mp good'
  intro same
  rw [Script.numbers_cons_of_some read, Script.numbers_cons_of_some read',
    Script.numbers_singleton] at same
  cases whole : Script.value? (some line) with
  | none =>
    rw [whole] at same
    cases same
  | some value =>
    rw [whole] at same
    cases same

/--
A line that is cut in two by a time-out is read as if it had not been cut when its parts hold the
numbers of the whole. They do when one of them is blank, and never when each of the two can be read
as a number.
-/
theorem cut_unnoticed_iff (a b : List UInt8)
    : (Interchangeable [some a, some b] [some (a ++ b)]
        ↔ Script.numbers [some a, some b] = Script.numbers [some (a ++ b)])
      ∧ (Script.Blank a ∨ Script.Blank b → Interchangeable [some a, some b] [some (a ++ b)])
      ∧ (Script.isGood (some a) = true → Script.isGood (some b) = true
        → ¬ Interchangeable [some a, some b] [some (a ++ b)]) := by
  refine ⟨interchangeable_iff_same_numbers, ?_, ?_⟩
  . intro blank
    exact interchangeable_iff_same_numbers.mpr (Script.numbers_of_blank blank)
  . intro good good' same
    exact numbers_ne_of_good good good' _ (interchangeable_iff_same_numbers.mp same)

theorem cut_unnoticed_iff_twelve
    : ¬ Interchangeable [some [0x31], some [0x32, 0x0A]] [some [0x31, 0x32, 0x0A]]
      ∧ Interchangeable [some [0x31, 0x32], some [0x0A]] [some [0x31, 0x32, 0x0A]] := by
  obtain ⟨-, -, cut⟩ := cut_unnoticed_iff [0x31] [0x32, 0x0A]
  obtain ⟨-, blank, -⟩ := cut_unnoticed_iff [0x31, 0x32] [0x0A]
  constructor
  . exact cut (by decide +kernel) (by decide +kernel)
  . have empty : Script.Blank [0x0A] := by
      intro c mem
      obtain rfl : c = Port.decodeByte 0x0A := List.mem_singleton.mp mem
      decide +kernel
    exact blank (.inr empty)

theorem persist_reads_part
    : let image := [3, 0, 4, 0, 99]
      let p : Program :=
        { name := "p", machine := { width := .unbounded, memory := .ofImage image } }
      let cut : Script := { lines := [some [0x31], some [0x32, 0x0A]] }
      let whole : Script := { lines := [some [0x31, 0x32, 0x0A]] }
      load image [] {} "p" = .ok p
        ∧ (∃ c, persist 9 { program := p, port := cut } = .ok [1] c ∧ c.received = [1])
        ∧ ∃ c, persist 9 { program := p, port := whole } = .ok [12] c ∧ c.received = [12] := by
  intro image p cut whole
  have outcomes : outcome (persist 9 { program := p, port := cut }) = .ok [1]
      ∧ outcome (persist 9 { program := p, port := whole }) = .ok [12] := by
    decide +kernel
  have received : (endState (persist 9 { program := p, port := cut })).received = [1]
      ∧ (endState (persist 9 { program := p, port := whole })).received = [12] := by
    decide +kernel
  exact ⟨rfl, ⟨_, eq_of_outcome_ok outcomes.1, received.1⟩,
    ⟨_, eq_of_outcome_ok outcomes.2, received.2⟩⟩

end Console

end Intcode
