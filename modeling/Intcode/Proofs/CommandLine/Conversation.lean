import Intcode.CommandLine.Run
import Intcode.Proofs.Failing
import Intcode.Proofs.Memory.Dump
import Intcode.Proofs.Program.Blame
import Intcode.Proofs.Program.Observing
import Intcode.Proofs.Program.Pace

/-!
Conversations: what a run prints and asks for, and how it ends, told by what the program does. What
traces or watches the program makes no difference to it, unless a number is too long to be written.
-/
namespace Intcode

namespace Report

variable {ω ε α β : Type}

theorem bind_assoc {γ : Type} (x : Report ω ε α) (f : α → Report ω ε β) (g : β → Report ω ε γ)
    : x >>= f >>= g = x >>= fun a => f a >>= g := by
  show (x.bind f).bind g = x.bind fun a => (f a).bind g
  unfold Report.bind
  cases x.result with
  | error e => rfl
  | ok a =>
    simp only
    cases (f a).result with
    | error e => rfl
    | ok b => simp

end Report

namespace CommandLine

open Program

theorem Output.stdout_append (written written' : List Output)
    : stdout (written ++ written') = stdout written ++ stdout written' := by
  simp [stdout, String.join_append]

theorem Output.stdout_out (text : String) : stdout [out text] = text :=
  String.empty_append

theorem Output.stdout_ofEvents (events : List Event) : stdout (ofEvents events) = "" := by
  induction events with
  | nil => rfl
  | cons event events ih =>
    unfold ofEvents at ih ⊢
    cases told : ofEvent event with
    | none => rw [List.filterMap_cons_none told, ih]
    | some output =>
      rw [List.filterMap_cons_some told, ← List.singleton_append, stdout_append, ih]
      have silent : output.onStdout = "" := by
        cases event with
        | sighted sighting =>
          cases told
          rfl
        | _ =>
          simp only [ofEvent, Option.map_eq_some_iff] at told
          obtain ⟨record, -, rfl⟩ := told
          rfl
      rw [stdout, List.map_singleton, silent]
      rfl

structure Action.Shows {α : Type} (x : Action α) (text : String) (result : Except Trouble α)
    : Prop where
  text : Output.stdout x.events = text
  result : x.result = result

namespace Action.Shows

variable {α β : Type} {x : Action α} {f : α → Action β} {text text' : String} {a : α}

theorem after {result : Except Trouble α} (h : x.Shows text result) (written : List Output)
    : Action.Shows (x.after written) (Output.stdout written ++ text) result := by
  refine ⟨?_, h.result⟩
  rw [← h.text]
  exact Output.stdout_append written x.events

theorem bind {result : Except Trouble β} (first : x.Shows text (.ok a))
    (second : (f a).Shows text' result) : (x >>= f).Shows (text ++ text') result := by
  show Action.Shows (x.bind f) _ _
  unfold Report.bind
  rw [first.result, ← first.text]
  exact second.after x.events

theorem bind_silent {result : Except Trouble β} (first : x.Shows "" (.ok a))
    (second : (f a).Shows text result) : (x >>= f).Shows text result := by
  have both := first.bind second
  rwa [String.empty_append] at both

theorem bind_error {trouble : Trouble} (first : x.Shows text (.error trouble))
    : (x >>= f).Shows text (.error trouble) := by
  show Action.Shows (x.bind f) _ _
  unfold Report.bind
  rw [first.result, ← first.text]
  exact ⟨rfl, rfl⟩

end Action.Shows

/-- What an action shows, unless a number is too long for what observes the run. -/
def Action.Bears {α : Type} (seen : Prop) (x : Action α) (text : String) (result : Except Trouble α)
    : Prop :=
  x.Shows text result ∨ seen ∧ x.result = .error (.failure .unwritable)

namespace Action.Bears

variable {α β : Type} {seen : Prop} {x : Action α} {f : α → Action β} {text text' : String} {a : α}

theorem bind {result : Except Trouble β} (first : x.Bears seen text (.ok a))
    (second : (f a).Bears seen text' result) : (x >>= f).Bears seen (text ++ text') result := by
  obtain shows | ⟨observed, long⟩ := first
  . obtain shows' | ⟨observed, long⟩ := second
    . exact .inl (shows.bind shows')
    . exact .inr ⟨observed, (Report.result_bind_of_ok shows.result).trans long⟩
  . exact .inr ⟨observed, Report.result_bind_of_error long⟩

theorem bind_silent {result : Except Trouble β} (first : x.Bears seen "" (.ok a))
    (second : (f a).Bears seen text result) : (x >>= f).Bears seen text result := by
  have both := first.bind second
  rwa [String.empty_append] at both

theorem bind_error {trouble : Trouble} (first : x.Bears seen text (.error trouble))
    : (x >>= f).Bears seen text (.error trouble) :=
  first.imp Shows.bind_error fun ⟨observed, long⟩ =>
    ⟨observed, Report.result_bind_of_error long⟩

end Action.Bears

theorem Action.Shows.bears {α : Type} {seen : Prop} {x : Action α} {text : String}
    {result : Except Trouble α} (h : x.Shows text result) : x.Bears seen text result :=
  .inl h

structure Action.Settles {α : Type} (seen : Prop) (x : Action α) : Prop where
  unspent : x.result ≠ .error (.failure .outOfFuel)
  short : seen → x.result ≠ .error (.failure .unwritable)

theorem Action.Settles.of_bears {α β : Type} {seen : Prop} {x : Action α} {y : Action β}
    {text : String} {result : Except Trouble α} (h : x.Settles seen)
    (bears : x.Bears seen text result)
    (fails : ∀ {trouble}, y.result = .error trouble → result = .error trouble)
    : y.Settles seen := by
  obtain shows | ⟨observed, long⟩ := bears
  . exact ⟨fun spent => h.unspent (shows.result.trans (fails spent)),
      fun observed long => h.short observed (shows.result.trans (fails long))⟩
  . exact absurd long (h.short observed)

theorem Action.bears_tell {seen : Prop} {events : List Event}
    (silent : seen ∨ ∀ event ∈ events, event.sighting? = none)
    : (Action.tell events).Bears seen "" (.ok ()) := by
  induction events with
  | nil => exact .inl ⟨rfl, rfl⟩
  | cons event rest ih =>
    have ih := ih (silent.imp_right fun all => (List.forall_mem_cons.mp all).2)
    have told : Action.Shows (Report.tell (Output.ofEvents [event])) "" (.ok ()) :=
      ⟨Output.stdout_ofEvents _, rfl⟩
    cases event with
    | sighted sighting =>
      have observed : seen :=
        silent.resolve_right fun all => absurd (all _ List.mem_cons_self) (Option.some_ne_none _)
      show Action.Bears seen (Action.ofExcept (writing _ ()) >>= _) _ _
      by_cases short : ∀ v ∈ (Event.sighted sighting).numbers, Numeral.Short v
      . rw [writing_of_short short]
        exact Action.Bears.bind_silent (.inl ⟨rfl, rfl⟩) (told.bears.bind_silent ih)
      . rw [writing_of_long short]
        exact .inr ⟨observed, rfl⟩
    | _ => exact told.bears.bind_silent ih

theorem Action.shows_printShowing {numbers : List Int} (short : ∀ v ∈ numbers, Numeral.Short v)
    (line : String) : (Action.printShowing numbers line).Shows (line ++ "\n") (.ok ()) := by
  unfold printShowing
  rw [writing_of_short short]
  exact ⟨Output.stdout_out _, rfl⟩

theorem Action.shows_of_long {numbers : List Int} (long : ¬ ∀ v ∈ numbers, Numeral.Short v)
    (line : String)
    : (Action.printShowing numbers line).Shows "" (.error (.failure .unwritable)) := by
  unfold printShowing
  rw [writing_of_long long]
  exact ⟨rfl, rfl⟩

inductive Said where
  | value (v : Int)
  | prompt
  deriving Repr, DecidableEq

def Said.text : Said → String
  | value v => Numeral.render v ++ "\n"
  | prompt => "input: "

def transcript (said : List Said) : String :=
  String.join (said.map Said.text)

structure Starves (p q : Program) : Prop where
  yields : ∃ ip, p.Yields [.failed (.fault { cause := .inputExhausted, ip })] q
  empty : q.machine.inputs = []

theorem Starves.waits {p q : Program} (h : Starves p q) (coherent : p.Coherent)
    : q.Coherent ∧ q.state = .awaitingInput ∧ q.obstacle? = none := by
  obtain ⟨ip, yields⟩ := h.yields
  obtain ⟨enough, starved⟩ := yields.result (rfl : Reply.ofResult (.error (.fault _) q) = _)
  have awaiting := (awaiting_of_nextOutput coherent (starved enough (Nat.le_refl enough))).1
  refine ⟨yields.coherent coherent, awaiting, ?_⟩
  unfold obstacle?
  rw [awaiting]

structure IsFinal (e : Failure) : Prop where
  fed : ∀ ip, e ≠ .fault { cause := .inputExhausted, ip }
  unspent : e ≠ .outOfFuel

/--
The program is run to its end, and the values that it gives are said. Where it starves, it is given
the next of the lines if the run is interactive, after a prompt. Some lines are left unread in the
end, and the program has halted or something has gone wrong.
-/
inductive Converses (interactive : Bool)
    : Program → List String → List Said → List String → Except Trouble Program → Prop where
  | ended {p q : Program} {lines : List String}
    : p.Yields [.ended] q → Converses interactive p lines [] lines (.ok q)
  | failed {p q : Program} {lines : List String} {e : Failure}
    : p.Yields [.failed e] q → IsFinal e
      → Converses interactive p lines [] lines (.error (.failure e))
  | gave {p q : Program} {value : Int} {lines unread : List String} {said : List Said}
      {result : Except Trouble Program}
    : p.Yields [.gave value] q → Numeral.Short value
      → Converses interactive q lines said unread result
      → Converses interactive p lines (.value value :: said) unread result
  | unsaid {p q : Program} {value : Int} {lines : List String}
    : p.Yields [.gave value] q → ¬ Numeral.Short value
      → Converses interactive p lines [] lines (.error (.failure .unwritable))
  | refused {p q : Program} {lines : List String} {ip : Option Int}
    : interactive = false → p.Yields [.failed (.fault { cause := .inputExhausted, ip })] q
      → Converses interactive p lines [] lines
          (.error (.failure (.fault { cause := .inputExhausted, ip })))
  | unanswered {p q : Program}
    : interactive = true → Starves p q
      → Converses interactive p [] [.prompt] [] (.error .endOfInput)
  | misread {p q : Program} {line : String} {lines : List String} {trouble : Trouble}
    : interactive = true → Starves p q → (readAnswer line).result = .error trouble
      → Converses interactive p (line :: lines) [.prompt] lines (.error trouble)
  | answered {p q : Program} {line : String} {value : Int} {lines unread : List String}
      {said : List Said} {result : Except Trouble Program}
    : interactive = true → Starves p q → (readAnswer line).result = .ok value
      → Converses interactive { q with machine := q.machine.push [value] } lines said unread result
      → Converses interactive p (line :: lines) (.prompt :: said) unread result

def dumped (p : Program) : Except Trouble String :=
  match p.machine.memory.dump 0 p.machine.memory.size RunState.dumpWidth with
  | .ok text => .ok (text ++ "\n")
  | .error e => .error (.failure e)

def closing (dump : Bool) : Except Trouble Program → Except Trouble String
  | .ok p => if dump then dumped p else .ok ""
  | .error trouble => .error trouble

def textOf : Except Trouble String → String
  | .ok text => text
  | .error _ => ""

theorem closing_undumped (result : Except Trouble Program)
    : closing false result = result.map fun _ => "" := by
  cases result with
  | ok p => rfl
  | error trouble => rfl

theorem textOf_undumped (result : Except Trouble Program) : textOf (closing false result) = "" := by
  cases result with
  | ok p => rfl
  | error trouble => rfl

theorem exists_dump_of_dumped {p : Program} {text : String} (done : dumped p = .ok text)
    : ∃ dump, p.machine.memory.dump 0 p.machine.memory.size RunState.dumpWidth = .ok dump
        ∧ text = dump ++ "\n" := by
  unfold dumped at done
  split at done
  . next dump told =>
    cases done
    exact ⟨dump, told, rfl⟩
  . contradiction

theorem eq_unwritable_of_dumped {p : Program} {trouble : Trouble}
    (failed : dumped p = .error trouble) : trouble = .failure .unwritable := by
  unfold dumped at failed
  split at failed
  . contradiction
  . next dumped =>
    cases failed
    rw [Memory.eq_unwritable_of_dump (Int.le_refl 0) (by decide) dumped]

theorem eq_unwritable_of_closing {dump : Bool} {p : Program} {trouble : Trouble}
    (failed : closing dump (.ok p) = .error trouble) : trouble = .failure .unwritable := by
  cases dump with
  | false => contradiction
  | true => exact eq_unwritable_of_dumped failed

namespace RunState

def resume (fuel : Nat) (options : RunOptions) (lines : List String) (paused : Pause × RunState)
    : Action Unit :=
  match paused.1 with
  | .ended => finish options paused.2
  | .starved fault =>
    if options.interactive then do
      prompt
      match lines with
      | [] => Action.fail .endOfInput
      | line :: rest => do converse fuel options rest (← paused.2.answer line)
    else
      Action.fail (.failure fault)

variable {fuel bound : Nat} {options : RunOptions} {lines : List String} {p q : Program}
  {state : RunState} {seen : Prop}

theorem converse_eq (fuel : Nat) (options : RunOptions) (lines : List String) (state : RunState)
    : converse fuel options lines state
        = state.toPause fuel fuel >>= resume fuel options lines := by
  rw [converse]
  rfl

theorem shows_conclude (steps printed : Nat) (trace : String)
    : (options.conclude steps printed trace).Shows "" (.ok ()) := by
  unfold RunOptions.conclude
  cases options.trace with
  | false => exact ⟨rfl, rfl⟩
  | true => exact ⟨rfl, rfl⟩

theorem shows_finish (same : Observed seen state.program p)
    : (finish options state).Shows (textOf (closing options.dump (.ok p)))
        ((closing options.dump (.ok p)).map fun _ => ()) := by
  have dump := Memory.dump_of_cells same.machine.cells 0 p.machine.memory.size dumpWidth
  rw [same.machine.size] at dump
  unfold finish
  apply (shows_conclude _ _ _).bind_silent
  cases options.dump with
  | false => exact ⟨rfl, rfl⟩
  | true =>
    simp only [closing, dumped, same.machine.size, dump]
    cases state.program.machine.memory.dump 0 state.program.machine.memory.size dumpWidth with
    | ok text => exact ⟨Output.stdout_out _, rfl⟩
    | error e => exact ⟨rfl, rfl⟩

theorem bears_stop {e : Failure} (stopped : state.program.nextOutput fuel [] = .error e q)
    (fed : ∀ ip, e ≠ .fault { cause := .inputExhausted, ip })
    (silent : seen ∨ ∀ event ∈ q.machine.journal.toList, event.sighting? = none) (bound : Nat)
    : (state.toPause fuel (bound + 1)).Bears seen "" (.error (.failure e)) := by
  have told := (Action.bears_tell silent).bind_silent (f := fun _ => Action.fail (.failure e))
    (.inl ⟨rfl, rfl⟩ : Action.Bears seen (Action.fail (α := Pause × RunState) _) "" _)
  rw [toPause, stopped]
  split
  . contradiction
  . contradiction
  . next same =>
    cases same
    exact absurd rfl (fed _)
  . next same =>
    cases same
    exact told

theorem toPause_unwritable (observed : seen)
    (stopped : state.program.nextOutput fuel [] = .error .unwritable q) (bound : Nat)
    : (state.toPause fuel (bound + 1)).result = .error (.failure .unwritable) := by
  obtain shows | ⟨-, long⟩ := bears_stop stopped nofun (.inl observed) bound
  . exact shows.result
  . exact long

theorem toPause_gave {value : Int} (same : Observed seen state.program p)
    (gave : p.nextOutput fuel [] = .ok (some value) q) (short : Numeral.Short value)
    : ∃ state' : RunState, Observed seen state'.program q
        ∧ ∀ bound (f : Pause × RunState → Action Unit) text result,
          (state'.toPause fuel bound >>= f).Bears seen text result
            → (state.toPause fuel (bound + 1) >>= f).Bears seen
                ((Said.value value).text ++ text) result := by
  have replied := same.nextOutput fuel []
  rw [gave] at replied
  obtain ⟨q', gave', same'⟩ | ⟨e, q', stopped, observed, rfl⟩ := replied.to_ok
  . refine ⟨{ program := q'.collect.2, printed := state.printed + 1 }, Observed.collect same', ?_⟩
    intro bound f text result shown
    have said : (Action.printShowing [value] (Numeral.render value)).Bears seen
        (Said.value value).text (.ok ()) :=
      (Action.shows_printShowing (List.forall_mem_singleton.mpr short) _).bears
    rw [toPause, gave']
    show ((Action.tell _ >>= fun _ => Action.printShowing _ _ >>= fun _ => _) >>= f).Bears _ _ _
    rw [Report.bind_assoc]
    apply (Action.bears_tell same'.machine.silent).bind_silent
    rw [Report.bind_assoc]
    exact said.bind shown
  . refine ⟨{ program := q }, .refl observed q, ?_⟩
    intro bound f text result _
    exact .inr ⟨observed, Report.result_bind_of_error (toPause_unwritable observed stopped bound)⟩

theorem toPause_unsaid {value : Int} (same : Observed seen state.program p)
    (gave : p.nextOutput fuel [] = .ok (some value) q) (long : ¬ Numeral.Short value) (bound : Nat)
    : (state.toPause fuel (bound + 1)).Bears seen "" (.error (.failure .unwritable)) := by
  have replied := same.nextOutput fuel []
  rw [gave] at replied
  obtain ⟨q', gave', same'⟩ | ⟨e, q', stopped, observed, rfl⟩ := replied.to_ok
  . rw [toPause, gave']
    apply (Action.bears_tell same'.machine.silent).bind_silent
    apply Action.Bears.bind_error
    exact (Action.shows_of_long (fun all => long (List.forall_mem_singleton.mp all)) _).bears
  . exact .inr ⟨observed, toPause_unwritable observed stopped bound⟩

def Pauses (seen : Prop) (action : Action (Pause × RunState)) (pause : Pause) (p : Program)
    : Prop :=
  (∃ state, Observed seen state.program p ∧ action.Bears seen "" (.ok (pause, state)))
    ∨ seen ∧ action.result = .error (.failure .unwritable)

theorem Pauses.bind {action : Action (Pause × RunState)} {f : Pause × RunState → Action Unit}
    {pause : Pause} {text : String} {result : Except Trouble Unit} (h : Pauses seen action pause p)
    (next : ∀ state : RunState, Observed seen state.program p
      → (f (pause, state)).Bears seen text result)
    : (action >>= f).Bears seen text result := by
  obtain ⟨state, same, paused⟩ | ⟨observed, long⟩ := h
  . exact paused.bind_silent (next state same)
  . exact .inr ⟨observed, Report.result_bind_of_error long⟩

theorem toPause_ended (same : Observed seen state.program p)
    (ended : p.nextOutput fuel [] = .ok none q) (bound : Nat)
    : Pauses seen (state.toPause fuel (bound + 1)) .ended q := by
  have replied := same.nextOutput fuel []
  rw [ended] at replied
  obtain ⟨q', ended', same'⟩ | ⟨e, q', stopped, observed, rfl⟩ := replied.to_ok
  . refine .inl ⟨{ state with program := q'.collect.2 }, Observed.collect same', ?_⟩
    rw [toPause, ended']
    exact (Action.bears_tell same'.machine.silent).bind_silent (.inl ⟨rfl, rfl⟩)
  . exact .inr ⟨observed, toPause_unwritable observed stopped bound⟩

theorem toPause_starved {ip : Option Int} (same : Observed seen state.program p)
    (starved : p.nextOutput fuel [] = .error (.fault { cause := .inputExhausted, ip }) q)
    (bound : Nat)
    : Pauses seen (state.toPause fuel (bound + 1)) (.starved { cause := .inputExhausted, ip }) q := by
  have replied := same.nextOutput fuel []
  rw [starved] at replied
  obtain ⟨q', starved', same'⟩ | ⟨e, q', stopped, observed, rfl⟩ := replied.to_error
  . refine .inl ⟨{ state with program := q'.collect.2 }, Observed.collect same', ?_⟩
    rw [toPause, starved']
    exact (Action.bears_tell same'.machine.silent).bind_silent (.inl ⟨rfl, rfl⟩)
  . exact .inr ⟨observed, toPause_unwritable observed stopped bound⟩

theorem toPause_failed {e : Failure} (same : Observed seen state.program p)
    (failed : p.nextOutput fuel [] = .error e q)
    (fed : ∀ ip, e ≠ .fault { cause := .inputExhausted, ip }) (bound : Nat)
    : (state.toPause fuel (bound + 1)).Bears seen "" (.error (.failure e)) := by
  have replied := same.nextOutput fuel []
  rw [failed] at replied
  obtain ⟨q', failed', same'⟩ | ⟨_, q', stopped, observed, rfl⟩ := replied.to_error
  . exact bears_stop failed' fed same'.machine.silent bound
  . exact .inr ⟨observed, toPause_unwritable observed stopped bound⟩

theorem shows_readAnswer (line : String) : (readAnswer line).Shows "" (readAnswer line).result := by
  unfold readAnswer Action.readNumber
  split
  . exact ⟨rfl, rfl⟩
  . exact ⟨rfl, rfl⟩
  . exact ⟨rfl, rfl⟩

theorem shows_answer {line : String} {value : Int} (same : Observed seen state.program p)
    (free : p.obstacle? = none) (read : (readAnswer line).result = .ok value)
    : ∃ state' : RunState,
        Observed seen state'.program { p with machine := p.machine.push [value] }
          ∧ (state.answer line).Shows "" (.ok state') := by
  have free' := (same.obstacle? Machine.overlooks_observed).symm.trans free
  refine ⟨{ state with
    program := { state.program with machine := state.program.machine.push [value] } },
    same.push Machine.overlooks_observed [value], ?_⟩
  have shown := shows_readAnswer line
  rw [read] at shown
  apply shown.bind_silent
  unfold feed
  rw [free']
  exact ⟨rfl, rfl⟩

theorem answer_misread {line : String} {trouble : Trouble}
    (misread : (readAnswer line).result = .error trouble)
    : (state.answer line).Shows "" (.error trouble) := by
  have shown := shows_readAnswer line
  rw [misread] at shown
  exact shown.bind_error

def Shown (seen : Prop) (options : RunOptions) (lines : List String) (p : Program) (text : String)
    (result : Except Trouble Unit) : Prop :=
  ∃ enough, ∀ fuel ≥ enough, ∀ bound ≥ enough, ∀ state : RunState, Observed seen state.program p
    → (state.toPause fuel bound >>= resume fuel options lines).Bears seen text result

theorem shown_of_yields {reply : Reply} {text : String} {result : Except Trouble Unit}
    (yields : p.Yields [reply] q) {replied : EStateM.Result Failure Program (Option Int)}
    (replies : Reply.ofResult replied = (reply, q))
    (bears : ∃ enough, ∀ fuel ≥ enough, ∀ bound ≥ enough, ∀ state : RunState,
      Observed seen state.program p → p.nextOutput fuel [] = replied
        → (state.toPause fuel (bound + 1) >>= resume fuel options lines).Bears seen text result)
    : Shown seen options lines p text result := by
  obtain ⟨enough, called⟩ := yields.result replies
  obtain ⟨enough', bears⟩ := bears
  refine ⟨max enough enough' + 1, ?_⟩
  intro fuel more bound more' state same
  obtain ⟨bound, rfl⟩ := Nat.exists_eq_add_of_le' (Nat.le_trans (Nat.le_add_left 1 _) more')
  exact bears fuel (by omega) bound (by omega) state same (called fuel (by omega))

theorem shown_ended (yields : p.Yields [.ended] q)
    : Shown seen options lines p (textOf (closing options.dump (.ok q)))
        ((closing options.dump (.ok q)).map fun _ => ()) := by
  apply shown_of_yields yields (rfl : Reply.ofResult (.ok none q) = _)
  refine ⟨0, ?_⟩
  intro fuel _ bound _ state same ended
  exact (toPause_ended same ended bound).bind fun state same => (shows_finish same).bears

theorem shown_failed {e : Failure} (yields : p.Yields [.failed e] q) (final : IsFinal e)
    : Shown seen options lines p "" (.error (.failure e)) := by
  apply shown_of_yields yields (rfl : Reply.ofResult (.error e q) = _)
  refine ⟨0, ?_⟩
  intro fuel _ bound _ state same failed
  exact (toPause_failed same failed final.fed bound).bind_error

theorem shown_gave {value : Int} {text : String} {result : Except Trouble Unit}
    (yields : p.Yields [.gave value] q) (short : Numeral.Short value)
    (shown : Shown seen options lines q text result)
    : Shown seen options lines p ((Said.value value).text ++ text) result := by
  apply shown_of_yields yields (rfl : Reply.ofResult (.ok (some value) q) = _)
  obtain ⟨enough, shown⟩ := shown
  refine ⟨enough, ?_⟩
  intro fuel more bound more' state same gave
  obtain ⟨state', same', goes⟩ := toPause_gave same gave short
  exact goes bound _ text result (shown fuel more bound more' state' same')

theorem shown_unsaid {value : Int} (yields : p.Yields [.gave value] q)
    (long : ¬ Numeral.Short value)
    : Shown seen options lines p "" (.error (.failure .unwritable)) := by
  apply shown_of_yields yields (rfl : Reply.ofResult (.ok (some value) q) = _)
  refine ⟨0, ?_⟩
  intro fuel _ bound _ state same gave
  exact (toPause_unsaid same gave long bound).bind_error

theorem shown_starved {ip : Option Int} {text : String} {result : Except Trouble Unit}
    (yields : p.Yields [.failed (.fault { cause := .inputExhausted, ip })] q)
    (bears : ∃ enough, ∀ fuel ≥ enough, ∀ state : RunState, Observed seen state.program q
      → (resume fuel options lines (.starved { cause := .inputExhausted, ip }, state)).Bears seen
          text result)
    : Shown seen options lines p text result := by
  apply shown_of_yields yields (rfl : Reply.ofResult (.error (.fault _) q) = _)
  obtain ⟨enough, bears⟩ := bears
  refine ⟨enough, ?_⟩
  intro fuel more bound _ state same starved
  exact (toPause_starved same starved bound).bind (bears fuel more)

theorem shown_refused {ip : Option Int} (declined : options.interactive = false)
    (yields : p.Yields [.failed (.fault { cause := .inputExhausted, ip })] q)
    : Shown seen options lines p ""
        (.error (.failure (.fault { cause := .inputExhausted, ip }))) := by
  apply shown_starved yields
  refine ⟨0, ?_⟩
  intro fuel _ state same
  unfold resume
  rw [declined]
  exact .inl ⟨rfl, rfl⟩

theorem shows_prompt : prompt.Shows Said.prompt.text (.ok ()) :=
  ⟨Output.stdout_out _, rfl⟩

theorem shown_unanswered (asked : options.interactive = true) (starves : Starves p q)
    : Shown seen options [] p (Said.prompt.text ++ "") (.error .endOfInput) := by
  obtain ⟨ip, yields⟩ := starves.yields
  apply shown_starved yields
  refine ⟨0, ?_⟩
  intro fuel _ state same
  unfold resume
  rw [asked]
  exact .inl (shows_prompt.bind ⟨rfl, rfl⟩)

theorem shown_misread {line : String} {trouble : Trouble} (asked : options.interactive = true)
    (starves : Starves p q) (misread : (readAnswer line).result = .error trouble)
    : Shown seen options (line :: lines) p (Said.prompt.text ++ "") (.error trouble) := by
  obtain ⟨ip, yields⟩ := starves.yields
  apply shown_starved yields
  refine ⟨0, ?_⟩
  intro fuel _ state same
  unfold resume
  rw [asked]
  exact .inl (shows_prompt.bind (answer_misread misread).bind_error)

theorem bears_resume {line : String} {fault : Fault} {state' : RunState} {text : String}
    {result : Except Trouble Unit} (asked : options.interactive = true)
    (answered : (state.answer line).Shows "" (.ok state'))
    (bears : (converse fuel options lines state').Bears seen text result)
    : (resume fuel options (line :: lines) (.starved fault, state)).Bears seen
        (Said.prompt.text ++ text) result := by
  unfold resume
  rw [asked]
  exact shows_prompt.bears.bind (answered.bears.bind_silent bears)

theorem shown_answered {line : String} {value : Int} {text : String}
    {result : Except Trouble Unit} (asked : options.interactive = true) (coherent : p.Coherent)
    (starves : Starves p q) (read : (readAnswer line).result = .ok value)
    (shown : Shown seen options lines { q with machine := q.machine.push [value] } text result)
    : Shown seen options (line :: lines) p (Said.prompt.text ++ text) result := by
  have free := (starves.waits coherent).2.2
  obtain ⟨ip, yields⟩ := starves.yields
  apply shown_starved yields
  obtain ⟨enough, shown⟩ := shown
  refine ⟨enough, ?_⟩
  intro fuel more state same
  obtain ⟨state', same', answered⟩ := shows_answer same free read
  apply bears_resume asked answered
  rw [converse_eq]
  exact shown fuel more fuel more state' same'

end RunState

open RunState

theorem transcript_nil : transcript [] = "" :=
  rfl

theorem transcript_cons (first : Said) (said : List Said)
    : transcript (first :: said) = first.text ++ transcript said := by
  simp [transcript, String.join_cons]

theorem Converses.shown {interactive : Bool} {options : RunOptions} {p : Program}
    {lines unread : List String} {said : List Said} {result : Except Trouble Program}
    (h : Converses interactive p lines said unread result) (coherent : p.Coherent) (seen : Prop)
    (chosen : options.interactive = interactive)
    : Shown seen options lines p (transcript said ++ textOf (closing options.dump result))
        ((closing options.dump result).map fun _ => ()) := by
  induction h with
  | ended yields =>
    rw [transcript_nil, String.empty_append]
    exact shown_ended yields
  | failed yields final => exact shown_failed yields final
  | gave yields short _ ih =>
    rw [transcript_cons, String.append_assoc]
    exact shown_gave yields short (ih (yields.coherent coherent))
  | unsaid yields long => exact shown_unsaid yields long
  | refused declined yields => exact shown_refused (chosen.trans declined) yields
  | unanswered asked starves => exact shown_unanswered (chosen.trans asked) starves
  | misread asked starves misread => exact shown_misread (chosen.trans asked) starves misread
  | answered asked starves read _ ih =>
    have coherent' := (starves.waits coherent).1.push
    rw [transcript_cons, String.append_assoc]
    exact shown_answered (chosen.trans asked) coherent starves read (ih (coherent' _))

def Finishes (interactive : Bool) (p : Program) (lines : List String) : Prop :=
  ∃ said unread result, Converses interactive p lines said unread result

section

variable {interactive : Bool} {options : RunOptions} {p : Program} {lines : List String}
  {state : RunState} {fuel : Nat} {seen : Prop}

theorem finishes_of_nextOutput (fuel : Nat) (coherent : p.Coherent)
    (returned : ∀ q, p.nextOutput fuel [] ≠ .error .outOfFuel q)
    (gave : ∀ value q, p.nextOutput fuel [] = .ok (some value) q → Numeral.Short value
      → Finishes interactive q lines)
    (answered : ∀ ip q line rest value,
      p.nextOutput fuel [] = .error (.fault { cause := .inputExhausted, ip }) q
        → interactive = true → lines = line :: rest → (readAnswer line).result = .ok value
        → Finishes interactive { q with machine := q.machine.push [value] } rest)
    : Finishes interactive p lines := by
  cases called : p.nextOutput fuel [] with
  | ok out q =>
    have yields {reply : Reply} (replied : Reply.ofResult (.ok out q) = (reply, q))
        (other : reply ≠ .failed .outOfFuel) : p.Yields [reply] q :=
      yields_of_nextOutput ((congrArg Reply.ofResult called).trans replied) other
    cases out with
    | none => exact ⟨_, _, _, .ended (yields rfl Reply.noConfusion)⟩
    | some value =>
      have yields := yields rfl Reply.noConfusion
      by_cases short : Numeral.Short value
      . obtain ⟨said, unread, result, rest⟩ := gave value q called short
        exact ⟨_, _, _, .gave yields short rest⟩
      . exact ⟨_, _, _, .unsaid yields short⟩
  | error e q =>
    have other : e ≠ .outOfFuel := by
      rintro rfl
      exact returned q called
    have yields : p.Yields [.failed e] q := by
      apply yields_of_nextOutput (congrArg Reply.ofResult called)
      rintro ⟨⟩
      exact other rfl
    by_cases exhausted : ∃ ip, e = .fault { cause := .inputExhausted, ip }
    . obtain ⟨ip, rfl⟩ := exhausted
      have starves : Starves p q := ⟨⟨ip, yields⟩, (awaiting_of_nextOutput coherent called).2.1⟩
      cases interactive with
      | false => exact ⟨_, _, _, .refused rfl yields⟩
      | true =>
        cases lines with
        | nil => exact ⟨_, _, _, .unanswered rfl starves⟩
        | cons line rest =>
          cases read : (readAnswer line).result with
          | error trouble => exact ⟨_, _, _, .misread rfl starves read⟩
          | ok value =>
            obtain ⟨said, unread, result, conversed⟩ :=
              answered ip q line rest value called rfl rfl read
            exact ⟨_, _, _, .answered rfl starves read conversed⟩
    . exact ⟨_, _, _, .failed yields ⟨fun ip same => exhausted ⟨ip, same⟩, other⟩⟩

theorem finishes_of_toPause {bound : Nat} (coherent : p.Coherent)
    (same : Observed seen state.program p)
    (settles : (state.toPause fuel bound >>= resume fuel options lines).Settles seen)
    (answered : ∀ {line rest}, lines = line :: rest → ∀ {q : Program} {state : RunState},
      q.Coherent → Observed seen state.program q
        → (RunState.converse fuel options rest state).Settles seen
        → Finishes options.interactive q rest)
    : Finishes options.interactive p lines := by
  induction bound generalizing p state with
  | zero => exact absurd rfl settles.unspent
  | succ bound ih =>
    apply finishes_of_nextOutput fuel coherent
    . intro q spent
      obtain shows | ⟨observed, long⟩ := (toPause_failed same spent nofun bound).bind_error
        (f := resume fuel options lines)
      . exact settles.unspent shows.result
      . exact settles.short observed long
    . intro value q called short
      have yields := yields_of_nextOutput (congrArg Reply.ofResult called) Reply.noConfusion
      obtain ⟨state', same', goes⟩ := toPause_gave same called short
      apply ih (yields.coherent coherent) same'
      exact settles.of_bears (goes bound _ _ _ (.inl ⟨rfl, rfl⟩)) id
    . intro ip q line rest value called asked split read
      have yields := yields_of_nextOutput (congrArg Reply.ofResult called) nofun
      have starves : Starves p q := ⟨⟨ip, yields⟩, (awaiting_of_nextOutput coherent called).2.1⟩
      obtain ⟨waiting, -, free⟩ := starves.waits coherent
      obtain ⟨state', same', paused⟩ | ⟨observed, long⟩ := toPause_starved same called bound
      . obtain ⟨state'', same'', given⟩ := shows_answer same' free read
        apply answered split (waiting.push [value]) same''
        subst split
        exact settles.of_bears (paused.bind_silent (bears_resume asked given (.inl ⟨rfl, rfl⟩))) id
      . exact absurd (Report.result_bind_of_error long) (settles.short observed)

theorem finishes_of_converse (coherent : p.Coherent) (same : Observed seen state.program p)
    (settles : (RunState.converse fuel options lines state).Settles seen)
    : Finishes options.interactive p lines := by
  induction lines generalizing p state with
  | nil =>
    rw [converse_eq] at settles
    exact finishes_of_toPause coherent same settles nofun
  | cons line lines ih =>
    rw [converse_eq] at settles
    apply finishes_of_toPause coherent same settles
    rintro _ _ ⟨⟩
    exact ih

end

def Trouble.IsKnown (trouble : Trouble) : Prop :=
  trouble.isForeseen = true ∧ trouble.message ≠ Failure.outOfFuel.message

theorem isKnown_of_ip {fault : Fault} {ip : Int} (here : fault.ip = some ip)
    : (Trouble.failure fault).IsKnown := by
  obtain ⟨cause, _⟩ := fault
  cases here
  refine ⟨rfl, ?_⟩
  show "ip=" ++ Numeral.render ip ++ ": " ++ cause.message ≠ "out of fuel"
  simp [← String.toList_inj]

theorem isKnown_unwritable : (Trouble.failure .unwritable).IsKnown :=
  ⟨rfl, by decide⟩

theorem isKnown_of_misread {line : String} {trouble : Trouble}
    (misread : (readAnswer line).result = .error trouble)
    : trouble.IsKnown ∧ trouble ≠ .endOfInput := by
  unfold readAnswer Action.readNumber at misread
  split at misread
  . contradiction
  . cases misread
    refine ⟨⟨rfl, ?_⟩, nofun⟩
    show "invalid literal for int() with base 10: " ++ _ ≠ "out of fuel"
    simp [← String.toList_inj]
  . cases misread
    refine ⟨⟨rfl, ?_⟩, nofun⟩
    show "Exceeds the limit (4300 digits) for integer string conversion: " ++ _ ++ _ ≠ "out of fuel"
    simp [← String.toList_inj]

section

variable {interactive : Bool} {p : Program} {lines unread : List String} {said : List Said}
  {result : Except Trouble Program}

theorem Converses.isKnown {trouble : Trouble}
    (h : Converses interactive p lines said unread (.error trouble)) (coherent : p.Coherent)
    (free : p.obstacle? = none) : trouble.IsKnown := by
  generalize failed : Except.error trouble = result at h
  induction h with
  | ended _ => cases failed
  | gave yields _ _ ih => exact ih (yields.coherent coherent) yields.going failed
  | unsaid _ _ =>
    cases failed
    exact isKnown_unwritable
  | unanswered _ _ =>
    cases failed
    exact ⟨rfl, by decide⟩
  | misread _ _ misread =>
    cases failed
    exact (isKnown_of_misread misread).1
  | answered _ starves _ _ ih =>
    obtain ⟨waiting, -, free⟩ := starves.waits coherent
    exact ih (waiting.push _) free failed
  | @failed p q lines e yields final =>
    cases failed
    obtain ⟨enough, faulted⟩ := yields.result (rfl : Reply.ofResult (.error e q) = _)
    have known := faulted_of_nextOutput coherent free (faulted enough (Nat.le_refl enough)) final.fed
    obtain spent | rfl | ⟨fault, rfl, -, here, -⟩ := known
    . exact absurd spent final.unspent
    . exact isKnown_unwritable
    . exact isKnown_of_ip here
  | @refused p q lines ip _ yields =>
    cases failed
    obtain ⟨enough, starved⟩ := yields.result (rfl : Reply.ofResult (.error (.fault _) q) = _)
    exact isKnown_of_ip (awaiting_of_nextOutput coherent (starved enough (Nat.le_refl enough))).2.2

theorem Converses.isKnown_closing {trouble : Trouble} {dump : Bool}
    (h : Converses interactive p lines said unread result) (coherent : p.Coherent)
    (free : p.obstacle? = none) (failed : closing dump result = .error trouble)
    : trouble.IsKnown := by
  cases result with
  | error trouble' =>
    cases failed
    exact h.isKnown coherent free
  | ok q =>
    rw [eq_unwritable_of_closing failed]
    exact isKnown_unwritable

def unmet : Except Trouble Program → Nat
  | .error .endOfInput => 1
  | _ => 0

theorem Converses.prompts (h : Converses interactive p lines said unread result)
    : ∃ read, lines = read ++ unread ∧ said.count .prompt = read.length + unmet result := by
  induction h with
  | ended _ => exact ⟨[], rfl, rfl⟩
  | failed _ _ => exact ⟨[], rfl, rfl⟩
  | unsaid _ _ => exact ⟨[], rfl, rfl⟩
  | refused _ _ => exact ⟨[], rfl, rfl⟩
  | gave _ _ _ ih =>
    obtain ⟨read, split, counted⟩ := ih
    exact ⟨read, split, counted⟩
  | unanswered _ _ => exact ⟨[], rfl, rfl⟩
  | @misread _ _ line lines trouble _ _ misread =>
    have met : unmet (.error trouble) = 0 := by
      have met := (isKnown_of_misread misread).2
      unfold unmet
      split
      . next same =>
        cases same
        contradiction
      . rfl
    exact ⟨[line], rfl, by rw [met]; rfl⟩
  | @answered _ _ line _ _ _ _ _ _ _ _ _ ih =>
    obtain ⟨read, split, counted⟩ := ih
    refine ⟨line :: read, congrArg (line :: ·) split, ?_⟩
    rw [List.count_cons_self, counted, List.length_cons, Nat.add_right_comm]

end

end CommandLine

end Intcode
