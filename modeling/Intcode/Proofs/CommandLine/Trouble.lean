import Intcode.CommandLine.Command
import Intcode.Proofs.CommandLine.Conversation
import Intcode.Proofs.CommandLine.Hollow
import Intcode.Proofs.Instruction.Listing

/-!
Troubles of the commands: which of them a command can run into, and that it does the same if it is
given more fuel than it has used. A command that looks at numbers only runs into none that nobody
has foreseen, unless it serves a port.
-/
namespace Intcode.CommandLine

open Amplifier (Layout)

variable {fuel fuel' : Nat} {image : List Int} {config : Config}

theorem outlasts_ofReport {x x' : Report Event Failure α} (h : x'.Outlasts .outOfFuel x)
    : (Action.ofReport x').Outlasts (.failure .outOfFuel) (Action.ofReport x) :=
  h.translate _ _

namespace Action

variable {α : Type} {x : Report Event Failure α} {result : Except Failure α} {a : α}
  {trouble : Trouble}

theorem ofReport_eq_ok_iff : (ofReport x).result = .ok a ↔ x.result = .ok a :=
  mapError_eq_ok_iff

theorem ofExcept_eq_ok_iff : (ofExcept result).result = .ok a ↔ result = .ok a :=
  ofReport_eq_ok_iff

end Action

namespace RunState

def IsLong (event : Event) : Prop :=
  event.sighting?.isSome = true ∧ ¬ event.IsWritable

instance (event : Event) : Decidable (IsLong event) :=
  inferInstanceAs (Decidable (event.sighting?.isSome = true ∧ ¬ event.IsWritable))

theorem result_tell_cons (event : Event) (rest : List Event)
    : (Action.tell (event :: rest)).result
        = if IsLong event then .error (.failure .unwritable) else (Action.tell rest).result := by
  have told : (Report.tell (Output.ofEvents [event]) >>= fun _ => Action.tell rest).result
      = (Action.tell rest).result := Report.result_bind_of_ok rfl
  cases event with
  | sighted sighting =>
    show (Action.ofExcept (writing _ ()) >>= fun _ => _).result = _
    by_cases short : ∀ v ∈ (Event.sighted sighting).numbers, Numeral.Short v
    . rw [writing_of_short short, if_neg (fun long => long.2 short)]
      exact (Report.result_bind_of_ok rfl).trans told
    . rw [writing_of_long short, if_pos ⟨rfl, short⟩]
      rfl
  | _ =>
    rw [if_neg (fun long => Bool.false_ne_true long.1)]
    exact told

theorem result_tell (events : List Event)
    : (Action.tell events).result
        = if ∃ event ∈ events, IsLong event then .error (.failure .unwritable) else .ok () := by
  induction events with
  | nil =>
    rw [if_neg (by simp)]
    rfl
  | cons event rest ih =>
    rw [result_tell_cons, ih]
    by_cases long : IsLong event
    . rw [if_pos long, if_pos ⟨event, List.mem_cons_self, long⟩]
    . simp [long]

theorem carried_long : Program.Carried fun m => ∃ event ∈ m.journal.toList, IsLong event := by
  have records (new : Event) (m : Machine) (h : ∃ event ∈ m.journal.toList, IsLong event)
      : ∃ event ∈ (m.record new).journal.toList, IsLong event := by
    obtain ⟨long, mem, h⟩ := h
    exact ⟨long, by simp [Machine.record, mem], h⟩
  have keeps (action : Machine.Action) (m : Machine) (h : ∃ event ∈ m.journal.toList, IsLong event)
      : ∃ event ∈ (action.apply m).journal.toList, IsLong event := by
    cases action with
    | put addr value =>
      obtain ⟨long, mem, h⟩ := h
      exact ⟨long, by simp [Machine.Action.apply, mem], h⟩
    | count entry =>
      cases entry with
      | none => exact h
      | some entry =>
        exact records (.executed entry)
          { m with steps := m.steps + 1, trace := m.trace.push entry } h
    | _ => exact h
  constructor
  . intro m ready h
    exact Machine.step_ends (P := fun m => ∃ event ∈ m.journal.toList, IsLong event)
      (fun action m h _ => keeps action m h) ready.start h
  . exact fun _ _ h => h
  . exact fun _ h => h
  . exact fun name m h => records (.halted name m.steps) m h
  . exact fun name m h => records (.faulted name m.ip) m h

theorem long_of_nextOutput {p q : Program} (ready : p.machine.Ready)
    (spent : p.nextOutput fuel [] = .error .outOfFuel q)
    (long : ∃ event ∈ q.machine.journal.toList, IsLong event) (more : fuel ≤ fuel')
    : ∃ event ∈ (endState (p.nextOutput fuel' [])).machine.journal.toList, IsLong event := by
  cases free : p.obstacle? with
  | some fault =>
    unfold Program.nextOutput at spent
    rw [free] at spent
    cases spent
  | none =>
    rw [Program.nextOutput_of_free free] at spent ⊢
    cases Machine.run_cases fuel (p.machine.push []) with
    | inl stopped =>
      obtain ⟨k, n, enough, path, stops⟩ := stopped
      rw [Machine.run_of_path path stops (Nat.lt_of_lt_of_le enough more), spent]
      exact long
    | inr out =>
      -- What was told up to here is told with any more steps that follow.
      obtain ⟨n, path, out⟩ := out
      obtain ⟨further, rfl⟩ := Nat.exists_eq_add_of_le more
      rw [out] at spent
      cases spent
      rw [Machine.run_add_of_path path]
      exact carried_long.settle p.name
        (carried_long.run (path.ready (ready.push [])) long further)

theorem result_toPause_of_long {bound : Nat} {state : RunState}
    (long : ∃ event ∈ (endState (state.program.nextOutput fuel [])).machine.journal.toList,
      IsLong event)
    : (toPause fuel (bound + 1) state).result = .error (.failure .unwritable) := by
  unfold toPause
  split
  all_goals
    next called =>
      rw [called] at long
      exact Report.result_bind_of_error ((result_tell _).trans (if_pos long))

theorem result_toPause_of_spent {bound : Nat} {state : RunState} {q : Program}
    (spent : state.program.nextOutput fuel [] = .error .outOfFuel q)
    (short : ¬ ∃ event ∈ q.machine.journal.toList, IsLong event)
    : (toPause fuel (bound + 1) state).result = .error (.failure .outOfFuel) := by
  unfold toPause
  rw [spent]
  exact Report.result_bind_of_ok ((result_tell _).trans (if_neg short))

abbrev Ready (state : RunState) : Prop :=
  state.program.machine.Ready

theorem outlasts_toPause {bound bound' : Nat} (more : fuel ≤ fuel') (further : bound ≤ bound')
    {state : RunState} (ready : state.Ready)
    : (toPause fuel' bound' state).Outlasts (.failure .outOfFuel) (toPause fuel bound state) := by
  induction bound generalizing bound' state with
  | zero =>
    intro returned
    exact absurd rfl returned
  | succ bound ih =>
    obtain ⟨bound', rfl⟩ := Nat.exists_eq_add_of_le' (Nat.le_trans (Nat.le_add_left 1 _) further)
    intro returned
    by_cases spent : ∃ q, state.program.nextOutput fuel [] = .error .outOfFuel q
    . obtain ⟨q, spent⟩ := spent
      by_cases long : ∃ event ∈ q.machine.journal.toList, IsLong event
      . have long' := long_of_nextOutput ready spent long more
        rw [result_toPause_of_long long', result_toPause_of_long (by rw [spent]; exact long)]
      . exact absurd (result_toPause_of_spent spent long) returned
    . have same := Program.nextOutput_mono more fun q out => spent ⟨q, out⟩
      have kept : (endState (state.program.nextOutput fuel [])).machine.Ready :=
        Program.nextOutput_ready [] ready
      unfold toPause at returned ⊢
      rw [same]
      split
      . rfl
      . next gave =>
        rw [gave] at returned kept
        refine ((Report.Outlasts.refl _).bind fun _ _ => ?_) returned
        exact (Report.Outlasts.refl _).bind fun _ _ =>
          ih (Nat.le_of_succ_le_succ further) ⟨kept.start, kept.proper⟩
      . rfl
      . rfl

theorem ready_toPause {bound : Nat} {state : RunState} (ready : state.Ready)
    : (toPause fuel bound state).ReturnsOnly fun paused => paused.2.Ready := by
  induction bound generalizing state with
  | zero => exact ⟨nofun⟩
  | succ bound ih =>
    have kept : (endState (state.program.nextOutput fuel [])).machine.Ready :=
      Program.nextOutput_ready [] ready
    unfold toPause
    split
    . next ended =>
      rw [ended] at kept
      exact .bind fun _ _ => .pure ⟨kept.start, kept.proper⟩
    . next gave =>
      rw [gave] at kept
      exact .bind fun _ _ => .bind fun _ _ => ih ⟨kept.start, kept.proper⟩
    . next starved =>
      rw [starved] at kept
      exact .bind fun _ _ => .pure ⟨kept.start, kept.proper⟩
    . exact .bind fun _ _ => ⟨nofun⟩

theorem ready_answer {line : String} {state : RunState} (ready : state.Ready)
    : (state.answer line).ReturnsOnly Ready := by
  apply Report.ReturnsOnly.bind
  intro value _
  unfold Program.feed
  split
  . next fed =>
    split at fed
    . contradiction
    . cases fed
      exact .pure (ready.push [value])
  . exact ⟨nofun⟩

theorem ready_watchAll {m : Machine} (ready : m.Ready) (tag : Nat) (addrs : List Int)
    : (start.watchAll m tag addrs).Ready := by
  induction addrs generalizing m tag with
  | nil => exact ready
  | cons addr addrs ih =>
    have watched : (m.watch tag addr).Ready := ⟨ready.start, ready.proper⟩
    exact ih watched _

theorem ready_start {options : RunOptions} {inputs : List Int} {path : String}
    (proper : config.width.Proper)
    : (start options inputs config path image).ReturnsOnly Ready := by
  apply Report.ReturnsOnly.bind
  intro program loaded
  have coherent := Program.coherent_of_load proper (Action.ofExcept_eq_ok_iff.mp loaded)
  apply Report.ReturnsOnly.bind
  exact fun _ _ => .pure (ready_watchAll coherent.ready 0 _)

theorem outlasts_resume {options : RunOptions} {lines : List String}
    (proceeds : ∀ line rest, lines = line :: rest → ∀ state : RunState, state.Ready
      → (converse fuel' options rest state).Outlasts (.failure .outOfFuel)
          (converse fuel options rest state))
    {paused : Pause × RunState} (ready : paused.2.Ready)
    : (resume fuel' options lines paused).Outlasts (.failure .outOfFuel)
        (resume fuel options lines paused) := by
  obtain ⟨pause, state⟩ := paused
  unfold resume
  cases pause with
  | ended => exact .refl _
  | starved fault =>
    dsimp only
    split
    . apply (Report.Outlasts.refl _).bind
      intro _ _
      cases lines with
      | nil => exact .refl _
      | cons line rest =>
        apply (Report.Outlasts.refl _).bind
        exact fun _ answered => proceeds line rest rfl _ ((ready_answer ready).of_ok answered)
    . exact .refl _

theorem outlasts_converse (more : fuel ≤ fuel') (options : RunOptions) (lines : List String)
    {state : RunState} (ready : state.Ready)
    : (converse fuel' options lines state).Outlasts (.failure .outOfFuel)
        (converse fuel options lines state) := by
  induction lines generalizing state with
  | nil =>
    rw [converse_eq, converse_eq]
    apply (outlasts_toPause more more ready).bind
    intro paused reached
    exact outlasts_resume (by rintro _ _ ⟨⟩) ((ready_toPause ready).of_ok reached)
  | cons line lines ih =>
    rw [converse_eq, converse_eq]
    apply (outlasts_toPause more more ready).bind
    intro paused reached
    refine outlasts_resume ?_ ((ready_toPause ready).of_ok reached)
    rintro _ _ ⟨⟩ state ready
    exact ih ready

end RunState

def Trouble.IsDue (filled : Prop) (trouble : Trouble) : Prop :=
  trouble.isForeseen = true ∨ ¬ filled ∧ ∃ m, trouble = .misfit m

theorem Trouble.IsDue.mono {filled filled' : Prop} {trouble : Trouble} (h : trouble.IsDue filled)
    (weaker : filled' → filled) : trouble.IsDue filled' :=
  h.imp id (.imp (mt weaker) id)

namespace RunOptions

variable {path : String} {lines : List String}

def IsFilled (options : RunOptions) : Prop :=
  .nothing ∉ options.inputs ∧ .nothing ∉ options.watches

theorem outlasts_perform (options : RunOptions) (proper : config.width.Proper)
    (more : fuel ≤ fuel')
    : (options.perform fuel' config path image lines).Outlasts (.failure .outOfFuel)
        (options.perform fuel config path image lines) := by
  unfold perform
  split
  . apply (Report.Outlasts.refl _).bind
    intro state started
    have ready := (RunState.ready_start proper).of_ok started
    exact (RunState.outlasts_converse more options lines ready).bind fun _ _ => .refl _
  . exact Hollow.outlasts_performRun options more path lines

end RunOptions

/-! ### Listings -/

namespace DisasmOptions

def IsFilled (options : DisasmOptions) : Prop :=
  options.start ≠ .nothing ∧ options.stop ≠ some .nothing

def last (options : DisasmOptions) (size : Nat) : Int :=
  match options.stop with
  | some (.value stop) => min stop size
  | _ => size

end DisasmOptions

/-! ### Amplifiers -/

namespace AmpOptions

def listed (options : AmpOptions) : Option String :=
  options.phases.filter (!·.isEmpty)

def layout (options : AmpOptions) : Layout :=
  if options.feedback then .feedback else .chain

def IsFilled (options : AmpOptions) : Prop :=
  options.listed ≠ none → options.signal ≠ .nothing

theorem outlasts_perform (options : AmpOptions) (more : fuel ≤ fuel')
    : (options.perform fuel' config image).Outlasts (.failure .outOfFuel)
        (options.perform fuel config image) := by
  unfold perform
  extract_lets layout
  split
  . apply (Report.Outlasts.refl _).bind
    intro phases _
    split
    . next signal _ =>
      apply (outlasts_ofReport (layout.outlasts_run more signal)).bind
      exact fun _ _ => .refl _
    . exact (Hollow.outlasts_amplify layout more phases).bind fun _ _ => .refl _
  . exact (outlasts_ofReport (Amplifier.outlasts_maxSignal more layout)).bind fun _ _ => .refl _

end AmpOptions

/-! ### Nouns and verbs -/

namespace NounVerbOptions

variable {options : NounVerbOptions}

def IsFilled (options : NounVerbOptions) : Prop :=
  options.target = none → options.noun ≠ some .nothing ∧ options.verb ≠ some .nothing

theorem isFilled_iff {given : Option (Given Int)}
    : isFilled given = true ↔ given ≠ some .nothing := by
  unfold isFilled
  split
  . simp
  . simpa

def number? (given : Option (Given Int)) : Option Int :=
  given.bind Given.toOption

theorem answer_of_filled (noun : options.noun ≠ some .nothing) (verb : options.verb ≠ some .nothing)
    : options.answer fuel config image
        =
      (do
        let run := finalMemory fuel image (number? options.noun) (number? options.verb) config
        return .value (Intcode.answer (← Action.ofReport run))) := by
  obtain ⟨_, _, target⟩ := options
  unfold answer
  dsimp only at noun verb ⊢
  rw [isFilled_iff.mpr noun, isFilled_iff.mpr verb]
  rfl

theorem outlasts_answer (options : NounVerbOptions) (more : fuel ≤ fuel')
    : (options.answer fuel' config image).Outlasts (.failure .outOfFuel)
        (options.answer fuel config image) := by
  obtain ⟨noun, verb, target⟩ := options
  unfold answer
  dsimp only
  split
  . exact (outlasts_ofReport (outlasts_finalMemory more _ _)).bind fun _ _ => .refl _
  . exact Hollow.outlasts_answer more noun verb

theorem outlasts_perform (options : NounVerbOptions) (more : fuel ≤ fuel')
    : (options.perform fuel' config image).Outlasts (.failure .outOfFuel)
        (options.perform fuel config image) := by
  unfold perform
  split
  . exact (outlasts_answer options more).bind fun _ _ => .refl _
  . exact (outlasts_ofReport (outlasts_searchAnswer more _)).bind fun _ _ => .refl _

end NounVerbOptions

/-! ### Ports -/

def Trouble.IsOfPort (trouble : Trouble) : Prop :=
  ∃ m, trouble = .failure (.mishap m)

namespace SerialOptions

variable {π : Type} [Port π] {options : SerialOptions} {path : String} {inputs : List Int}
  {connect : SerialOptions → Except PortError π}

def IsFilled (options : SerialOptions) : Prop :=
  .nothing ∉ options.inputs

def serve (options : SerialOptions) (fuel : Nat) (config : Config) (path : String)
    (image inputs : List Int) (connect : SerialOptions → Except PortError π) : Action (List Int) := do
  let program ← Action.ofExcept (Program.load image inputs config (Path.basename path))
  let port ← options.openPort connect
  Action.ofReport (Console.report (Console.serve fuel) { program, port })

theorem outlasts_perform (options : SerialOptions) (more : fuel ≤ fuel')
    : (options.perform fuel' config path image connect).Outlasts (.failure .outOfFuel)
        (options.perform fuel config path image connect) := by
  unfold perform
  extract_lets name rest
  split
  . apply (Report.Outlasts.refl _).bind
    intro program _
    apply (Report.Outlasts.refl _).bind
    intro port _
    have served := Report.Outlasts.of_outcome (Console.outlasts_serve more)
      (Console.result_report _ { program, port }) (Console.result_report _ _)
    exact (outlasts_ofReport served).bind fun _ _ => .refl _
  . apply (Report.Outlasts.refl _).bind
    intro program _
    apply (Report.Outlasts.refl _).bind
    intro port _
    exact (Hollow.outlasts_serve more port program).bind fun _ _ => .refl _

end SerialOptions

end Intcode.CommandLine
