import Intcode.CommandLine.Call
import Intcode.Proofs.CommandLine.Arguments
import Intcode.Proofs.CommandLine.Conversation
import Intcode.Proofs.CommandLine.Directory
import Intcode.Proofs.CommandLine.Trouble

namespace Intcode.CommandLine

def Outcome.Complains (o : Outcome) (failure : Failure) : Prop :=
  o.exit = .status 1 ∧ o.written.getLast? = some (.err s!"Error: {failure.message}\n")

def Outcome.IsSpent (o : Outcome) : Prop :=
  o.Complains .outOfFuel

section

variable {σ π : Type} [FileSystem σ]

/-- If there is fuel enough, the call stops with this status and has put this out, and no more. -/
def Call.Comes [Port π] (call : Call σ π) (exit : Exit) (text : String) : Prop :=
  ∃ enough, ∀ fuel ≥ enough, (perform fuel call).exit = exit
    ∧ (perform fuel call).stdout = text ∧ (perform fuel call).echoed = false
    ∧ ¬ (perform fuel call).IsSpent

theorem Call.Comes.unique [Port π] {call : Call σ π} {exit exit' : Exit} {text text' : String}
    (h : call.Comes exit text) (h' : call.Comes exit' text') : exit = exit' ∧ text = text' := by
  obtain ⟨enough, h⟩ := h
  obtain ⟨enough', h'⟩ := h'
  have h := h (max enough enough') (Nat.le_max_left _ _)
  have h' := h' (max enough enough') (Nat.le_max_right _ _)
  exact ⟨h.1.symm.trans h'.1, h.2.1.symm.trans h'.2.1⟩

def linesOf (input : String) : List String :=
  (Text.lines input.toList).map String.ofList

def Holds (files : σ) (path : String) (image : List Int) : Prop :=
  (Action.loadProgram (FileSystem.read path files)).result = .ok image

theorem Holds.readable {files : σ} {path : String} {image : List Int} (h : Holds files path image)
    : ∃ bytes, FileSystem.read path files = .ok bytes := by
  unfold Holds at h
  cases read : FileSystem.read path files with
  | error e =>
    rw [read] at h
    contradiction
  | ok bytes => exact ⟨bytes, rfl⟩

/-- The log can be written, and it is neither the program nor the standard output. -/
structure LogsApart (env : Environment σ π) (log path : String) : Prop where
  started : ∃ files, (startLog env.clock log env.files).result = .ok files
    ∧ FileSystem.read path files = FileSystem.read path env.files
    ∧ FileSystem.echoes log files = false

theorem logsApart_of_place_ne {env : Environment Directory π} {files : Directory}
    {log path : String} {image : List Int} (holds : Holds env.files path image)
    (started : (startLog env.clock log env.files).result = .ok files)
    (other : (Path.ofString log).collapse.place ≠ (Path.ofString path).place)
    (file : (Path.ofString log).collapse.place ∉ Place.outputs) : LogsApart env log path := by
  refine ⟨files, started, ?_, ?_⟩
  . obtain ⟨bytes, read⟩ := holds.readable
    exact (Directory.read_of_startLog other started read).trans read.symm
  . simpa [FileSystem.echoes] using file

theorem stdout_startLog (clock : Channel → String) (log : String) (files : σ)
    : Output.stdout (startLog clock log files).events = "" := by
  unfold startLog
  generalize [Channel.library, .commandLine] = channels
  induction channels generalizing files with
  | nil => rfl
  | cons channel channels ih =>
    unfold startLog.go
    split
    . rfl
    . exact ((Output.stdout_append [_] _).trans (congrArg _ (ih _))).trans String.append_empty

end

theorem Action.events_loadProgram (source : Except SystemError (List UInt8))
    : (loadProgram source).events = [] := by
  unfold loadProgram
  split
  . rfl
  . split
    . rfl
    . split
      . rfl
      . rfl

structure Outcome.Performs (o : Outcome) (x : Action Nat) : Prop where
  written : ∃ before, Output.stdout before = "" ∧ o.written = before ++ (conclude x).1
  exit : o.exit = (conclude x).2
  echoed : o.echoed = false

def exitOf {α : Type} : Except Trouble α → Exit
  | .ok _ => .status 0
  | .error _ => .status 1

namespace RunLine

variable {σ π : Type}

def call (line : RunLine) (env : Environment σ π) (input : String := "") : Call σ π :=
  { args := line.args, env, input }

def load (line : RunLine) (image : List Int) : Except Failure Program :=
  Program.load image line.inputs { width := line.profile.width } (Path.basename line.path)

def action (line : RunLine) (fuel : Nat) (image : List Int) (lines : List String)
    : Action Nat := do
  let config ← line.options.config (.value line.profile) line.path image
  line.options.perform fuel config line.path image lines

inductive Ends (line : RunLine) (image : List Int) (lines : List String)
    : Exit → String → Prop where
  | unloaded {e : Failure} : line.load image = .error e → Ends line image lines (.status 1) ""
  | conversed {p : Program} {said : List Said} {unread : List String}
      {result : Except Trouble Program}
    : line.load image = .ok p
      → Converses line.options.interactive p lines said unread result
      → Ends line image lines (exitOf (closing line.options.dump result))
          (transcript said ++ textOf (closing line.options.dump result))

variable {line : RunLine} {env : Environment σ π} {input : String} {image : List Int}
  {lines : List String} {fuel : Nat} [FileSystem σ] [Port π]

theorem action_eq_perform (line : RunLine) {source : Except SystemError (List UInt8)}
    (holds : (Action.loadProgram source).result = .ok image) (fuel : Nat) (lines : List String)
    (connect : SerialOptions → Except PortError π)
    : Task.perform { path := line.path, command := .run line.options } fuel
        { source, connect, lines } line.settings.profile
      = line.action fuel image lines := by
  unfold Task.perform
  show (Action.loadProgram source).bind _ = _
  unfold Report.bind
  rw [holds, Action.events_loadProgram, settings_profile]
  rfl

theorem Fits.perform (fits : line.Fits) (holds : Holds env.files line.path image)
    (logs : ∀ log, line.settings.logFile = some log → LogsApart env log line.path)
    (fuel : Nat) (input : String)
    : Outcome.Performs (CommandLine.perform fuel (line.call env input))
        (line.action fuel image (linesOf input)) := by
  have read : Invocation.read (line.call env input).args = _ := fits.read
  unfold CommandLine.perform
  rw [read]
  dsimp only
  cases log : line.settings.logFile with
  | none =>
    have acted := line.action_eq_perform holds fuel (linesOf input) env.connect
    refine ⟨⟨[], rfl, ?_⟩, ?_, rfl⟩
    . exact congrArg (fun x => (conclude x).1) acted
    . exact congrArg (fun x => (conclude x).2) acted
  | some name =>
    obtain ⟨files, started, kept, unechoed⟩ := (logs name log).started
    have holds : (Action.loadProgram (FileSystem.read line.path files)).result = .ok image :=
      kept ▸ holds
    have acted := line.action_eq_perform holds fuel (linesOf input) env.connect
    have started' : (startLog (line.call env input).env.clock name
        (line.call env input).env.files).result = .ok files := started
    simp only [started']
    refine ⟨⟨_, stdout_startLog env.clock name env.files, ?_⟩, ?_, unechoed⟩
    . exact congrArg (fun x => _ ++ (conclude x).1) acted
    . exact congrArg (fun x => (conclude x).2) acted

theorem config_shows (profile : Profile) (path : String) (options : RunOptions)
    : (options.config (.value profile) path image).Shows ""
        (.ok { width := profile.width, tracing := options.trace }) :=
  ⟨rfl, rfl⟩

theorem values?_map (values : List Int) : Given.values? (values.map .value) = some values := by
  unfold Given.values?
  induction values with
  | nil => rfl
  | cons value values ih =>
    rw [List.map_cons, List.mapM_cons, ih]
    rfl

theorem insist_loop (m : Misfit) (values before : List Int)
    : (List.mapM.loop (Action.insist m) (values.map .value) before).Shows ""
        (.ok (before.reverse ++ values)) := by
  induction values generalizing before with
  | nil =>
    rw [List.append_nil]
    exact ⟨rfl, rfl⟩
  | cons value values ih =>
    have rest := ih (value :: before)
    rw [List.reverse_cons, List.append_assoc] at rest
    exact Action.Shows.bind_silent ⟨rfl, rfl⟩ rest

def IsObserved (line : RunLine) : Prop :=
  line.options.trace = true ∨ line.options.watches ≠ []

theorem same_watchAll (m : Machine) (tag : Nat) (addrs : List Int)
    : Machine.Same (RunState.start.watchAll m tag addrs) m := by
  induction addrs generalizing m tag with
  | nil => exact .refl m
  | cons addr addrs ih =>
    have watched : Machine.Same (m.watch tag addr) m := ⟨rfl, rfl, rfl, rfl, rfl, rfl⟩
    exact (ih _ _).trans watched

theorem tracing_watchAll (m : Machine) (tag : Nat) (addrs : List Int)
    : (RunState.start.watchAll m tag addrs).tracing = m.tracing := by
  induction addrs generalizing m tag with
  | nil => rfl
  | cons addr addrs ih => exact ih _ _

theorem options_inputs (line : RunLine) : line.options.inputs = line.inputs.map .value :=
  congrArg RunOptions.inputs (RunPart.applyAll_eq line.parts {})

theorem options_interactive (line : RunLine)
    : line.options.interactive = line.parts.contains .interactive :=
  congrArg RunOptions.interactive (RunPart.applyAll_eq line.parts {})

theorem options_trace (line : RunLine) : line.options.trace = line.parts.contains .trace :=
  congrArg RunOptions.trace (RunPart.applyAll_eq line.parts {})

theorem options_dump (line : RunLine) : line.options.dump = line.parts.contains .dump :=
  congrArg RunOptions.dump (RunPart.applyAll_eq line.parts {})

theorem options_watches (line : RunLine)
    : line.options.watches = (line.parts.filterMap RunPart.watch?).map .value :=
  congrArg RunOptions.watches (RunPart.applyAll_eq line.parts {})

theorem addresses_shows (line : RunLine)
    : line.options.addresses.Shows "" (.ok (line.parts.filterMap RunPart.watch?)) := by
  unfold RunOptions.addresses List.mapM
  rw [options_watches]
  exact insist_loop .noKey _ []

theorem observed_start {p : Program} (loaded : line.load image = .ok p)
    : Program.Observed line.IsObserved
        { p with
          machine := RunState.start.watchAll { p.machine with tracing := line.options.trace } 0
            (line.parts.filterMap RunPart.watch?) }
        p := by
  obtain ⟨m, fresh, rfl⟩ := Program.load_iff.mp loaded
  obtain ⟨rfl, -⟩ := (Machine.load_iff (Profile.proper _)).mp fresh
  refine ⟨rfl, rfl, ?_, ?_, ?_⟩
  . exact (same_watchAll _ 0 _).trans ⟨rfl, rfl, rfl, rfl, rfl, rfl⟩
  . rw [tracing_watchAll]
    cases traced : line.options.trace with
    | false => exact .inl rfl
    | true => exact .inr ⟨rfl, .inl traced⟩
  . cases watched : line.parts.filterMap RunPart.watch? with
    | nil => exact .inr rfl
    | cons addr addrs =>
      refine .inl (.inr ?_)
      rw [options_watches, watched]
      exact List.cons_ne_nil _ _

theorem action_bears {p : Program} (loaded : line.load image = .ok p)
    : ∃ state : RunState, Program.Observed line.IsObserved state.program p
        ∧ ∀ fuel lines text result,
          (state.converse fuel line.options lines).Bears line.IsObserved text result
            → (line.action fuel image lines).Bears line.IsObserved text (result.map fun _ => 0) := by
  have loaded' := Program.load_traced line.options.trace (Profile.proper _) loaded
  refine ⟨{ program := _ }, observed_start loaded, ?_⟩
  intro fuel lines text result bears
  apply (config_shows line.profile line.path line.options).bears.bind_silent
  unfold RunOptions.perform
  rw [options_inputs, values?_map]
  apply Action.Bears.bind_silent (a := _) (.inl ?_)
  . cases result with
    | error trouble => exact bears.bind_error
    | ok =>
      rw [← String.append_empty (s := text)]
      exact bears.bind (.inl ⟨rfl, rfl⟩)
  . unfold RunState.start
    rw [loaded']
    refine Action.Shows.bind_silent ⟨rfl, rfl⟩ ?_
    exact (addresses_shows line).bind_silent ⟨rfl, rfl⟩

theorem outlasts_action (line : RunLine) (image : List Int) (lines : List String) {fuel' : Nat}
    (more : fuel ≤ fuel')
    : (line.action fuel' image lines).Outlasts (.failure .outOfFuel)
        (line.action fuel image lines) := by
  apply (Report.Outlasts.refl _).bind
  intro config read
  rw [(config_shows line.profile line.path line.options).result] at read
  cases read
  exact line.options.outlasts_perform (Profile.proper _) more

theorem action_unique (line : RunLine) (image : List Int) (lines : List String) {fuel' : Nat}
    (returned : (line.action fuel image lines).result ≠ .error (.failure .outOfFuel))
    (returned' : (line.action fuel' image lines).result ≠ .error (.failure .outOfFuel))
    : (line.action fuel image lines).result = (line.action fuel' image lines).result :=
  Report.Outlasts.unique (fun more => line.outlasts_action image lines more) returned returned'

theorem coherent_of_load {p : Program} (loaded : line.load image = .ok p)
    : p.Coherent ∧ p.obstacle? = none := by
  refine ⟨Program.coherent_of_load (Profile.proper _) loaded, ?_⟩
  obtain ⟨m, -, rfl⟩ := Program.load_iff.mp loaded
  rfl

theorem bears_of_converses {p : Program} {said : List Said} {unread : List String}
    {result : Except Trouble Program} (loaded : line.load image = .ok p)
    (conversed : Converses line.options.interactive p lines said unread result)
    : ∃ enough, ∀ fuel ≥ enough,
        (line.action fuel image lines).Bears line.IsObserved
          (transcript said ++ textOf (closing line.options.dump result))
          (((closing line.options.dump result).map fun _ => ()).map fun _ => 0) := by
  obtain ⟨coherent, -⟩ := coherent_of_load loaded
  obtain ⟨state, same, bears⟩ := action_bears loaded
  obtain ⟨enough, shown⟩ := conversed.shown coherent line.IsObserved rfl
  refine ⟨enough, ?_⟩
  intro fuel more
  apply bears
  rw [RunState.converse_eq]
  exact shown fuel more fuel more state same

theorem finishes_of_settles {p : Program} (loaded : line.load image = .ok p)
    (acted : Action.Settles line.IsObserved (line.action fuel image lines))
    : Finishes line.options.interactive p lines := by
  obtain ⟨coherent, -⟩ := coherent_of_load loaded
  obtain ⟨state, same, bears⟩ := action_bears loaded
  have settles : Action.Settles line.IsObserved (state.converse fuel line.options lines) := by
    apply acted.of_bears (bears fuel lines _ _ (.inl ⟨rfl, rfl⟩))
    intro trouble failed
    rw [failed]
    rfl
  exact finishes_of_converse coherent same settles

theorem start_unloaded {e : Failure} {options : RunOptions} {inputs : List Int} {config : Config}
    {path : String} (failed : Program.load image inputs config (Path.basename path) = .error e)
    : (RunState.start options inputs config path image).Shows "" (.error (.failure e)) := by
  unfold RunState.start
  rw [failed]
  exact Action.Shows.bind_error ⟨rfl, rfl⟩

theorem action_unloaded {e : Failure} (failed : line.load image = .error e)
    : ∃ trouble : Trouble, trouble.IsKnown
        ∧ ∀ fuel lines, (line.action fuel image lines).Shows "" (.error trouble) := by
  have proper := Profile.proper line.profile
  obtain ⟨e', failed'⟩ := Program.unloaded_traced line.options.trace proper failed
  refine ⟨.failure e', ?_, ?_⟩
  . obtain rfl | ⟨value, addr, bits, rfl⟩ := Program.overflow_of_load proper failed'
    . exact isKnown_unwritable
    . exact isKnown_of_ip rfl
  . intro fuel lines
    apply (config_shows line.profile line.path line.options).bind_silent
    unfold RunOptions.perform
    rw [options_inputs, values?_map]
    exact (start_unloaded failed').bind_error

theorem ending_ne_of_isKnown {trouble : Trouble} (known : trouble.IsKnown)
    : s!"Error: {trouble.message}\n" ≠ s!"Error: {Failure.outOfFuel.message}\n" := by
  intro same
  have same
      : "Error: " ++ trouble.message ++ "\n" = "Error: " ++ Failure.outOfFuel.message ++ "\n" :=
    same
  exact known.2 ((String.append_right_inj _).mp ((String.append_left_inj _).mp same))

theorem conclude_of_error {x : Action Nat} {trouble : Trouble} (failed : x.result = .error trouble)
    (foreseen : trouble.isForeseen = true)
    : conclude x = (x.events ++ [.err s!"Error: {trouble.message}\n"], .status 1) := by
  unfold conclude
  rw [failed]
  exact if_pos foreseen

theorem outcome_of_shows {x : Action Nat} {o : Outcome} {text : String}
    {result : Except Trouble Unit} (performs : o.Performs x)
    (shows : x.Shows text (result.map fun _ => 0))
    (known : ∀ trouble, result = .error trouble → trouble.IsKnown)
    : o.exit = exitOf result ∧ o.stdout = text ∧ o.echoed = false ∧ ¬ o.IsSpent := by
  obtain ⟨⟨before, silent, written⟩, exit, unechoed⟩ := performs
  cases result with
  | ok =>
    have concluded : conclude x = (x.events, .status 0) := by
      unfold conclude
      rw [shows.result]
      rfl
    rw [concluded] at written exit
    refine ⟨exit, ?_, unechoed, ?_⟩
    . rw [Outcome.stdout, written, Output.stdout_append, silent, String.empty_append]
      exact shows.text
    . intro spent
      have same : Exit.status 1 = .status 0 := spent.1.symm.trans exit
      contradiction
  | error trouble =>
    have known := known trouble rfl
    rw [conclude_of_error shows.result known.1] at written exit
    refine ⟨exit, ?_, unechoed, ?_⟩
    . rw [Outcome.stdout, written, Output.stdout_append, silent, String.empty_append,
        Output.stdout_append, shows.text]
      exact String.append_empty
    . intro spent
      have last := spent.2
      rw [written, ← List.append_assoc, List.getLast?_append] at last
      injection last with last
      injection last with last
      exact ending_ne_of_isKnown known last

theorem complains_of_result {x : Action Nat} {o : Outcome} {e : Failure} (performs : o.Performs x)
    (failed : x.result = .error (.failure e))
    (foreseen : (Trouble.failure e).isForeseen = true) : o.Complains e := by
  obtain ⟨⟨before, -, written⟩, exit, -⟩ := performs
  rw [conclude_of_error failed foreseen] at written exit
  refine ⟨exit, ?_⟩
  rw [written, ← List.append_assoc, List.getLast?_append]
  rfl

theorem exitOf_map {α β : Type} (result : Except Trouble α) (f : α → β)
    : exitOf (result.map f) = exitOf result := by
  cases result with
  | ok _ => rfl
  | error _ => rfl

def IsWritten (line : RunLine) (env : Environment σ π) (input : String) : Prop :=
  line.IsObserved → ∀ fuel, ¬ (CommandLine.perform fuel (line.call env input)).Complains .unwritable

section

variable (fits : line.Fits) (holds : Holds env.files line.path image)
  (logs : ∀ log, line.settings.logFile = some log → LogsApart env log line.path)
  (written : line.IsWritten env input)

include fits holds logs written

omit written in
theorem not_complains_of_ok (enough : Nat)
    (done : (line.action enough image (linesOf input)).result = .ok 0) (fuel : Nat)
    : ¬ (CommandLine.perform fuel (line.call env input)).Complains .unwritable := by
  have performs := fits.perform holds logs fuel input
  by_cases spent
      : (line.action fuel image (linesOf input)).result = .error (.failure .outOfFuel)
  . intro complains
    have spent := (complains_of_result performs spent rfl).2
    have long := complains.2
    rw [spent] at long
    injection long with long
    injection long with long
    exact ending_ne_of_isKnown isKnown_unwritable long.symm
  . intro complains
    have done : (line.action fuel image (linesOf input)).result = .ok 0 := by
      have returned : (line.action enough image (linesOf input)).result
          ≠ .error (.failure .outOfFuel) := done ▸ nofun
      rw [line.action_unique image (linesOf input) spent returned, done]
    have exit := performs.exit
    unfold conclude at exit
    rw [done] at exit
    have same : Exit.status 1 = .status 0 := complains.1.symm.trans exit
    contradiction

theorem comes_of_bears {text : String} (result : Except Trouble Unit)
    (known : ∀ trouble, result = .error trouble → trouble.IsKnown)
    (bears : ∃ enough, ∀ fuel ≥ enough,
      (line.action fuel image (linesOf input)).Bears line.IsObserved text
        (result.map fun _ => 0))
    : (line.call env input).Comes (exitOf result) text := by
  obtain ⟨enough, bears⟩ := bears
  refine ⟨enough, ?_⟩
  intro fuel more
  have performs := fits.perform holds logs fuel input
  obtain shows | ⟨observed, long⟩ := bears fuel more
  . exact outcome_of_shows performs shows known
  . exact absurd (complains_of_result performs long rfl) (written observed fuel)

theorem comes_of_ends {exit : Exit} {text : String}
    (ends : line.Ends image (linesOf input) exit text) : (line.call env input).Comes exit text := by
  cases ends with
  | unloaded failed =>
    obtain ⟨trouble, known, shows⟩ := action_unloaded failed
    apply comes_of_bears fits holds logs written (.error trouble)
    . rintro _ ⟨⟩
      exact known
    . exact ⟨0, fun fuel _ => (shows fuel _).bears⟩
  | @conversed p said unread result loaded conversed =>
    obtain ⟨coherent, free⟩ := coherent_of_load loaded
    rw [← exitOf_map (closing line.options.dump result) fun _ => ()]
    apply comes_of_bears fits holds logs written
    . intro trouble failed
      have failed := map_eq_error_iff.mp failed
      exact conversed.isKnown_closing coherent free failed
    . exact bears_of_converses loaded conversed

theorem exists_ends {exit : Exit} {text : String} (comes : (line.call env input).Comes exit text)
    : ∃ exit' text', line.Ends image (linesOf input) exit' text' := by
  cases loaded : line.load image with
  | error e => exact ⟨_, _, .unloaded loaded⟩
  | ok p =>
    obtain ⟨enough, comes⟩ := comes
    obtain ⟨-, -, -, unspent⟩ := comes enough (Nat.le_refl enough)
    have performs := fits.perform holds logs enough input
    have acted : Action.Settles line.IsObserved (line.action enough image (linesOf input)) :=
      ⟨fun spent => unspent (complains_of_result performs spent rfl),
        fun observed long =>
          written observed enough (complains_of_result performs long rfl)⟩
    obtain ⟨said, unread, result, conversed⟩ := finishes_of_settles loaded acted
    exact ⟨_, _, .conversed loaded conversed⟩

theorem comes_iff {exit : Exit} {text : String}
    : (line.call env input).Comes exit text ↔ line.Ends image (linesOf input) exit text := by
  constructor
  . intro comes
    obtain ⟨exit', text', ends⟩ := exists_ends fits holds logs written comes
    obtain ⟨rfl, rfl⟩ := comes.unique (comes_of_ends fits holds logs written ends)
    exact ends
  . exact comes_of_ends fits holds logs written

end

theorem comes_iff_of_unobserved {exit : Exit} {text : String} (fits : line.Fits)
    (holds : Holds env.files line.path image) (unlogged : line.settings.logFile = none)
    (unobserved : ¬ line.IsObserved)
    : (line.call env input).Comes exit text ↔ line.Ends image (linesOf input) exit text := by
  apply comes_iff fits holds
  . intro log logged
    rw [unlogged] at logged
    contradiction
  . exact fun observed => absurd observed unobserved

end RunLine

end Intcode.CommandLine
