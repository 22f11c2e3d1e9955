import Intcode.Proofs.CommandLine.Exit
import Intcode.Proofs.Source.Format
import Intcode.Proofs.Text.Joining

namespace Intcode.CommandLine

open Amplifier (Layout maxSignal)
open Grammar (reads_flag reads_value)
open Numeral (render renderList)

def ampGrammar : Grammar (Draft AmpOptions) :=
  commandGrammar "amp" ampSwitches

def nounVerbGrammar : Grammar (Draft NounVerbOptions) :=
  commandGrammar "nounverb" nounVerbSwitches

inductive AmpPart where
  | phases (text : String)
  | feedback
  deriving Repr, DecidableEq

namespace AmpPart

def args : AmpPart → List String
  | phases text => ["--phases", text]
  | feedback => ["--feedback"]

def apply : AmpPart → AmpOptions → AmpOptions
  | phases text, o => { o with phases := some text }
  | feedback, o => { o with feedback := true }

def Fits : AmpPart → Prop
  | phases text => ampGrammar.Expects text
  | feedback => True

theorem changes (part : AmpPart) (fits : part.Fits) : ampGrammar.Says part.args part.apply := by
  cases part with
  | phases text =>
    obtain ⟨plain, expected, token, classified⟩ := fits
    exact ⟨reads_value (by decide) plain rfl expected rfl fun _ => rfl, _,
      .cons (by decide) rfl (.cons plain classified .nil)⟩
  | feedback => exact ⟨reads_flag (by decide) rfl rfl, _, .cons (by decide) rfl .nil⟩

end AmpPart

inductive NounVerbPart where
  | noun (text : String) (value : Int)
  | verb (text : String) (value : Int)
  | target (text : String) (value : Int)
  deriving Repr, DecidableEq

def Spells (text : String) (v : Int) : Prop :=
  nounVerbGrammar.Expects text ∧ Numeral.read text.toList = .ok v

theorem Spells.short {text : String} {v : Int} (spells : Spells text v) : Numeral.Short v :=
  Numeral.short_of_literal (Numeral.readSigned_eq_ok_iff.mp spells.2)

theorem spells_render {v : Int} (short : Numeral.Short v) : Spells (Numeral.render v) v :=
  ⟨Grammar.expects_render rfl v, Numeral.read_render short⟩

namespace NounVerbPart

def args : NounVerbPart → List String
  | noun text _ => ["--noun", text]
  | verb text _ => ["--verb", text]
  | target text _ => ["--target", text]

def apply : NounVerbPart → NounVerbOptions → NounVerbOptions
  | noun _ value, o => { o with noun := some (.value value) }
  | verb _ value, o => { o with verb := some (.value value) }
  | target _ value, o => { o with target := some (.value value) }

def Fits : NounVerbPart → Prop
  | noun text value | verb text value | target text value => Spells text value

theorem changes (part : NounVerbPart) (fits : part.Fits)
    : nounVerbGrammar.Says part.args part.apply := by
  cases part with
  | noun text value | verb text value | target text value =>
    obtain ⟨⟨plain, expected, token, classified⟩, read⟩ := fits
    refine ⟨reads_value (by decide) plain rfl expected rfl ?_, _,
      .cons (by decide) rfl (.cons plain classified .nil)⟩
    intro draft
    dsimp only
    rw [read]
    rfl

end NounVerbPart

variable {σ π : Type}

def callOf (env : Environment σ π) (input : String) (word : Option Profile)
    (command path : String) (options : List String) : Call σ π :=
  { args := (word.toList.map MainPart.word).flatMap MainPart.args ++ command :: path :: options
    env, input }

variable {env : Environment σ π} {input : String} {word : Option Profile} {profile : Profile}
  {path text : String}

theorem read_amp {parts : List AmpPart} (expected : ampGrammar.Expects path)
    (fits : ∀ part ∈ parts, part.Fits)
    : let call := callOf env input word "amp" path (parts.flatMap AmpPart.args)
      Invocation.read call.args
        =
      .ok
        { settings := { profile := .value (word.getD .bigint) }
          task := some
            { path, command := .amp (parts.foldl (fun o part => part.apply o) {}) } } := by
  rw [← MainPart.applyAll_words]
  exact read_of_parts (MainPart.fits_words word) (by decide) rfl (fun _ => rfl) expected
    fun part mem => part.changes (fits part mem)

theorem read_nounVerb {parts : List NounVerbPart} (expected : nounVerbGrammar.Expects path)
    (fits : ∀ part ∈ parts, part.Fits)
    : let call := callOf env input word "nounverb" path (parts.flatMap NounVerbPart.args)
      Invocation.read call.args
        =
      .ok
        { settings := { profile := .value (word.getD .bigint) }
          task := some
            { path, command := .nounVerb (parts.foldl (fun o part => part.apply o) {}) } } := by
  rw [← MainPart.applyAll_words]
  exact read_of_parts (MainPart.fits_words word) (by decide) rfl (fun _ => rfl) expected
    fun part mem => part.changes (fits part mem)

def lineOf (words : List String) : String :=
  " ".intercalate words ++ "\n"

def lineShowing (numbers : List Int) (words : List String) : Option String :=
  if ∀ v ∈ numbers, Numeral.Short v then some (lineOf words) else none

theorem lineShowing_eq_some_iff {numbers : List Int} {words : List String}
    : lineShowing numbers words = some text
        ↔ (∀ v ∈ numbers, Numeral.Short v) ∧ lineOf words = text := by
  unfold lineShowing
  rw [Option.ite_none_right_eq_some, Option.some_inj]

theorem lineOf_inj {words words' : List String} (length : words.length = words'.length)
    (without : ∀ word ∈ words', ' ' ∉ word.toList) (same : lineOf words = lineOf words')
    : words = words' := by
  have joined := congrArg String.toList ((String.append_left_inj _).mp same)
  rw [String.toList_intercalate, String.toList_intercalate] at joined
  have parts := Text.eq_of_intercalate (by simpa using length) (List.forall_mem_map.mpr without)
    joined
  exact List.map_injective_iff.mpr (fun _ _ => String.toList_inj.mp) parts

theorem blank_not_mem_render (v : Int) : ' ' ∉ (render v).toList := by
  unfold render
  rw [String.toList_ofList]
  exact Numeral.not_mem_write (by decide) (by decide) v

theorem blank_not_mem_renderList (vs : List Int) : ' ' ∉ (renderList "," vs).toList :=
  Numeral.not_mem_renderList (by decide) fun v _ => Numeral.not_mem_write (by decide) (by decide) v

theorem renderList_ne_empty {vs : List Int} (nonempty : vs ≠ []) : renderList "," vs ≠ "" := by
  intro empty
  have fields := Source.splitOn_renderList nonempty
  obtain ⟨v, rest, rfl⟩ := List.exists_cons_of_ne_nil nonempty
  rw [empty, List.map_cons] at fields
  exact Numeral.write_ne_nil v (List.cons.inj fields).1.symm

namespace Action

variable {α β : Type} {x : Action α} {f : α → Action β} {b : β}

theorem shows_bind_iff (silent : Output.stdout x.events = "")
    : (x >>= f).Shows text (.ok b) ↔ ∃ a, x.result = .ok a ∧ (f a).Shows text (.ok b) := by
  constructor
  . intro shows
    obtain ⟨a, done, rest⟩ := Report.bind_eq_ok.mp shows.result
    have first : x.Shows "" (.ok a) := ⟨silent, done⟩
    have whole := first.bind_silent ⟨rfl, rest⟩
    exact ⟨a, done, whole.text.symm.trans shows.text, rest⟩
  . rintro ⟨a, done, shows⟩
    exact Shows.bind_silent ⟨silent, done⟩ shows

theorem Shows.bind_iff {a : α} (first : x.Shows "" (.ok a))
    : (x >>= f).Shows text (.ok b) ↔ (f a).Shows text (.ok b) := by
  rw [shows_bind_iff first.text, first.result]
  simp

theorem shows_ofReport_bind_iff {y : Report Event Failure α} {say : α → Option String}
    (told : ∀ a, (f a).Shows text (.ok b) ↔ say a = some text)
    : (ofReport y >>= f).Shows text (.ok b) ↔ ∃ a, y.result = .ok a ∧ say a = some text := by
  rw [shows_bind_iff (Output.stdout_ofEvents y.events)]
  simp only [ofReport_eq_ok_iff, told]

theorem shows_printShowing_iff {numbers : List Int} {words : List String} {line : String}
    (same : lineOf words = line ++ "\n")
    : (do printShowing numbers line; return b : Action β).Shows text (.ok b)
        ↔ lineShowing numbers words = some text := by
  unfold lineShowing
  rw [same]
  split
  . next short =>
    have silent : (pure b : Action β).Shows "" (.ok b) := ⟨rfl, rfl⟩
    have shows
        : (do printShowing numbers line; return b : Action β).Shows (line ++ "\n") (.ok b) := by
      rw [← String.append_empty (s := line ++ "\n")]
      exact (shows_printShowing short line).bind silent
    rw [Option.some_inj]
    exact ⟨fun told => shows.text.symm.trans told.text, fun same => same ▸ shows⟩
  . next long =>
    have unsaid
        : (do printShowing numbers line; return b : Action β).Shows ""
            (.error (.failure .unwritable)) :=
      (shows_of_long long line).bind_error
    constructor
    . intro told
      cases unsaid.result.symm.trans told.result
    . nofun

end Action

variable {α : Type} [FileSystem σ] [Port π] {task : Task} {given : Given Profile}
  {compute : Nat → List Int → Report Event Failure α} {say : α → Option String}

/-- A task has one thing to compute of its program, and what it says of it is all it puts out. -/
structure Task.Answers (π : Type) [Port π] (task : Task) (given : Given Profile)
    (compute : Nat → List Int → Report Event Failure α) (say : α → Option String) : Prop where
  shows (fuel : Nat) (scene : Surroundings π) (text : String)
    : (task.perform fuel scene given).Shows text (.ok 0)
        ↔ ∃ image a, scene.Holds image ∧ (compute fuel image).result = .ok a ∧ say a = some text
  outlasts {fuel fuel' : Nat} (image : List Int)
    : fuel ≤ fuel' → (compute fuel' image).Outlasts .outOfFuel (compute fuel image)

theorem Task.answers_of_shows {act : Nat → List Int → Action Nat}
    (acts : ∀ fuel (scene : Surroundings π),
      task.perform fuel scene given = Action.loadProgram scene.source >>= act fuel)
    (shows : ∀ fuel image text, (act fuel image).Shows text (.ok 0)
      ↔ ∃ a, (compute fuel image).result = .ok a ∧ say a = some text)
    (outlasts : ∀ {fuel fuel'} image,
      fuel ≤ fuel' → (compute fuel' image).Outlasts .outOfFuel (compute fuel image))
    : task.Answers π given compute say := by
  refine ⟨?_, outlasts⟩
  intro fuel scene text
  have silent : Output.stdout (Action.loadProgram scene.source).events = "" := by
    rw [Action.events_loadProgram]
    rfl
  rw [acts, Action.shows_bind_iff silent]
  simp only [shows, ← exists_and_left]
  rfl

theorem perform_of_unlogged {call : Call σ π} {settings : Settings}
    (read : Invocation.read call.args = .ok { settings, task := some task })
    (unlogged : settings.logFile = none) (fuel : Nat)
    : (perform fuel call).Performs
        (task.perform fuel (surroundings task call.env call.input) settings.profile) := by
  unfold perform
  rw [read]
  dsimp only
  rw [unlogged]
  exact ⟨⟨[], rfl, (List.nil_append _).symm⟩, rfl, rfl⟩

theorem Task.Answers.comes_iff {call : Call σ π} (answers : task.Answers π given compute say)
    (read : Invocation.read call.args
      = .ok { settings := { profile := given }, task := some task })
    : call.Comes (.status 0) text
        ↔ ∃ image a fuel, Holds call.env.files task.path image
          ∧ (compute fuel image).result = .ok a ∧ say a = some text := by
  constructor
  . rintro ⟨enough, comes⟩
    obtain ⟨stops, told, -⟩ := comes enough (Nat.le_refl enough)
    obtain ⟨⟨before, silent, written⟩, exit, -⟩ := perform_of_unlogged read rfl enough
    obtain done | ⟨⟨⟩, -⟩ := result_of_status exit stops
    unfold conclude at written
    rw [done] at written
    rw [Outcome.stdout, written, Output.stdout_append, silent, String.empty_append] at told
    obtain ⟨image, a, holds, computed, said⟩ := (answers.shows _ _ _).mp ⟨told, done⟩
    exact ⟨image, a, enough, holds, computed, said⟩
  . rintro ⟨image, a, enough, holds, computed, said⟩
    refine ⟨enough, ?_⟩
    intro fuel more
    have returned : (compute enough image).result ≠ .error .outOfFuel := by
      intro spent
      cases computed.symm.trans spent
    have computed := (answers.outlasts image more returned).trans computed
    let scene := surroundings task call.env call.input
    have shows := (answers.shows fuel scene text).mpr ⟨image, a, holds, computed, said⟩
    have shows : Action.Shows _ text (Except.map (fun _ => 0) (.ok ())) := shows
    apply RunLine.outcome_of_shows (perform_of_unlogged read rfl fuel) shows
    rintro trouble ⟨⟩

theorem answers_tuned {options : AmpOptions} {layout : Layout} (unlisted : options.listed = none)
    (laid : options.layout = layout)
    : Task.Answers π { path, command := .amp options } (.value profile)
        (fun fuel image => maxSignal fuel image layout layout.phases { width := profile.width })
        fun best =>
          lineShowing (best.1 :: best.2) [render best.1, renderList "," best.2] := by
  subst laid
  apply Task.answers_of_shows
  . exact fun _ _ => rfl
  . intro fuel image text
    show (options.perform fuel { width := profile.width } image).Shows text (.ok 0) ↔ _
    change options.phases.filter _ = _ at unlisted
    unfold AmpOptions.perform
    rw [unlisted]
    apply Action.shows_ofReport_bind_iff
    exact fun _ => (Action.Shows.bind_iff ⟨rfl, rfl⟩).trans (Action.shows_printShowing_iff rfl)
  . exact fun image more => Amplifier.outlasts_maxSignal more options.layout

theorem readPhases_go_shows {phases : List Int} (short : ∀ v ∈ phases, Numeral.Short v)
    : (readPhases.go (phases.map Numeral.write)).Shows "" (.ok phases) := by
  induction phases with
  | nil => exact ⟨rfl, rfl⟩
  | cons v rest ih =>
    obtain ⟨first, others⟩ := List.forall_mem_cons.mp short
    have read : Action.readNumber (Numeral.write v) = pure v := by
      unfold Action.readNumber
      rw [Numeral.read_write first]
    rw [List.map_cons, readPhases.go, read]
    exact Action.Shows.bind_silent ⟨rfl, rfl⟩ ((ih others).bind_silent ⟨rfl, rfl⟩)

theorem readPhases_shows {phases : List Int} (nonempty : phases ≠ [])
    (short : ∀ v ∈ phases, Numeral.Short v)
    : (readPhases (renderList "," phases)).Shows "" (.ok phases) := by
  have unblank : (renderList "," phases).toList.filter (· != ' ')
      = (renderList "," phases).toList := by
    rw [List.filter_eq_self]
    intro c mem
    rw [bne_iff_ne]
    rintro rfl
    exact blank_not_mem_renderList phases mem
  have filled : (phases.map Numeral.write).filter (!·.isEmpty) = phases.map Numeral.write := by
    rw [List.filter_eq_self, List.forall_mem_map]
    intro v _
    simpa using Numeral.write_ne_nil v
  have fields : Text.splitAt ',' (renderList "," phases).toList = phases.map Numeral.write := by
    rw [Text.splitAt_eq]
    exact Source.splitOn_renderList nonempty
  unfold readPhases
  rw [unblank, fields]
  show (readPhases.go ((phases.map Numeral.write).filter (!·.isEmpty))).Shows "" (.ok phases)
  rw [filled]
  exact readPhases_go_shows short

theorem answers_listed {options : AmpOptions} {layout : Layout} {list : String}
    {phases : List Int} {signal : Int} (listed : options.listed = some list)
    (laid : options.layout = layout) (read : (readPhases list).Shows "" (.ok phases))
    (given : options.signal = .value signal)
    : Task.Answers π { path, command := .amp options } (.value profile)
        (fun fuel image => layout.run fuel image phases signal { width := profile.width })
        fun out => lineShowing out.toList [Event.renderSignal out] := by
  subst laid
  apply Task.answers_of_shows
  . exact fun _ _ => rfl
  . intro fuel image text
    show (options.perform fuel { width := profile.width } image).Shows text (.ok 0) ↔ _
    change options.phases.filter _ = _ at listed
    unfold AmpOptions.perform
    rw [listed, given]
    exact read.bind_iff.trans
      (Action.shows_ofReport_bind_iff fun _ => Action.shows_printShowing_iff rfl)
  . exact fun image more => options.layout.outlasts_run more signal

theorem answers_found {options : NounVerbOptions} {target : Int}
    (targeted : options.target = some (.value target))
    : Task.Answers π { path, command := .nounVerb options } (.value profile)
        (fun fuel image => searchAnswer fuel image (· = target) defaultCandidates
          { width := profile.width })
        (Option.bind · fun (noun, verb) => lineShowing [noun, verb, 100 * noun + verb]
          [render noun, render verb, render (100 * noun + verb)]) := by
  apply Task.answers_of_shows
  . exact fun _ _ => rfl
  . intro fuel image text
    show (options.perform fuel { width := profile.width } image).Shows text (.ok 0) ↔ _
    unfold NounVerbOptions.perform
    rw [targeted]
    apply Action.shows_ofReport_bind_iff
    intro found
    cases found with
    | none => exact iff_of_false (fun shows => nomatch shows.result) nofun
    | some pair =>
      obtain ⟨noun, verb⟩ := pair
      rw [Option.bind_some]
      exact Action.shows_printShowing_iff rfl
  . exact fun image more => outlasts_searchAnswer more defaultCandidates

theorem answers_answered {options : NounVerbOptions} (untargeted : options.target = none)
    (noun : options.noun ≠ some .nothing) (verb : options.verb ≠ some .nothing)
    : Task.Answers π { path, command := .nounVerb options } (.value profile)
        (fun fuel image => finalMemory fuel image (NounVerbOptions.number? options.noun)
          (NounVerbOptions.number? options.verb) { width := profile.width })
        fun cells => lineShowing [answer cells] [render (answer cells)] := by
  apply Task.answers_of_shows
  . exact fun _ _ => rfl
  . intro fuel image text
    show (options.perform fuel { width := profile.width } image).Shows text (.ok 0) ↔ _
    unfold NounVerbOptions.perform
    rw [untargeted, NounVerbOptions.answer_of_filled noun verb]
    rw [Report.bind_assoc]
    exact Action.shows_ofReport_bind_iff fun _ => Action.shows_printShowing_iff rfl
  . exact fun image more => outlasts_finalMemory more _ _

end Intcode.CommandLine
