import Intcode.Proofs.CommandLine.Run

/-!
Observers of a run: options that have it traced, watched, logged or dumped. But for the dump behind
the last output, a run that is observed ends with the same status and puts out the same.
-/
namespace Intcode.CommandLine

def RunPart.isActive : RunPart → Bool
  | input _ | interactive => true
  | _ => false

def MainPart.isActive : MainPart → Bool
  | word _ => true
  | _ => false

namespace RunLine

def bare (line : RunLine) : RunLine :=
  { general := line.general.filter (·.isActive)
    path := line.path
    parts := line.parts.filter (·.isActive) }

def Halts (line : RunLine) (image : List Int) (lines : List String) (q : Program) : Prop :=
  ∃ p said unread, line.load image = .ok p
    ∧ Converses line.options.interactive p lines said unread (.ok q)

variable {σ π : Type} [FileSystem σ] [Port π] {line : RunLine} {env : Environment σ π}
  {input : String} {image : List Int} {lines : List String}

theorem Fits.bare (fits : line.Fits) : line.bare.Fits where
  general part mem := fits.general part (List.mem_filter.mp mem).1
  path := fits.path
  parts part mem := fits.parts part (List.mem_filter.mp mem).1

theorem inputs_bare (line : RunLine) : line.bare.inputs = line.inputs := by
  unfold inputs bare
  rw [List.filterMap_filter]
  congr 1
  funext part
  cases part <;> rfl

theorem profile_bare (line : RunLine) : line.bare.profile = line.profile := by
  unfold profile bare
  rw [List.filterMap_filter]
  congr 2
  funext part
  cases part <;> rfl

theorem load_bare (line : RunLine) (image : List Int) : line.bare.load image = line.load image := by
  unfold load
  rw [inputs_bare, profile_bare]
  rfl

theorem interactive_bare (line : RunLine)
    : line.bare.options.interactive = line.options.interactive := by
  simp [options_interactive, bare, RunPart.isActive]

theorem dump_bare (line : RunLine) : line.bare.options.dump = false := by
  simp [options_dump, bare, RunPart.isActive]

theorem dump_iff (line : RunLine) : line.options.dump = true ↔ .dump ∈ line.parts := by
  simp [options_dump]

theorem logFile_bare (line : RunLine) : line.bare.settings.logFile = none := by
  have kept (parts : List MainPart) (active : ∀ part ∈ parts, part.isActive = true)
      (s : Settings) (unlogged : s.logFile = none)
      : (MainPart.applyAll parts s).logFile = none := by
    induction parts generalizing s with
    | nil => exact unlogged
    | cons part parts ih =>
      rw [List.forall_mem_cons] at active
      apply ih active.2
      cases part with
      | word profile => exact unlogged
      | _ => exact absurd active.1 Bool.false_ne_true
  exact kept _ (fun part mem => (List.mem_filter.mp mem).2) {} rfl

theorem unobserved_bare (line : RunLine) : ¬ line.bare.IsObserved := by
  have unwatched : line.bare.parts.filterMap RunPart.watch? = [] := by
    rw [List.filterMap_eq_nil_iff]
    intro part mem
    have active := (List.mem_filter.mp mem).2
    cases part with
    | watch addr => exact absurd active Bool.false_ne_true
    | _ => rfl
  rw [IsObserved, options_trace, options_watches, unwatched]
  simp [bare, RunPart.isActive]

theorem Fits.bare_comes_iff {exit : Exit} {text : String} (fits : line.Fits)
    (holds : Holds env.files line.path image)
    : (line.bare.call env input).Comes exit text
        ↔ line.bare.Ends image (linesOf input) exit text :=
  comes_iff_of_unobserved fits.bare holds (logFile_bare line) (unobserved_bare line)

theorem ends_of_undumped {exit : Exit} {text : String} (undumped : line.options.dump = false)
    (ends : line.bare.Ends image lines exit text) : line.Ends image lines exit text := by
  cases ends with
  | unloaded failed =>
    rw [load_bare] at failed
    exact .unloaded failed
  | conversed loaded conversed =>
    rw [load_bare] at loaded
    rw [interactive_bare] at conversed
    rw [dump_bare, ← undumped]
    exact .conversed loaded conversed

theorem bare_ends_of_halts {q : Program} (halts : line.Halts image lines q)
    : ∃ said, line.bare.Ends image lines (.status 0) (transcript said)
        ∧ line.Ends image lines (exitOf (closing line.options.dump (.ok q)))
            (transcript said ++ textOf (closing line.options.dump (.ok q))) := by
  obtain ⟨p, said, unread, loaded, conversed⟩ := halts
  refine ⟨said, ?_, .conversed loaded conversed⟩
  rw [← load_bare] at loaded
  rw [← interactive_bare] at conversed
  have ends := Ends.conversed loaded conversed
  rw [dump_bare, textOf_undumped, String.append_empty] at ends
  exact ends

theorem ends_of_not_halts {exit : Exit} {text : String} (unhalted : ∀ q, ¬ line.Halts image lines q)
    (ends : line.bare.Ends image lines exit text) : line.Ends image lines exit text := by
  cases ends with
  | unloaded failed =>
    rw [load_bare] at failed
    exact .unloaded failed
  | @conversed p said unread result loaded conversed =>
    rw [load_bare] at loaded
    rw [interactive_bare] at conversed
    cases result with
    | ok q => exact absurd ⟨p, said, unread, loaded, conversed⟩ (unhalted q)
    | error trouble => exact .conversed loaded conversed

section

variable (fits : line.Fits) (holds : Holds env.files line.path image)
  (logs : ∀ log, line.settings.logFile = some log → LogsApart env log line.path)
  (written : ∀ fuel, ¬ (perform fuel (line.call env input)).Complains .unwritable)

include fits holds logs written

theorem closing_of_halts {q : Program} (halts : line.Halts image (linesOf input) q)
    : ∃ text, closing line.options.dump (.ok q) = .ok text := by
  cases closed : closing line.options.dump (.ok q) with
  | ok text => exact ⟨text, rfl⟩
  | error trouble =>
    obtain ⟨p, said, unread, loaded, conversed⟩ := halts
    obtain ⟨enough, bears⟩ := bears_of_converses loaded conversed
    have bears := bears enough (Nat.le_refl _)
    rw [closed, eq_unwritable_of_closing closed] at bears
    have failed : (line.action enough image (linesOf input)).result
        = .error (.failure .unwritable) := by
      obtain shows | ⟨-, failed⟩ := bears
      . exact shows.result
      . exact failed
    exact absurd (complains_of_result (fits.perform holds logs enough input) failed rfl)
      (written enough)

theorem exists_bare_ends {exit : Exit} {text : String}
    (ends : line.Ends image (linesOf input) exit text)
    : ∃ shown, line.bare.Ends image (linesOf input) exit shown := by
  cases ends with
  | unloaded failed =>
    rw [← load_bare] at failed
    exact ⟨_, .unloaded failed⟩
  | @conversed p said unread result loaded conversed =>
    cases result with
    | ok q =>
      have halts : line.Halts image (linesOf input) q := ⟨p, said, unread, loaded, conversed⟩
      obtain ⟨text, closed⟩ := closing_of_halts fits holds logs written halts
      obtain ⟨said, ends, -⟩ := bare_ends_of_halts halts
      rw [closed]
      exact ⟨_, ends⟩
    | error trouble =>
      rw [← load_bare] at loaded
      rw [← interactive_bare] at conversed
      exact ⟨_, .conversed loaded conversed⟩

end

/--
Whatever observes a run, it stops if it does so without, with the same status. It puts out the same
if it is not dumped or its program does not halt, and otherwise the dump of all the cells that there
are in the end behind it.
-/
theorem observers_are_idle (fits : line.Fits) (holds : Holds env.files line.path image)
    (logs : ∀ log, line.settings.logFile = some log → LogsApart env log line.path)
    (written : ∀ fuel, ¬ (perform fuel (line.call env input)).Complains .unwritable)
    : (∀ exit text, (line.call env input).Comes exit text
        → ∃ shown, (line.bare.call env input).Comes exit shown)
      ∧ ∀ exit shown, (line.bare.call env input).Comes exit shown
        → (.dump ∉ line.parts → (line.call env input).Comes exit shown)
          ∧ ((∀ q, ¬ line.Halts image (linesOf input) q)
            → (line.call env input).Comes exit shown)
          ∧ (.dump ∈ line.parts → ∀ q, line.Halts image (linesOf input) q
            → ∃ dump, q.machine.memory.dump 0 q.machine.memory.size 8 = .ok dump
              ∧ (line.call env input).Comes exit (shown ++ (dump ++ "\n"))) := by
  have observed (exit : Exit) (text : String)
      : (line.call env input).Comes exit text ↔ line.Ends image (linesOf input) exit text :=
    comes_iff fits holds logs fun _ => written
  refine ⟨?_, ?_⟩
  . intro exit text comes
    obtain ⟨shown, ends⟩ :=
      exists_bare_ends fits holds logs written ((observed exit text).mp comes)
    exact ⟨shown, (fits.bare_comes_iff holds).mpr ends⟩
  . intro exit shown comes
    have ends := (fits.bare_comes_iff holds).mp comes
    refine ⟨?_, ?_, ?_⟩
    . intro undumped
      rw [← dump_iff, Bool.not_eq_true] at undumped
      exact (observed exit shown).mpr (ends_of_undumped undumped ends)
    . intro unhalted
      exact (observed exit shown).mpr (ends_of_not_halts unhalted ends)
    . intro dumps q halts
      obtain ⟨text, closed⟩ := closing_of_halts fits holds logs written halts
      obtain ⟨said, bare, ends'⟩ := bare_ends_of_halts halts
      obtain ⟨rfl, rfl⟩ := comes.unique ((fits.bare_comes_iff holds).mpr bare)
      rw [closed] at ends'
      rw [(dump_iff line).mpr dumps] at closed
      obtain ⟨dump, told, rfl⟩ := exists_dump_of_dumped closed
      exact ⟨dump, told, (observed _ _).mpr ends'⟩

theorem observers_are_idle_dumped
    : let source := "104,7,3,0,99".toList.map fun c => UInt8.ofNat c.toNat
      let env := Environment.ofFiles [(Path.ofString "p.ic", source)]
      let line : RunLine :=
        { general := [.veryVerbose, .quiet, .logFile "run.log"]
          path := "p.ic"
          parts := [.trace, .interactive, .watch 0, .dump, .watch (-1)] }
      line.args = ["-vv", "-q", "--log-file", "run.log", "run", "p.ic", "--trace", "--interactive",
          "--watch", "0", "--dump", "--watch", "-1"]
        ∧ line.bare.args = ["run", "p.ic", "--interactive"]
        ∧ line.Fits ∧ Holds env.files line.path [104, 7, 3, 0, 99]
        ∧ (∀ log, line.settings.logFile = some log → LogsApart env log line.path)
        ∧ (∀ fuel, ¬ (perform fuel (line.call env "5\n")).Complains .unwritable)
        ∧ (line.bare.call env "5\n").Comes (.status 0) "7\ninput: "
        ∧ (line.call env "5\n").Comes (.status 0)
            "7\ninput: 000000         5        7        3        0       99\n" := by
  intro source env line
  have fits : line.Fits := by
    refine ⟨?_, isOperand_of_undashed (by decide), ?_⟩
    . simp only [line, List.forall_mem_cons]
      exact ⟨trivial, trivial, ⟨by decide, rfl⟩, List.forall_mem_nil _⟩
    . decide +kernel
  have holds : Holds env.files line.path [104, 7, 3, 0, 99] := by
    show (Action.loadProgram _).result = _
    decide +kernel
  have logs : ∀ log, line.settings.logFile = some log → LogsApart env log line.path := by
    rintro _ ⟨⟩
    have started : (startLog env.clock "run.log" env.files).result = .ok _ := rfl
    exact logsApart_of_place_ne holds started (by decide) (by decide)
  let m : Machine := { width := .unbounded, memory := .ofImage [104, 7, 3, 0, 99] }
  let p : Program := { name := Path.basename "p.ic", machine := m }
  let p₁ : Program := { p with machine := { m with ip := 2, steps := 1 }, state := .suspended }
  let p₂ : Program := { p₁ with state := .awaitingInput }
  let p₃ : Program := { p₂ with machine := p₂.machine.push [5] }
  let q : Program := endState (p₃.nextOutput 5 [])
  have loaded : line.load [104, 7, 3, 0, 99] = .ok p := rfl
  have lines : linesOf "5\n" = ["5"] := by decide +kernel
  have written : ∀ fuel, ¬ (perform fuel (line.call env "5\n")).Complains .unwritable :=
    not_complains_of_ok fits holds logs 9 (by decide +kernel)
  have read : (readAnswer "5").result = .ok 5 := by decide +kernel
  -- The program gives the 7, comes to an input in vain, is given the 5 and halts.
  have called : Program.Reply.ofResult (p.nextOutput 5 []) = (.gave 7, p₁) := by decide +kernel
  have called' : Program.Reply.ofResult (p₁.nextOutput 5 [])
      = (.failed (.fault { cause := .inputExhausted, ip := some 2 }), p₂) := by decide +kernel
  have called'' : Program.Reply.ofResult (p₃.nextOutput 5 []) = (.ended, q) :=
    Prod.ext (by decide +kernel) (Program.Reply.snd_ofResult _)
  have starves : Starves p₁ p₂ := ⟨⟨_, Program.yields_of_nextOutput called' nofun⟩, rfl⟩
  have conversed : Converses true p ["5"] [.value 7, .prompt] [] (.ok q) :=
    .gave (Program.yields_of_nextOutput called nofun) (by decide +kernel)
      (.answered rfl starves read (.ended (Program.yields_of_nextOutput called'' nofun)))
  rw [← lines] at conversed
  have bare : (line.bare.call env "5\n").Comes (.status 0) "7\ninput: " := by
    have shown : transcript [.value 7, .prompt] ++ textOf (closing line.bare.options.dump (.ok q))
        = "7\ninput: " := by decide +kernel
    rw [← shown]
    have loaded' : line.bare.load [104, 7, 3, 0, 99] = .ok p := (load_bare line _).trans loaded
    have conversed' : Converses line.bare.options.interactive p _ _ _ _ := conversed
    exact (fits.bare_comes_iff holds).mpr (.conversed loaded' conversed')
  have dumped : q.machine.memory.dump 0 q.machine.memory.size 8
      = .ok "000000         5        7        3        0       99" := by decide +kernel
  obtain ⟨-, idle⟩ := observers_are_idle fits holds logs written
  obtain ⟨-, -, idle⟩ := idle _ _ bare
  obtain ⟨dump, same, comes⟩ := idle (by decide) q ⟨p, _, _, loaded, conversed⟩
  cases dumped.symm.trans same
  refine ⟨by decide +kernel, by decide +kernel, fits, holds, logs, written, bare, ?_⟩
  exact comes

end RunLine

end Intcode.CommandLine
