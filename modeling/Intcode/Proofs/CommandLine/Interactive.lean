import Intcode.Proofs.CommandLine.Run
import Intcode.Proofs.Program.Schedule

/-!
Inputs of a run: it makes no difference whether they are given with the call or typed in when the
program asks for them, but for the prompts. Each of these stands before one of the lines that are
read, and at a point where the program has used up all that it was given so far.
-/
namespace Intcode.Text

theorem lines_of_breaks {parts : List (List Char)} (whole : ∀ part ∈ parts, '\n' ∉ part)
    : lines (parts.flatMap (· ++ ['\n'])) = parts := by
  have split : splitAt '\n' (parts.flatMap (· ++ ['\n'])) = parts ++ [[]] := by
    induction parts with
    | nil => rfl
    | cons part parts ih =>
      rw [List.forall_mem_cons] at whole
      rw [List.flatMap_cons, List.append_assoc, List.singleton_append,
        splitAt_of_break whole.1, ih whole.2, List.cons_append]
  unfold lines
  simp only [split, List.getLast?_concat, List.dropLast_concat, if_true]

end Intcode.Text

namespace Intcode.CommandLine

open Program

def typed (vs : List Int) : String :=
  String.join (vs.map fun v => Numeral.render v ++ "\n")

theorem newline_not_mem_write (v : Int) : '\n' ∉ Numeral.write v := by
  intro mem
  have unblank := (Numeral.isMark_of_mem_write mem).isBlank
  contradiction

theorem linesOf_typed (vs : List Int) : linesOf (typed vs) = vs.map Numeral.render := by
  have chars : (typed vs).toList = (vs.map Numeral.write).flatMap (· ++ ['\n']) := by
    unfold typed
    induction vs with
    | nil => rfl
    | cons v vs ih =>
      rw [List.map_cons, String.join_cons, String.toList_append, ih, String.toList_append]
      simp [Numeral.render]
  unfold linesOf
  rw [chars, Text.lines_of_breaks]
  . rw [List.map_map]
    rfl
  . intro part mem
    obtain ⟨v, -, rfl⟩ := List.mem_map.mp mem
    exact newline_not_mem_write v

def Told (lines : List String) (vs : List Int) : Prop :=
  List.Forall₂ (fun line v => (readAnswer line).result = .ok v) lines vs

theorem told_typed {vs : List Int} (short : ∀ v ∈ vs, Numeral.Short v)
    : Told (linesOf (typed vs)) vs := by
  unfold Told
  rw [linesOf_typed, List.forall₂_map_left_iff, List.forall₂_same]
  intro v mem
  have trimmed : Text.trim Text.isBlank (Numeral.render v).toList = Numeral.write v := by
    have trimmed := Text.trim_append_of_forall (Numeral.write_ne_nil v)
      (fun _ mem => (Numeral.isMark_of_mem_write mem).isBlank) (List.forall_mem_nil _)
    rw [List.append_nil] at trimmed
    rw [Numeral.render, String.toList_ofList]
    exact trimmed
  show (Action.readNumber _).result = _
  rw [trimmed]
  unfold Action.readNumber
  rw [Numeral.read_write (short v mem)]
  rfl

def withoutPrompts (text : String) : String :=
  String.ofList (go text.toList)
where
  go : List Char → List Char
    | 'i' :: 'n' :: 'p' :: 'u' :: 't' :: ':' :: ' ' :: rest => go rest
    | c :: rest => c :: go rest
    | [] => []

theorem withoutPrompts_go_cons {c : Char} (other : c ≠ 'i') (rest : List Char)
    : withoutPrompts.go (c :: rest) = c :: withoutPrompts.go rest := by
  rw [withoutPrompts.go]
  rintro _ rfl
  contradiction

theorem withoutPrompts_go_append {front : List Char} (others : 'i' ∉ front) (rest : List Char)
    : withoutPrompts.go (front ++ rest) = front ++ withoutPrompts.go rest := by
  induction front with
  | nil => rfl
  | cons c front ih =>
    rw [List.mem_cons, not_or] at others
    rw [List.cons_append, withoutPrompts_go_cons (Ne.symm others.1), ih others.2, List.cons_append]

theorem i_not_mem_write (v : Int) : 'i' ∉ Numeral.write v := by
  intro mem
  obtain sign | ⟨d, small, digit⟩ := Numeral.isMark_of_mem_write mem
  . contradiction
  . have others : ∀ d < 10, 'i' ≠ Numeral.digitChar d := by decide
    exact others d small digit

def Said.value? : Said → Option Int
  | value v => some v
  | prompt => none

def valuesOf (said : List Said) : List Int :=
  said.filterMap Said.value?

theorem withoutPrompts_transcript (said : List Said)
    : withoutPrompts (transcript said) = transcript ((valuesOf said).map .value) := by
  have go (said : List Said) : withoutPrompts.go (transcript said).toList
      = (transcript ((valuesOf said).map .value)).toList := by
    induction said with
    | nil => rfl
    | cons first said ih =>
      rw [transcript_cons, String.toList_append]
      cases first with
      | prompt =>
        have dropped (rest : List Char)
            : withoutPrompts.go (Said.prompt.text.toList ++ rest) = withoutPrompts.go rest := rfl
        rw [dropped]
        exact ih
      | value v =>
        have text : (Said.value v).text.toList = Numeral.write v ++ ['\n'] := by
          rw [Said.text, String.toList_append, Numeral.render, String.toList_ofList]
          rfl
        have plain : 'i' ∉ Numeral.write v ++ ['\n'] := by
          rw [List.mem_append, not_or]
          exact ⟨i_not_mem_write v, by decide⟩
        rw [text, withoutPrompts_go_append plain, ih, ← text]
        show _ = (transcript (.value v :: (valuesOf said).map .value)).toList
        rw [transcript_cons, String.toList_append]
  unfold withoutPrompts
  rw [go]
  exact String.ofList_toList

inductive Concluded : Except Trouble Program → Reply → Prop where
  | ended {q : Program} : Concluded (.ok q) .ended
  | failed {e : Failure} : IsFinal e → Concluded (.error (.failure e)) (.failed e)
  | unsaid {value : Int}
    : ¬ Numeral.Short value → Concluded (.error (.failure .unwritable)) (.gave value)
  | unanswered {ip : Option Int}
    : Concluded (.error .endOfInput) (.failed (.fault { cause := .inputExhausted, ip }))

section

variable {a b q : Program} {lines lines' unread : List String} {said : List Said}
  {result : Except Trouble Program} {vs rest : List Int}

theorem Starves.ahead (starves : Starves b q) (coherent : b.Coherent)
    (free : b.obstacle? = none) (h : Ahead rest b a) : Ahead rest q a := by
  obtain ⟨ip, yields⟩ := starves.yields
  obtain ⟨⟨a', untold, ahead⟩, -⟩ := yields.ahead coherent.ready free h nofun
  have same : a' = a := Yields.eq_of_nil untold
  rw [same] at ahead
  exact ahead

theorem Starves.exhausted (starves : Starves b q) (coherent : b.Coherent)
    (free : b.obstacle? = none) (coherent' : a.Coherent) (h : Ahead [] b a)
    : ∃ a', Starves a a' := by
  obtain ⟨waiting, awaiting, -⟩ := starves.waits coherent
  have ahead := starves.ahead coherent free h
  obtain ⟨fuel, a', starved⟩ := ahead.starved waiting awaiting starves.empty
  have yields := yields_of_nextOutput (congrArg Reply.ofResult starved) nofun
  exact ⟨a', ⟨_, yields⟩, (awaiting_of_nextOutput coherent' starved).2.1⟩

theorem isTelling_of_accepted {e : Failure} (final : IsFinal e)
    (accepted : (Reply.failed e).isRefusal = false) : (Reply.failed e).isTelling = true := by
  unfold Reply.isTelling
  split
  . contradiction
  . next same =>
    cases same
    exact absurd rfl (final.fed _)
  . rw [accepted]
    rfl

theorem Converses.given (h : Converses true b lines said unread result) (told : Told lines vs)
    (coherent : b.Coherent) (free : b.obstacle? = none) (coherent' : a.Coherent)
    (ahead : Ahead vs b a) (lines' : List String)
    : ∃ last a' result', a.Yields ((valuesOf said).map .gave ++ [last]) a' ∧ Concluded result last
        ∧ Converses false a lines' ((valuesOf said).map .value) lines' result'
        ∧ exitOf result' = exitOf result := by
  -- What is still to be typed is what the other program has more of in its queue.
  induction h generalizing a vs with
  | ended yields =>
    obtain ⟨⟨a', told, -⟩, -⟩ := yields.ahead coherent.ready free ahead nofun
    exact ⟨_, a', _, told, .ended, .ended told, rfl⟩
  | failed yields final =>
    have returned : Reply.failed _ ≠ .failed .outOfFuel :=
      fun same => final.unspent (Reply.failed.inj same)
    obtain ⟨⟨a', told, -⟩, accepted⟩ := yields.ahead coherent.ready free ahead returned
    rw [List.filter_cons_of_pos (isTelling_of_accepted final accepted)] at told
    exact ⟨_, a', _, told, .failed final, .failed told final, rfl⟩
  | gave yields short _ ih =>
    obtain ⟨⟨a', gave, ahead⟩, -⟩ := yields.ahead coherent.ready free ahead nofun
    obtain ⟨last, a'', result', yields', concluded, conversed, exit⟩ :=
      ih told (yields.coherent coherent) yields.going (gave.coherent coherent') ahead
    exact ⟨last, a'', result', gave.append yields', concluded, .gave gave short conversed, exit⟩
  | unsaid yields long =>
    obtain ⟨⟨a', gave, -⟩, -⟩ := yields.ahead coherent.ready free ahead nofun
    exact ⟨_, a', _, gave, .unsaid long, .unsaid gave long, rfl⟩
  | refused declined _ => contradiction
  | unanswered _ starves =>
    cases told
    obtain ⟨a', ⟨ip, yields⟩, -⟩ := starves.exhausted coherent free coherent' ahead
    exact ⟨_, a', _, yields, .unanswered, .refused rfl yields, rfl⟩
  | misread _ _ misread =>
    cases told with
    | cons read _ =>
      rw [misread] at read
      contradiction
  | answered _ starves read _ ih =>
    cases told with
    | cons read' told =>
      cases read.symm.trans read'
      obtain ⟨waiting, -, free'⟩ := starves.waits coherent
      have ahead := starves.ahead coherent free ahead
      exact ih told (waiting.push _) free' coherent' ahead.push

theorem finishes_of_ahead {reply : Reply} {a' : Program} (yields : a.Yields [reply] a')
    (returned : reply ≠ .failed .outOfFuel) (coherent : b.Coherent) (free : b.obstacle? = none)
    (ahead : Ahead vs b a)
    (gave : ∀ value b', reply = .gave value → Numeral.Short value → b'.Coherent
      → b'.obstacle? = none → Ahead vs b' a' → Finishes true b' lines)
    (answered : ∀ line rest value b', lines = line :: rest → (readAnswer line).result = .ok value
      → b'.Coherent → b'.obstacle? = none → Ahead vs b' a
      → Finishes true { b' with machine := b'.machine.push [value] } rest)
    : Finishes true b lines := by
  obtain ⟨enough, called⟩ := yields.nextOutput
  have stops : ∀ p, a.nextOutput enough [] ≠ .error .outOfFuel p := by
    intro p spent
    have called := called enough (Nat.le_refl enough)
    rw [spent] at called
    cases called
    contradiction
  obtain ⟨fuel, stops⟩ := ahead.returns coherent free stops
  apply finishes_of_nextOutput fuel coherent stops
  . intro value b' called short
    have gave' := yields_of_nextOutput (congrArg Reply.ofResult called) Reply.noConfusion
    obtain ⟨⟨a'', told, ahead⟩, -⟩ := gave'.ahead coherent.ready free ahead Reply.noConfusion
    obtain ⟨rfl, rfl⟩ := yields.unique told
    exact gave value b' rfl short (gave'.coherent coherent) gave'.going ahead
  . intro ip b' line rest value called _ split read
    have yields' := yields_of_nextOutput (congrArg Reply.ofResult called) nofun
    have starves : Starves b b' := ⟨⟨ip, yields'⟩, (awaiting_of_nextOutput coherent called).2.1⟩
    obtain ⟨waiting, -, free'⟩ := starves.waits coherent
    exact answered line rest value b' split read waiting free' (starves.ahead coherent free ahead)

theorem finishes_of_yields {reply : Reply} {a' : Program} (yields : a.Yields [reply] a')
    (returned : reply ≠ .failed .outOfFuel)
    (gave : ∀ value, reply = .gave value → Numeral.Short value → ∀ {b lines vs}, Told lines vs
      → b.Coherent → b.obstacle? = none → Ahead vs b a' → Finishes true b lines)
    (told : Told lines vs) (coherent : b.Coherent) (free : b.obstacle? = none)
    (ahead : Ahead vs b a) : Finishes true b lines := by
  induction told generalizing b with
  | nil =>
    apply finishes_of_ahead yields returned coherent free ahead
    . intro value b' same short
      exact gave value same short .nil
    . rintro line rest value b' ⟨⟩
  | cons read told ih =>
    apply finishes_of_ahead yields returned coherent free ahead
    . intro value b' same short
      exact gave value same short (.cons read told)
    . rintro _ _ value b' ⟨⟩ read' waiting free ahead
      cases read.symm.trans read'
      exact ih (waiting.push _) free ahead.push

theorem Converses.asked (h : Converses false a lines' said unread result) (told : Told lines vs)
    (coherent : b.Coherent) (free : b.obstacle? = none) (ahead : Ahead vs b a)
    : Finishes true b lines := by
  -- The program that asks may stop before the other one, and then the rest is not needed.
  induction h generalizing b lines vs with
  | ended yields => exact finishes_of_yields yields nofun nofun told coherent free ahead
  | failed yields final =>
    have returned : Reply.failed _ ≠ .failed .outOfFuel :=
      fun same => final.unspent (Reply.failed.inj same)
    exact finishes_of_yields yields returned nofun told coherent free ahead
  | refused _ yields => exact finishes_of_yields yields nofun nofun told coherent free ahead
  | gave yields _ _ ih =>
    apply finishes_of_yields yields nofun _ told coherent free ahead
    rintro _ ⟨⟩ _
    exact ih
  | unsaid yields long =>
    apply finishes_of_yields yields nofun _ told coherent free ahead
    rintro _ ⟨⟩ short
    exact absurd short long
  | unanswered asked _ | misread asked _ _ | answered asked _ _ _ => contradiction

def Hungers (p : Program) (given : List Int) : Prop :=
  ∃ ip q, p.Yields (given.map .gave ++ [.failed (.fault { cause := .inputExhausted, ip })]) q
    ∧ q.machine.inputs = []

theorem Starves.hungers (h : Starves a q) : Hungers a [] := by
  obtain ⟨⟨ip, yields⟩, empty⟩ := h
  exact ⟨ip, q, yields, empty⟩

theorem Hungers.gave {value : Int} {given : List Int} (h : Hungers q given)
    (gave : a.Yields [.gave value] q) : Hungers a (value :: given) := by
  obtain ⟨ip, q, yields, empty⟩ := h
  exact ⟨ip, q, gave.append yields, empty⟩

theorem Converses.hungers (h : Converses true b lines said unread result) (told : Told lines vs)
    (coherent : b.Coherent) (free : b.obstacle? = none) {before after : List Said}
    (split : said = before ++ .prompt :: after) (coherent' : a.Coherent)
    (ahead : Ahead (vs.take (before.count .prompt)) b a) : Hungers a (valuesOf before) := by
  have last {first : Said} {before : List Said} (split : [first] = before ++ .prompt :: after)
      : before = [] := by
    cases List.cons_eq_append_iff.mp split with
    | inl here => exact here.1
    | inr there =>
      obtain ⟨_, -, there⟩ := there
      simp at there
  induction h generalizing a vs before with
  | ended _ | failed _ _ | unsaid _ _ => simp at split
  | refused declined _ => contradiction
  | gave yields _ _ ih =>
    obtain ⟨-, here⟩ | ⟨before, rfl, rest⟩ := List.cons_eq_append_iff.mp split
    . cases here
    . obtain ⟨⟨a', gave, ahead⟩, -⟩ := yields.ahead coherent.ready free ahead nofun
      have hungers :=
        ih told (yields.coherent coherent) yields.going rest (gave.coherent coherent') ahead
      exact hungers.gave gave
  | unanswered _ starves =>
    cases last split
    obtain ⟨a', starves'⟩ := starves.exhausted coherent free coherent' ahead
    exact starves'.hungers
  | misread _ starves _ =>
    cases last split
    obtain ⟨a', starves'⟩ := starves.exhausted coherent free coherent' ahead
    exact starves'.hungers
  | answered _ starves read _ ih =>
    obtain ⟨rfl, -⟩ | ⟨before, rfl, rest⟩ := List.cons_eq_append_iff.mp split
    . obtain ⟨a', starves'⟩ := starves.exhausted coherent free coherent' ahead
      exact starves'.hungers
    . cases told with
      | cons read' told =>
        cases read.symm.trans read'
        obtain ⟨waiting, -, free'⟩ := starves.waits coherent
        rw [List.count_cons_self, List.take_succ_cons] at ahead
        have ahead := starves.ahead coherent free ahead
        have hungers := ih told (waiting.push _) free' rest coherent' ahead.push
        exact hungers

end

namespace RunLine

def asking (word : Option Profile) (path : String) (inputs : List Int) : RunLine :=
  { general := word.toList.map .word
    path
    parts := inputs.map .input ++ [.interactive] }

def giving (word : Option Profile) (path : String) (inputs : List Int) : RunLine :=
  { general := word.toList.map .word
    path
    parts := inputs.map .input }

variable {word : Option Profile} {path : String} {xs vs : List Int} {image : List Int}
  {σ π : Type} [FileSystem σ] [Port π] {env : Environment σ π} {lines : List String} {a b : Program}

theorem fits_of_words {parts : List RunPart} (operand : IsOperand path)
    (short : ∀ part ∈ parts, part.Short)
    : Fits { general := word.toList.map .word, path, parts } where
  general := MainPart.fits_words word
  path := operand
  parts := short

theorem fits_asking (operand : IsOperand path) (short : ∀ v ∈ xs, Numeral.Short v)
    : (asking word path xs).Fits := by
  apply fits_of_words operand
  intro part mem
  cases List.mem_append.mp mem with
  | inl given =>
    obtain ⟨v, among, rfl⟩ := List.mem_map.mp given
    exact short v among
  | inr last =>
    cases List.mem_singleton.mp last
    trivial

theorem fits_giving (operand : IsOperand path) (short : ∀ v ∈ xs, Numeral.Short v)
    : (giving word path xs).Fits := by
  apply fits_of_words operand
  intro part mem
  obtain ⟨v, among, rfl⟩ := List.mem_map.mp mem
  exact short v among

theorem logFile_of_words (parts : List RunPart)
    : (settings { general := word.toList.map .word, path, parts }).logFile = none :=
  congrArg Settings.logFile (MainPart.applyAll_words word)

theorem inputs_giving : (giving word path xs).inputs = xs := by
  unfold inputs giving
  rw [List.filterMap_map]
  exact List.filterMap_some

theorem inputs_asking : (asking word path xs).inputs = xs := by
  unfold inputs asking
  rw [List.filterMap_append, List.filterMap_map]
  exact (List.append_nil _).trans List.filterMap_some

theorem load_asking : (asking word path xs).load image = (giving word path xs).load image := by
  unfold load
  rw [inputs_asking, inputs_giving]
  rfl

theorem interactive_asking : (asking word path xs).options.interactive = true := by
  simp [options_interactive, asking]

theorem interactive_giving : (giving word path xs).options.interactive = false := by
  simp [options_interactive, giving]

theorem dump_asking : (asking word path xs).options.dump = false := by
  simp [options_dump, asking]

theorem dump_giving : (giving word path xs).options.dump = false := by
  simp [options_dump, giving]

theorem unobserved_asking : ¬ (asking word path xs).IsObserved := by
  simp [IsObserved, options_trace, options_watches, asking, RunPart.watch?]

theorem unobserved_giving : ¬ (giving word path xs).IsObserved := by
  simp [IsObserved, options_trace, options_watches, giving, RunPart.watch?]

theorem load_giving (loaded : (giving word path xs).load image = .ok b) (vs : List Int)
    : ∃ a, (giving word path (xs ++ vs)).load image = .ok a ∧ Ahead vs b a := by
  unfold load at *
  rw [inputs_giving] at *
  obtain ⟨m, fresh, rfl⟩ := load_iff.mp loaded
  exact ⟨_, load_iff.mpr ⟨m, fresh, rfl⟩, ahead_of_push m xs vs _ _⟩

theorem unloaded_giving {e : Failure} (failed : (giving word path xs).load image = .error e)
    (vs : List Int) : (giving word path (xs ++ vs)).load image = .error e := by
  unfold load at *
  rw [inputs_giving] at *
  unfold Program.load at *
  cases fresh : Machine.load image { width := (giving word path xs).profile.width } with
  | ok m =>
    rw [fresh] at failed
    contradiction
  | error e' =>
    rw [fresh] at failed
    have fresh : Machine.load image { width := (giving word path (xs ++ vs)).profile.width } = _ :=
      fresh
    rw [fresh]
    exact failed

theorem comes_asking_iff {exit : Exit} {text : String} (operand : IsOperand path)
    (short : ∀ v ∈ xs, Numeral.Short v) (holds : Holds env.files path image) (input : String)
    : ((asking word path xs).call env input).Comes exit text
        ↔ (asking word path xs).Ends image (linesOf input) exit text :=
  comes_iff_of_unobserved (fits_asking operand short) holds (logFile_of_words _) unobserved_asking

theorem comes_giving_iff {exit : Exit} {text : String} (operand : IsOperand path)
    (short : ∀ v ∈ xs, Numeral.Short v) (holds : Holds env.files path image) (input : String)
    : ((giving word path xs).call env input).Comes exit text
        ↔ (giving word path xs).Ends image (linesOf input) exit text :=
  comes_iff_of_unobserved (fits_giving operand short) holds (logFile_of_words _) unobserved_giving

theorem ends_of_asking {exit : Exit} {text : String} (told : Told lines vs)
    (ends : (asking word path xs).Ends image lines exit text) (lines' : List String)
    : (giving word path (xs ++ vs)).Ends image lines' exit (withoutPrompts text) := by
  cases ends with
  | unloaded failed =>
    rw [load_asking] at failed
    exact .unloaded (unloaded_giving failed vs)
  | @conversed b said unread result loaded conversed =>
    obtain ⟨coherent, free⟩ := coherent_of_load loaded
    rw [load_asking] at loaded
    rw [interactive_asking] at conversed
    obtain ⟨a, loaded', ahead⟩ := load_giving loaded vs
    obtain ⟨coherent', -⟩ := coherent_of_load loaded'
    obtain ⟨last, a', result', -, -, given, exit⟩ :=
      conversed.given told coherent free coherent' ahead lines'
    rw [← interactive_giving] at given
    have ends := Ends.conversed loaded' given
    rw [dump_giving, textOf_undumped, closing_undumped, exitOf_map, exit, String.append_empty,
      ← withoutPrompts_transcript] at ends
    rw [dump_asking, textOf_undumped, closing_undumped, exitOf_map, String.append_empty]
    exact ends

theorem exists_ends_of_giving {exit : Exit} {text : String} (told : Told lines vs)
    {lines' : List String} (ends : (giving word path (xs ++ vs)).Ends image lines' exit text)
    : ∃ exit' text', (asking word path xs).Ends image lines exit' text' := by
  cases loaded : (asking word path xs).load image with
  | error e => exact ⟨_, _, .unloaded loaded⟩
  | ok b =>
    obtain ⟨coherent, free⟩ := coherent_of_load loaded
    have loaded' := loaded
    rw [load_asking] at loaded'
    obtain ⟨a, loaded', ahead⟩ := load_giving loaded' vs
    cases ends with
    | unloaded failed =>
      rw [loaded'] at failed
      contradiction
    | conversed loaded'' conversed =>
      cases loaded'.symm.trans loaded''
      rw [interactive_giving] at conversed
      obtain ⟨said, unread, result, asked⟩ := conversed.asked told coherent free ahead
      rw [← interactive_asking] at asked
      exact ⟨_, _, .conversed loaded asked⟩

/--
A run that asks for some of its inputs stops if the one does that is given all of them, with the
same status, and what the one puts out is what the other does, with the prompts in between. The
values are the outputs of the program up to its last reply, and that is what the conversation ends
with. There is a prompt to each line that is read, and one to the end of the input if that is met,
and none before the program has come to an input without anything left of what it was given so far.
-/
theorem asking_like_giving (operand : IsOperand path) (short : ∀ v ∈ xs ++ vs, Numeral.Short v)
    (holds : Holds env.files path image) (word : Option Profile) (input : String)
    : let asking := asking word path xs
      let giving := giving word path (xs ++ vs)
      (∀ exit text, (asking.call env (typed vs)).Comes exit text
        → (giving.call env input).Comes exit (withoutPrompts text))
      ∧ (∀ exit text, (giving.call env input).Comes exit text
        → ∃ shown, (asking.call env (typed vs)).Comes exit shown
          ∧ withoutPrompts shown = text)
      ∧ ∀ exit text b, (asking.call env (typed vs)).Comes exit text
        → asking.load image = .ok b
        → ∃ said unread result, Converses true b (linesOf (typed vs)) said unread result
          ∧ text = transcript said ∧ exit = exitOf result
          ∧ (∃ a last q, giving.load image = .ok a
            ∧ a.Yields ((valuesOf said).map .gave ++ [last]) q ∧ Concluded result last)
          ∧ (∃ read, linesOf (typed vs) = read ++ unread
            ∧ said.count .prompt = read.length + unmet result)
          ∧ ∀ before after, said = before ++ .prompt :: after
            → ∃ a,
              (RunLine.giving word path (xs ++ vs.take (before.count .prompt))).load image = .ok a
              ∧ Hungers a (valuesOf before) := by
  intro asking giving
  rw [List.forall_mem_append] at short
  have told : Told (linesOf (typed vs)) vs := told_typed short.2
  have asked (exit : Exit) (text : String)
      : (asking.call env (typed vs)).Comes exit text
        ↔ asking.Ends image (linesOf (typed vs)) exit text :=
    comes_asking_iff operand short.1 holds (typed vs)
  have given (exit : Exit) (text : String)
      : (giving.call env input).Comes exit text
        ↔ giving.Ends image (linesOf input) exit text :=
    comes_giving_iff operand (List.forall_mem_append.mpr short) holds input
  have like (exit : Exit) (text : String)
      (comes : (asking.call env (typed vs)).Comes exit text)
      : (giving.call env input).Comes exit (withoutPrompts text) :=
    (given _ _).mpr (ends_of_asking told ((asked _ _).mp comes) _)
  refine ⟨like, ?_, ?_⟩
  . intro exit text comes
    obtain ⟨exit', shown, ends⟩ := exists_ends_of_giving told ((given _ _).mp comes)
    have comes' := (asked _ _).mpr ends
    obtain ⟨rfl, rfl⟩ := comes.unique (like _ _ comes')
    exact ⟨shown, comes', rfl⟩
  . intro exit text b comes loaded
    cases (asked _ _).mp comes with
    | unloaded failed =>
      rw [loaded] at failed
      contradiction
    | @conversed b' said unread result loaded' conversed =>
      cases loaded.symm.trans loaded'
      obtain ⟨coherent, free⟩ := coherent_of_load loaded
      have loaded := load_asking.symm.trans loaded
      have conversed : Converses true b _ said unread result := interactive_asking ▸ conversed
      refine ⟨said, unread, result, conversed, ?_, ?_, ?_, conversed.prompts, ?_⟩
      . show transcript said ++ textOf (closing (RunLine.asking word path xs).options.dump result) = _
        rw [dump_asking, textOf_undumped, String.append_empty]
      . show exitOf (closing (RunLine.asking word path xs).options.dump result) = _
        rw [dump_asking, closing_undumped, exitOf_map]
      . obtain ⟨a, loaded', ahead⟩ := load_giving loaded vs
        obtain ⟨coherent', -⟩ := coherent_of_load loaded'
        obtain ⟨last, q, -, yields, concluded, -⟩ :=
          conversed.given told coherent free coherent' ahead []
        exact ⟨a, last, q, loaded', yields, concluded⟩
      . intro before after split
        obtain ⟨a, loaded', ahead⟩ := load_giving loaded (vs.take (before.count .prompt))
        obtain ⟨coherent', -⟩ := coherent_of_load loaded'
        exact ⟨a, loaded', conversed.hungers told coherent free split coherent' ahead⟩

theorem asking_like_giving_echo
    : let source := "3,7,4,7,1105,1,0".toList.map fun c => UInt8.ofNat c.toNat
      let env := Environment.ofFiles [(Path.ofString "echo.ic", source)]
      let image : List Int := [3, 7, 4, 7, 1105, 1, 0]
      let asking := asking (some .i32) "echo.ic" [5]
      let giving := giving (some .i32) "echo.ic" [5, -7]
      asking.args = ["--word", "i32", "run", "echo.ic", "-i", "5", "--interactive"]
        ∧ giving.args = ["--word", "i32", "run", "echo.ic", "-i", "5", "-i", "-7"]
        ∧ typed [-7] = "-7\n"
        ∧ IsOperand "echo.ic" ∧ (∀ v ∈ [5, -7], Numeral.Short v) ∧ Holds env.files "echo.ic" image
        ∧ (asking.call env "-7\n").Comes (.status 1) "5\ninput: -7\ninput: "
        ∧ (giving.call env).Comes (.status 1) "5\n-7\n" := by
  intro source env image asking giving
  have operand : IsOperand "echo.ic" := isOperand_of_undashed (by decide)
  have short : ∀ v ∈ [5, -7], Numeral.Short v := by decide +kernel
  have holds : Holds env.files "echo.ic" image := by
    show (Action.loadProgram _).result = _
    decide +kernel
  let m : Machine := { width := .bits 32, memory := .ofImage image, inputs := [5] }
  let p : Program := { name := Path.basename "echo.ic", machine := m }
  let next (p : Program) : Program := endState (p.nextOutput 9 [])
  let p₁ := next p
  let p₂ := next p₁
  let p₃ : Program := { p₂ with machine := p₂.machine.push [-7] }
  let p₄ := next p₃
  have yields {p : Program} {reply : Reply}
      (replied : (Reply.ofResult (p.nextOutput 9 [])).1 = reply)
      (returned : reply ≠ .failed .outOfFuel) : p.Yields [reply] (next p) :=
    yields_of_nextOutput (Prod.ext replied (Reply.snd_ofResult _)) returned
  have gave : p.Yields [.gave 5] p₁ := yields (by decide +kernel) nofun
  have starves : Starves p₁ p₂ := ⟨⟨some 0, yields (by decide +kernel) nofun⟩, by decide +kernel⟩
  have gave' : p₃.Yields [.gave (-7)] p₄ := yields (by decide +kernel) nofun
  have starves' : Starves p₄ (next p₄) :=
    ⟨⟨some 0, yields (by decide +kernel) nofun⟩, by decide +kernel⟩
  have loaded : asking.load image = .ok p := by decide +kernel
  have read : (readAnswer "-7").result = .ok (-7) := by decide +kernel
  have conversed : Converses asking.options.interactive p ["-7"]
      [.value 5, .prompt, .value (-7), .prompt] [] (.error .endOfInput) :=
    .gave gave (by decide +kernel)
      (.answered rfl starves read (.gave gave' (by decide +kernel) (.unanswered rfl starves')))
  have lines : linesOf (typed [-7]) = ["-7"] := by decide +kernel
  rw [← lines] at conversed
  have asked : (asking.call env (typed [-7])).Comes (.status 1) "5\ninput: -7\ninput: " := by
    have shown : transcript [.value 5, .prompt, .value (-7), .prompt]
          ++ textOf (closing asking.options.dump (.error .endOfInput))
        = "5\ninput: -7\ninput: " := by decide +kernel
    rw [← shown]
    exact (comes_asking_iff operand (by decide +kernel) holds _).mpr (.conversed loaded conversed)
  have short' : ∀ v ∈ [5] ++ [-7], Numeral.Short v := short
  obtain ⟨like, -⟩ := asking_like_giving operand short' holds (some .i32) ""
  have given := like (.status 1) "5\ninput: -7\ninput: " asked
  have typing : typed [-7] = "-7\n" := by decide +kernel
  have deleted : withoutPrompts "5\ninput: -7\ninput: " = "5\n-7\n" := by decide +kernel
  rw [typing] at asked
  rw [deleted] at given
  exact ⟨by decide +kernel, by decide +kernel, typing, operand, short, holds, asked, given⟩

end RunLine

end Intcode.CommandLine
