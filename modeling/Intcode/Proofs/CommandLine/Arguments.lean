import Intcode.CommandLine.Invocation
import Intcode.Proofs.Text.Numeral
import Mathlib.Data.List.Forall2
import Mathlib.Data.List.TakeWhile

namespace Intcode.CommandLine

namespace Grammar

variable {σ : Type} {g : Grammar σ}

def Classifies (g : Grammar σ) (args : List String) (tokens : List (Token σ)) : Prop :=
  "--" ∉ args ∧ List.Forall₂ (fun text token => g.classify text = .ok token) args tokens

def Reads (g : Grammar σ) (args : List String) (change : σ → σ) : Prop :=
  ∃ tokens, g.Classifies args tokens
    ∧ ∀ isOpen draft rest,
      g.consume isOpen draft (tokens ++ rest) = g.consume isOpen (change draft) rest

theorem Classifies.append {args args' : List String} {tokens tokens' : List (Token σ)}
    (first : g.Classifies args tokens) (second : g.Classifies args' tokens')
    : g.Classifies (args ++ args') (tokens ++ tokens') := by
  refine ⟨?_, List.rel_append first.2 second.2⟩
  rw [List.mem_append, not_or]
  exact ⟨first.1, second.1⟩

theorem Classifies.cons {text : String} {token : Token σ} {args : List String}
    {tokens : List (Token σ)} (plain : text ≠ "--") (first : g.classify text = .ok token)
    (rest : g.Classifies args tokens) : g.Classifies (text :: args) (token :: tokens) := by
  refine ⟨?_, .cons first rest.2⟩
  rw [List.mem_cons, not_or]
  exact ⟨Ne.symm plain, rest.1⟩

theorem Classifies.nil : g.Classifies [] [] :=
  ⟨List.not_mem_nil, .nil⟩

theorem tokens_cons {text : String} (plain : text ≠ "--") (rest : List String)
    : g.tokens (text :: rest)
        =
      (do
        let token ← g.classify text
        return token :: (← g.tokens rest)) := by
  rw [tokens]
  exact plain

theorem Classifies.tokens {args : List String} {tokens : List (Token σ)}
    (h : g.Classifies args tokens) : g.tokens args = .ok tokens := by
  obtain ⟨plain, classified⟩ := h
  induction classified with
  | nil => rfl
  | cons first _ ih =>
    rw [List.mem_cons, not_or] at plain
    rw [tokens_cons (Ne.symm plain.1), first, ih plain.2]
    rfl

theorem Reads.nil : g.Reads [] id :=
  ⟨[], .nil, fun _ _ _ => rfl⟩

theorem Reads.append {args args' : List String} {change change' : σ → σ}
    (first : g.Reads args change) (second : g.Reads args' change')
    : g.Reads (args ++ args') (change' ∘ change) := by
  obtain ⟨tokens, classified, consumed⟩ := first
  obtain ⟨tokens', classified', consumed'⟩ := second
  refine ⟨tokens ++ tokens', classified.append classified', ?_⟩
  intro isOpen draft rest
  rw [List.append_assoc, consumed, consumed']
  rfl

theorem Reads.flatMap {α : Type} {parts : List α} {args : α → List String} {change : α → σ → σ}
    (h : ∀ part ∈ parts, g.Reads (args part) (change part))
    : g.Reads (parts.flatMap args)
        (fun draft => parts.foldl (fun draft part => change part draft) draft) := by
  induction parts with
  | nil => exact .nil
  | cons part parts ih =>
    rw [List.forall_mem_cons] at h
    exact h.1.append (ih h.2)

theorem plain_of_classifyDashed {text : String} {arg : List Char} {token : Token σ}
    (h : g.classifyDashed text arg = .ok token) : token.text = text ∧ token ≠ .separator := by
  unfold classifyDashed at h
  split at h
  . cases h
    exact ⟨rfl, nofun⟩
  . split at h
    . cases h
      exact ⟨rfl, nofun⟩
    . cases h
      exact ⟨rfl, nofun⟩
  . cases h

theorem plain_of_classify {text : String} {token : Token σ} (h : g.classify text = .ok token)
    : token.text = text ∧ token ≠ .separator := by
  unfold classify at h
  split at h
  . next rest =>
    dsimp only at h
    split at h
    . cases h
      exact ⟨rfl, nofun⟩
    . split at h
      . cases h
        exact ⟨rfl, nofun⟩
      . split at h
        . exact plain_of_classifyDashed h
        . split at h
          . cases h
            exact ⟨rfl, nofun⟩
          . exact plain_of_classifyDashed h
  . cases h
    exact ⟨rfl, nofun⟩

theorem Classifies.text {args : List String} {tokens : List (Token σ)}
    (h : g.Classifies args tokens) : tokens.map (·.text) = args := by
  obtain ⟨-, classified⟩ := h
  induction classified with
  | nil => rfl
  | cons first _ ih =>
    rw [List.map_cons, (plain_of_classify first).1, ih]

theorem Classifies.separator_not_mem {args : List String} {tokens : List (Token σ)}
    (h : g.Classifies args tokens) : .separator ∉ tokens := by
  obtain ⟨-, classified⟩ := h
  induction classified with
  | nil => exact List.not_mem_nil
  | cons first _ ih =>
    rw [List.mem_cons, not_or]
    exact ⟨Ne.symm (plain_of_classify first).2, ih⟩

theorem Classifies.flatMap {α : Type} {parts : List α} {args : α → List String}
    (h : ∀ part ∈ parts, ∃ tokens, g.Classifies (args part) tokens)
    : ∃ tokens, g.Classifies (parts.flatMap args) tokens := by
  induction parts with
  | nil => exact ⟨[], .nil⟩
  | cons part parts ih =>
    obtain ⟨⟨tokens, first⟩, others⟩ := List.forall_mem_cons.mp h
    obtain ⟨tokens', rest⟩ := ih others
    exact ⟨tokens ++ tokens', first.append rest⟩

theorem render_ne (v : Int) : Numeral.render v ≠ "--" := by
  intro same
  have written : Numeral.write v = ['-', '-'] := String.ofList_inj.mp same
  cases v with
  | ofNat n =>
    apply Numeral.dash_not_mem_writeNat n
    rw [show Numeral.writeNat n = _ from written]
    exact List.mem_cons_self
  | negSucc n =>
    apply Numeral.dash_not_mem_writeNat (n + 1)
    rw [(List.cons.inj written).2]
    exact List.mem_cons_self

theorem reads_flag {text : String} {switch : Switch σ} {name : List Char} {change : σ → σ}
    (plain : text ≠ "--")
    (classified : g.classify text = .ok (.switch text { switch, name, inline := none }))
    (effect : switch.effect = .flag fun draft => .ok (change draft)) : g.Reads [text] change := by
  refine ⟨_, .cons plain classified .nil, ?_⟩
  intro isOpen draft rest
  rw [List.singleton_append, consume, unfoldReading, bare, effect]
  rfl

theorem reads_value {text value : String} {switch : Switch σ} {name : List Char} {change : σ → σ}
    {apply : Given String → σ → Except String σ} (plain : text ≠ "--") (plain' : value ≠ "--")
    (classified : g.classify text = .ok (.switch text { switch, name, inline := none }))
    (classified' : g.classify value = .ok (.word value)) (effect : switch.effect = .value apply)
    (applied : ∀ draft, apply (.value value) draft = .ok (change draft))
    : g.Reads [text, value] change := by
  refine ⟨_, .cons plain classified (.cons plain' classified' .nil), ?_⟩
  intro isOpen draft rest
  have set : g.setValue switch value draft = .ok (change draft) := by
    unfold setValue Given.ofText
    rw [effect, if_neg plain']
    dsimp only
    rw [applied]
  rw [List.cons_append, List.singleton_append, consume, unfoldReading, bare, effect]
  show g.setValue switch value draft >>= _ = _
  rw [set]
  rfl

def namesSwitches (g : Grammar σ) : Bool :=
  g.named.all fun (name, _) =>
    match name with
    | '-' :: c :: _ => !Text.isDigit c
    | _ => false

theorem named_of_namesSwitches (named : g.namesSwitches = true) {name : List Char}
    {switch : Switch σ} (mem : (name, switch) ∈ g.named)
    : ∃ c rest, name = '-' :: c :: rest ∧ Text.isDigit c = false := by
  have := List.all_eq_true.mp named _ mem
  dsimp only at this
  split at this
  . next c rest => exact ⟨c, rest, rfl, by simpa using this⟩
  . contradiction

section

variable {c : Char} {rest : List Char}

theorem find?_of_isDigit (named : g.namesSwitches = true) (digit : Text.isDigit c = true)
    : g.find? ('-' :: c :: rest) = none := by
  unfold find?
  rw [Option.map_eq_none_iff, List.find?_eq_none]
  rintro ⟨name, switch⟩ mem
  obtain ⟨c', rest', rfl, other⟩ := named_of_namesSwitches named mem
  dsimp only
  rw [beq_iff_eq]
  rintro same
  cases same
  rw [digit] at other
  contradiction

theorem readings_of_isDigit (named : g.namesSwitches = true) (digit : Text.isDigit c = true)
    : g.readings ('-' :: c :: rest) = [] := by
  unfold readings
  split
  . next same =>
    cases same
    contradiction
  . rw [List.filterMap_eq_nil_iff]
    rintro ⟨name, switch⟩ mem
    obtain ⟨c', rest', rfl, other⟩ := named_of_namesSwitches named mem
    have differ : c ≠ c' := by
      rintro rfl
      rw [digit] at other
      contradiction
    simp [differ, Ne.symm differ]

end

theorem isNegativeNumber_of_digits {number : List Char} (nonempty : number ≠ [])
    (digits : ∀ c ∈ number, Text.isDigit c = true) : isNegativeNumber ('-' :: number) = true := by
  have unbroken : ('-' :: number).getLast? ≠ some '\n' := by
    rw [List.getLast?_cons, List.getLast?_eq_some_getLast nonempty]
    intro same
    have same : number.getLast nonempty = '\n' := Option.some_inj.mp same
    have last := digits _ (List.getLast_mem nonempty)
    rw [same] at last
    contradiction
  unfold isNegativeNumber
  simp only [if_neg unbroken, List.dropWhile_eq_nil_iff.mpr digits]
  simpa using nonempty

theorem splitEquals_of_digits {number : List Char} (digits : ∀ c ∈ number, Text.isDigit c = true)
    : splitEquals ('-' :: number) = none := by
  have dropped : ('-' :: number).dropWhile (· != '=') = [] := by
    rw [List.dropWhile_eq_nil_iff, List.forall_mem_cons]
    refine ⟨rfl, ?_⟩
    intro c mem
    rw [bne_iff_ne]
    rintro rfl
    have := digits '=' mem
    contradiction
  unfold splitEquals
  rw [dropped]

theorem classify_of_undashed {text : String} (undashed : text.toList.head? ≠ some '-')
    : g.classify text = .ok (.word text) := by
  unfold classify
  split
  . next same =>
    rw [same] at undashed
    contradiction
  . rfl

theorem classify_render (named : g.namesSwitches = true) (v : Int)
    : g.classify (Numeral.render v) = .ok (.word (Numeral.render v)) := by
  have written : (Numeral.render v).toList = Numeral.write v := String.toList_ofList
  have digits (n : Nat) : ∀ c ∈ Numeral.writeNat n, Text.isDigit c = true := by
    intro c mem
    obtain ⟨d, small, rfl⟩ := List.mem_map.mp mem
    rw [Text.isDigit, Numeral.digitValue?_digitChar d (Numeral.digits_lt n d small)]
    rfl
  cases v with
  | ofNat n =>
    apply classify_of_undashed
    rw [written]
    intro same
    have := digits n '-' (List.mem_of_head? same)
    contradiction
  | negSucc n =>
    unfold classify
    rw [written]
    have digits := digits (n + 1)
    have nonempty := Numeral.writeNat_ne_nil (n + 1)
    simp only [Numeral.write]
    generalize Numeral.writeNat (n + 1) = number at digits nonempty ⊢
    obtain ⟨c, rest, rfl⟩ := List.exists_cons_of_ne_nil nonempty
    have digit := digits c List.mem_cons_self
    rw [find?_of_isDigit named digit, splitEquals_of_digits digits]
    have number := isNegativeNumber_of_digits nonempty digits
    simp [classifyDashed, readings_of_isDigit named digit, number]

end Grammar

open Grammar

/-! ### Commands -/

theorem reads_parts {π α : Type} {g : Grammar (Draft α)} {parts : List π} {args : π → List String}
    {change : π → α → α} (h : ∀ part ∈ parts, g.Reads (args part) (Draft.modify (change part)))
    : g.Reads (parts.flatMap args)
        (Draft.modify fun o => parts.foldl (fun o part => change part o) o) := by
  have folded (parts : List π) (draft : Draft α)
      : parts.foldl (fun draft part => draft.modify (change part)) draft
        = draft.modify fun o => parts.foldl (fun o part => change part o) o := by
    induction parts generalizing draft with
    | nil => rfl
    | cons part parts ih => exact ih _
  simpa only [folded] using Reads.flatMap h

def Grammar.Expects {σ : Type} (g : Grammar σ) (text : String) : Prop :=
  text ≠ "--" ∧ g.classify text = .ok (.word text) ∧ ∃ token, mainGrammar.classify text = .ok token

theorem Grammar.expects_of_undashed {σ : Type} {g : Grammar σ} {text : String}
    (undashed : text.toList.head? ≠ some '-') : g.Expects text := by
  refine ⟨?_, classify_of_undashed undashed, _, classify_of_undashed undashed⟩
  rintro rfl
  contradiction

theorem Grammar.expects_render {σ : Type} {g : Grammar σ} (named : g.namesSwitches = true) (v : Int)
    : g.Expects (Numeral.render v) :=
  ⟨render_ne v, classify_render named v, _, classify_render rfl v⟩

def Grammar.Says {α : Type} (g : Grammar (Draft α)) (args : List String) (change : α → α) : Prop :=
  g.Reads args (Draft.modify change) ∧ ∃ tokens, mainGrammar.Classifies args tokens

theorem readTask_of_reads {α : Type} {name path : String} {switches : List (Switch α)} {start : α}
    {command : α → Command} {args : List String} {change : α → α}
    (path_expected : (commandGrammar name switches).Expects path)
    (reads : (commandGrammar name switches).Reads args (Draft.modify change))
    : readTask (commandGrammar name switches) start command (path :: args)
        = .ok ({ path, command := command (change start) }, []) := by
  obtain ⟨tokens, classified, consumed⟩ := reads
  obtain ⟨plain, expected, -⟩ := path_expected
  have placed : (commandGrammar name switches).consume true { options := start }
        (.word path :: tokens)
      = (commandGrammar name switches).consume false { path := some path, options := start }
          tokens := by
    have inseparate := classified.separator_not_mem
    rw [consume]
    cases tokens with
    | nil => rfl
    | cons token tokens =>
      cases token with
      | separator => exact absurd List.mem_cons_self inseparate
      | _ => rfl
  have rest := consumed false { path := some path, options := start } []
  rw [List.append_nil, consume] at rest
  unfold readTask Grammar.read
  rw [(classified.cons plain expected).tokens]
  show ((commandGrammar name switches).consume true _ _ >>= _) >>= _ = _
  rw [placed, rest]
  rfl

/-! ### Runs -/

def runGrammar : Grammar (Draft RunOptions) :=
  commandGrammar "run" runSwitches

inductive RunPart where
  | input (value : Int)
  | interactive
  | trace
  | dump
  | watch (addr : Int)
  deriving Repr, DecidableEq

namespace RunPart

def args : RunPart → List String
  | input value => ["-i", Numeral.render value]
  | interactive => ["--interactive"]
  | trace => ["--trace"]
  | dump => ["--dump"]
  | watch addr => ["--watch", Numeral.render addr]

def apply : RunPart → RunOptions → RunOptions
  | input value, o => { o with inputs := o.inputs ++ [.value value] }
  | interactive, o => { o with interactive := true }
  | trace, o => { o with trace := true }
  | dump, o => { o with dump := true }
  | watch addr, o => { o with watches := o.watches ++ [.value addr] }

def applyAll (parts : List RunPart) (o : RunOptions) : RunOptions :=
  parts.foldl (fun o part => part.apply o) o

def input? : RunPart → Option Int
  | input value => some value
  | _ => none

def watch? : RunPart → Option Int
  | watch addr => some addr
  | _ => none

theorem applyAll_eq (parts : List RunPart) (o : RunOptions)
    : applyAll parts o
        =
      { inputs := o.inputs ++ (parts.filterMap input?).map .value
        interactive := o.interactive || parts.contains .interactive
        trace := o.trace || parts.contains .trace
        dump := o.dump || parts.contains .dump
        watches := o.watches ++ (parts.filterMap watch?).map .value } := by
  induction parts generalizing o with
  | nil => simp [applyAll]
  | cons part parts ih =>
    show applyAll parts (part.apply o) = _
    rw [ih]
    cases part <;> simp [apply, input?, watch?, List.filterMap_cons]

def Short : RunPart → Prop
  | input value => Numeral.Short value
  | watch addr => Numeral.Short addr
  | _ => True

instance (part : RunPart) : Decidable part.Short :=
  match part with
  | input value => inferInstanceAs (Decidable (Numeral.Short value))
  | watch addr => inferInstanceAs (Decidable (Numeral.Short addr))
  | interactive | trace | dump => inferInstanceAs (Decidable True)

theorem reads (part : RunPart) (short : part.Short)
    : runGrammar.Reads part.args (Draft.modify part.apply) := by
  cases part with
  | interactive => exact reads_flag (by decide) rfl rfl
  | trace => exact reads_flag (by decide) rfl rfl
  | dump => exact reads_flag (by decide) rfl rfl
  | input value =>
    refine reads_value (by decide) (render_ne value) rfl (classify_render rfl value) rfl ?_
    intro draft
    dsimp only
    rw [Numeral.read_render short]
    rfl
  | watch addr =>
    refine reads_value (by decide) (render_ne addr) rfl (classify_render rfl addr) rfl ?_
    intro draft
    dsimp only
    rw [Numeral.read_render short]
    rfl

theorem classifies (part : RunPart) : ∃ tokens, mainGrammar.Classifies part.args tokens := by
  cases part with
  | interactive => exact ⟨_, .cons (by decide) rfl .nil⟩
  | trace => exact ⟨_, .cons (by decide) rfl .nil⟩
  | dump => exact ⟨_, .cons (by decide) rfl .nil⟩
  | input value =>
    exact ⟨_, .cons (by decide) rfl (.cons (render_ne value) (classify_render rfl value) .nil)⟩
  | watch addr =>
    exact ⟨_, .cons (by decide) rfl (.cons (render_ne addr) (classify_render rfl addr) .nil)⟩

end RunPart

inductive MainPart where
  | word (profile : Profile)
  | verbose
  | veryVerbose
  | quiet
  | logFile (name : String)
  deriving Repr, DecidableEq

namespace MainPart

def args : MainPart → List String
  | word profile => ["--word", profile.name]
  | verbose => ["-v"]
  | veryVerbose => ["-vv"]
  | quiet => ["-q"]
  | logFile name => ["--log-file", name]

def apply : MainPart → Settings → Settings
  | word profile, s => { s with profile := .value profile }
  | verbose, s => { s with verbosity := s.verbosity + 1 }
  | veryVerbose, s => { s with verbosity := s.verbosity + 2 }
  | quiet, s => { s with quiet := true }
  | logFile name, s => { s with logFile := (some name).filter (!·.isEmpty) }

def applyAll (parts : List MainPart) (s : Settings) : Settings :=
  parts.foldl (fun s part => part.apply s) s

def word? : MainPart → Option Profile
  | word profile => some profile
  | _ => none

theorem profile_applyAll (parts : List MainPart) {profile : Profile} {s : Settings}
    (start : s.profile = .value profile)
    : (applyAll parts s).profile
        = .value ((parts.filterMap word?).foldl (fun _ profile => profile) profile) := by
  induction parts generalizing s profile with
  | nil => exact start
  | cons part parts ih =>
    cases part with
    | word profile => exact ih rfl
    | _ => exact ih start

def Fits : MainPart → Prop
  | logFile name => name ≠ "--" ∧ mainGrammar.classify name = .ok (.word name)
  | _ => True

theorem reads (part : MainPart) (fits : part.Fits)
    : mainGrammar.Reads part.args (setting part.apply) := by
  cases part with
  | word profile =>
    refine reads_value (by decide) ?_ rfl ?_ rfl ?_
    . cases profile <;> decide
    . cases profile <;> rfl
    . intro draft
      cases profile <;> rfl
  | verbose => exact reads_flag (by decide) rfl rfl
  | quiet => exact reads_flag (by decide) rfl rfl
  | logFile name => exact reads_value (by decide) fits.1 rfl fits.2 rfl fun _ => rfl
  | veryVerbose =>
    refine ⟨_, .cons (by decide) rfl .nil, ?_⟩
    intro isOpen draft rest
    rw [List.singleton_append, consume]
    rfl

theorem reads_all {parts : List MainPart} (fits : ∀ part ∈ parts, part.Fits)
    : mainGrammar.Reads (parts.flatMap args) (setting (applyAll parts)) := by
  have folded (parts : List MainPart) (draft : MainDraft)
      : parts.foldl (fun draft part => setting part.apply draft) draft
        = setting (applyAll parts) draft := by
    induction parts generalizing draft with
    | nil => rfl
    | cons part parts ih => exact ih _
  have reads := Reads.flatMap fun part mem => reads part (fits part mem)
  simpa only [folded] using reads

theorem fits_words (word : Option Profile) : ∀ part ∈ word.toList.map MainPart.word, part.Fits := by
  intro part mem
  obtain ⟨profile, -, rfl⟩ := List.mem_map.mp mem
  trivial

theorem applyAll_words (word : Option Profile)
    : applyAll (word.toList.map .word) {} = { profile := .value (word.getD .bigint) } := by
  cases word with
  | none => rfl
  | some profile => rfl

end MainPart

theorem read_of_parts {α π : Type} {general : List MainPart} {name path : String}
    {switches : List (Switch α)} {start : α} {command : α → Command} {parts : List π}
    {args : π → List String} {change : π → α → α} (fits : ∀ part ∈ general, part.Fits)
    (plain : name ≠ "--") (named : mainGrammar.classify name = .ok (.word name))
    (commanded : ∀ args, readCommand? name args
      = some (readTask (commandGrammar name switches) start command args))
    (expected : (commandGrammar name switches).Expects path)
    (said : ∀ part ∈ parts, (commandGrammar name switches).Says (args part) (change part))
    : Invocation.read (general.flatMap MainPart.args ++ name :: path :: parts.flatMap args)
        =
      .ok
        { settings := MainPart.applyAll general {}
          task := some
            { path, command := command (parts.foldl (fun o part => change part o) start) } } := by
  obtain ⟨tokens, before, consumed⟩ := MainPart.reads_all fits
  obtain ⟨tokens', classified⟩ := Classifies.flatMap fun part mem => (said part mem).2
  have reads := reads_parts fun part mem => (said part mem).1
  obtain ⟨plain', -, token, first⟩ := id expected
  have behind := classified.cons plain' first
  unfold Invocation.read Grammar.read
  rw [(before.append (behind.cons plain named)).tokens]
  show (mainGrammar.consume true _ _ >>= _) >>= _ = _
  rw [consumed, consume, mainGrammar]
  dsimp only
  rw [behind.text, commanded, readTask_of_reads expected reads]
  rfl

def IsOperand (path : String) : Prop :=
  path ≠ "--" ∧ runGrammar.classify path = .ok (.word path)
    ∧ ∃ token, mainGrammar.classify path = .ok token

theorem isOperand_of_undashed {path : String} (undashed : path.toList.head? ≠ some '-')
    : IsOperand path :=
  expects_of_undashed undashed

structure RunLine where
  general : List MainPart := []
  path : String
  parts : List RunPart := []
  deriving Repr, DecidableEq

namespace RunLine

def args (line : RunLine) : List String :=
  line.general.flatMap MainPart.args ++ "run" :: line.path :: line.parts.flatMap RunPart.args

def settings (line : RunLine) : Settings :=
  MainPart.applyAll line.general {}

def options (line : RunLine) : RunOptions :=
  RunPart.applyAll line.parts {}

def inputs (line : RunLine) : List Int :=
  line.parts.filterMap RunPart.input?

def profile (line : RunLine) : Profile :=
  (line.general.filterMap MainPart.word?).foldl (fun _ profile => profile) .bigint

theorem settings_profile (line : RunLine) : line.settings.profile = .value line.profile :=
  MainPart.profile_applyAll line.general rfl

structure Fits (line : RunLine) : Prop where
  general : ∀ part ∈ line.general, part.Fits
  path : IsOperand line.path
  parts : ∀ part ∈ line.parts, part.Short

variable {line : RunLine}

theorem Fits.read (fits : line.Fits)
    : Invocation.read line.args
        =
      .ok
        { settings := line.settings
          task := some { path := line.path, command := .run line.options } } :=
  read_of_parts fits.general (by decide) rfl (fun _ => rfl) fits.path
    fun part mem => ⟨part.reads (fits.parts part mem), part.classifies⟩

end RunLine

end Intcode.CommandLine
