import Intcode.Text.Digit
import Intcode.Text.Quoted

/-!
Argument lists. A grammar says which options there are and what becomes of the one operand; reading
a list by it fills a draft with what the options and the operand say. Long options may be cut short
as long as they are told apart, short ones may stand together in one argument.
-/
namespace Intcode.CommandLine

inductive Interruption where
  | usage (program message : String)
  | help (program : String)
  | version
  deriving Repr, DecidableEq

/--
What an option that takes a value was given. If the separator `--` is in the place of the value, the
option counts as given, but given nothing.
-/
inductive Given (α : Type) where
  | nothing
  | value (a : α)
  deriving Repr, DecidableEq

namespace Given

def map (f : α → β) : Given α → Given β
  | nothing => nothing
  | value a => value (f a)

def toOption : Given α → Option α
  | nothing => none
  | value a => some a

def values? (givens : List (Given α)) : Option (List α) :=
  givens.mapM toOption

def ofText (text : String) : Given String :=
  if text = "--" then nothing else value text

end Given

inductive Effect (σ : Type) where
  | flag (apply : σ → Except Interruption σ)
  | value (apply : Given String → σ → Except String σ)

structure Switch (σ : Type) where
  names : List String
  effect : Effect σ

def Switch.label (switch : Switch σ) : String :=
  "/".intercalate switch.names

inductive Operand (σ : Type) where
  | one (apply : String → σ → σ)
  | withRest (apply : String → List String → σ → Except Interruption σ)

structure Grammar (σ : Type) where
  program : String
  switches : List (Switch σ)
  operand : Operand σ
  missing : σ → List String

structure Reading (σ : Type) where
  switch : Switch σ
  name : List Char
  inline : Option (List Char)

inductive Token (σ : Type) where
  | separator
  | word (text : String)
  | switch (text : String) (reading : Reading σ)
  | unknown (text : String)

def Token.text : Token σ → String
  | separator => "--"
  | word text => text
  | switch text _ => text
  | unknown text => text

namespace Grammar

variable {σ : Type}

def error (g : Grammar σ) (message : String) : Except Interruption α :=
  .error (.usage g.program message)

def switchError (g : Grammar σ) (switch : Switch σ) (message : String) : Except Interruption α :=
  g.error s!"argument {switch.label}: {message}"

def named (g : Grammar σ) : List (List Char × Switch σ) :=
  g.switches.flatMap fun switch => switch.names.map fun name => (name.toList, switch)

def find? (g : Grammar σ) (name : List Char) : Option (Switch σ) :=
  (g.named.find? fun (n, _) => n == name).map (·.2)

def splitEquals (arg : List Char) : Option (List Char × List Char) :=
  match arg.dropWhile (· != '=') with
  | [] => none
  | _ :: after => some (arg.takeWhile (· != '='), after)

def readings (g : Grammar σ) (arg : List Char) : List (Reading σ) :=
  match arg with
  | '-' :: '-' :: _ =>
    let (stem, inline) : List Char × Option (List Char) :=
      match splitEquals arg with
      | some (stem, after) => (stem, some after)
      | none => (arg, none)
    g.named.filterMap fun (name, switch) =>
      if stem.isPrefixOf name then some { switch, name, inline } else none
  | _ =>
    g.named.filterMap fun (name, switch) =>
      if name == arg.take 2 then
        some { switch, name, inline := some (arg.drop 2) }
      else if arg.isPrefixOf name then
        some { switch, name, inline := none }
      else
        none

def isNegativeNumber (arg : List Char) : Bool :=
  let body := if arg.getLast? = some '\n' then arg.dropLast else arg
  match body with
  | '-' :: number =>
    match number.dropWhile Text.isDigit with
    | [] => !number.isEmpty
    | '.' :: fraction => !fraction.isEmpty && fraction.all Text.isDigit
    | _ => false
  | _ => false

def classifyDashed (g : Grammar σ) (text : String) (arg : List Char)
    : Except Interruption (Token σ) :=
  match g.readings arg with
  | [reading] => .ok (.switch text reading)
  | [] =>
    if isNegativeNumber arg || arg.contains ' ' then .ok (.word text) else .ok (.unknown text)
  | several =>
    let matched := ", ".intercalate (several.map fun reading => String.ofList reading.name)
    g.error s!"ambiguous option: {text} could match {matched}"

def classify (g : Grammar σ) (text : String) : Except Interruption (Token σ) :=
  match text.toList with
  | '-' :: rest =>
    let arg := '-' :: rest
    match g.find? arg with
    | some switch => .ok (.switch text { switch, name := arg, inline := none })
    | none =>
      if rest.isEmpty then
        .ok (.word text)
      else
        match splitEquals arg with
        | none => g.classifyDashed text arg
        | some (name, after) =>
          match g.find? name with
          | some switch =>
            .ok (.switch text { switch, name, inline := some after })
          | none => g.classifyDashed text arg
  | _ => .ok (.word text)

def tokens (g : Grammar σ) : List String → Except Interruption (List (Token σ))
  | [] => .ok []
  | "--" :: rest => .ok (.separator :: rest.map .word)
  | text :: rest => do
    let token ← g.classify text
    return token :: (← g.tokens rest)

inductive Tail (σ : Type) where
  | nothing
  | given (switch : Switch σ) (value : String)
  | awaited (switch : Switch σ)

def bare (switch : Switch σ) : List (σ → Except Interruption σ) × Tail σ :=
  match switch.effect with
  | .flag apply => ([apply], .nothing)
  | .value _ => ([], .awaited switch)

def unfold (g : Grammar σ) (switch : Switch σ) (short : Bool)
    : (text : List Char) → Except Interruption (List (σ → Except Interruption σ) × Tail σ)
  | [] =>
    match switch.effect with
    | .value _ => .ok ([], .given switch "")
    | .flag _ => ignored []
  | c :: rest =>
    match switch.effect with
    | .value _ => .ok ([], .given switch (String.ofList (c :: rest)))
    | .flag apply =>
      match g.find? ['-', c], short with
      | some next, true =>
        let more := if rest.isEmpty then .ok (bare next) else g.unfold next true rest
        more.map fun (flags, tail) => (apply :: flags, tail)
      | _, _ => ignored (c :: rest)
where
  ignored (text : List Char)
      : Except Interruption (List (σ → Except Interruption σ) × Tail σ) :=
    g.switchError switch s!"ignored explicit argument {Text.quote (String.ofList text)}"

def unfoldReading (g : Grammar σ) (reading : Reading σ)
    : Except Interruption (List (σ → Except Interruption σ) × Tail σ) :=
  match reading.inline with
  | some text => g.unfold reading.switch (reading.name.getD 1 '-' != '-') text
  | none => .ok (bare reading.switch)

def setFlags (draft : σ) : List (σ → Except Interruption σ) → Except Interruption σ
  | [] => .ok draft
  | apply :: rest => do setFlags (← apply draft) rest

def setValue (g : Grammar σ) (switch : Switch σ) (value : String) (draft : σ)
    : Except Interruption σ :=
  match switch.effect with
  | .flag apply => apply draft
  | .value apply =>
    match apply (.ofText value) draft with
    | .ok draft => .ok draft
    | .error message => g.switchError switch message

def consume (g : Grammar σ) : (isOpen : Bool) → (draft : σ) → List (Token σ)
    → Except Interruption (σ × List String)
  | _, draft, [] => .ok (draft, [])
  | isOpen, draft, .unknown text :: rest => do
    let (draft, strays) ← g.consume isOpen draft rest
    return (draft, text :: strays)
  | isOpen, draft, .switch _ reading :: rest => do
    let (flags, tail) ← g.unfoldReading reading
    match tail with
    | .nothing => g.consume isOpen (← setFlags draft flags) rest
    | .given switch value =>
      g.consume isOpen (← g.setValue switch value (← setFlags draft flags)) rest
    | .awaited switch =>
      match rest with
      | .word value :: rest =>
        g.consume isOpen (← g.setValue switch value (← setFlags draft flags)) rest
      | _ => g.switchError switch "expected one argument"
  | true, draft, .word text :: rest =>
    match g.operand with
    | .one apply =>
      match rest with
      | .separator :: rest => g.consume false (apply text draft) rest
      | rest => g.consume false (apply text draft) rest
    | .withRest apply => do return (← apply text (rest.map (·.text)) draft, [])
  | true, draft, .separator :: .word text :: rest =>
    match g.operand with
    | .one apply => g.consume false (apply text draft) rest
    | .withRest apply => do return (← apply "--" (text :: rest.map (·.text)) draft, [])
  | isOpen, draft, token :: rest => do
    let (draft, strays) ← g.consume isOpen draft rest
    return (draft, token.text :: strays)

def read (g : Grammar σ) (draft : σ) (args : List String)
    : Except Interruption (σ × List String) := do
  let (draft, strays) ← g.consume true draft (← g.tokens args)
  match g.missing draft with
  | [] => return (draft, strays)
  | names =>
    let listed := ", ".intercalate names
    g.error s!"the following arguments are required: {listed}"

end Grammar

end Intcode.CommandLine
