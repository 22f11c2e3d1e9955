import Intcode.Proofs.CommandLine.Run
import Intcode.Proofs.Program.Search

namespace Intcode

namespace Report

variable {ω ε α β : Type} {x : Report ω ε α} {f : α → Report ω ε β}

end Report

namespace CommandLine

open Amplifier (Layout)

variable {σ π : Type}

def Surroundings.Holds (scene : Surroundings π) (image : List Int) : Prop :=
  (Action.loadProgram scene.source).result = .ok image

def Task.IsFilled (task : Task) (profile : Given Profile) : Prop :=
  match task.command with
  | .run options => profile ≠ .nothing ∧ options.IsFilled
  | .disasm options => options.IsFilled
  | .amp options => profile ≠ .nothing ∧ options.IsFilled
  | .nounVerb options => profile ≠ .nothing ∧ options.IsFilled
  | .serial options => profile ≠ .nothing ∧ options.IsFilled

/--
The task is done to its end, and all numbers that it has to write can be written. Of a task that was
given nothing in the place of a number no more is asked than that it returns.
-/
inductive Task.Completes [Port π] (scene : Surroundings π) : Given Profile → Task → Prop where
  | ran {path : String} {options : RunOptions} {word : Profile} {image inputs : List Int}
      {p q : Program} {said : List Said} {unread : List String}
    : scene.Holds image → options.inputs = inputs.map .value → .nothing ∉ options.watches
      → Program.load image inputs { width := word.width } (Path.basename path) = .ok p
      → Converses options.interactive p scene.lines said unread (.ok q)
      → (∀ fuel, (Task.perform { path, command := .run options } fuel scene (.value word)).result
        ≠ .error (.failure .unwritable))
      → Completes scene (.value word) { path, command := .run options }
  | listed {path : String} {options : DisasmOptions} {profile : Given Profile} {image : List Int}
      {start : Int} {lines : List String} {m : Memory}
    : scene.Holds image → options.start = .value start → options.stop ≠ some .nothing
      → (Memory.ofImage image).disassemble start
          (some (options.last (Memory.ofImage image).size)) = .ok lines m
      → Completes scene profile { path, command := .disasm options }
  | amplified {path text : String} {options : AmpOptions} {word : Profile}
      {image phases : List Int} {signal : Int} {out : Option Int} {fuel : Nat}
    : scene.Holds image → options.listed = some text → (readPhases text).result = .ok phases
      → options.signal = .value signal
      → (options.layout.run fuel image phases signal { width := word.width }).result = .ok out
      → (∀ v ∈ out.toList, Numeral.Short v)
      → Completes scene (.value word) { path, command := .amp options }
  | tuned {path : String} {options : AmpOptions} {word : Profile} {image : List Int}
      {best : Int × List Int} {fuel : Nat}
    : scene.Holds image → options.listed = none
      → (Amplifier.maxSignal fuel image options.layout options.layout.phases
          { width := word.width }).result = .ok best
      → (∀ v ∈ best.1 :: best.2, Numeral.Short v)
      → Completes scene (.value word) { path, command := .amp options }
  | answered {path : String} {options : NounVerbOptions} {word : Profile} {image : List Int}
      {cells : Array Int} {fuel : Nat}
    : scene.Holds image → options.target = none → options.IsFilled
      → (finalMemory fuel image (NounVerbOptions.number? options.noun)
          (NounVerbOptions.number? options.verb) { width := word.width }).result = .ok cells
      → Numeral.Short (Intcode.answer cells)
      → Completes scene (.value word) { path, command := .nounVerb options }
  | found {path : String} {options : NounVerbOptions} {word : Profile} {image : List Int}
      {target : Given Int} {pair : Int × Int} {fuel : Nat}
    : scene.Holds image → options.target = some target
      → (searchAnswer fuel image (NounVerbOptions.matching target) defaultCandidates
          { width := word.width }).result = .ok (some pair)
      → Completes scene (.value word) { path, command := .nounVerb options }
  | served {path : String} {options : SerialOptions} {word : Profile} {image inputs : List Int}
      {program : Program} {port : π} {sent : List Int} {c : Console π} {fuel : Nat}
    : scene.Holds image → options.inputs = inputs.map .value
      → Program.load image inputs { width := word.width } (Path.basename path) = .ok program
      → scene.connect options = .ok port → Console.serve fuel { program, port } = .ok sent c
      → Completes scene (.value word) { path, command := .serial options }
  | returned {task : Task} {profile : Given Profile} {fuel : Nat}
    : ¬ task.IsFilled profile → (task.perform fuel scene profile).result = .ok 0
      → Completes scene profile task

inductive Task.Misses (scene : Surroundings π) : Given Profile → Task → Given Int → Prop where
  | missed {path : String} {options : NounVerbOptions} {word : Profile} {image : List Int}
      {target : Given Int} {fuel : Nat}
    : scene.Holds image → options.target = some target
      → (searchAnswer fuel image (NounVerbOptions.matching target) defaultCandidates
          { width := word.width }).result = .ok none
      → Misses scene (.value word) { path, command := .nounVerb options } target

/--
There is trouble that nobody has foreseen: of the port that the task serves, or because the task was
given nothing in the place of a number.
-/
inductive Task.Escapes [Port π] (scene : Surroundings π)
    : Given Profile → Task → Trouble → Prop where
  | unopened {path : String} {options : SerialOptions} {word : Profile} {image inputs : List Int}
      {program : Program} {m : Mishap}
    : scene.Holds image → options.inputs = inputs.map .value
      → Program.load image inputs { width := word.width } (Path.basename path) = .ok program
      → scene.connect options = .error (.mishap m) → m.isForeseen = false
      → Escapes scene (.value word) { path, command := .serial options } (.failure (.mishap m))
  | unserved {path : String} {options : SerialOptions} {word : Profile} {image inputs : List Int}
      {program : Program} {port : π} {m : Mishap} {c : Console π} {fuel : Nat}
    : scene.Holds image → options.inputs = inputs.map .value
      → Program.load image inputs { width := word.width } (Path.basename path) = .ok program
      → scene.connect options = .ok port
      → Console.serve fuel { program, port } = .error (.mishap m) c → m.isForeseen = false
      → Escapes scene (.value word) { path, command := .serial options } (.failure (.mishap m))
  | raised {task : Task} {profile : Given Profile} {trouble : Trouble} {fuel : Nat}
    : ¬ task.IsFilled profile → (task.perform fuel scene profile).result = .error trouble
      → trouble.isForeseen = false → Escapes scene profile task trouble

variable {scene : Surroundings π} [Port π] {image : List Int} {word : Profile} {path : String}
variable {fuel : Nat}

/-! ### Runs -/

variable {config : Config}

def shown (numbers : α → List Int) (result : Except Trouble α) : Except Trouble Nat :=
  result >>= fun a =>
    if ∀ v ∈ numbers a, Numeral.Short v then .ok 0 else .error (.failure .unwritable)

theorem short_of_found {wanted : Int → Bool} {noun verb : Int}
    (found : (searchAnswer fuel image wanted defaultCandidates config).result
      = .ok (some (noun, verb)))
    : ∀ v ∈ [noun, verb, 100 * noun + verb], Numeral.Short v := by
  obtain ⟨mem, -⟩ := Search.answers_of_searchAnswer found
  rw [Search.mem_pairs, Search.mem_defaultCandidates, Search.mem_defaultCandidates] at mem
  obtain ⟨⟨above, below⟩, above', below'⟩ := mem
  rintro v (_ | ⟨_, _ | ⟨_, _ | ⟨_, ⟨⟩⟩⟩⟩)
  . exact Numeral.short_of_lt above (by omega)
  . exact Numeral.short_of_lt above' (by omega)
  . exact Numeral.short_of_lt (by omega) (by omega)

namespace SerialOptions

variable {options : SerialOptions} {connect : SerialOptions → Except PortError π}
  {inputs : List Int}

end SerialOptions

/-! ### Tasks -/

namespace Task

variable {task : Task} {profile : Given Profile} {fuel' : Nat}

def IsSerial (task : Task) : Prop :=
  ∃ options, task.command = .serial options

theorem proper_config {options : RunOptions} {image : List Int} {config : Config}
    (configured : (options.config profile path image).result = .ok config)
    : config.width.Proper := by
  cases profile with
  | nothing => contradiction
  | value word =>
    cases configured
    exact Profile.proper word

theorem outlasts_perform (task : Task) (more : fuel ≤ fuel')
    : (task.perform fuel' scene profile).Outlasts (.failure .outOfFuel)
        (task.perform fuel scene profile) := by
  apply (Report.Outlasts.refl _).bind
  intro image _
  obtain ⟨path, command⟩ := task
  cases command with
  | disasm options => exact .refl _
  | run options =>
    apply (Report.Outlasts.refl _).bind
    intro config configured
    exact options.outlasts_perform (proper_config configured) more
  | amp options | nounVerb options | serial options =>
    exact (Report.Outlasts.refl _).bind fun _ _ => options.outlasts_perform more

omit [Port π] in
theorem Misses.unique {target target' : Given Int} (h : task.Misses scene profile target)
    (h' : task.Misses scene profile target') : target = target' := by
  cases h with
  | missed _ targeted _ =>
    cases h' with
    | missed _ targeted' _ => exact Option.some.inj (targeted.symm.trans targeted')

def missing (target : Given Int) : Output :=
  .err s!"No noun/verb produces {renderGiven target}\n"

def Fails (scene : Surroundings π) (profile : Given Profile) (task : Task) (trouble : Trouble)
    : Prop :=
  ∃ fuel, (task.perform fuel scene profile).result = .error trouble

end Task

/-! ### Calls -/

def complaint (trouble : Trouble) : Output :=
  .err s!"Error: {trouble.message}\n"

structure Outcome.Tells [Port π] (o : Outcome) (task : Task) (scene : Surroundings π)
    (profile : Given Profile) : Prop where
  completed : o.exit = .status 0 ↔ task.Completes scene profile
  missed : ∀ target, task.Misses scene profile target
    → o.exit = .status 1 ∧ o.written.getLast? = some (Task.missing target)
  failed : ∀ trouble, task.Fails scene profile trouble → trouble ≠ .failure .outOfFuel
    → trouble.isForeseen = true
    → o.exit = .status 1 ∧ o.written.getLast? = some (complaint trouble)
  escaped : ∀ trouble, o.exit = .raised trouble ↔ task.Escapes scene profile trouble
  status : ∀ code, o.exit = .status code → code = 0
    ∨ code = 1 ∧ ((∃ target, task.Misses scene profile target
          ∧ o.written.getLast? = some (Task.missing target))
        ∨ ∃ trouble, task.Fails scene profile trouble ∧ trouble.isForeseen = true
          ∧ o.written.getLast? = some (complaint trouble))
  raised : ∀ trouble, o.exit = .raised trouble
    → (¬ task.IsFilled profile ∧ ∃ m, trouble = .misfit m) ∨ task.IsSerial ∧ trouble.IsOfPort

section

variable {x : Action Nat} {o : Outcome} {before : List Output}

theorem result_of_status {code : Nat} (exit : o.exit = (conclude x).2)
    (stops : o.exit = .status code)
    : x.result = .ok code
      ∨ code = 1 ∧ ∃ trouble, x.result = .error trouble ∧ trouble.isForeseen = true := by
  rw [stops] at exit
  unfold conclude at exit
  split at exit
  . next status done =>
    cases exit
    exact .inl done
  . next trouble failed =>
    split at exit
    . next foreseen =>
      cases exit
      exact .inr ⟨rfl, trouble, failed, foreseen⟩
    . contradiction

end

section

variable [FileSystem σ] {call : Call σ π} {settings : Settings} {task : Task}

end

end CommandLine

end Intcode
