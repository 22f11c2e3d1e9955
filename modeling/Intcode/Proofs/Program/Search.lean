import Intcode.Proofs.Program.Ending
import Intcode.Proofs.Program.Failing
import Mathlib.Data.List.ProdSigma

namespace Intcode

theorem Memory.toList_set (m : Memory) (addr : Nat) (value : Int)
    : (m.set addr value).cells.toList
        =
      (m.cells.toList ++ List.replicate (addr + 1 - m.size) 0).set addr value := by
  unfold Memory.set Memory.grow
  dsimp only
  rw [Array.set!_eq_setIfInBounds, Array.toList_setIfInBounds]
  split
  . next inside =>
    rw [Nat.sub_eq_zero_of_le inside, List.replicate_zero, List.append_nil]
  . rw [Array.toList_append, Array.toList_replicate]

namespace Search

def patched (image : List Int) (pair : Int × Int) : List Int :=
  ((image ++ List.replicate (3 - image.length) 0).set 1 pair.1).set 2 pair.2

theorem patch_eq_patched (image : List Int) (pair : Int × Int)
    : patch image (some pair.1) (some pair.2) = patched image pair := by
  have cells : (Memory.ofImage image).cells.toList = image := rfl
  have size : (Memory.ofImage image).size = image.length := rfl
  have inside : 1 < (image ++ List.replicate (2 - image.length) (0 : Int)).length := by
    rw [List.length_append, List.length_replicate]
    omega
  have zeros : 2 - image.length + (3 - max image.length 2) = 3 - image.length := by omega
  unfold patch Memory.snapshot patched
  dsimp only
  rw [Memory.toList_set, Memory.toList_set, Memory.size_set, cells, size,
    ← List.set_append_left _ _ inside, List.append_assoc, List.replicate_append_replicate, zeros]

theorem length_patched (image : List Int) (pair : Int × Int)
    : (patched image pair).length = max image.length 3 := by
  simp only [patched, List.length_set, List.length_append, List.length_replicate]
  omega

def Halts (image : List Int) (config : Config) (pair : Int × Int) (cells : Array Int) : Prop :=
  ∃ p p', Program.load (patched image pair) [] config = .ok p ∧ p.Ends (.ok () p')
    ∧ p'.machine.memory.cells = cells

def Faults (image : List Int) (config : Config) (pair : Int × Int) : Prop :=
  ∃ fault, Program.load (patched image pair) [] config = .error (.fault fault)
    ∨ ∃ p p', Program.load (patched image pair) [] config = .ok p
      ∧ p.Ends (.error (.fault fault) p')

/-- With this pair the program cannot be loaded or faults, and it cannot be said why. -/
def Breaks (image : List Int) (config : Config) (pair : Int × Int) : Prop :=
  Program.load (patched image pair) [] config = .error .unwritable
    ∨ ∃ p p', Program.load (patched image pair) [] config = .ok p
      ∧ p.Ends (.error .unwritable p')

def Hits (image : List Int) (config : Config) (target : Int) (pair : Int × Int) : Prop :=
  ∃ cells, Halts image config pair cells ∧ cells[0]? = some target

def Misses (image : List Int) (config : Config) (target : Int) (pair : Int × Int) : Prop :=
  Faults image config pair
    ∨ ∃ cells value, Halts image config pair cells ∧ cells[0]? = some value ∧ value ≠ target

def Stops (image : List Int) (config : Config) (pair : Int × Int) : Prop :=
  ∃ fuel, (finalMemory fuel image (some pair.1) (some pair.2) config).result ≠ .error .outOfFuel

inductive Finds (image : List Int) (config : Config) (target : Int)
    : List (Int × Int) → Except Failure (Option (Int × Int)) → Prop where
  | nowhere : Finds image config target [] (.ok none)
  | here {pair : Int × Int} {rest : List (Int × Int)}
    : Hits image config target pair → Finds image config target (pair :: rest) (.ok (some pair))
  | later {pair : Int × Int} {rest : List (Int × Int)} {found : Except Failure (Option (Int × Int))}
    : Misses image config target pair → Finds image config target rest found
      → Finds image config target (pair :: rest) found
  | broken {pair : Int × Int} {rest : List (Int × Int)}
    : Breaks image config pair → Finds image config target (pair :: rest) (.error .unwritable)

def remains : EStateM.Result Failure Program Unit → Except Failure (Array Int)
  | .ok _ p => .ok p.machine.memory.cells
  | .error e _ => .error e

variable {image : List Int} {config : Config} {target : Int} {pair : Int × Int}
  {pairs : List (Int × Int)} {found : Except Failure (Option (Int × Int))} {cells : Array Int}

theorem result_finalMemory_pair (fuel : Nat) (image : List Int) (config : Config)
    (pair : Int × Int)
    : (finalMemory fuel image (some pair.1) (some pair.2) config).result
        =
      (Program.load (patched image pair) [] config).bind fun p =>
        remains (Program.ending (p.outputs fuel)) := by
  rw [result_finalMemory, patch_eq_patched]
  congr 1
  funext p
  simp only [bind, EStateM.bind]
  cases p.outputs fuel with
  | ok values p' => rfl
  | error e p' => rfl

theorem result_of_ends {p : Program} {result : EStateM.Result Failure Program Unit}
    (loaded : Program.load (patched image pair) [] config = .ok p) (ends : p.Ends result)
    (returned : ∀ p', result ≠ .error .outOfFuel p')
    : ∃ enough, ∀ fuel ≥ enough,
        (finalMemory fuel image (some pair.1) (some pair.2) config).result = remains result := by
  obtain ⟨enough, same⟩ := ends.outputs returned
  refine ⟨enough, ?_⟩
  intro fuel more
  rw [result_finalMemory_pair, loaded]
  exact congrArg remains (same fuel more fuel more)

theorem Halts.result (h : Halts image config pair cells)
    : ∃ enough, ∀ fuel ≥ enough,
        (finalMemory fuel image (some pair.1) (some pair.2) config).result = .ok cells := by
  obtain ⟨p, p', loaded, ends, rfl⟩ := h
  exact result_of_ends loaded ends fun _ => ok_ne_error

theorem Faults.result (h : Faults image config pair)
    : ∃ fault enough, ∀ fuel ≥ enough,
        (finalMemory fuel image (some pair.1) (some pair.2) config).result
          = .error (.fault fault) := by
  obtain ⟨fault, unloaded | ⟨p, p', loaded, ends⟩⟩ := h
  . refine ⟨fault, 0, ?_⟩
    intro fuel _
    rw [result_finalMemory_pair, unloaded]
    rfl
  . refine ⟨fault, result_of_ends loaded ends ?_⟩
    rintro _ ⟨⟩

theorem Breaks.result (h : Breaks image config pair)
    : ∃ enough, ∀ fuel ≥ enough,
        (finalMemory fuel image (some pair.1) (some pair.2) config).result
          = .error .unwritable := by
  obtain unloaded | ⟨p, p', loaded, ends⟩ := h
  . refine ⟨0, ?_⟩
    intro fuel _
    rw [result_finalMemory_pair, unloaded]
    rfl
  . apply result_of_ends loaded ends
    rintro _ ⟨⟩

inductive Stopped (image : List Int) (config : Config) (pair : Int × Int)
    : Except Failure (Array Int) → Prop where
  | halted {cells : Array Int} : Halts image config pair cells → Stopped image config pair (.ok cells)
  | faulted {fault : Fault}
    : Faults image config pair → Stopped image config pair (.error (.fault fault))
  | broken : Breaks image config pair → Stopped image config pair (.error .unwritable)

theorem stopped_of_returned {fuel : Nat} (proper : config.width.Proper)
    (returned : (finalMemory fuel image (some pair.1) (some pair.2) config).result
      ≠ .error .outOfFuel)
    : Stopped image config pair
        (finalMemory fuel image (some pair.1) (some pair.2) config).result := by
  rw [result_finalMemory_pair] at returned ⊢
  cases loaded : Program.load (patched image pair) [] config with
  | error e =>
    obtain rfl | ⟨value, addr, bits, rfl⟩ := Program.overflow_of_load proper loaded
    . exact .broken (.inl loaded)
    . exact .faulted ⟨_, .inl loaded⟩
  | ok p =>
    rw [loaded] at returned
    change remains (Program.ending (p.outputs fuel)) ≠ _ at returned
    show Stopped image config pair (remains (Program.ending (p.outputs fuel)))
    have ends : p.Ends (Program.ending (p.outputs fuel)) := by
      apply Program.ends_of_outputsUpTo
      intro p' spent
      change Program.ending (p.outputs fuel) = _ at spent
      rw [spent] at returned
      exact returned rfl
    generalize Program.ending (p.outputs fuel) = result at ends returned ⊢
    cases result with
    | ok _ p' => exact .halted ⟨p, p', loaded, ends, rfl⟩
    | error e p' =>
      obtain ⟨m, fresh, rfl⟩ := Program.load_iff.mp loaded
      have ready := (Machine.ready_of_load proper fresh).push []
      obtain rfl | ⟨fault, rfl⟩ := ends.fault ready fun spent => returned (congrArg Except.error spent)
      . exact .broken (.inr ⟨_, p', loaded, ends⟩)
      . exact .faulted ⟨fault, .inr ⟨_, p', loaded, ends⟩⟩

theorem Halts.size_le (proper : config.width.Proper) (h : Halts image config pair cells)
    : 3 ≤ cells.size := by
  obtain ⟨p, p', loaded, ends, rfl⟩ := h
  obtain ⟨m, fresh, rfl⟩ := Program.load_iff.mp loaded
  have ready := (Machine.ready_of_load proper fresh).push []
  have long : 3 ≤ (m.push []).memory.size := by
    rw [((Machine.load_iff proper).mp fresh).1]
    show 3 ≤ (patched image pair).length
    rw [length_patched]
    exact Nat.le_max_right _ _
  exact ends.carries (Program.carried_size 3) ready long

theorem getElem?_zero (long : 3 ≤ cells.size) : cells[0]? = some (answer cells) := by
  have inside : 0 < cells.size := Nat.lt_of_lt_of_le (by decide) long
  rw [answer, Array.getD_eq_getD_getElem?, Array.getElem?_eq_getElem inside, Option.getD_some]

theorem Halts.unique {cells' : Array Int} (h : Halts image config pair cells)
    (h' : Halts image config pair cells') : cells' = cells := by
  obtain ⟨enough, result⟩ := h.result
  obtain ⟨enough', result'⟩ := h'.result
  have same := result (max enough enough') (Nat.le_max_left _ _)
  rw [result' _ (Nat.le_max_right _ _)] at same
  exact Except.ok.inj same

theorem not_halts_of_faults (h : Faults image config pair) : ¬ Halts image config pair cells := by
  intro halts
  obtain ⟨fault, enough, result⟩ := h.result
  obtain ⟨enough', result'⟩ := halts.result
  have same := result (max enough enough') (Nat.le_max_left _ _)
  rw [result' _ (Nat.le_max_right _ _)] at same
  contradiction

theorem not_halts_of_breaks (h : Breaks image config pair) : ¬ Halts image config pair cells := by
  intro halts
  obtain ⟨enough, result⟩ := h.result
  obtain ⟨enough', result'⟩ := halts.result
  have same := result (max enough enough') (Nat.le_max_left _ _)
  rw [result' _ (Nat.le_max_right _ _)] at same
  contradiction

theorem not_hits_of_misses (h : Misses image config target pair)
    : ¬ Hits image config target pair := by
  rintro ⟨cells, halts, here⟩
  obtain faults | ⟨cells', value, halts', here', other⟩ := h
  . exact not_halts_of_faults faults halts
  . rw [halts'.unique halts, here'] at here
    exact other (Option.some.inj here)

theorem not_misses_of_breaks (h : Breaks image config pair)
    : ¬ Misses image config target pair := by
  rintro (faults | ⟨cells, value, halts, -, -⟩)
  . obtain ⟨enough, result⟩ := h.result
    obtain ⟨fault, enough', result'⟩ := faults.result
    have same := result (max enough enough') (Nat.le_max_left _ _)
    rw [result' _ (Nat.le_max_right _ _)] at same
    cases same
  . exact not_halts_of_breaks h halts

theorem not_hits_of_breaks (h : Breaks image config pair) : ¬ Hits image config target pair :=
  fun ⟨_, halts, _⟩ => not_halts_of_breaks h halts

theorem answer_eq {value : Int} (here : cells[0]? = some value) : answer cells = value := by
  rw [answer, Array.getD_eq_getD_getElem?, here, Option.getD_some]

theorem Hits.result_go (h : Hits image config target pair) (rest : List (Int × Int))
    : ∃ enough, ∀ fuel ≥ enough,
        (searchAnswer.go fuel image (· = target) config (pair :: rest)).result
          = .ok (some pair) := by
  obtain ⟨cells, halts, here⟩ := h
  obtain ⟨enough, result⟩ := halts.result
  refine ⟨enough, ?_⟩
  intro fuel more
  rw [result_searchAnswer_go, result fuel more]
  exact if_pos (decide_eq_true (answer_eq here))

theorem Misses.result_go (h : Misses image config target pair) (rest : List (Int × Int))
    : ∃ enough, ∀ fuel ≥ enough,
        (searchAnswer.go fuel image (· = target) config (pair :: rest)).result
          = (searchAnswer.go fuel image (· = target) config rest).result := by
  obtain faults | ⟨cells, value, halts, here, other⟩ := h
  . obtain ⟨fault, enough, result⟩ := faults.result
    refine ⟨enough, ?_⟩
    intro fuel more
    rw [result_searchAnswer_go, result fuel more]
  . obtain ⟨enough, result⟩ := halts.result
    refine ⟨enough, ?_⟩
    intro fuel more
    rw [result_searchAnswer_go, result fuel more]
    apply if_neg
    rw [answer_eq here]
    simpa using other

theorem Breaks.result_go (h : Breaks image config pair) (target : Int) (rest : List (Int × Int))
    : ∃ enough, ∀ fuel ≥ enough,
        (searchAnswer.go fuel image (· = target) config (pair :: rest)).result
          = .error .unwritable := by
  obtain ⟨enough, result⟩ := h.result
  refine ⟨enough, ?_⟩
  intro fuel more
  rw [result_searchAnswer_go, result fuel more]

theorem Finds.result (finds : Finds image config target pairs found)
    : ∃ enough, ∀ fuel ≥ enough,
        (searchAnswer.go fuel image (· = target) config pairs).result = found := by
  induction finds with
  | nowhere => exact ⟨0, fun _ _ => rfl⟩
  | @here pair rest hits => exact hits.result_go rest
  | @broken pair rest breaks => exact breaks.result_go target rest
  | @later pair rest found misses _ ih =>
    obtain ⟨enough, skipped⟩ := misses.result_go rest
    obtain ⟨enough', ih⟩ := ih
    refine ⟨max enough enough', ?_⟩
    intro fuel more
    rw [skipped fuel (by omega), ih fuel (by omega)]

/-- The first of the pairs that is not passed over is one like this. -/
def First (image : List Int) (config : Config) (target : Int) (P : Int × Int → Prop)
    (pairs : List (Int × Int)) : Prop :=
  ∃ before pair after, pairs = before ++ pair :: after
    ∧ (∀ earlier ∈ before, Misses image config target earlier) ∧ P pair

theorem first_cons_of_misses {P : Int × Int → Prop} {rest : List (Int × Int)}
    (misses : Misses image config target pair) (other : ¬ P pair)
    : First image config target P (pair :: rest) ↔ First image config target P rest := by
  constructor
  . rintro ⟨before, _, after, split, missed, here⟩
    cases before with
    | nil =>
      cases split
      contradiction
    | cons _ before =>
      cases split
      exact ⟨before, _, after, rfl, (List.forall_mem_cons.mp missed).2, here⟩
  . rintro ⟨before, found, after, rfl, missed, here⟩
    exact ⟨pair :: before, found, after, rfl, List.forall_mem_cons.mpr ⟨misses, missed⟩, here⟩

theorem first_cons_iff {P : Int × Int → Prop} {rest : List (Int × Int)}
    (kept : ¬ Misses image config target pair)
    : First image config target P (pair :: rest) ↔ P pair := by
  constructor
  . rintro ⟨before, _, after, split, missed, here⟩
    cases before with
    | nil =>
      cases split
      exact here
    | cons _ before =>
      cases split
      exact absurd (missed _ List.mem_cons_self) kept
  . exact fun here => ⟨[], pair, rest, rfl, List.forall_mem_nil _, here⟩

theorem not_misses_of_hits (h : Hits image config target pair)
    : ¬ Misses image config target pair :=
  fun misses => not_hits_of_misses misses h

theorem Finds.eq_some_iff (finds : Finds image config target pairs found)
    : found = .ok (some pair)
        ↔ First image config target (fun p => Hits image config target p ∧ p = pair) pairs := by
  induction finds with
  | nowhere => simp [First]
  | here hits =>
    rw [first_cons_iff (not_misses_of_hits hits)]
    simp [hits]
  | later misses _ ih =>
    rw [ih, first_cons_of_misses misses fun h => not_hits_of_misses misses h.1]
  | broken breaks =>
    rw [first_cons_iff (not_misses_of_breaks breaks)]
    simp [not_hits_of_breaks breaks]

theorem Finds.eq_none_iff (finds : Finds image config target pairs found)
    : found = .ok none ↔ ∀ pair ∈ pairs, Misses image config target pair := by
  induction finds with
  | nowhere => simp
  | here hits => simp [not_misses_of_hits hits]
  | later misses _ ih => simp [ih, misses]
  | broken breaks => simp [not_misses_of_breaks breaks]

theorem Finds.eq_error_iff {e : Failure} (finds : Finds image config target pairs found)
    : found = .error e
        ↔ e = .unwritable ∧ First image config target (Breaks image config) pairs := by
  induction finds with
  | nowhere => simp [First]
  | @here pair _ hits =>
    rw [first_cons_iff (not_misses_of_hits hits)]
    have whole : ¬ Breaks image config pair := fun breaks => not_hits_of_breaks breaks hits
    simp [whole]
  | later misses _ ih =>
    rw [ih, first_cons_of_misses misses fun breaks => not_misses_of_breaks breaks misses]
  | broken breaks =>
    rw [first_cons_iff (not_misses_of_breaks breaks)]
    simp [breaks, eq_comm]

theorem exists_finds (proper : config.width.Proper)
    (stops : ∀ before pair after, pairs = before ++ pair :: after
      → (∀ earlier ∈ before, Misses image config target earlier) → Stops image config pair)
    : ∃ found, Finds image config target pairs found := by
  induction pairs with
  | nil => exact ⟨_, .nowhere⟩
  | cons pair rest ih =>
    -- It is only past a pair that misses that the runs for the later ones are made.
    have onward (misses : Misses image config target pair)
        : ∃ found, Finds image config target (pair :: rest) found := by
      obtain ⟨found, finds⟩ := ih fun before other after split missed =>
        stops (pair :: before) other after (congrArg _ split)
          (List.forall_mem_cons.mpr ⟨misses, missed⟩)
      exact ⟨found, .later misses finds⟩
    obtain ⟨fuel, returned⟩ := stops [] pair rest rfl (List.forall_mem_nil _)
    have stopped := stopped_of_returned proper returned
    generalize Report.result _ = result at stopped
    cases stopped with
    | broken breaks => exact ⟨_, .broken breaks⟩
    | faulted faults => exact onward (.inl faults)
    | @halted cells halts =>
      have here := getElem?_zero (halts.size_le proper)
      by_cases hit : answer cells = target
      . exact ⟨_, .here ⟨cells, halts, hit ▸ here⟩⟩
      . exact onward (.inr ⟨cells, answer cells, halts, here, hit⟩)

theorem faults_of_not_holds (proper : config.width.Proper)
    (wide : ¬ ∀ value ∈ patched image pair, config.width.Holds value)
    : Faults image config pair ∨ Breaks image config pair := by
  cases loaded : Program.load (patched image pair) [] config with
  | ok p =>
    obtain ⟨m, fresh, -⟩ := Program.load_iff.mp loaded
    exact absurd ((Machine.load_iff proper).mp fresh).2 wide
  | error e =>
    obtain rfl | ⟨value, addr, bits, rfl⟩ := Program.overflow_of_load proper loaded
    . exact .inr (.inl loaded)
    . exact .inl ⟨_, .inl loaded⟩

theorem mem_patched (image : List Int) (pair : Int × Int)
    : pair.1 ∈ patched image pair ∧ pair.2 ∈ patched image pair := by
  have long : 2 < (image ++ List.replicate (3 - image.length) (0 : Int)).length := by
    rw [List.length_append, List.length_replicate]
    omega
  unfold patched
  generalize image ++ List.replicate (3 - image.length) (0 : Int) = cells at long ⊢
  constructor
  . refine List.mem_iff_getElem?.mpr ⟨1, ?_⟩
    rw [List.getElem?_set_ne (by decide), List.getElem?_set_self (by omega)]
  . refine List.mem_iff_getElem?.mpr ⟨2, ?_⟩
    rw [List.getElem?_set_self (by rwa [List.length_set])]

theorem mem_defaultCandidates {v : Int} : v ∈ defaultCandidates ↔ 0 ≤ v ∧ v < 99 := by
  unfold defaultCandidates
  rw [List.mem_map]
  constructor
  . rintro ⟨n, mem, rfl⟩
    have := List.mem_range.mp mem
    omega
  . rintro ⟨nonneg, small⟩
    exact ⟨v.toNat, List.mem_range.mpr (by omega), by omega⟩

theorem mem_pairs {candidates : List Int} {noun verb : Int}
    : (noun, verb) ∈ Intcode.pairs candidates ↔ noun ∈ candidates ∧ verb ∈ candidates := by
  simp [Intcode.pairs]

theorem answers_of_searchAnswer {wanted : Int → Bool} {candidates : List Int} {fuel : Nat}
    (found : (searchAnswer fuel image wanted candidates config).result = .ok (some pair))
    : pair ∈ Intcode.pairs candidates
        ∧ ∃ cells,
          (finalMemory fuel image (some pair.1) (some pair.2) config).result = .ok cells
            ∧ wanted (answer cells) = true := by
  unfold searchAnswer at found
  generalize Intcode.pairs candidates = pairs at found ⊢
  induction pairs with
  | nil => cases found
  | cons first rest ih =>
    obtain ⟨noun, verb⟩ := first
    have later (found : (searchAnswer.go fuel image wanted config rest).result = .ok (some pair)) :=
      And.imp_left (List.mem_cons_of_mem (noun, verb)) (ih found)
    rw [result_searchAnswer_go] at found
    split at found
    . next cells ran =>
      split at found
      . next hit =>
        cases found
        exact ⟨List.mem_cons_self, cells, ran, hit⟩
      . exact later found
    . exact later found
    . cases found

/--
If each run stops that is made, the search ends. It passes over the pairs for which the program
faults or halts with another value than the target in cell 0, in the order of the nouns and then of
the verbs. The first other pair is found if the program halts with the target, and otherwise it is
one for which the fault cannot be put into words, and then the search fails. There always is a cell
0, and a pair that does not fit in the cells leads to a fault.
-/
theorem searchNounVerb_finds_first {image candidates : List Int} {target : Int} {config : Config}
    (proper : config.width.Proper)
    (stops : ∀ before pair after, candidates ×ˢ candidates = before ++ pair :: after
      → (∀ earlier ∈ before, Misses image config target earlier) → Stops image config pair)
    : ∃ found : Except Failure (Option (Int × Int)),
        (∃ enough, ∀ fuel ≥ enough,
          (searchNounVerb fuel image target candidates config).result = found)
        ∧ (∀ fuel, (searchNounVerb fuel image target candidates config).result = found
          ∨ (searchNounVerb fuel image target candidates config).result = .error .outOfFuel)
        ∧ (∀ pair, found = .ok (some pair)
          ↔ First image config target (fun p => Hits image config target p ∧ p = pair)
              (candidates ×ˢ candidates))
        ∧ (found = .ok none ↔ ∀ pair ∈ candidates ×ˢ candidates, Misses image config target pair)
        ∧ (∀ e, found = .error e
          ↔ e = .unwritable
            ∧ First image config target (Breaks image config) (candidates ×ˢ candidates))
        ∧ (∀ noun verb fuel cells,
          (finalMemory fuel image (some noun) (some verb) config).result = .ok cells
          → cells[0]? = some (answer cells))
        ∧ ∀ noun verb, ¬ (config.width.Holds noun ∧ config.width.Holds verb)
          → Faults image config (noun, verb) ∨ Breaks image config (noun, verb) := by
  obtain ⟨found, finds⟩ := exists_finds proper stops
  obtain ⟨enough, result⟩ := finds.result
  refine ⟨found, ⟨enough, result⟩, ?_, fun _ => finds.eq_some_iff, finds.eq_none_iff,
    fun _ => finds.eq_error_iff, ?_, ?_⟩
  . intro fuel
    by_cases spent : (searchNounVerb fuel image target candidates config).result
        = .error .outOfFuel
    . exact .inr spent
    . have same := outlasts_searchAnswer (Nat.le_max_left fuel enough) candidates spent
      exact .inl (same.symm.trans (result _ (Nat.le_max_right _ _)))
  . intro noun verb fuel cells returned
    have ended : (finalMemory fuel image (some noun) (some verb) config).result
        ≠ .error .outOfFuel := by
      rw [returned]
      nofun
    have stopped := @stopped_of_returned image config (noun, verb) fuel proper ended
    rw [returned] at stopped
    cases stopped with
    | halted halts => exact getElem?_zero (halts.size_le proper)
  . intro noun verb wide
    apply faults_of_not_holds proper
    intro holds
    obtain ⟨first, second⟩ := mem_patched image (noun, verb)
    exact wide ⟨holds _ first, holds _ second⟩

theorem searchNounVerb_finds_first_sum
    : let image : List Int := [1, 0, 0, 0, 99, 30]
      let config : Config := { width := .bits 12 }
      let candidates : List Int := [-1, 4000, 5]
      config.width.Proper
        ∧ (∀ before pair after, candidates ×ˢ candidates = before ++ pair :: after
          → (∀ earlier ∈ before, Misses image config 60 earlier) → Stops image config pair)
        ∧ (searchNounVerb 9 image 60 candidates config).result = .ok (some (5, 5))
        ∧ Hits image config 60 (5, 5)
        ∧ (Faults image config (4000, 5) ∨ Breaks image config (4000, 5))
        ∧ (∃ cells, (finalMemory 9 image (some 5) (some 5) config).result = .ok cells
          ∧ cells[0]? = some 60) := by
  intro image config candidates
  have proper : config.width.Proper := by decide
  have stops : ∀ before pair after, candidates ×ˢ candidates = before ++ pair :: after
      → (∀ earlier ∈ before, Misses image config 60 earlier) → Stops image config pair := by
    have all : ∀ pair ∈ candidates ×ˢ candidates,
        (finalMemory 9 image (some pair.1) (some pair.2) config).result ≠ .error .outOfFuel := by
      decide +kernel
    intro before pair after split _
    refine ⟨9, all pair ?_⟩
    rw [split]
    exact List.mem_append_right _ List.mem_cons_self
  have returned : (searchNounVerb 9 image 60 candidates config).result = .ok (some (5, 5)) := by
    decide +kernel
  have ran : (finalMemory 9 image (some 5) (some 5) config).result
      = .ok #[60, 5, 5, 0, 99, 30] := by decide +kernel
  obtain ⟨found, -, only, first, -, -, zeroth, wide⟩ := searchNounVerb_finds_first proper stops
  have same : found = .ok (some (5, 5)) := by
    obtain same | spent := only 9
    . exact same.symm.trans returned
    . exact absurd (returned.symm.trans spent) nofun
  obtain ⟨-, _, -, -, -, hits, rfl⟩ := (first (5, 5)).mp same
  exact ⟨proper, stops, returned, hits, wide 4000 5 (by decide), _, ran, zeroth 5 5 9 _ ran⟩

theorem searchNounVerb_long_word
    : let image : List Int := [2, 0, 0, 4, 0, 0, 99, 0, 2, 10 ^ 4000]
      (searchNounVerb 9 image 2 [9, 8]).result = .error .unwritable
        ∧ (finalMemory 9 image (some 9) (some 8)).result
          = .error (.fault { cause := .unknownOpcode 0 (2 * 10 ^ 4000), ip := some 4 })
        ∧ (finalMemory 9 image (some 8) (some 8)).result
          = .ok #[2, 8, 8, 4, 4, 0, 99, 0, 2, 10 ^ 4000] := by
  decide +kernel

end Search

end Intcode
