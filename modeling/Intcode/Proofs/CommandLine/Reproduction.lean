import Intcode.Proofs.Amplifier.Tuning
import Intcode.Proofs.CommandLine.Answers
import Intcode.Proofs.Program.Search

namespace Intcode.CommandLine

open Amplifier (Layout maxSignal initialSignal)
open Amplifier.Tuning (gives_of_maxSignal)
open Numeral (render renderList)

variable {σ π : Type} [FileSystem σ] [Port π] {env : Environment σ π} {input : String}
  {word : Option Profile} {path text : String}

section

variable {layout : Layout} {order : List Int}

def flagsOf : Layout → List String
  | .chain => []
  | .feedback => ["--feedback"]

theorem layout_of_feedback (layout : Layout) (phases : Option String)
    : AmpOptions.layout { phases, feedback := layout = .feedback } = layout := by
  cases layout <;> rfl

theorem comes_tuned_iff (expected : ampGrammar.Expects path)
    : (callOf env input word "amp" path (flagsOf layout)).Comes (.status 0) text
        ↔ ∃ image best fuel, Holds env.files path image
          ∧ (maxSignal fuel image layout layout.phases
              { width := (word.getD .bigint).width }).result = .ok best
          ∧ (∀ v ∈ best.1 :: best.2, Numeral.Short v)
          ∧ lineOf [render best.1, renderList "," best.2] = text := by
  let call := callOf env input word "amp" path (flagsOf layout)
  let options : AmpOptions := { feedback := layout = .feedback }
  have read : Invocation.read call.args
      = .ok
          { settings := { profile := .value (word.getD .bigint) }
            task := some { path, command := .amp options } } := by
    cases layout with
    | chain =>
      have fits : ∀ part ∈ ([] : List AmpPart), part.Fits := List.forall_mem_nil _
      exact read_amp expected fits
    | feedback =>
      have fits : ∀ part ∈ [AmpPart.feedback], part.Fits := List.forall_mem_singleton.mpr trivial
      exact read_amp expected fits
  have answers : Task.Answers π { path, command := .amp options } (.value (word.getD .bigint)) _ _ :=
    answers_tuned rfl (layout_of_feedback layout none)
  refine (answers.comes_iff read).trans ?_
  simp only [lineShowing_eq_some_iff]
  rfl

theorem perm_phases (perm : order.Perm layout.phases)
    : order ≠ [] ∧ ∀ v ∈ order, 0 ≤ v ∧ v < 100 := by
  have given : layout.phases ≠ [] ∧ ∀ v ∈ layout.phases, 0 ≤ v ∧ v < 100 := by
    cases layout <;> decide
  refine ⟨?_, fun v mem => given.2 v (perm.mem_iff.mp mem)⟩
  rintro rfl
  exact given.1 perm.nil_eq.symm

theorem expects_phases (perm : order.Perm layout.phases)
    : ampGrammar.Expects (renderList "," order) := by
  have undashed : '-' ∉ (renderList "," order).toList :=
    Numeral.not_mem_renderList (by decide) fun v mem =>
      Numeral.dash_not_mem_write ((perm_phases perm).2 v mem).1
  exact Grammar.expects_of_undashed fun same => undashed (List.mem_of_head? same)

theorem comes_listed {image : List Int} {out : Option Int} {fuel : Nat}
    (expected : ampGrammar.Expects path) (perm : order.Perm layout.phases)
    (holds : Holds env.files path image)
    (ran : (layout.run fuel image order initialSignal
      { width := (word.getD .bigint).width }).result = .ok out)
    (short : ∀ v ∈ out.toList, Numeral.Short v)
    : let flags := "--phases" :: renderList "," order :: flagsOf layout
      (callOf env input word "amp" path flags).Comes (.status 0)
        (lineOf [Event.renderSignal out]) := by
  intro flags
  let call := callOf env input word "amp" path flags
  let options : AmpOptions :=
    { phases := some (renderList "," order), feedback := layout = .feedback }
  have expected' := expects_phases perm
  have read : Invocation.read call.args
      = .ok
          { settings := { profile := .value (word.getD .bigint) }
            task := some { path, command := .amp options } } := by
    cases layout with
    | chain =>
      have fits : ∀ part ∈ [AmpPart.phases (renderList "," order)], part.Fits :=
        List.forall_mem_singleton.mpr expected'
      exact read_amp expected fits
    | feedback =>
      have fits : ∀ part ∈ [AmpPart.phases (renderList "," order), .feedback], part.Fits :=
        List.forall_mem_cons.mpr ⟨expected', List.forall_mem_singleton.mpr trivial⟩
      exact read_amp expected fits
  obtain ⟨nonempty, small⟩ := perm_phases perm
  have listed : options.listed = some (renderList "," order) := by
    apply Option.filter_eq_some_iff.mpr
    simpa using ⟨rfl, renderList_ne_empty nonempty⟩
  have phases := readPhases_shows nonempty fun v mem =>
    Numeral.short_of_lt (small v mem).1 (Int.lt_trans (small v mem).2 (by decide))
  have answers : Task.Answers π { path, command := .amp options } (.value (word.getD .bigint)) _ _ :=
    answers_listed listed (layout_of_feedback layout _) phases rfl
  exact (answers.comes_iff read).mpr
    ⟨image, out, fuel, holds, ran, lineShowing_eq_some_iff.mpr ⟨short, rfl⟩⟩

theorem comes_of_tuned {signal phases : String} (expected : ampGrammar.Expects path)
    (comes : (callOf env input word "amp" path (flagsOf layout)).Comes (.status 0)
      (lineOf [signal, phases]))
    : let flags := "--phases" :: phases :: flagsOf layout
      (callOf env input word "amp" path flags).Comes (.status 0) (lineOf [signal])
        ∧ ∃ order, phases = renderList "," order ∧ order.Perm layout.phases := by
  obtain ⟨image, ⟨most, order⟩, fuel, holds, tuned, short, told⟩ :=
    (comes_tuned_iff expected).mp comes
  have without : ∀ word ∈ [render most, renderList "," order], ' ' ∉ word.toList := by
    simp [blank_not_mem_render, blank_not_mem_renderList]
  have told : [signal, phases] = [render most, renderList "," order] :=
    lineOf_inj rfl without told.symm
  cases told
  obtain ⟨perm, -, enough, ran⟩ := gives_of_maxSignal tuned
  refine ⟨?_, order, rfl, perm⟩
  have short : ∀ v ∈ (some most).toList, Numeral.Short v :=
    List.forall_mem_singleton.mpr (short most List.mem_cons_self)
  exact comes_listed expected perm holds (ran enough (Nat.le_refl enough)) short

end

section

variable {spelling : String} {target n v : Int}

theorem comes_found_iff (expected : nounVerbGrammar.Expects path) (spelled : Spells spelling target)
    : (callOf env input word "nounverb" path ["--target", spelling]).Comes (.status 0) text
        ↔ ∃ image found fuel, Holds env.files path image
          ∧ (searchAnswer fuel image (· = target) defaultCandidates
              { width := (word.getD .bigint).width }).result = .ok found
          ∧ found.map (fun (noun, verb) =>
              lineOf [render noun, render verb, render (100 * noun + verb)]) = some text := by
  let call := callOf env input word "nounverb" path ["--target", spelling]
  let options : NounVerbOptions := { target := some (.value target) }
  have read : Invocation.read call.args
      = .ok
          { settings := { profile := .value (word.getD .bigint) }
            task := some { path, command := .nounVerb options } } := by
    have fits : ∀ part ∈ [NounVerbPart.target spelling target], part.Fits :=
      List.forall_mem_singleton.mpr spelled
    exact read_nounVerb expected fits
  have answers : Task.Answers π { path, command := .nounVerb options }
      (.value (word.getD .bigint)) _ _ := answers_found rfl
  refine (answers.comes_iff read).trans ?_
  apply exists_congr
  intro image
  apply exists_congr
  intro found
  apply exists_congr
  intro fuel
  apply and_congr_right
  intro _
  apply and_congr_right
  intro searched
  cases found with
  | none => exact Iff.rfl
  | some pair =>
    obtain ⟨noun, verb⟩ := pair
    rw [Option.bind_some, Option.map_some, lineShowing_eq_some_iff, Option.some_inj]
    exact and_iff_right (short_of_found searched)

theorem comes_answered {image : List Int} {cells : Array Int} {fuel : Nat}
    (expected : nounVerbGrammar.Expects path) (short : Numeral.Short n) (short' : Numeral.Short v)
    (holds : Holds env.files path image)
    (ran : (finalMemory fuel image (some n) (some v)
      { width := (word.getD .bigint).width }).result = .ok cells)
    (short'' : Numeral.Short (answer cells))
    : let flags := ["--noun", render n, "--verb", render v]
      (callOf env input word "nounverb" path flags).Comes (.status 0)
        (lineOf [render (answer cells)]) := by
  intro flags
  let call := callOf env input word "nounverb" path flags
  let options : NounVerbOptions := { noun := some (.value n), verb := some (.value v) }
  have fits : ∀ part ∈ [NounVerbPart.noun (render n) n, .verb (render v) v], part.Fits :=
    List.forall_mem_cons.mpr
      ⟨spells_render short, List.forall_mem_singleton.mpr (spells_render short')⟩
  have read : Invocation.read call.args
      = .ok
          { settings := { profile := .value (word.getD .bigint) }
            task := some { path, command := .nounVerb options } } :=
    read_nounVerb expected fits
  have answers : Task.Answers π { path, command := .nounVerb options }
      (.value (word.getD .bigint)) _ _ := answers_answered rfl nofun nofun
  exact (answers.comes_iff read).mpr
    ⟨image, cells, fuel, holds, ran,
      lineShowing_eq_some_iff.mpr ⟨List.forall_mem_singleton.mpr short'', rfl⟩⟩

theorem comes_of_found {noun verb both : String} (expected : nounVerbGrammar.Expects path)
    (spelled : Spells spelling target)
    (comes : (callOf env input word "nounverb" path ["--target", spelling]).Comes (.status 0)
      (lineOf [noun, verb, both]))
    : let flags := ["--noun", noun, "--verb", verb]
      (callOf env input word "nounverb" path flags).Comes (.status 0) (lineOf [render target])
        ∧ ∃ n v x, noun = render n ∧ verb = render v ∧ both = render x
          ∧ x / 100 = n ∧ x % 100 = v := by
  obtain ⟨image, found, fuel, holds, searched, told⟩ :=
    (comes_found_iff expected spelled).mp comes
  obtain ⟨⟨n, v⟩, rfl, line⟩ := Option.map_eq_some_iff.mp told
  have without : ∀ word ∈ [render n, render v, render (100 * n + v)], ' ' ∉ word.toList := by
    simp [blank_not_mem_render]
  have told : [noun, verb, both] = [render n, render v, render (100 * n + v)] :=
    lineOf_inj rfl without line.symm
  cases told
  obtain ⟨mem, cells, ran, hit⟩ := Search.answers_of_searchAnswer searched
  obtain ⟨first, second⟩ := Search.mem_pairs.mp mem
  rw [Search.mem_defaultCandidates] at first second
  have same : answer cells = target := of_decide_eq_true hit
  refine ⟨?_, n, v, 100 * n + v, rfl, rfl, rfl, by omega, by omega⟩
  rw [← same]
  exact comes_answered expected (Numeral.short_of_lt first.1 (by omega))
    (Numeral.short_of_lt second.1 (by omega)) holds ran (same ▸ spelled.short)

end

/--
What a search puts out tells how to do without the search. A call that searches for the phases of
amplifiers puts out a signal and phases, and a call with these phases puts out this signal. A call
that searches for a target puts out a noun and a verb, and a call with this noun and this verb puts
out the target; the noun and the verb are the quotient and the remainder of the third number by 100.
-/
theorem searches_reproduce (env : Environment σ π) (input : String) (word : Option Profile)
    (path : String)
    : let amp := callOf env input word "amp" path
      let nounVerb := callOf env input word "nounverb" path
      (ampGrammar.Expects path → ∀ layout : Layout,
          (∀ text, (amp (flagsOf layout)).Comes (.status 0) text
            → ∃ signal phases, text = lineOf [signal, phases])
          ∧ ∀ signal phases, (amp (flagsOf layout)).Comes (.status 0) (lineOf [signal, phases])
            → (amp ("--phases" :: phases :: flagsOf layout)).Comes (.status 0) (lineOf [signal])
              ∧ ∃ order, phases = renderList "," order ∧ order.Perm layout.phases)
        ∧ (nounVerbGrammar.Expects path → ∀ spelling target, Spells spelling target →
          (∀ text, (nounVerb ["--target", spelling]).Comes (.status 0) text
            → ∃ noun verb both, text = lineOf [noun, verb, both])
          ∧ ∀ noun verb both,
            (nounVerb ["--target", spelling]).Comes (.status 0) (lineOf [noun, verb, both])
            → (nounVerb ["--noun", noun, "--verb", verb]).Comes (.status 0) (lineOf [render target])
              ∧ ∃ n v x, noun = render n ∧ verb = render v ∧ both = render x
                ∧ x / 100 = n ∧ x % 100 = v) := by
  intro amp nounVerb
  refine ⟨fun expected layout => ⟨?_, ?_⟩, fun expected spelling target spelled => ⟨?_, ?_⟩⟩
  . intro text comes
    obtain ⟨_, _, _, _, _, _, told⟩ := (comes_tuned_iff expected).mp comes
    exact ⟨_, _, told.symm⟩
  . exact fun signal phases comes => comes_of_tuned expected comes
  . intro text comes
    obtain ⟨_, _, _, _, _, told⟩ := (comes_found_iff expected spelled).mp comes
    obtain ⟨pair, -, line⟩ := Option.map_eq_some_iff.mp told
    exact ⟨_, _, _, line.symm⟩
  . exact fun noun verb both comes => comes_of_found expected spelled comes

theorem searches_reproduce_small
    : let bytes (text : String) := text.toList.map fun c => UInt8.ofNat c.toNat
      let env := Environment.ofFiles
        [(Path.ofString "phases", bytes "3,0,4,0,99"), (Path.ofString "sum", bytes "1,0,0,0,99")]
      let call (args : List String) : Call Directory Loopback := { args, env }
      (call ["amp", "phases"]).Comes (.status 0) (lineOf ["4", "0,1,2,3,4"])
        ∧ (call ["amp", "phases", "--phases", "0,1,2,3,4"]).Comes (.status 0) (lineOf ["4"])
        ∧ (call ["nounverb", "sum", "--target", "+100"]).Comes (.status 0) (lineOf ["0", "4", "4"])
        ∧ (call ["nounverb", "sum", "--noun", "0", "--verb", "4"]).Comes (.status 0)
            (lineOf ["100"]) := by
  intro bytes env call
  have phases : ampGrammar.Expects "phases" := Grammar.expects_of_undashed (by decide)
  have sum : nounVerbGrammar.Expects "sum" := Grammar.expects_of_undashed (by decide)
  have spelled : Spells "+100" 100 :=
    ⟨Grammar.expects_of_undashed (by decide), by decide +kernel⟩
  have tuned : (call ["amp", "phases"]).Comes (.status 0) (lineOf ["4", "0,1,2,3,4"]) := by
    have holds : Holds env.files "phases" [3, 0, 4, 0, 99] := by
      show (Action.loadProgram _).result = _
      decide +kernel
    have tuned : (maxSignal 9 [3, 0, 4, 0, 99] .chain [0, 1, 2, 3, 4]
        { width := Profile.bigint.width }).result = .ok (4, [0, 1, 2, 3, 4]) := by
      decide +kernel
    have short : ∀ v ∈ (4 : Int) :: [0, 1, 2, 3, 4], Numeral.Short v := by decide +kernel
    have told : lineOf [render 4, renderList "," [0, 1, 2, 3, 4]] = lineOf ["4", "0,1,2,3,4"] := by
      decide +kernel
    show (callOf env "" none "amp" "phases" (flagsOf .chain)).Comes _ _
    rw [comes_tuned_iff phases]
    exact ⟨_, _, 9, holds, tuned, short, told⟩
  have found : (call ["nounverb", "sum", "--target", "+100"]).Comes (.status 0)
      (lineOf ["0", "4", "4"]) := by
    have holds : Holds env.files "sum" [1, 0, 0, 0, 99] := by
      show (Action.loadProgram _).result = _
      decide +kernel
    have searched : (searchAnswer 9 [1, 0, 0, 0, 99] (· = (100 : Int)) defaultCandidates
        { width := Profile.bigint.width }).result = .ok (some (0, 4)) := by
      decide +kernel
    have told : lineOf [render 0, render 4, render (100 * 0 + 4)] = lineOf ["0", "4", "4"] := by
      decide +kernel
    show (callOf env "" none "nounverb" "sum" ["--target", "+100"]).Comes _ _
    rw [comes_found_iff sum spelled]
    exact ⟨_, _, 9, holds, searched, congrArg some told⟩
  have shown : render 100 = "100" := by decide +kernel
  obtain ⟨listed, -⟩ :=
    ((searches_reproduce env "" none "phases").1 phases .chain).2 _ _ tuned
  obtain ⟨answered, -⟩ :=
    ((searches_reproduce env "" none "sum").2 sum _ _ spelled).2 _ _ _ found
  rw [shown] at answered
  exact ⟨tuned, listed, found, answered⟩

end Intcode.CommandLine
