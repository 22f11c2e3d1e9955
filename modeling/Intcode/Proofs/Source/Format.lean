import Intcode.Proofs.Source.Fields

namespace Intcode.Source

open Text Numeral

variable {image : List Int}

theorem splitOn_renderList (some : image ≠ [])
    : (renderList "," image).toList.splitOn ',' = image.map write := by
  rw [toList_renderList, show ",".toList = [','] from rfl, List.splitOn_intercalate]
  . intro part mem
    obtain ⟨v, -, rfl⟩ := List.mem_map.mp mem
    exact not_mem_write (by decide) (by decide) v
  . simpa using some

theorem filled_renderList (some : image ≠ [])
    : filled (renderList "," image) = image.map write := by
  have unblank : ∀ v ∈ image, (trim isBlank ∘ write) v = write v := by
    intro v _
    exact trim_of_forall (write_ne_nil v) fun _ mem => (isMark_of_mem_write mem).isBlank
  unfold filled fields
  rw [splitOn_renderList some, List.map_map, List.map_congr_left unblank, List.filter_eq_self]
  intro field mem
  obtain ⟨v, -, rfl⟩ := List.mem_map.mp mem
  simpa using write_ne_nil v

theorem parse_renderList (some : image ≠ []) (short : ∀ v ∈ image, Short v)
    : parse (renderList "," image) = .ok image := by
  rw [parse_eq_ok_iff, filled_renderList some]
  refine ⟨by simpa using some, ?_⟩
  rw [List.forall₂_map_left_iff, List.forall₂_same]
  intro v mem
  exact literal_write (short v mem)

theorem short_of_parse {text : String} (parsed : parse text = .ok image)
    : image ≠ [] ∧ ∀ v ∈ image, Short v := by
  obtain ⟨some, literals⟩ := parse_eq_ok_iff.mp parsed
  constructor
  . rintro rfl
    exact some (List.forall₂_nil_right_iff.mp literals)
  . have literals : List.Forall₂ (flip Literal) image (filled text) := literals.flip
    have shorts := literals.imp fun _ _ literal => And.intro (short_of_literal literal) literal
    exact ((List.forall₂_and_left _ _).mp shorts).1

/--
What is written of an image is read as this image, and an image is written as long as no number in
it has more digits than are read. No number that comes from a text has, so that each text that is a
program has a normal form, which is the text of its image, and no other image has the same text.
-/
theorem parse_format
    : (∀ image, image ≠ [] → (∀ v ∈ image, Short v) →
        ∃ text, format image = .ok text ∧ parse text = .ok image)
      ∧ (∀ image, (∃ v ∈ image, ¬ Short v) → format image = .error .unwritable)
      ∧ (∀ image image' text, image ≠ [] → image' ≠ [] → format image = .ok text
        → format image' = .ok text → image = image')
      ∧ ∀ text image, parse text = .ok image →
        ∃ normal, format image = .ok normal ∧ parse normal = .ok image
          ∧ ∀ image', parse normal = .ok image' → format image' = .ok normal := by
  refine ⟨?_, ?_, ?_, ?_⟩
  . intro image some short
    exact ⟨_, writing_of_short short _, parse_renderList some short⟩
  . rintro image ⟨v, mem, long⟩
    exact writing_of_long (fun short => long (short v mem)) _
  . intro image image' text some some' written written'
    have same := (writing_eq_ok_iff.mp written).2.trans (writing_eq_ok_iff.mp written').2.symm
    have fields := filled_renderList some
    rw [same, filled_renderList some'] at fields
    exact (List.map_injective_iff.mpr write_injective fields).symm
  . intro text image parsed
    obtain ⟨some, short⟩ := short_of_parse parsed
    have again := parse_renderList some short
    refine ⟨_, writing_of_short short _, again, ?_⟩
    intro image' parsed'
    rw [again] at parsed'
    cases parsed'
    exact writing_of_short short _

theorem parse_format_signs
    : let image := [-12, 0, 4300]
      let image' := [-12, 10 - 10, 43 * 100]
      let long := [10 ^ 4300]
      let text := " -1_2,,+0 ,4300"
      (∀ v ∈ image, Short v) ∧ image' = image
        ∧ (∃ v ∈ long, ¬ Short v) ∧ format long = .error .unwritable
        ∧ parse text = .ok image
        ∧ ∃ normal, normal = "-12,0,4300" ∧ format image = .ok normal ∧ parse normal = .ok image := by
  intro image image' long text
  have some : image ≠ [] := List.cons_ne_nil _ _
  have short : ∀ v ∈ image, Short v := by decide +kernel
  have unwritten : ∃ v ∈ long, ¬ Short v := ⟨_, List.mem_singleton_self _, by decide +kernel⟩
  have parsed : parse text = .ok image := by decide +kernel
  have written : format image' = .ok "-12,0,4300" := by decide +kernel
  obtain ⟨back, refused, alone, -⟩ := parse_format
  obtain ⟨normal, shown, again⟩ := back image some short
  have same : normal = "-12,0,4300" := Except.ok.inj (shown.symm.trans written)
  exact ⟨short, alone image' image normal (List.cons_ne_nil _ _) some (same ▸ written) shown,
    unwritten, refused long unwritten, parsed, normal, same, shown, again⟩

end Intcode.Source
