import Intcode.Proofs.Text.Numeral
import Intcode.Text.Padding
import Intcode.Text.Split

namespace Intcode

namespace Text

variable {c : Char} {separator : List Char} {parts parts' : List (List Char)}

theorem splitAt_eq (separator : Char) (s : List Char)
    : splitAt separator s = s.splitOn separator := by
  induction s with
  | nil => rfl
  | cons c s ih =>
    rw [splitAt, List.splitOn_cons_eq_if_modifyHead, ih]
    obtain ⟨part, more, parts⟩ := List.exists_cons_of_ne_nil (List.splitOn_ne_nil separator s)
    simp [parts]

theorem not_mem_intercalate (without : c ∉ separator)
    (parted : ∀ part ∈ parts, c ∉ part) : c ∉ separator.intercalate parts := by
  induction parts with
  | nil => exact List.not_mem_nil
  | cons part parts ih =>
    obtain ⟨first, parted⟩ := List.forall_mem_cons.mp parted
    have rest := ih parted
    cases parts with
    | nil => simpa using first
    | cons next parts =>
      rw [List.intercalate_cons_cons, List.mem_append, List.mem_append]
      simp only [first, without, rest, or_self, not_false_eq_true]

theorem count_intercalate_cons (part next : List Char) (parts : List (List Char))
    : ([c].intercalate (part :: next :: parts)).count c
        = part.count c + 1 + ([c].intercalate (next :: parts)).count c := by
  rw [List.intercalate_cons_cons, List.count_append, List.count_append, List.count_singleton_self]

theorem length_le_count_intercalate (c : Char) (parts : List (List Char))
    : parts.length ≤ ([c].intercalate parts).count c + 1 := by
  induction parts with
  | nil => simp
  | cons part parts ih =>
    cases parts with
    | nil => simp
    | cons next parts =>
      rw [count_intercalate_cons, List.length_cons]
      omega

theorem count_intercalate_eq_iff (nonempty : parts ≠ [])
    : ([c].intercalate parts).count c + 1 = parts.length ↔ ∀ part ∈ parts, c ∉ part := by
  induction parts with
  | nil => contradiction
  | cons part parts ih =>
    cases parts with
    | nil => simp [List.count_eq_zero]
    | cons next parts =>
      have least := length_le_count_intercalate c (next :: parts)
      rw [List.forall_mem_cons, ← ih (List.cons_ne_nil next parts), ← List.count_eq_zero,
        count_intercalate_cons, List.length_cons]
      omega

theorem intercalate_cons (c : Char) (separator part : List Char) (parts : List (List Char))
    : (c :: separator).intercalate (part :: parts)
        = part ++ parts.flatMap fun next => c :: (separator ++ next) := by
  induction parts generalizing part with
  | nil => simp
  | cons next parts ih =>
    rw [List.intercalate_cons_cons, ih, List.flatMap_cons]
    simp

theorem cons_eq_of_intercalate {part part' : List Char} (without : ∀ next ∈ part :: parts, c ∉ next)
    (without' : ∀ next ∈ part' :: parts', c ∉ next)
    (same : (c :: separator).intercalate (part :: parts)
      = (c :: separator).intercalate (part' :: parts')) : part :: parts = part' :: parts' := by
  rw [intercalate_cons, intercalate_cons] at same
  -- Only the end of the first parts is known, where the first separator begins.
  induction parts generalizing part part' parts' with
  | nil =>
    cases parts' with
    | nil => simpa using same
    | cons next' parts' => simp_all
  | cons next parts ih =>
    cases parts' with
    | nil =>
      have whole' := without' part' List.mem_cons_self
      rw [List.flatMap_nil, List.append_nil] at same
      simp [← same] at whole'
    | cons next' parts' =>
      rw [List.forall_mem_cons] at without without'
      simp only [List.flatMap_cons, List.cons_append, List.append_assoc] at same
      obtain ⟨first, -, rest⟩ := append_cons_inj same without.1 without'.1
      rw [first, ih without.2 without'.2 (List.append_cancel_left rest)]

theorem intercalate_injective (length : parts.length = parts'.length)
    (without : ∀ part ∈ parts, c ∉ part) (without' : ∀ part ∈ parts', c ∉ part)
    (same : (c :: separator).intercalate parts = (c :: separator).intercalate parts')
    : parts = parts' := by
  cases parts with
  | nil => exact (List.length_eq_zero_iff.mp length.symm).symm
  | cons part parts =>
    obtain ⟨part', parts', rfl⟩ := List.exists_cons_of_length_eq_add_one length.symm
    exact cons_eq_of_intercalate without without' same

theorem intercalate_injective_of_nonempty (some : [] ∉ parts) (some' : [] ∉ parts')
    (without : ∀ part ∈ parts, c ∉ part) (without' : ∀ part ∈ parts', c ∉ part)
    (same : (c :: separator).intercalate parts = (c :: separator).intercalate parts')
    : parts = parts' := by
  cases parts with
  | nil =>
    cases parts' with
    | nil => rfl
    | cons part' parts' =>
      rw [intercalate_cons] at same
      simp [(List.append_eq_nil_iff.mp same.symm).1] at some'
  | cons part parts =>
    cases parts' with
    | nil =>
      rw [intercalate_cons] at same
      simp [(List.append_eq_nil_iff.mp same).1] at some
    | cons part' parts' => exact cons_eq_of_intercalate without without' same

theorem lines_joinLines {shown : List String}
    (unbroken : ∀ line ∈ shown, line ≠ "" ∧ '\n' ∉ line.toList)
    : lines (joinLines shown).toList = shown.map String.toList := by
  unfold lines joinLines
  rw [String.toList_intercalate, show "\n".toList = ['\n'] from rfl, splitAt_eq]
  cases shown with
  | nil => rfl
  | cons line rest =>
    rw [List.splitOn_intercalate]
    . apply if_neg
      intro empty
      obtain ⟨last, mem, blank⟩ := List.mem_map.mp (List.mem_of_getLast? empty)
      exact (unbroken last mem).1 (String.toList_eq_nil_iff.mp blank)
    . exact List.forall_mem_map.mpr fun line mem => (unbroken line mem).2
    . simp

theorem eq_of_intercalate (length : parts.length = parts'.length)
    (without : ∀ part ∈ parts', c ∉ part) (same : [c].intercalate parts = [c].intercalate parts')
    : parts = parts' := by
  by_cases empty : parts' = []
  . subst empty
    exact List.length_eq_zero_iff.mp length
  . have nonempty : parts ≠ [] := by
      rintro rfl
      exact empty (List.length_eq_zero_iff.mp length.symm)
    have counted := (count_intercalate_eq_iff empty).mpr without
    rw [← same, ← length] at counted
    exact intercalate_injective length ((count_intercalate_eq_iff nonempty).mp counted) without same

end Text

theorem Numeral.not_mem_renderList {c : Char} {vs : List Int} (other : c ≠ ',')
    (without : ∀ v ∈ vs, c ∉ write v) : c ∉ (renderList "," vs).toList := by
  rw [toList_renderList]
  apply Text.not_mem_intercalate
  . simpa using other
  . exact List.forall_mem_map.mpr without

end Intcode
