import Intcode.Proofs.Text.Joining

namespace Intcode

namespace Text

def words (s : List Char) : List (List Char) :=
  (splitAt ' ' s).filter (· ≠ [])

variable {part s : List Char} {parts : List (List Char)}

theorem splitAt_of_whole {separator : Char} (whole : separator ∉ part)
    : splitAt separator part = [part] := by
  induction part with
  | nil => rfl
  | cons c part ih =>
    rw [List.mem_cons, not_or] at whole
    rw [splitAt, if_neg (Ne.symm whole.1), ih whole.2]

theorem words_of_word (nonempty : part ≠ []) (whole : ' ' ∉ part) : words part = [part] := by
  unfold words
  rw [splitAt_of_whole whole, List.filter_cons_of_pos (by simpa using nonempty)]
  rfl

theorem words_word_append (nonempty : part ≠ []) (whole : ' ' ∉ part) (s : List Char)
    : words (part ++ ' ' :: s) = part :: words s := by
  unfold words
  rw [splitAt_of_break whole, List.filter_cons_of_pos (by simpa using nonempty)]

theorem words_blanks_append (n : Nat) (s : List Char)
    : words (List.replicate n ' ' ++ s) = words s := by
  induction n with
  | zero => rfl
  | succ n ih => exact ih

theorem padEnd_append (width : Nat) (part s : List Char)
    : ∃ n, padEnd width ' ' part ++ ' ' :: s = part ++ ' ' :: (List.replicate n ' ' ++ s) := by
  refine ⟨width - part.length, ?_⟩
  rw [padEnd, List.append_assoc, ← List.cons_append, ← List.replicate_succ,
    List.replicate_succ', List.append_assoc]
  rfl

theorem words_padEnd_append (nonempty : part ≠ []) (whole : ' ' ∉ part) (width : Nat)
    (s : List Char) : words (padEnd width ' ' part ++ ' ' :: s) = part :: words s := by
  obtain ⟨n, same⟩ := padEnd_append width part s
  rw [same, words_word_append nonempty whole, words_blanks_append]

theorem words_intercalate_padStart (width : Nat) (parted : ∀ part ∈ parts, part ≠ [] ∧ ' ' ∉ part)
    : words ([' '].intercalate (parts.map (padStart width ' '))) = parts := by
  induction parts with
  | nil => rfl
  | cons part parts ih =>
    obtain ⟨⟨nonempty, whole⟩, parted⟩ := List.forall_mem_cons.mp parted
    have rest := ih parted
    cases parts with
    | nil => simpa [padStart, words_blanks_append] using words_of_word nonempty whole
    | cons next parts =>
      simp only [List.map_cons, List.intercalate_cons_cons] at rest ⊢
      rw [List.append_assoc, padStart, List.append_assoc, words_blanks_append,
        List.singleton_append, words_word_append nonempty whole, rest]

end Text

namespace Numeral

open Text

variable {width n : Nat} {v : Int}

theorem valueOf_zeros_append (k : Nat) (ds : List Nat)
    : valueOf (List.replicate k 0 ++ ds) = valueOf ds := by
  induction k with
  | zero => rfl
  | succ k ih => exact ih

def filledDigits (width n : Nat) : List Nat :=
  List.replicate (width - (digits n).length) 0 ++ digits n

theorem padStart_writeNat (width n : Nat)
    : padStart width '0' (writeNat n) = (filledDigits width n).map digitChar := by
  have zero : digitChar 0 = '0' := rfl
  rw [padStart, filledDigits, List.map_append, List.map_replicate, zero, writeNat, List.length_map]

theorem filledDigits_lt (width n : Nat) : ∀ d ∈ filledDigits width n, d < 10 := by
  intro d mem
  rcases List.mem_append.mp mem with zero | digit
  . rw [(List.mem_replicate.mp zero).2]
    decide
  . exact digits_lt n d digit

theorem filledDigits_ne_nil (width n : Nat) : filledDigits width n ≠ [] :=
  List.append_ne_nil_of_right_ne_nil _ (digits_ne_nil n)

theorem length_filledDigits (width n : Nat)
    : (filledDigits width n).length = max width (digits n).length := by
  rw [filledDigits, List.length_append, List.length_replicate]
  omega

theorem valueOf_filledDigits (width n : Nat) : valueOf (filledDigits width n) = n := by
  rw [filledDigits, valueOf_zeros_append, valueOf_digits]

theorem isMark_of_mem_writeZeroPadded {c : Char} (mem : c ∈ writeZeroPadded width v)
    : IsMark c := by
  have padded (width n : Nat) (mem : c ∈ padStart width '0' (writeNat n)) : IsMark c := by
    rw [padStart_writeNat] at mem
    obtain ⟨d, digit, rfl⟩ := List.mem_map.mp mem
    exact .inr ⟨d, filledDigits_lt width n d digit, rfl⟩
  unfold writeZeroPadded at mem
  split at mem
  . rcases List.mem_cons.mp mem with rfl | digit
    . exact .inl rfl
    . exact padded _ _ digit
  . exact padded _ _ mem

theorem blank_not_mem_writeZeroPadded (width : Nat) (v : Int) : ' ' ∉ writeZeroPadded width v :=
  fun mem => absurd (isMark_of_mem_writeZeroPadded mem).isBlank (by decide)

theorem writeZeroPadded_ne_nil (width : Nat) (v : Int) : writeZeroPadded width v ≠ [] := by
  unfold writeZeroPadded padStart
  split
  . exact List.cons_ne_nil _ _
  . exact List.append_ne_nil_of_right_ne_nil _ (writeNat_ne_nil _)

theorem read_writeZeroPadded (narrow : width ≤ maxDigits) (short : Short v)
    : read (writeZeroPadded width v) = .ok v := by
  have few (width : Nat) (narrow : width ≤ maxDigits)
      : (filledDigits width v.natAbs).length ≤ maxDigits := by
    rw [length_filledDigits]
    exact Nat.max_le.mpr ⟨narrow, short⟩
  unfold read
  rw [trim_of_forall (writeZeroPadded_ne_nil width v)
    fun _ mem => (isMark_of_mem_writeZeroPadded mem).isNumeralBlank]
  unfold writeZeroPadded
  split
  . next negative =>
    rw [padStart_writeNat]
    have value := readNat_map_digitChar (filledDigits_ne_nil _ _) (filledDigits_lt _ _)
      (few (width - 1) (Nat.le_trans (Nat.sub_le width 1) narrow))
    simp only [readSigned]
    rw [value, valueOf_filledDigits]
    show Except.ok (-(v.natAbs : Int)) = .ok v
    congr 1
    omega
  . next nonnegative =>
    rw [padStart_writeNat, readSigned_map_digitChar (filledDigits_ne_nil _ _)
      (filledDigits_lt _ _) (few _ narrow), valueOf_filledDigits]
    congr 1
    omega

end Numeral

end Intcode
