import Intcode.Proofs.Text.Joining
import Intcode.Proofs.Text.Literal
import Intcode.Source
import Mathlib.Data.List.Forall2

namespace Intcode

namespace Text

theorem exists_blanks (blank : Char → Bool) (s : List Char)
    : ∃ start tail, (∀ c ∈ start, blank c = true) ∧ (∀ c ∈ tail, blank c = true)
        ∧ start ++ (trim blank s ++ tail) = s := by
  refine ⟨s.takeWhile blank, ((s.dropWhile blank).reverse.takeWhile blank).reverse, ?_, ?_, ?_⟩
  . intro c mem
    exact List.mem_takeWhile_imp mem
  . intro c mem
    exact List.mem_takeWhile_imp (List.mem_reverse.mp mem)
  . unfold trim trimEnd trimStart
    rw [← List.reverse_append, List.takeWhile_append_dropWhile, List.reverse_reverse,
      List.takeWhile_append_dropWhile]

end Text

namespace Source

open Text Numeral

def fields (text : String) : List (List Char) :=
  (text.toList.splitOn ',').map (trim isBlank)

def filled (text : String) : List (List Char) :=
  (fields text).filter (· ≠ [])

def Unreadable (field : List Char) : Prop :=
  field ≠ [] ∧ ∀ v, ¬ Literal field v

def FirstUnreadable (fields : List (List Char)) (index : Nat) (field : List Char) : Prop :=
  ∃ before after, fields = before ++ field :: after ∧ before.length = index
    ∧ (∀ other ∈ before, ¬ Unreadable other) ∧ Unreadable field

def Blames (start : Nat) (fields : List (List Char)) (fault : Fault) : Prop :=
  ∃ index field, FirstUnreadable fields index field
    ∧ fault = { cause := .unreadableField (start + index) (String.ofList field) }

/--
The parts of the second text are those of the first, with blanks around them and between them.
-/
inductive Loosened : List (List Char) → List (List Char) → Prop where
  | nil : Loosened [] []
  | part {start tail part : List Char} {parts parts' : List (List Char)}
    : (∀ c ∈ start, isBlank c = true) → (∀ c ∈ tail, isBlank c = true) → Loosened parts parts'
      → Loosened (part :: parts) ((start ++ part ++ tail) :: parts')
  | blank {blank : List Char} {parts parts' : List (List Char)}
    : (∀ c ∈ blank, isBlank c = true) → Loosened parts parts' → Loosened parts (blank :: parts')

variable {start : Nat} {parts parts' : List (List Char)} {image : List Int} {fault : Fault}

theorem read_trim {part : List Char} {v : Int}
    : Numeral.read (trim isBlank part) = .ok v ↔ Literal (trim isBlank part) v := by
  unfold Numeral.read
  rw [trim_trim (fun _ => isBlank_of_isNumeralBlank), readSigned_eq_ok_iff]

theorem readFields_eq_ok_iff
    : readFields start parts = .ok image
        ↔ List.Forall₂ Literal ((parts.map (trim isBlank)).filter (· ≠ [])) image := by
  induction parts generalizing start image with
  | nil => simp [readFields, eq_comm]
  | cons part parts ih =>
    unfold readFields
    rw [List.map_cons]
    generalize same : trim isBlank part = field
    dsimp only
    by_cases empty : field = []
    . rw [if_pos (List.isEmpty_iff.mpr empty), ih, List.filter_cons_of_neg (by simpa using empty)]
    . rw [if_neg (by simpa using empty), List.filter_cons_of_pos (by simpa using empty),
        List.forall₂_cons_left_iff]
      have literal (v : Int) : Numeral.read field = .ok v ↔ Literal field v := by
        rw [← same, read_trim]
      cases read : Numeral.read field with
      | error e => simp [← literal, read]
      | ok v =>
        dsimp only
        rw [map_eq_ok_iff]
        simp only [ih, ← literal, read, eq_comm]
        simp

theorem firstUnreadable_cons_iff {field other : List Char} {index : Nat}
    : FirstUnreadable (other :: parts) index field
        ↔ index = 0 ∧ field = other ∧ Unreadable other
          ∨ ¬ Unreadable other ∧ ∃ i, index = i + 1 ∧ FirstUnreadable parts i field := by
  constructor
  . rintro ⟨before, after, split, rfl, readable, unreadable⟩
    cases before with
    | nil =>
      cases split
      exact .inl ⟨rfl, rfl, unreadable⟩
    | cons first before =>
      cases split
      obtain ⟨first, readable⟩ := List.forall_mem_cons.mp readable
      exact .inr ⟨first, _, rfl, before, after, rfl, rfl, readable, unreadable⟩
  . rintro (⟨rfl, rfl, unreadable⟩ | ⟨first, i, rfl, before, after, rfl, rfl, readable, unreadable⟩)
    . exact ⟨[], parts, rfl, rfl, List.forall_mem_nil _, unreadable⟩
    . exact ⟨other :: before, after, rfl, rfl, List.forall_mem_cons.mpr ⟨first, readable⟩, unreadable⟩

theorem blames_cons_of_unreadable {field : List Char} (unreadable : Unreadable field)
    : Blames start (field :: parts) fault
        ↔ fault = { cause := .unreadableField start (String.ofList field) } := by
  constructor
  . rintro ⟨index, other, first, rfl⟩
    obtain ⟨rfl, rfl, -⟩ | ⟨readable, -⟩ := firstUnreadable_cons_iff.mp first
    . rfl
    . exact absurd unreadable readable
  . rintro rfl
    exact ⟨0, field, firstUnreadable_cons_iff.mpr (.inl ⟨rfl, rfl, unreadable⟩), rfl⟩

theorem blames_cons_of_readable {field : List Char} (readable : ¬ Unreadable field)
    : Blames start (field :: parts) fault ↔ Blames (start + 1) parts fault := by
  constructor
  . rintro ⟨index, other, first, rfl⟩
    obtain ⟨-, -, unreadable⟩ | ⟨-, i, rfl, rest⟩ := firstUnreadable_cons_iff.mp first
    . exact absurd unreadable readable
    . refine ⟨i, other, rest, ?_⟩
      rw [Nat.add_right_comm, Nat.add_assoc]
  . rintro ⟨i, other, first, rfl⟩
    refine ⟨i + 1, other, firstUnreadable_cons_iff.mpr (.inr ⟨readable, i, rfl, first⟩), ?_⟩
    rw [Nat.add_right_comm, Nat.add_assoc]

theorem readFields_eq_error_iff
    : readFields start parts = .error fault
        ↔ Blames start (parts.map (trim isBlank)) fault := by
  induction parts generalizing start with
  | nil => simp [readFields, Blames, FirstUnreadable]
  | cons part parts ih =>
    unfold readFields
    rw [List.map_cons]
    have read := @read_trim part
    generalize trim isBlank part = field at read ⊢
    by_cases empty : field = []
    . have readable : ¬ Unreadable field := fun unreadable => unreadable.1 empty
      rw [if_pos (List.isEmpty_iff.mpr empty), ih, blames_cons_of_readable readable]
    . rw [if_neg (by simpa using empty)]
      cases value : Numeral.read field with
      | error e =>
        have unreadable : Unreadable field := by
          refine ⟨empty, ?_⟩
          intro v literal
          rw [read.mpr literal] at value
          contradiction
        rw [blames_cons_of_unreadable unreadable]
        simp [eq_comm]
      | ok v =>
        have readable : ¬ Unreadable field := fun unreadable => unreadable.2 v (read.mp value)
        dsimp only
        rw [map_eq_error_iff, ih, blames_cons_of_readable readable]

section

variable {text : String}

theorem readFields_eq_ok_iff_filled
    : readFields 0 (splitAt ',' text.toList) = .ok image
        ↔ List.Forall₂ Literal (filled text) image := by
  rw [splitAt_eq, readFields_eq_ok_iff]
  rfl

theorem readFields_eq_error_iff_fields
    : readFields 0 (splitAt ',' text.toList) = .error fault
        ↔ ∃ index field, FirstUnreadable (fields text) index field
          ∧ fault = { cause := .unreadableField index (String.ofList field) } := by
  rw [splitAt_eq, readFields_eq_error_iff]
  unfold Blames
  simp only [Nat.zero_add]
  rfl

theorem filled_eq_nil_iff : filled text = [] ↔ ∀ field ∈ fields text, field = [] := by
  unfold filled
  simp

theorem parse_eq_ok_iff
    : parse text = .ok image ↔ filled text ≠ [] ∧ List.Forall₂ Literal (filled text) image := by
  rw [← readFields_eq_ok_iff_filled]
  unfold parse
  cases result : readFields 0 (splitAt ',' text.toList) with
  | error fault => simp
  | ok image' =>
    have read := readFields_eq_ok_iff_filled.mp result
    cases image' with
    | nil => simp [List.forall₂_nil_right_iff.mp read]
    | cons v image' =>
      have some : filled text ≠ [] := by
        intro none
        rw [none] at read
        cases read
      simp [some]

theorem parse_eq_error_iff
    : parse text = .error fault
        ↔ (∃ index field, FirstUnreadable (fields text) index field
            ∧ fault = { cause := .unreadableField index (String.ofList field) })
          ∨ (∀ field ∈ fields text, field = []) ∧ fault = { cause := .emptyProgram } := by
  rw [← readFields_eq_error_iff_fields, ← filled_eq_nil_iff]
  unfold parse
  cases result : readFields 0 (splitAt ',' text.toList) with
  | error fault' =>
    -- A field that cannot be read holds something.
    have some : filled text ≠ [] := by
      rw [ne_eq, filled_eq_nil_iff]
      intro none
      obtain ⟨_, field, ⟨before, after, split, -, -, unreadable⟩, -⟩ :=
        readFields_eq_error_iff_fields.mp result
      apply unreadable.1
      apply none
      rw [split]
      exact List.mem_append_right _ List.mem_cons_self
    simp [some]
  | ok image =>
    have read := readFields_eq_ok_iff_filled.mp result
    cases image with
    | nil => simp [List.forall₂_nil_right_iff.mp read, eq_comm]
    | cons v image =>
      have some : filled text ≠ [] := by
        intro none
        rw [none] at read
        cases read
      simp [some]

end

theorem parse_of_fields {text text' : String} (same : fields text' = fields text)
    : parse text' = parse text := by
  cases result : parse text with
  | ok image =>
    rw [parse_eq_ok_iff] at result ⊢
    unfold filled at result ⊢
    rwa [same]
  | error fault =>
    rw [parse_eq_error_iff] at result ⊢
    rwa [same]

theorem exists_firstUnreadable {fields : List (List Char)} {field : List Char} (mem : field ∈ fields)
    (unreadable : Unreadable field) : ∃ index first, FirstUnreadable fields index first := by
  induction fields with
  | nil => contradiction
  | cons other fields ih =>
    by_cases here : Unreadable other
    . exact ⟨0, other, firstUnreadable_cons_iff.mpr (.inl ⟨rfl, rfl, here⟩)⟩
    . have mem : field ∈ fields := by
        refine (List.mem_cons.mp mem).resolve_left ?_
        rintro rfl
        contradiction
      obtain ⟨index, first, found⟩ := ih mem
      exact ⟨index + 1, first, firstUnreadable_cons_iff.mpr (.inr ⟨here, index, rfl, found⟩)⟩

theorem fields_append (a b : String) : fields (a ++ "," ++ b) = fields a ++ fields b := by
  unfold fields
  rw [String.toList_append, String.toList_append, List.append_assoc]
  show ((a.toList ++ ',' :: b.toList).splitOn ',').map _ = _
  rw [List.splitOn_append_cons_self, List.map_append]

theorem length_fields (text : String) : (fields text).length = text.toList.count ',' + 1 := by
  unfold fields
  rw [List.length_map, ← splitAt_eq, splitAt_length]

section

variable {a b : String} {xs ys : List Int}

theorem parse_append (first : parse a = .ok xs) (second : parse b = .ok ys)
    : parse (a ++ "," ++ b) = .ok (xs ++ ys) := by
  obtain ⟨some, first⟩ := parse_eq_ok_iff.mp first
  obtain ⟨-, second⟩ := parse_eq_ok_iff.mp second
  have joined : filled (a ++ "," ++ b) = filled a ++ filled b := by
    unfold filled
    rw [fields_append, List.filter_append]
  rw [parse_eq_ok_iff, joined]
  exact ⟨List.append_ne_nil_of_left_ne_nil some _, List.rel_append first second⟩

theorem parse_append_unreadable {index : Nat} {field : String}
    (first : ∀ index field, parse a ≠ .error { cause := .unreadableField index field })
    (second : parse b = .error { cause := .unreadableField index field })
    : parse (a ++ "," ++ b)
        = .error { cause := .unreadableField (index + 1 + a.toList.count ',') field } := by
  have readable : ∀ other ∈ fields a, ¬ Unreadable other := by
    intro other mem unreadable
    obtain ⟨index, field, found⟩ := exists_firstUnreadable mem unreadable
    exact first _ _ (parse_eq_error_iff.mpr (.inl ⟨index, field, found, rfl⟩))
  obtain ⟨index, field, ⟨before, after, split, rfl, others, unreadable⟩, same⟩ | ⟨-, same⟩ :=
    parse_eq_error_iff.mp second
  . cases same
    rw [parse_eq_error_iff, fields_append, split]
    refine .inl ⟨(fields a ++ before).length, field, ?_, ?_⟩
    . refine ⟨fields a ++ before, after, (List.append_assoc _ _ _).symm, rfl, ?_, unreadable⟩
      exact List.forall_mem_append.mpr ⟨readable, others⟩
    . rw [List.length_append, length_fields]
      congr 2
      omega
  . cases same

end

theorem Loosened.filled_eq (h : Loosened parts parts')
    : (parts'.map (trim isBlank)).filter (· ≠ []) = (parts.map (trim isBlank)).filter (· ≠ []) := by
  induction h with
  | nil => rfl
  | part start tail _ ih =>
    rw [List.map_cons, List.map_cons, trim_append_of_blank _ tail, trim_append_of_blank_start start,
      List.filter_cons, List.filter_cons, ih]
  | @blank blank parts parts' blanks _ ih =>
    have nothing : trim isBlank (blank ++ []) = [] := trim_append_of_blank_start blanks []
    rw [List.append_nil] at nothing
    rw [List.map_cons, nothing, List.filter_cons_of_neg (by simp), ih]

theorem comma_not_mem {blanks : List Char} (h : ∀ c ∈ blanks, isBlank c = true) : ',' ∉ blanks := by
  intro mem
  have blank := h ',' mem
  contradiction

theorem fields_of_blank_start {blanks : List Char} (h : ∀ c ∈ blanks, isBlank c = true)
    (s : List Char)
    : ((blanks ++ s).splitOn ',').map (trim isBlank) = (s.splitOn ',').map (trim isBlank) := by
  induction blanks with
  | nil => rfl
  | cons c blanks ih =>
    have other : ',' ≠ c ∧ ',' ∉ blanks := by simpa using comma_not_mem h
    obtain ⟨first, rest⟩ := List.forall_mem_cons.mp h
    obtain ⟨part, parts, split⟩ :=
      List.exists_cons_of_ne_nil (List.splitOn_ne_nil ',' (blanks ++ s))
    rw [← ih rest, List.cons_append, List.splitOn_cons_eq_if_modifyHead,
      if_neg (by simpa using other.1.symm), split]
    have same : trim isBlank ([c] ++ part) = trim isBlank part :=
      trim_append_of_blank_start (List.forall_mem_singleton.mpr first) part
    exact congrArg (· :: parts.map (trim isBlank)) same

theorem splitOn_append_of_blank {blanks : List Char} (h : ∀ c ∈ blanks, isBlank c = true)
    (s : List Char)
    : ∃ parts last, s.splitOn ',' = parts ++ [last]
        ∧ (s ++ blanks).splitOn ',' = parts ++ [last ++ blanks] := by
  induction s with
  | nil => exact ⟨[], [], rfl, List.splitOn_eq_singleton (comma_not_mem h)⟩
  | cons c s ih =>
    obtain ⟨parts, last, split, split'⟩ := ih
    rw [List.cons_append, List.splitOn_cons_eq_if_modifyHead, List.splitOn_cons_eq_if_modifyHead,
      split, split']
    split
    . exact ⟨[] :: parts, last, rfl, rfl⟩
    . cases parts with
      | nil => exact ⟨[], c :: last, rfl, rfl⟩
      | cons part parts => exact ⟨(c :: part) :: parts, last, rfl, rfl⟩

theorem fields_trim (text : String)
    : fields (String.ofList (trim isBlank text.toList)) = fields text := by
  obtain ⟨start, tail, blanks, blanks', whole⟩ := exists_blanks isBlank text.toList
  unfold fields
  rw [String.toList_ofList]
  generalize trim isBlank text.toList = s at whole ⊢
  obtain ⟨parts, last, split, split'⟩ := splitOn_append_of_blank blanks' s
  rw [← whole, fields_of_blank_start blanks, split, split', List.map_append, List.map_append,
    List.map_singleton, List.map_singleton, trim_append_of_blank _ blanks']

/--
A text is a program if not all of its fields are blank and those that are not are literals, and it
is the list of their values. Otherwise it is the number of the first field that is neither that is
told, or -1. So it makes no difference what blanks there are around the fields, and the fields of
two texts that are joined are read one after the other.
-/
theorem parse_by_fields (text : String)
    : (∀ image, parse text = .ok image
        ↔ filled text ≠ [] ∧ List.Forall₂ Literal (filled text) image)
      ∧ (∀ fault, parse text = .error fault
        ↔ (∃ index field, FirstUnreadable (fields text) index field
            ∧ fault = { cause := .unreadableField index (String.ofList field) }
            ∧ fault.cause.field? = some (index : Int))
          ∨ (∀ field ∈ fields text, field = []) ∧ fault = { cause := .emptyProgram }
            ∧ fault.cause.field? = some (-1))
      ∧ parse (String.ofList (trim isBlank text.toList)) = parse text
      ∧ (∀ text' image, Loosened (text.toList.splitOn ',') (text'.toList.splitOn ',')
        → (parse text' = .ok image ↔ parse text = .ok image))
      ∧ (∀ text' xs ys, parse text = .ok xs → parse text' = .ok ys
        → parse (text ++ "," ++ text') = .ok (xs ++ ys))
      ∧ ∀ text' index field,
        (∀ index field, parse text ≠ .error { cause := .unreadableField index field })
          → parse text' = .error { cause := .unreadableField index field }
          → parse (text ++ "," ++ text')
              = .error { cause := .unreadableField (index + 1 + text.toList.count ',') field } := by
  refine ⟨fun _ => parse_eq_ok_iff, ?_, ?_, ?_, fun _ _ _ => parse_append,
    fun _ _ _ => parse_append_unreadable⟩
  . intro fault
    rw [parse_eq_error_iff]
    constructor
    . rintro (⟨index, field, first, rfl⟩ | ⟨blank, rfl⟩)
      . exact .inl ⟨index, field, first, rfl, rfl⟩
      . exact .inr ⟨blank, rfl, rfl⟩
    . rintro (⟨index, field, first, rfl, -⟩ | ⟨blank, rfl, -⟩)
      . exact .inl ⟨index, field, first, rfl⟩
      . exact .inr ⟨blank, rfl⟩
  . exact parse_of_fields (fields_trim text)
  . intro text' image loosened
    have same : filled text' = filled text := loosened.filled_eq
    rw [parse_eq_ok_iff, parse_eq_ok_iff, same]

theorem parse_by_fields_scripts
    : let text := "+1_0,-\u0663"
      let text' := " +1_0 ,\t,-\u0663\n"
      parse text = .ok [10, -3]
        ∧ Loosened (text.toList.splitOn ',') (text'.toList.splitOn ',')
        ∧ parse text' = .ok [10, -3]
        ∧ parse "7" = .ok [7] ∧ parse (text ++ "," ++ "7") = .ok [10, -3, 7]
        ∧ (∀ index field, parse text ≠ .error { cause := .unreadableField index field })
        ∧ parse "7,1 2" = .error { cause := .unreadableField 1 "1 2" }
        ∧ parse (text ++ "," ++ "7,1 2") = .error { cause := .unreadableField 3 "1 2" } := by
  intro text text'
  have value : parse text = .ok [10, -3] := by decide +kernel
  have split : text.toList.splitOn ',' = [['+', '1', '_', '0'], ['-', '\u0663']] := by
    decide +kernel
  have split' : text'.toList.splitOn ','
      = [[' '] ++ ['+', '1', '_', '0'] ++ [' '], ['\t'], [] ++ ['-', '\u0663'] ++ ['\n']] := by
    decide +kernel
  have loosened : Loosened (text.toList.splitOn ',') (text'.toList.splitOn ',') := by
    have one {c : Char} (blank : isBlank c = true) : ∀ c' ∈ [c], isBlank c' = true :=
      List.forall_mem_singleton.mpr blank
    rw [split, split']
    exact .part (one rfl) (one rfl) (.blank (one rfl) (.part (List.forall_mem_nil _) (one rfl) .nil))
  have seven : parse "7" = .ok [7] := by decide +kernel
  have bad : parse "7,1 2" = .error { cause := .unreadableField 1 "1 2" } := by decide +kernel
  have accepted : ∀ index field, parse text ≠ .error { cause := .unreadableField index field } := by
    rw [value]
    nofun
  have commas : text.toList.count ',' = 1 := by decide +kernel
  obtain ⟨-, -, -, loose, joined, blamed⟩ := parse_by_fields text
  have blamed := blamed "7,1 2" 1 "1 2" accepted bad
  rw [commas] at blamed
  exact ⟨value, loosened, (loose _ _ loosened).mpr value, seven, joined _ _ _ value seven, accepted,
    bad, blamed⟩

end Source

end Intcode
