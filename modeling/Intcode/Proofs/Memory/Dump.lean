import Intcode.Proofs.Instruction.Listing

namespace Intcode

namespace Memory

open Numeral Text

variable {m n : Memory} {first last start stop addr perLine : Int}

def shown (text : String) : List (List Char) :=
  (splitAt '\n' text.toList).flatMap fun line => (words line).tail

def rows (m : Memory) (start stop perLine : Int) : List (Int × List Int) :=
  (heads start stop perLine).map fun addr =>
    (addr, (Int.range addr (min (addr + perLine) stop)).map m.peek)

def rowText (addr : Int) (row : List Int) : String :=
  String.ofList (writeZeroPadded 6 addr) ++ "  "
    ++ " ".intercalate (row.map fun v => String.ofList (padStart 8 ' ' (Numeral.write v)))

def RowWritable (row : Int × List Int) : Prop :=
  ∀ v ∈ row.1 :: row.2, Short v

instance (row : Int × List Int) : Decidable (RowWritable row) :=
  inferInstanceAs (Decidable (∀ v ∈ row.1 :: row.2, Short v))

theorem toList_rowText (addr : Int) (row : List Int)
    : (rowText addr row).toList
        = writeZeroPadded 6 addr ++ ' ' :: ' ' ::
            [' '].intercalate ((row.map Numeral.write).map (padStart 8 ' ')) := by
  simp [rowText, Function.comp_def]

theorem words_rowText (addr : Int) (row : List Int)
    : words (rowText addr row).toList = writeZeroPadded 6 addr :: row.map Numeral.write := by
  have whole := blank_not_mem_writeZeroPadded 6 addr
  have parted : ∀ part ∈ row.map Numeral.write, part ≠ [] ∧ ' ' ∉ part := by
    intro part mem
    obtain ⟨v, -, rfl⟩ := List.mem_map.mp mem
    exact ⟨write_ne_nil v, fun mem => absurd (isMark_of_mem_write mem).isBlank (by decide)⟩
  rw [toList_rowText, words_word_append (writeZeroPadded_ne_nil 6 addr) whole]
  exact congrArg _ ((words_blanks_append 1 _).trans (words_intercalate_padStart 8 parted))

theorem newline_not_mem_rowText (addr : Int) (row : List Int)
    : '\n' ∉ (rowText addr row).toList := by
  have unmarked : ¬ IsMark '\n' := fun mark => absurd mark.isBlank (by decide)
  have parted : ∀ part ∈ (row.map Numeral.write).map (padStart 8 ' '), '\n' ∉ part := by
    intro part mem
    obtain ⟨_, written, rfl⟩ := List.mem_map.mp mem
    obtain ⟨v, -, rfl⟩ := List.mem_map.mp written
    rw [padStart, List.mem_append, List.mem_replicate, not_or]
    exact ⟨fun fill => absurd fill.2 (by decide), fun mem => unmarked (isMark_of_mem_write mem)⟩
  rw [toList_rowText]
  simp only [List.mem_append, List.mem_cons, not_or]
  exact ⟨fun mem => unmarked (isMark_of_mem_writeZeroPadded mem), by decide, by decide,
    not_mem_intercalate (by decide) parted⟩

theorem shown_joinLines {lines : List String} (unbroken : ∀ line ∈ lines, '\n' ∉ line.toList)
    : shown (joinLines lines) = lines.flatMap fun line => (words line.toList).tail := by
  unfold shown joinLines
  rw [String.toList_intercalate, splitAt_eq]
  by_cases empty : lines = []
  . subst empty
    rfl
  . rw [show "\n".toList = ['\n'] from rfl, List.splitOn_intercalate]
    . rw [List.flatMap_map]
    . exact List.forall_mem_map.mpr unbroken
    . simpa using empty

theorem shown_rows (rows : List (Int × List Int))
    : shown (joinLines (rows.map fun row => rowText row.1 row.2))
        = (rows.flatMap (·.2)).map Numeral.write := by
  rw [shown_joinLines]
  . rw [List.flatMap_map, List.map_flatMap]
    congr 1
    funext row
    rw [words_rowText, List.tail_cons]
  . intro line mem
    obtain ⟨row, -, rfl⟩ := List.mem_map.mp mem
    exact newline_not_mem_rowText row.1 row.2

theorem getElem?_heads (positive : 0 < perLine) (i : Nat)
    : (heads start stop perLine)[i]?
        = if start + i * perLine < stop then some (start + i * perLine) else none := by
  have counted : i < ((stop - start + perLine - 1) / perLine).toNat
      ↔ start + i * perLine < stop := by
    have whole := Int.le_ediv_iff_mul_le (a := i + 1) (b := stop - start + perLine - 1) positive
    rw [Int.add_mul, Int.one_mul] at whole
    omega
  unfold heads
  rw [if_pos positive, List.getElem?_map]
  by_cases inside : start + i * perLine < stop
  . rw [if_pos inside, List.getElem?_range (counted.mpr inside)]
    rfl
  . rw [if_neg inside, List.getElem?_eq_none]
    . rfl
    . rw [List.length_range]
      exact Nat.not_lt.mp fun less => inside (counted.mp less)

theorem between_eq (inside : 0 ≤ first) (ordered : first ≤ last) (bounded : last ≤ m.size)
    : m.between first last = (Int.range first last).map m.peek := by
  have place (i : Int) (inside : 0 ≤ i) (bounded : i ≤ m.size) : m.place i = i.toNat := by
    unfold place
    rw [if_neg (by omega)]
    omega
  have size : m.size = m.cells.size := rfl
  unfold between Int.range
  rw [place first inside (by omega), place last (by omega) bounded]
  apply List.ext_getElem
  . simp only [Array.toList_extract, List.length_map, List.length_range]
    simp
    omega
  . intro i here _
    have there : first.toNat + i < m.cells.size := by
      simp at here
      omega
    simp only [List.getElem_map, List.getElem_range, peek]
    rw [if_neg (by omega), show (first + i).toNat = first.toNat + i by omega]
    simp [there]

theorem flatMap_ranges (ordered : start ≤ stop) (positive : 0 < perLine) (count : Nat)
    : ((List.range count).map fun (i : Nat) => start + i * perLine).flatMap
          (fun addr => Int.range addr (min (addr + perLine) stop))
        = Int.range start (min (start + count * perLine) stop) := by
  induction count with
  | zero =>
    rw [Int.natCast_zero, Int.zero_mul, Int.add_zero, Int.min_eq_left ordered]
    exact (Listing.range_of_le (Int.le_refl start)).symm
  | succ count ih =>
    have behind : start ≤ start + count * perLine :=
      Int.le_add_of_nonneg_right (Int.mul_nonneg (Int.natCast_nonneg count) (Int.le_of_lt positive))
    rw [List.range_succ, List.map_append, List.flatMap_append, ih, List.map_singleton,
      List.flatMap_singleton, Int.natCast_succ, Int.add_mul, Int.one_mul, ← Int.add_assoc]
    generalize start + count * perLine = head at *
    obtain more | done := Int.le_total head stop
    . rw [Int.min_eq_left more]
      apply Listing.range_append
      . omega
      . omega
    . have empty : Int.range head (min (head + perLine) stop) = [] :=
        Listing.range_of_le (by omega)
      rw [empty, List.append_nil, Int.min_eq_right done, Int.min_eq_right (by omega)]

theorem mem_heads (positive : 0 < perLine) (mem : addr ∈ heads start stop perLine)
    : start ≤ addr ∧ addr < stop := by
  obtain ⟨i, at_i⟩ := List.mem_iff_getElem?.mp mem
  rw [getElem?_heads positive] at at_i
  split at at_i
  . next inside =>
    cases at_i
    have behind : 0 ≤ i * perLine :=
      Int.mul_nonneg (Int.natCast_nonneg i) (Int.le_of_lt positive)
    exact ⟨Int.le_add_of_nonneg_right behind, inside⟩
  . contradiction

theorem flatMap_heads (positive : 0 < perLine)
    : (heads start stop perLine).flatMap (fun addr => Int.range addr (min (addr + perLine) stop))
        = Int.range start stop := by
  by_cases nonempty : start < stop
  . obtain ⟨count, all⟩ : ∃ count, heads start stop perLine
        = (List.range count).map fun (i : Nat) => start + i * perLine := ⟨_, rfl⟩
    have next := @getElem?_heads start stop perLine positive count
    rw [all, List.getElem?_eq_none (by simp)] at next
    have done : ¬ start + count * perLine < stop := by
      intro more
      rw [if_pos more] at next
      contradiction
    rw [all, flatMap_ranges (Int.le_of_lt nonempty) positive,
      Int.min_eq_right (Int.not_lt.mp done)]
  . have none : heads start stop perLine = [] := by
      apply List.eq_nil_iff_forall_not_mem.mpr
      intro addr mem
      have bounds := mem_heads positive mem
      omega
    rw [none, Listing.range_of_le (Int.not_lt.mp nonempty)]
    rfl

theorem flatMap_rows (m : Memory) (positive : 0 < perLine)
    : (m.rows start stop perLine).flatMap (·.2) = (Int.range start stop).map m.peek := by
  rw [← flatMap_heads positive, List.map_flatMap]
  unfold rows
  rw [List.flatMap_map]

theorem getElem?_rows {i : Nat} {row : Int × List Int} (positive : 0 < perLine)
    (here : (m.rows start stop perLine)[i]? = some row)
    : row.1 = start + i * perLine ∧ row.1 < stop
        ∧ row.2 = (Int.range row.1 (min (row.1 + perLine) stop)).map m.peek := by
  unfold rows at here
  rw [List.getElem?_map, getElem?_heads positive] at here
  split at here
  . next inside =>
    cases here
    exact ⟨rfl, inside, rfl⟩
  . contradiction

theorem length_rows (positive : 0 < perLine) (i : Nat)
    : i < (m.rows start stop perLine).length ↔ start + i * perLine < stop := by
  have found := @getElem?_heads start stop perLine positive i
  unfold rows
  rw [List.length_map]
  by_cases inside : start + i * perLine < stop
  . rw [if_pos inside] at found
    exact ⟨fun _ => inside, fun _ => (List.getElem?_eq_some_iff.mp found).1⟩
  . rw [if_neg inside] at found
    exact ⟨fun less => absurd less (Nat.not_lt.mpr (List.getElem?_eq_none_iff.mp found)),
      fun more => absurd more inside⟩

theorem length_row {i : Nat} {row : Int × List Int} (positive : 0 < perLine)
    (here : (m.rows start stop perLine)[i]? = some row)
    : row.2 ≠ []
        ∧ (i + 1 < (m.rows start stop perLine).length → row.2.length = perLine) := by
  obtain ⟨head, inside, cells⟩ := getElem?_rows positive here
  have length : row.2.length = (min (row.1 + perLine) stop - row.1).toNat := by
    rw [cells, List.length_map, Int.range, List.length_map, List.length_range]
  constructor
  . apply List.ne_nil_of_length_pos
    omega
  . intro more
    rw [length_rows positive, Int.natCast_succ, Int.add_mul, Int.one_mul, ← Int.add_assoc,
      ← head] at more
    omega

theorem mapM_dumpLine (rows : List (Int × List Int))
    : (rows.mapM fun row => dumpLine row.1 row.2)
        =
      if ∀ row ∈ rows, RowWritable row then
        .ok (rows.map fun row => rowText row.1 row.2)
      else
        .error .unwritable := by
  induction rows with
  | nil => rfl
  | cons row rows ih =>
    rw [List.mapM_cons, ih]
    unfold dumpLine
    by_cases first : RowWritable row
    . rw [writing_of_short first]
      by_cases rest : ∀ row ∈ rows, RowWritable row
      . rw [if_pos rest, if_pos (List.forall_mem_cons.mpr ⟨first, rest⟩)]
        rfl
      . rw [if_neg rest, if_neg (fun all => rest (List.forall_mem_cons.mp all).2)]
        rfl
    . rw [writing_of_long first, if_neg (fun all => first (List.forall_mem_cons.mp all).1)]
      rfl

theorem dump_eq (m : Memory) (length : Int) (inside : 0 ≤ start) (positive : 0 < perLine)
    : m.dump start length perLine
        = ((m.rows start (min (start + length) m.size) perLine).mapM fun row =>
            dumpLine row.1 row.2).map joinLines := by
  have rows : (heads start (min (start + length) m.size) perLine).map (fun addr =>
        (addr, m.between addr (min (addr + perLine) (min (start + length) m.size))))
      = m.rows start (min (start + length) m.size) perLine := by
    apply List.map_congr_left
    intro addr mem
    have bounds := mem_heads positive mem
    rw [between_eq (by omega) (by omega) (by omega)]
  rw [← rows, List.mapM_map]
  unfold dump dumpLines
  rw [if_neg (Int.ne_of_gt positive)]
  rfl

theorem dump_of_writable {length : Int} (inside : 0 ≤ start) (positive : 0 < perLine)
    (writable : ∀ row ∈ m.rows start (min (start + length) m.size) perLine, RowWritable row)
    : m.dump start length perLine
        = .ok (joinLines ((m.rows start (min (start + length) m.size) perLine).map fun row =>
            rowText row.1 row.2)) := by
  rw [dump_eq m length inside positive, mapM_dumpLine, if_pos writable]
  rfl

theorem dump_of_unwritable {length : Int} (inside : 0 ≤ start) (positive : 0 < perLine)
    (unwritable
      : ¬ ∀ row ∈ m.rows start (min (start + length) m.size) perLine, RowWritable row)
    : m.dump start length perLine = .error .unwritable := by
  rw [dump_eq m length inside positive, mapM_dumpLine, if_neg unwritable]
  rfl

theorem eq_unwritable_of_dump {length : Int} {e : Failure} (inside : 0 ≤ start)
    (positive : 0 < perLine) (failed : m.dump start length perLine = .error e)
    : e = .unwritable := by
  by_cases writable : ∀ row ∈ m.rows start (min (start + length) m.size) perLine, RowWritable row
  . rw [dump_of_writable inside positive writable] at failed
    contradiction
  . rw [dump_of_unwritable inside positive writable] at failed
    exact (Except.error.inj failed).symm

theorem shown_of_dump {length : Int} {text : String} (inside : 0 ≤ start) (positive : 0 < perLine)
    (dumped : m.dump start length perLine = .ok text)
    : shown text
        = ((Int.range start (min (start + length) m.size)).map m.peek).map Numeral.write := by
  by_cases writable : ∀ row ∈ m.rows start (min (start + length) m.size) perLine, RowWritable row
  . rw [dump_of_writable inside positive writable] at dumped
    rw [← Except.ok.inj dumped, shown_rows, flatMap_rows m positive]
  . rw [dump_of_unwritable inside positive writable] at dumped
    contradiction

theorem perform_dump_of_ok {length : Int} {text : String}
    (dumped : m.dump start length perLine = .ok text)
    : (Request.dump start length perLine).perform m = (.text text, m) := by
  simp only [Request.perform, dumped]

theorem perform_dump_of_error {length : Int} {e : Failure}
    (failed : m.dump start length perLine = .error e)
    : (Request.dump start length perLine).perform m = (.failed e, m) := by
  simp only [Request.perform, failed]

theorem cells_eq_range (m : Memory) : m.cells.toList = (Int.range 0 m.size).map m.peek := by
  have all := between_eq (m := m) (Int.le_refl 0) (Int.natCast_nonneg m.size) (Int.le_refl m.size)
  rw [← all]
  simp [between, place, size, Int.not_lt.mpr (Int.natCast_nonneg m.cells.size)]

theorem cells_of_dump {length length' perLine' : Int} {text : String} (long : m.size ≤ length)
    (long' : n.size ≤ length') (positive : 0 < perLine) (positive' : 0 < perLine')
    (dumped : m.dump 0 length perLine = .ok text) (dumped' : n.dump 0 length' perLine' = .ok text)
    : n.cells = m.cells := by
  have values := (shown_of_dump (Int.le_refl 0) positive' dumped').symm.trans
    (shown_of_dump (Int.le_refl 0) positive dumped)
  rw [Int.zero_add, Int.zero_add, Int.min_eq_right long, Int.min_eq_right long', ← cells_eq_range,
    ← cells_eq_range] at values
  exact Array.toList_inj.mp (List.map_injective_iff.mpr write_injective values)

def Columns (lines : List String) (rows : List (Int × List Int)) : Prop :=
  List.Forall₂ (fun line row => ∃ head,
    words line.toList = head :: row.2.map Numeral.write ∧ Numeral.read head = .ok row.1) lines rows

theorem columns_rowText {rows : List (Int × List Int)} (writable : ∀ row ∈ rows, RowWritable row)
    : Columns (rows.map fun row => rowText row.1 row.2) rows := by
  unfold Columns
  rw [List.forall₂_map_left_iff, List.forall₂_same]
  intro row mem
  exact ⟨_, words_rowText row.1 row.2,
    read_writeZeroPadded (by decide) (writable row mem row.1 List.mem_cons_self)⟩

/--
Each line of a dump has the address of its first cell and the cells from there on, as many as there
are to be in a line unless it is the last one. Together the lines have the cells of the window, up
to the end of the memory, and a dump of all of it tells what the memory holds. There is no dump of a
window with a number that has too many digits to be written.
-/
theorem dump_shows_window (m : Memory) {start perLine : Int} (length : Int) (inside : 0 ≤ start)
    (positive : 1 ≤ perLine)
    : let stop := min (start + length) m.size
      ∃ rows : List (Int × List Int),
        ((∀ row ∈ rows, ∀ v ∈ row.1 :: row.2, Short v) → ∃ lines : List String,
            (Request.dump start length perLine).perform m = (.text (joinLines lines), m)
              ∧ (∀ line ∈ lines, '\n' ∉ line.toList)
              ∧ Columns lines rows)
          ∧ ((∃ row ∈ rows, ∃ v ∈ row.1 :: row.2, ¬ Short v) →
            (Request.dump start length perLine).perform m = (.failed .unwritable, m))
          ∧ (∀ i : Nat, i < rows.length ↔ start + i * perLine < stop)
          ∧ (∀ (i : Nat) row, rows[i]? = some row → row.1 = start + i * perLine)
          ∧ rows.flatMap (·.2) = (Int.range start stop).map m.peek
          ∧ (∀ (i : Nat) row, rows[i]? = some row →
            row.2 ≠ [] ∧ (i + 1 < rows.length → row.2.length = perLine))
          ∧ ∀ (n : Memory) (long long' perLine' : Int) text, m.size ≤ long → n.size ≤ long'
            → 1 ≤ perLine' → m.dump 0 long perLine = .ok text → n.dump 0 long' perLine' = .ok text
            → n.cells = m.cells := by
  intro stop
  refine ⟨m.rows start stop perLine, ?_, ?_, length_rows positive,
    fun _ _ here => (getElem?_rows positive here).1, flatMap_rows m positive,
    fun _ _ => length_row positive, ?_⟩
  . intro writable
    refine ⟨_, perform_dump_of_ok (dump_of_writable inside positive writable), ?_,
      columns_rowText writable⟩
    rw [List.forall_mem_map]
    exact fun row _ => newline_not_mem_rowText row.1 row.2
  . rintro ⟨row, mem, v, here, long⟩
    apply perform_dump_of_error
    apply dump_of_unwritable inside positive
    exact fun writable => long (writable row mem v here)
  . intro n long long' perLine' text all all' positive' dumped dumped'
    exact cells_of_dump all all' positive positive' dumped dumped'

theorem dump_shows_last_row
    : let m := Memory.ofImage [1, 0, 3, -1234567, 5, 6, 7]
      (0 : Int) ≤ 2 ∧ (1 : Int) ≤ 3
        ∧ ∃ lines, (Request.dump 2 64 3).perform m = (.text (joinLines lines), m)
          ∧ Columns lines [(2, [3, -1234567, 5]), (5, [6, 7])] := by
  intro m
  have inside : (0 : Int) ≤ 2 := by decide
  have positive : (1 : Int) ≤ 3 := by decide
  obtain ⟨rows, dumped, -, count, heads, cells, full, -⟩ := dump_shows_window m 64 inside positive
  have two : rows.length = 2 := by
    have more := (count 1).mpr (by decide)
    have done := mt (count 2).mp (by decide)
    omega
  obtain ⟨⟨addr, first⟩, ⟨addr', last⟩, rfl⟩ := List.length_eq_two.mp two
  obtain rfl : addr = 2 := heads 0 _ rfl
  obtain rfl : addr' = 5 := heads 1 _ rfl
  have cells : first ++ (last ++ []) = [3, -1234567, 5] ++ [6, 7] := cells
  have three : first.length = 3 := by
    exact_mod_cast (full 0 _ rfl).2 Nat.one_lt_two
  rw [List.append_nil] at cells
  obtain ⟨rfl, rfl⟩ := List.append_inj cells three
  obtain ⟨lines, shown, -, columns⟩ := dumped (by decide +kernel)
  exact ⟨inside, positive, lines, shown, columns⟩

theorem dump_long_cell
    : (Request.dump 0 1 8).perform (Memory.ofImage [10 ^ 4300])
        = (.failed .unwritable, Memory.ofImage [10 ^ 4300]) := by
  have unwritable : ¬ ∀ row ∈ (Memory.ofImage [10 ^ 4300]).rows 0 1 8, RowWritable row := by
    intro all
    have first : Short (10 ^ 4300) :=
      all (0, [10 ^ 4300]) List.mem_cons_self _ (List.mem_cons_of_mem _ List.mem_cons_self)
    exact absurd first (by decide +kernel)
  exact perform_dump_of_error (dump_of_unwritable (Int.le_refl 0) (by decide) unwritable)

end Memory

end Intcode
