import Intcode.Proofs.Instruction.Encoding
import Intcode.Proofs.Instruction.Rendering
import Intcode.Proofs.Memory.History
import Mathlib.Data.Int.Range

namespace Intcode.Listing

structure Row where
  addr : Int
  word : Int
  instr? : Option Instruction
  operands : List Int
  deriving Repr, DecidableEq

namespace Row

def width (row : Row) : Nat :=
  row.instr?.elim 1 (·.width)

def addresses (row : Row) : List Int :=
  Int.range row.addr (row.addr + row.width)

def cells (row : Row) : List Int :=
  row.word :: row.operands

def text (row : Row) : String :=
  margin row.addr row.word ++ body row.word row.instr? row.operands

def numbers (row : Row) : List Int :=
  row.addr :: row.word :: row.operands

def IsWritable (row : Row) : Prop :=
  ∀ v ∈ row.numbers, Numeral.Short v

instance (row : Row) : Decidable row.IsWritable :=
  inferInstanceAs (Decidable (∀ v ∈ row.numbers, Numeral.Short v))

theorem width_pos (row : Row) : 0 < row.width := by
  unfold width
  cases row.instr? with
  | none => exact Nat.one_pos
  | some instr => exact Nat.succ_pos _

theorem words_text (row : Row)
    : ∃ head rest, Text.words row.text.toList
          = head :: Numeral.write row.word :: (label row.instr?).toList :: rest
        ∧ (Numeral.Short row.addr → Numeral.read head = .ok row.addr) := by
  obtain ⟨rest, shown⟩ := words_body row.word row.instr? row.operands
  refine ⟨Numeral.writeZeroPadded 6 row.addr, rest, ?_, Numeral.read_writeZeroPadded (by decide)⟩
  rw [text, words_margin_append, shown]

end Row

variable {cell cell' : Int → Int} {start stop addr : Int} {m : Memory}

def listed? (cell : Int → Int) (stop addr : Int) : Option Instruction :=
  (Instruction.decode (cell addr)).toOption.filter fun instr => addr + instr.width ≤ stop

def rowAt (cell : Int → Int) (stop addr : Int) : Row :=
  let instr? := listed? cell stop addr
  { addr, word := cell addr, instr?,
    operands := (Int.range (addr + 1) (addr + instr?.elim 1 (·.width))).map cell }

def rows (cell : Int → Int) (stop addr : Int) : List Row :=
  if addr < stop then
    rowAt cell stop addr :: rows cell stop (addr + (rowAt cell stop addr).width)
  else
    []
termination_by (stop - addr).toNat
decreasing_by
  have := (rowAt cell stop addr).width_pos
  omega

theorem rows_of_lt (more : addr < stop)
    : rows cell stop addr
        = rowAt cell stop addr :: rows cell stop (addr + (rowAt cell stop addr).width) := by
  rw [rows, if_pos more]

theorem range_of_le {first last : Int} (empty : last ≤ first) : Int.range first last = [] := by
  apply List.eq_nil_iff_forall_not_mem.mpr
  intro addr inside
  rw [Int.mem_range_iff] at inside
  omega

theorem range_append {first middle last : Int} (before : first ≤ middle) (behind : middle ≤ last)
    : Int.range first middle ++ Int.range middle last = Int.range first last := by
  unfold Int.range
  have length : (last - first).toNat = (middle - first).toNat + (last - middle).toNat := by omega
  rw [length, List.range_add, List.map_append, List.map_map]
  congr 1
  apply List.map_congr_left
  intro i _
  simp only [Function.comp_apply]
  omega

theorem range_eq_cons {first last : Int} (nonempty : first < last)
    : Int.range first last = first :: Int.range (first + 1) last := by
  rw [← range_append (Int.le_add_of_nonneg_right Int.one_nonneg) nonempty]
  simp [Int.range]

theorem listed?_eq_some_iff {instr : Instruction}
    : listed? cell stop addr = some instr
        ↔ Instruction.decode (cell addr) = .ok instr ∧ addr + instr.width ≤ stop := by
  unfold listed?
  cases Instruction.decode (cell addr) with
  | error cause => simp [Except.toOption]
  | ok listed =>
    simp only [Except.toOption, Option.filter_eq_some_iff, Option.some.injEq, Except.ok.injEq,
      decide_eq_true_eq]

theorem width_rowAt (inside : addr < stop) : addr + (rowAt cell stop addr).width ≤ stop := by
  show addr + ((listed? cell stop addr).elim 1 (·.width) : Nat) ≤ stop
  cases listed : listed? cell stop addr with
  | none => exact inside
  | some instr => exact (listed?_eq_some_iff.mp listed).2

theorem cells_rowAt (cell : Int → Int) (stop addr : Int)
    : (rowAt cell stop addr).cells = (rowAt cell stop addr).addresses.map cell := by
  have wide := (rowAt cell stop addr).width_pos
  unfold Row.addresses
  rw [range_eq_cons (by omega)]
  rfl

variable (cell) in
theorem flatMap_addresses_rows (stop addr : Int)
    : (rows cell stop addr).flatMap Row.addresses = Int.range addr stop := by
  fun_induction rows cell stop addr with
  | case1 addr more ih =>
    rw [List.flatMap_cons, ih]
    apply range_append
    . omega
    . exact width_rowAt more
  | case2 addr done => exact (range_of_le (Int.not_lt.mp done)).symm

theorem eq_rowAt_of_mem {row : Row} (mem : row ∈ rows cell stop addr)
    : row = rowAt cell stop row.addr := by
  fun_induction rows cell stop addr with
  | case1 addr more ih =>
    obtain rfl | later := List.mem_cons.mp mem
    . rfl
    . exact ih later
  | case2 addr done => cases mem

theorem flatMap_cells_rows (cell : Int → Int) (stop addr : Int)
    : (rows cell stop addr).flatMap Row.cells = (Int.range addr stop).map cell := by
  rw [← flatMap_addresses_rows cell stop addr, List.map_flatMap]
  apply List.flatMap_congr
  intro row mem
  rw [eq_rowAt_of_mem mem]
  exact cells_rowAt cell stop row.addr

theorem addr_of_mem_head? {row : Row} (mem : row ∈ (rows cell stop addr).head?)
    : row.addr = addr := by
  unfold rows at mem
  split at mem
  . cases mem
    rfl
  . cases mem

variable (cell) in
theorem isChain_rows (stop addr : Int)
    : (rows cell stop addr).IsChain fun (row next : Row) => next.addr = row.addr + row.width := by
  fun_induction rows cell stop addr with
  | case1 addr more ih =>
    apply List.isChain_cons.mpr
    constructor
    . intro next mem
      exact addr_of_mem_head? mem
    . exact ih
  | case2 addr done => exact .nil

theorem rowAt_eq_of_text
    (same : (rowAt cell stop addr).text = (rowAt cell' stop addr).text)
    : rowAt cell stop addr = rowAt cell' stop addr := by
  -- The text tells the word, that the instruction, and that how to read the parameters.
  obtain ⟨word, shown⟩ := margin_append_inj same
  have word : cell addr = cell' addr := word
  have listed : listed? cell stop addr = listed? cell' stop addr := by
    unfold listed?
    rw [word]
  simp only [rowAt, word, listed] at shown ⊢
  cases one : listed? cell' stop addr with
  | none => simp [range_of_le]
  | some instr =>
    rw [one] at shown
    rw [body_injective (by simp) shown]

theorem rows_eq_of_text
    (same : (rows cell stop addr).map Row.text = (rows cell' stop addr).map Row.text)
    : rows cell stop addr = rows cell' stop addr := by
  fun_induction rows cell stop addr with
  | case1 addr more ih =>
    rw [rows_of_lt more] at same ⊢
    injection same with first rest
    have first := rowAt_eq_of_text first
    rw [← first] at rest ⊢
    rw [ih rest]
  | case2 addr done =>
    unfold rows
    rw [if_neg done]

theorem readCell_eq (inside : 0 ≤ addr)
    : readCell addr m = .ok (m.peek addr) (m.stretch (addr + 1).toNat) := by
  have next : (addr + 1).toNat = addr.toNat + 1 := by omega
  unfold readCell
  rw [Memory.read_of_nonneg inside, next]
  rfl

theorem bind_of_ok {m' : Memory} {x : Reading α} {f : α → Reading β} {a : α}
    (h : x m = .ok a m') : (x >>= f) m = f a m' := by
  simp only [bind, EStateM.bind, h]

theorem bind_of_error {m' : Memory} {x : Reading α} {f : α → Reading β} {e : Failure}
    (h : x m = .error e m') : (x >>= f) m = .error e m' := by
  simp only [bind, EStateM.bind, h]

theorem readRow_eq (inside : 0 ≤ addr) (m : Memory) (count : Nat)
    : readRow addr count (m.stretch addr.toNat)
        = .ok ((Int.range addr (addr + count)).map m.peek) (m.stretch (addr + count).toNat) := by
  induction count generalizing addr with
  | zero =>
    rw [range_of_le (by omega), Int.natCast_zero, Int.add_zero]
    rfl
  | succ count ih =>
    have larger : max addr.toNat (addr + 1).toNat = (addr + 1).toNat := by omega
    have next : addr + (count + 1 : Nat) = addr + 1 + count := by omega
    have nonempty : addr < addr + 1 + count := by omega
    unfold readRow
    rw [bind_of_ok (readCell_eq inside), Memory.stretch_stretch, larger, Memory.peek_stretch,
      bind_of_ok (ih (Int.add_nonneg inside Int.one_nonneg)), next, range_eq_cons nonempty]
    rfl

def finish (row : Row) (m : Memory) : EStateM.Result Failure Memory (String × Nat) :=
  if row.IsWritable then .ok (row.text, row.width) m else .error .unwritable m

theorem finish_eq (numbers : List Int) (text : String) (width : Nat) (m : Memory)
    : (do return (← MonadExcept.ofExcept (writing numbers text), width) : Reading (String × Nat)) m
        =
      if ∀ v ∈ numbers, Numeral.Short v then .ok (text, width) m else .error .unwritable m := by
  split
  . next short =>
    rw [writing_of_short short]
    rfl
  . next long =>
    rw [writing_of_long long]
    rfl

theorem rowAt_of_unlisted {cell : Int → Int} (unlisted : listed? cell stop addr = none)
    : rowAt cell stop addr = { addr, word := cell addr, instr? := none, operands := [] } := by
  simp [rowAt, unlisted, range_of_le]

theorem rowAt_of_listed {cell : Int → Int} {instr : Instruction}
    (listed : listed? cell stop addr = some instr)
    : rowAt cell stop addr
        = { addr, word := cell addr, instr? := some instr,
            operands := (Int.range (addr + 1) (addr + instr.width)).map cell } := by
  simp [rowAt, listed]

theorem line_eq (inside : 0 ≤ addr)
    : line addr stop m
        = finish (rowAt m.peek stop addr)
            (m.stretch (addr + (rowAt m.peek stop addr).width).toNat) := by
  unfold line
  rw [bind_of_ok (readCell_eq inside)]
  unfold Instruction.decodeAt
  cases decoded : Instruction.decode (m.peek addr) with
  | error cause =>
    have unlisted : listed? m.peek stop addr = none := by
      simp [listed?, decoded, Except.toOption]
    rw [rowAt_of_unlisted unlisted]
    by_cases short : Numeral.Short (m.peek addr)
    . have writable : Fault.IsWritable { cause } :=
        (Instruction.isWritable_refusal decoded).mpr ⟨short, by simp⟩
      simp only [Except.mapError, Fault.raised_of_writable writable]
      rw [dataLine_eq]
      exact finish_eq _ _ _ _
    . have unwritable : ¬ Fault.IsWritable { cause } := fun writable =>
        short ((Instruction.isWritable_refusal decoded).mp writable).1
      simp only [Except.mapError, Fault.raised_of_unwritable unwritable]
      unfold finish
      rw [if_neg]
      . rfl
      . intro all
        exact short (all _ (by simp [Row.numbers]))
  | ok instr =>
    by_cases long : addr + instr.width > stop
    . have unlisted : listed? m.peek stop addr = none := by
        simp [listed?, decoded, Except.toOption, long]
      rw [rowAt_of_unlisted unlisted]
      simp only [Except.mapError, if_pos long]
      rw [dataLine_eq]
      exact finish_eq _ _ _ _
    . have listed : listed? m.peek stop addr = some instr :=
        listed?_eq_some_iff.mpr ⟨decoded, Int.not_lt.mp long⟩
      have behind : addr + 1 + (instr.arity : Int) = addr + instr.width := by
        unfold Instruction.width
        omega
      have operands := readRow_eq (Int.add_nonneg inside Int.one_nonneg) m instr.arity
      rw [behind] at operands
      rw [rowAt_of_listed listed]
      simp only [Except.mapError, if_neg long]
      rw [bind_of_ok operands]
      rw [instructionLine_eq]
      exact finish_eq _ _ _ _

theorem lines_eq {room : Nat} (inside : 0 ≤ addr) (enough : stop ≤ addr + room)
    : ((∀ row ∈ rows m.peek stop addr, row.IsWritable)
          → lines stop room addr m
            = .ok ((rows m.peek stop addr).map Row.text)
                (if addr < stop then m.stretch stop.toNat else m))
        ∧ (¬ (∀ row ∈ rows m.peek stop addr, row.IsWritable)
          → ∃ last ≤ stop.toNat,
              lines stop room addr m = .error .unwritable (m.stretch last)) := by
  -- A line that cannot be written has extended the memory up to its end already.
  induction room generalizing addr m with
  | zero =>
    unfold lines rows
    rw [if_neg (by omega), if_neg (by omega)]
    exact ⟨fun _ => rfl, fun some => absurd nofun some⟩
  | succ room ih =>
    unfold lines
    by_cases more : addr < stop
    . have wide := (rowAt m.peek stop addr).width_pos
      have fits : addr + (rowAt m.peek stop addr).width ≤ stop := width_rowAt more
      have larger : max (addr + (rowAt m.peek stop addr).width).toNat stop.toNat = stop.toNat := by
        omega
      have head : line addr stop m = _ := line_eq inside
      rw [if_pos more, rows_of_lt more, List.forall_mem_cons, if_pos more]
      by_cases writable : (rowAt m.peek stop addr).IsWritable
      . rw [finish, if_pos writable] at head
        rw [bind_of_ok head]
        have inside' : 0 ≤ addr + (rowAt m.peek stop addr).width := by omega
        obtain ⟨all, some⟩ :=
          @ih _ (m.stretch (addr + (rowAt m.peek stop addr).width).toNat) inside' (by omega)
        rw [Memory.peek_stretch] at all some
        constructor
        . intro rest
          dsimp only
          rw [bind_of_ok (all rest.2), List.map_cons]
          have size : (if addr + (rowAt m.peek stop addr).width < stop then
                (m.stretch (addr + (rowAt m.peek stop addr).width).toNat).stretch stop.toNat
              else
                m.stretch (addr + (rowAt m.peek stop addr).width).toNat)
              = m.stretch stop.toNat := by
            split
            . rw [Memory.stretch_stretch, larger]
            . congr 1
              omega
          rw [size]
          rfl
        . intro rest
          obtain ⟨last, below, stopped⟩ := some fun others => rest ⟨writable, others⟩
          rw [Memory.stretch_stretch] at stopped
          refine ⟨_, ?_, bind_of_error stopped⟩
          omega
      . rw [finish, if_neg writable] at head
        refine ⟨fun all => absurd all.1 writable, fun _ => ⟨_, ?_, bind_of_error head⟩⟩
        omega
    . unfold rows
      rw [if_neg more, if_neg more, if_neg more]
      exact ⟨fun _ => rfl, fun some => absurd nofun some⟩

/-- The rows are those of the cells from one address up to another. -/
structure Lists (m : Memory) (first last : Int) (listing : List Row) : Prop where
  addresses : listing.flatMap Row.addresses = Int.range first last
  head : ∀ row ∈ listing.head?, row.addr = first
  next : listing.IsChain fun (row next : Row) => next.addr = row.addr + row.width
  cells : ∀ row ∈ listing, row.cells = row.addresses.map m.peek
  instr : ∀ row ∈ listing, ∀ instr, row.instr? = some instr
    ↔ Instruction.decode (m.peek row.addr) = .ok instr ∧ row.addr + instr.width ≤ last

theorem lists_rows (m : Memory) (first last : Int)
    : Lists m first last (rows m.peek last first) := by
  constructor
  . exact flatMap_addresses_rows m.peek last first
  . exact fun row => addr_of_mem_head?
  . exact isChain_rows m.peek last first
  . intro row mem
    rw [eq_rowAt_of_mem mem]
    exact cells_rowAt m.peek last row.addr
  . intro row mem instr
    rw [eq_rowAt_of_mem mem]
    exact listed?_eq_some_iff

theorem disassemble_eq (inside : 0 ≤ start) (m : Memory) (stop : Option Int)
    : let last := stop.getD m.size
      ((∀ row ∈ rows m.peek last start, row.IsWritable)
          → Memory.disassemble start stop m
            = .ok ((rows m.peek last start).map Row.text)
                (if start < last then m.stretch last.toNat else m))
        ∧ (¬ (∀ row ∈ rows m.peek last start, row.IsWritable)
          → ∃ length ≤ last.toNat,
              Memory.disassemble start stop m = .error .unwritable (m.stretch length)) :=
  lines_eq inside (by omega)

theorem disassemble_of_neg (outside : start < 0) (m : Memory) {stop : Option Int}
    (nonempty : start < stop.getD m.size)
    : Memory.disassemble start stop m
        = .error (Fault.raised { cause := .negativeAddress start }) m := by
  have room : (stop.getD m.size - start).toNat = (stop.getD m.size - start).toNat - 1 + 1 := by
    omega
  show lines (stop.getD m.size) (stop.getD m.size - start).toNat start m = _
  rw [room]
  unfold lines line
  have refused : readCell start m
      = .error (Fault.raised { cause := .negativeAddress start }) m := by
    unfold readCell
    rw [Memory.read_of_neg outside]
  rw [if_pos nonempty]
  exact bind_of_error (bind_of_error refused)

theorem peek_eq_of_text {n : Memory} {stop stop' : Option Int} {text : List String}
    {extended extended' : Memory} (inside : 0 ≤ start)
    (window : stop'.getD n.size = stop.getD m.size)
    (listed : Memory.disassemble start stop m = .ok text extended)
    (listed' : Memory.disassemble start stop' n = .ok text extended')
    : ∀ addr, start ≤ addr → addr < stop.getD m.size → n.peek addr = m.peek addr := by
  have written (m : Memory) (stop : Option Int) (extended : Memory)
      (listed : Memory.disassemble start stop m = .ok text extended)
      : (rows m.peek (stop.getD m.size) start).map Row.text = text := by
    obtain ⟨all, some⟩ := disassemble_eq inside m stop
    by_cases writable : ∀ row ∈ rows m.peek (stop.getD m.size) start, row.IsWritable
    . rw [all writable] at listed
      injection listed
    . obtain ⟨length, -, stopped⟩ := some writable
      rw [stopped] at listed
      contradiction
  have same := (written n stop' extended' listed').trans (written m stop extended listed).symm
  rw [window] at same
  have values := congrArg (List.flatMap Row.cells) (rows_eq_of_text same)
  rw [flatMap_cells_rows, flatMap_cells_rows] at values
  intro addr above below
  exact List.map_inj_left.mp values addr (Int.mem_range_iff.mpr ⟨above, below⟩)

/--
The rows tile the window in order, and one is an instruction where the word decodes and the
parameters end in the window. Each is listed with its address, its word and its mnemonic, if no
number in the listing has too many digits to be written. No value changes, the memory extends at
most up to the end of the window, and no other memory with different values there has this listing.
-/
theorem disassemble_tiles (m : Memory) (start : Int) (stop : Option Int)
    : let last := stop.getD m.size
      (0 ≤ start → ∃ listing : List Row,
          Lists m start last listing
            ∧ (∀ row ∈ listing, ∃ head rest,
              Text.words row.text.toList
                  = head :: Numeral.write row.word :: (label row.instr?).toList :: rest
                ∧ (Numeral.Short row.addr → Numeral.read head = .ok row.addr))
            ∧ ((∀ row ∈ listing, ∀ v ∈ row.numbers, Numeral.Short v) → ∃ extended : Memory,
              Memory.disassemble start stop m = .ok (listing.map Row.text) extended
                ∧ extended.peek = m.peek
                ∧ extended.watches = m.watches
                ∧ extended.size = (if start < last then max m.size last.toNat else m.size)
                ∧ (last ≤ m.size → extended = m))
            ∧ ((∃ row ∈ listing, ∃ v ∈ row.numbers, ¬ Numeral.Short v) → ∃ extended : Memory,
              Memory.disassemble start stop m = .error .unwritable extended
                ∧ extended.peek = m.peek
                ∧ extended.watches = m.watches
                ∧ extended.size ≤ max m.size last.toNat
                ∧ (last ≤ m.size → extended = m))
            ∧ ∀ (n : Memory) (stop' : Option Int) text extended extended',
              stop'.getD n.size = last
              → Memory.disassemble start stop m = .ok text extended
              → Memory.disassemble start stop' n = .ok text extended'
              → ∀ addr, start ≤ addr → addr < last → n.peek addr = m.peek addr)
        ∧ (start < 0 → start < last → ∃ e,
          Memory.disassemble start stop m = .error e m
            ∧ (Numeral.Short start → e = .fault { cause := .negativeAddress start })
            ∧ (¬ Numeral.Short start → e = .unwritable)) := by
  intro last
  constructor
  . intro inside
    obtain ⟨all, some⟩ := disassemble_eq inside m stop
    refine ⟨rows m.peek last start, lists_rows m start last, fun row _ => row.words_text, ?_, ?_, ?_⟩
    . intro writable
      refine ⟨_, all writable, ?_, ?_, ?_, ?_⟩
      . split
        . exact Memory.peek_stretch m _
        . rfl
      . split
        . exact Memory.watches_stretch m _
        . rfl
      . split
        . exact Memory.size_stretch m _
        . rfl
      . intro short
        rw [Memory.stretch_of_le (by omega), ite_self]
    . rintro ⟨row, mem, v, shown, long⟩
      obtain ⟨length, below, stopped⟩ := some fun writable => long (writable row mem v shown)
      refine ⟨_, stopped, Memory.peek_stretch m _, Memory.watches_stretch m _, ?_, ?_⟩
      . rw [Memory.size_stretch]
        omega
      . intro short
        exact Memory.stretch_of_le (by omega)
    . intro n stop' text extended extended' window listed listed'
      exact peek_eq_of_text inside window listed listed'
  . intro outside nonempty
    refine ⟨_, disassemble_of_neg outside m nonempty, ?_, ?_⟩
    . intro short
      exact Fault.raised_of_writable (by
        simpa [Fault.IsWritable, Fault.numbers, Cause.numbers] using short)
    . intro long
      exact Fault.raised_of_unwritable (by
        simpa [Fault.IsWritable, Fault.numbers, Cause.numbers] using long)

theorem disassemble_long_cell
    : Memory.disassemble 0 none (Memory.ofImage [10 ^ 4300])
        = .error .unwritable (Memory.ofImage [10 ^ 4300]) := by
  have unwritable : ¬ ∀ row ∈ rows (Memory.ofImage [10 ^ 4300]).peek 1 0, row.IsWritable := by
    rw [rows_of_lt (by decide), List.forall_mem_cons]
    intro all
    have word : Numeral.Short (10 ^ 4300) := all.1 _ (List.mem_cons_of_mem _ List.mem_cons_self)
    exact absurd word (by decide +kernel)
  obtain ⟨length, below, stopped⟩ := (disassemble_eq (Int.le_refl 0) _ none).2 unwritable
  rw [stopped, Memory.stretch_of_le below]

-- The sum has no place for its result.
example : (Memory.disassemble 0 none).run' (Memory.ofImage [204, -7, 1101, 2, 3])
    = some ["000000  204          OUT    [rb-7]", "000002  1101         DATA   1101",
        "000003  2            DATA   2", "000004  3            DATA   3"] := by
  decide +kernel

end Intcode.Listing
