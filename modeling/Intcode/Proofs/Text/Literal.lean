import Intcode.Proofs.Failing
import Intcode.Proofs.Text.Numeral
import Mathlib.Data.List.DropRight
import Mathlib.Data.Nat.Digits.Lemmas

/-!
Literals: the texts that are read as numbers. A literal is a sign or none and digits of any script,
with at most one underscore between any two of them; its value is that of its digits to the base
of ten.
-/
namespace Intcode

namespace Text

theorem trim_trim {wide narrow : Char → Bool} (smaller : ∀ c, narrow c = true → wide c = true)
    (s : List Char) : trim narrow (trim wide s) = trim wide s := by
  have kept : trim wide s <+: s.dropWhile wide := List.rdropWhile_prefix wide _
  have start : (trim wide s).dropWhile narrow = trim wide s := by
    rw [List.dropWhile_eq_self_iff]
    intro inside blank
    rw [kept.getElem inside] at blank
    exact List.dropWhile_get_zero_not wide s _ (smaller _ blank)
  have ending : (trim wide s).rdropWhile narrow = trim wide s := by
    rw [List.rdropWhile_eq_self_iff]
    intro nonempty blank
    exact List.rdropWhile_last_not wide (s.dropWhile wide) nonempty (smaller _ blank)
  show ((trim wide s).dropWhile narrow).rdropWhile narrow = _
  rw [start, ending]

end Text

namespace Numeral

open Text

/-- The text is a row of these digits, with at most one underscore between any two. -/
inductive Spells : List Char → List Nat → Prop where
  | last {c : Char} {d : Nat} : digitValue? c = some d → Spells [c] [d]
  | next {c : Char} {d : Nat} {s : List Char} {ds : List Nat}
    : digitValue? c = some d → Spells s ds → Spells (c :: s) (d :: ds)
  | underscore {c : Char} {d : Nat} {s : List Char} {ds : List Nat}
    : digitValue? c = some d → Spells s ds → Spells (c :: '_' :: s) (d :: ds)

inductive Literal : List Char → Int → Prop where
  | unsigned {s : List Char} {ds : List Nat}
    : Spells s ds → ds.length ≤ maxDigits → Literal s (Nat.ofDigits 10 ds.reverse : Nat)
  | plus {s : List Char} {ds : List Nat}
    : Spells s ds → ds.length ≤ maxDigits → Literal ('+' :: s) (Nat.ofDigits 10 ds.reverse : Nat)
  | minus {s : List Char} {ds : List Nat}
    : Spells s ds → ds.length ≤ maxDigits
      → Literal ('-' :: s) (-(Nat.ofDigits 10 ds.reverse : Nat))

def Continues (s : List Char) (ds : List Nat) : Prop :=
  s = [] ∧ ds = [] ∨ Spells s ds ∨ ∃ s', s = '_' :: s' ∧ Spells s' ds

variable {s : List Char} {ds : List Nat}

theorem digitValue?_marks
    : digitValue? '_' = none ∧ digitValue? '+' = none ∧ digitValue? '-' = none := by
  decide

theorem spells_cons_iff {c : Char}
    : Spells (c :: s) ds
        ↔ ∃ d rest, digitValue? c = some d ∧ ds = d :: rest ∧ Continues s rest := by
  constructor
  . intro h
    cases h with
    | last value => exact ⟨_, _, value, rfl, .inl ⟨rfl, rfl⟩⟩
    | next value rest => exact ⟨_, _, value, rfl, .inr (.inl rest)⟩
    | underscore value rest => exact ⟨_, _, value, rfl, .inr (.inr ⟨_, rfl, rest⟩)⟩
  . rintro ⟨d, rest, value, rfl, ⟨rfl, rfl⟩ | h | ⟨s, rfl, h⟩⟩
    . exact .last value
    . exact .next value h
    . exact .underscore value h

theorem not_spells_nil : ¬ Spells [] ds :=
  nofun

theorem not_spells_of_none {c : Char} (none : digitValue? c = none) : ¬ Spells (c :: s) ds := by
  rw [spells_cons_iff]
  rintro ⟨d, rest, value, -⟩
  rw [none] at value
  contradiction

theorem scan_eq_some_iff (bare : Bool)
    : scan bare s = some (ds, []) ↔ if bare then Spells s ds else Continues s ds := by
  -- The flag says whether an underscore may come next, so it has to vary.
  induction s generalizing bare ds with
  | nil =>
    cases bare with
    | true => simp [scan, not_spells_nil]
    | false => simp [scan, Continues, not_spells_nil, eq_comm]
  | cons c s ih =>
    unfold scan
    by_cases mark : c = '_'
    . rw [if_pos mark, mark]
      have unspelt : ¬ Spells ('_' :: s) ds := not_spells_of_none digitValue?_marks.1
      cases bare with
      | true => simpa using unspelt
      | false => simpa [Continues, unspelt] using ih true
    . rw [if_neg mark]
      have same : (if bare = true then Spells (c :: s) ds else Continues (c :: s) ds)
          ↔ Spells (c :: s) ds := by
        cases bare with
        | true => rfl
        | false => simp [Continues, mark]
      rw [same]
      cases value : digitValue? c with
      | none =>
        have unspelt : ¬ Spells (c :: s) ds := not_spells_of_none value
        cases bare <;> simp [unspelt]
      | some d =>
        rw [spells_cons_iff, value]
        have rest (rest : List Nat) : scan false s = some (rest, []) ↔ Continues s rest := ih false
        simp [← rest, eq_comm, and_comm]

theorem valueOf_eq (ds : List Nat) : valueOf ds = Nat.ofDigits 10 ds.reverse := by
  induction ds using List.reverseRecOn with
  | nil => rfl
  | append_singleton ds d ih =>
    rw [valueOf_append, ih, List.reverse_append, List.reverse_singleton, List.singleton_append,
      Nat.ofDigits_cons, Nat.add_comm]

theorem readNat_eq_ok_iff {n : Nat}
    : readNat s = .ok n
        ↔ ∃ ds, Spells s ds ∧ ds.length ≤ maxDigits ∧ Nat.ofDigits 10 ds.reverse = n := by
  unfold readNat
  constructor
  . intro read
    split at read
    . contradiction
    . next ds rest scanned =>
      split at read
      . contradiction
      . next short =>
        split at read
        . next done =>
          rw [List.isEmpty_iff.mp done] at scanned
          cases read
          exact ⟨ds, (scan_eq_some_iff true).mp scanned, Nat.le_of_not_lt short,
            (valueOf_eq ds).symm⟩
        . contradiction
  . rintro ⟨ds, spells, short, rfl⟩
    rw [(scan_eq_some_iff true).mpr spells, ← valueOf_eq]
    exact if_neg (Nat.not_lt.mpr short)

theorem signed_eq_ok_iff {result : Except Unreadable Nat} {sign : Int → Int} {v : Int}
    : (do return ((← result) : Int) : Except Unreadable Int).map sign = .ok v
        ↔ ∃ n : Nat, result = .ok n ∧ sign n = v := by
  rw [map_eq_ok_iff]
  cases result with
  | error e => simp [bind, Except.bind]
  | ok n => simp [bind, Except.bind, pure, Except.pure]

theorem readSigned_eq_ok_iff {v : Int} : readSigned s = .ok v ↔ Literal s v := by
  constructor
  . intro read
    unfold readSigned at read
    split at read
    . obtain ⟨n, value, rfl⟩ := signed_eq_ok_iff.mp read
      obtain ⟨ds, spells, short, rfl⟩ := readNat_eq_ok_iff.mp value
      exact .minus spells short
    . obtain ⟨n, value, rfl⟩ := signed_eq_ok_iff.mp read
      obtain ⟨ds, spells, short, rfl⟩ := readNat_eq_ok_iff.mp value
      exact .plus spells short
    . obtain ⟨n, value, rfl⟩ := signed_eq_ok_iff.mp read
      obtain ⟨ds, spells, short, rfl⟩ := readNat_eq_ok_iff.mp value
      exact .unsigned spells short
  . intro h
    have value {s : List Char} {ds : List Nat} (spells : Spells s ds) (short : ds.length ≤ maxDigits)
        : readNat s = .ok (Nat.ofDigits 10 ds.reverse) :=
      readNat_eq_ok_iff.mpr ⟨ds, spells, short, rfl⟩
    cases h with
    | minus spells short => exact signed_eq_ok_iff.mpr ⟨_, value spells short, rfl⟩
    | plus spells short => exact signed_eq_ok_iff.mpr ⟨_, value spells short, rfl⟩
    | unsigned spells short =>
      unfold readSigned
      split
      . exact absurd spells (not_spells_of_none digitValue?_marks.2.2)
      . exact absurd spells (not_spells_of_none digitValue?_marks.2.1)
      . exact signed_eq_ok_iff.mpr ⟨_, value spells short, rfl⟩

theorem digits_of_spells (h : Spells s ds) : ∀ d ∈ ds, d < 10 := by
  induction h with
  | last value => exact List.forall_mem_singleton.mpr (digitValue?_lt value)
  | next value _ ih => exact List.forall_mem_cons.mpr ⟨digitValue?_lt value, ih⟩
  | underscore value _ ih => exact List.forall_mem_cons.mpr ⟨digitValue?_lt value, ih⟩

theorem short_of_literal {v : Int} (h : Literal s v) : Short v := by
  have small {s : List Char} {ds : List Nat} (spells : Spells s ds) (short : ds.length ≤ maxDigits)
      : (digits (Nat.ofDigits 10 ds.reverse)).length ≤ maxDigits := by
    apply length_digits_le_of_lt_pow (by decide)
    apply Nat.lt_of_lt_of_le
    . apply Nat.ofDigits_lt_base_pow_length (by decide)
      intro d mem
      exact digits_of_spells spells d (List.mem_reverse.mp mem)
    . rw [List.length_reverse]
      exact Nat.pow_le_pow_right (by decide) short
  unfold Short
  cases h with
  | unsigned spells short => exact small spells short
  | plus spells short => exact small spells short
  | minus spells short =>
    rw [Int.natAbs_neg]
    exact small spells short

theorem literal_write {v : Int} (short : Short v) : Literal (write v) v := by
  have read := read_write short
  unfold Numeral.read at read
  rwa [trim_write, readSigned_eq_ok_iff] at read

theorem write_injective : Function.Injective write := by
  have unsigned (n : Nat) (s : List Char) : writeNat n ≠ '-' :: s := by
    intro same
    have mem : '-' ∈ writeNat n := by
      rw [same]
      exact List.mem_cons_self
    obtain ⟨d, inside, sign⟩ := List.mem_map.mp mem
    exact (digitChar_ne d (digits_lt n d inside)).2.1 sign
  intro v v' same
  cases v with
  | ofNat n =>
    cases v' with
    | ofNat n' => exact congrArg Int.ofNat (writeNat_injective same)
    | negSucc n' => exact absurd same (unsigned n _)
  | negSucc n =>
    cases v' with
    | ofNat n' => exact absurd same.symm (unsigned n' _)
    | negSucc n' =>
      have same : n + 1 = n' + 1 := writeNat_injective (List.cons.inj same).2
      exact congrArg Int.negSucc (Nat.succ.inj same)

end Numeral

end Intcode
