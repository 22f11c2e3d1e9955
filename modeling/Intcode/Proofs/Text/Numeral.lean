import Mathlib.Algebra.Group.Nat.Defs
import Mathlib.Data.List.Basic
import Mathlib.Data.List.TakeWhile
import Intcode.Text.Numeral

namespace Intcode.Text

theorem trimStart_of_forall {blank : Char → Bool} {s : List Char} (h : ∀ c ∈ s, blank c = false)
    : trimStart blank s = s := by
  cases s with
  | nil => rfl
  | cons c s =>
    apply List.dropWhile_cons_of_neg
    rw [h c List.mem_cons_self]
    exact Bool.false_ne_true

theorem trimEnd_append_of_forall {blank : Char → Bool} {s tail : List Char}
    (h : ∀ c ∈ s, blank c = false) (blanks : ∀ c ∈ tail, blank c = true)
    : trimEnd blank (s ++ tail) = s := by
  unfold trimEnd
  rw [List.reverse_append, List.dropWhile_append_of_pos (by simpa using blanks)]
  have unblank : ∀ c ∈ s.reverse, blank c = false := by simpa using h
  have same := trimStart_of_forall unblank
  unfold trimStart at same
  rw [same, List.reverse_reverse]

theorem trim_append_of_blank {blank : Char → Bool} (s : List Char) {tail : List Char}
    (blanks : ∀ c ∈ tail, blank c = true) : trim blank (s ++ tail) = trim blank s := by
  have ends (s : List Char) : trimEnd blank (s ++ tail) = trimEnd blank s := by
    unfold trimEnd
    rw [List.reverse_append, List.dropWhile_append_of_pos (by simpa using blanks)]
  unfold trim trimStart
  rw [List.dropWhile_append]
  split
  . next empty =>
    rw [List.isEmpty_iff.mp empty, List.dropWhile_eq_nil_iff.mpr blanks]
  . exact ends _

theorem trim_append_of_blank_start {blank : Char → Bool} {start : List Char}
    (blanks : ∀ c ∈ start, blank c = true) (s : List Char)
    : trim blank (start ++ s) = trim blank s := by
  unfold trim trimStart
  rw [List.dropWhile_append_of_pos blanks]

theorem trim_append_of_forall {blank : Char → Bool} {s tail : List Char} (nonempty : s ≠ [])
    (h : ∀ c ∈ s, blank c = false) (blanks : ∀ c ∈ tail, blank c = true)
    : trim blank (s ++ tail) = s := by
  unfold trim
  obtain ⟨c, rest, rfl⟩ := List.exists_cons_of_ne_nil nonempty
  have start : trimStart blank (c :: rest ++ tail) = c :: rest ++ tail := by
    apply List.dropWhile_cons_of_neg
    rw [h c List.mem_cons_self]
    exact Bool.false_ne_true
  rw [start, trimEnd_append_of_forall h blanks]

theorem trim_of_forall {blank : Char → Bool} {s : List Char} (nonempty : s ≠ [])
    (h : ∀ c ∈ s, blank c = false) : trim blank s = s := by
  have same := trim_append_of_forall nonempty h (List.forall_mem_nil _)
  rwa [List.append_nil] at same

end Intcode.Text

namespace Intcode.Numeral

open Text

def IsMark (c : Char) : Prop :=
  c = '-' ∨ ∃ d < 10, c = digitChar d

theorem digitValue?_digitChar : ∀ d < 10, digitValue? (digitChar d) = some d := by decide

theorem digitChar_ne : ∀ d < 10, digitChar d ≠ '_' ∧ digitChar d ≠ '-' ∧ digitChar d ≠ '+' := by
  decide

theorem isBlank_digitChar : ∀ d < 10, isBlank (digitChar d) = false := by decide

theorem IsMark.isBlank {c : Char} (h : IsMark c) : isBlank c = false := by
  obtain rfl | ⟨d, small, rfl⟩ := h
  . decide
  . exact isBlank_digitChar d small

theorem IsMark.isNumeralBlank {c : Char} (h : IsMark c) : isNumeralBlank c = false := by
  rw [← Bool.not_eq_true]
  intro blank
  have unblank := h.isBlank
  rw [isBlank_of_isNumeralBlank blank] at unblank
  contradiction

theorem digits_ne_nil (n : Nat) : digits n ≠ [] := by
  unfold digits
  split
  . exact List.cons_ne_nil _ _
  . exact List.append_ne_nil_of_right_ne_nil _ (List.cons_ne_nil _ _)

theorem isMark_of_mem_writeNat {n : Nat} {c : Char} (h : c ∈ writeNat n) : IsMark c := by
  obtain ⟨d, mem, rfl⟩ := List.mem_map.mp h
  exact .inr ⟨d, digits_lt n d mem, rfl⟩

theorem isMark_of_mem_write {v : Int} {c : Char} (h : c ∈ write v) : IsMark c := by
  cases v with
  | ofNat n => exact isMark_of_mem_writeNat h
  | negSucc n =>
    cases List.mem_cons.mp h with
    | inl sign => exact .inl sign
    | inr h => exact isMark_of_mem_writeNat h

theorem not_mem_write {c : Char} (unsigned : c ≠ '-') (other : ∀ d < 10, c ≠ digitChar d) (v : Int)
    : c ∉ write v := by
  intro mem
  obtain sign | ⟨d, small, digit⟩ := isMark_of_mem_write mem
  . exact unsigned sign
  . exact other d small digit

theorem dash_not_mem_writeNat (n : Nat) : '-' ∉ writeNat n := by
  intro mem
  obtain ⟨d, small, same⟩ := List.mem_map.mp mem
  exact (digitChar_ne d (digits_lt n d small)).2.1 same

theorem dash_not_mem_write {v : Int} (nonneg : 0 ≤ v) : '-' ∉ write v := by
  obtain ⟨n, rfl⟩ := Int.eq_ofNat_of_zero_le nonneg
  exact dash_not_mem_writeNat n

theorem length_digits_le_of_lt_pow {n k : Nat} (positive : k ≠ 0) (small : n < 10 ^ k)
    : (digits n).length ≤ k :=
  length_digits_le positive small

theorem short_of_lt {v : Int} (nonneg : 0 ≤ v) (small : v < 10000) : Short v := by
  have few : (digits v.natAbs).length ≤ 4 := length_digits_le_of_lt_pow (by decide) (by omega)
  exact Nat.le_trans few (by decide)

theorem toList_renderList (separator : String) (vs : List Int)
    : (renderList separator vs).toList = separator.toList.intercalate (vs.map write) := by
  unfold renderList render
  rw [String.toList_intercalate, List.map_map]
  congr 1
  exact List.map_congr_left fun v _ => String.toList_ofList

theorem writeNat_ne_nil (n : Nat) : writeNat n ≠ [] := by
  unfold writeNat
  rw [ne_eq, List.map_eq_nil_iff]
  exact digits_ne_nil n

theorem write_ne_nil (v : Int) : write v ≠ [] := by
  cases v with
  | ofNat n => exact writeNat_ne_nil n
  | negSucc n => exact List.cons_ne_nil _ _

theorem filterMap_writeNat (n : Nat) : (writeNat n).filterMap digitValue? = digits n := by
  unfold writeNat
  rw [List.filterMap_map, List.filterMap_congr fun d mem => ?_, List.filterMap_some]
  exact digitValue?_digitChar d (digits_lt n d mem)

theorem digitChar_eq_digitChar : ∀ d < 10, digitChar d = Nat.digitChar d := by decide

theorem writeNat_eq_toDigits (n : Nat) : writeNat n = Nat.toDigits 10 n := by
  unfold writeNat
  fun_induction digits n with
  | case1 n small =>
    rw [Nat.toDigits_of_lt_base small, List.map_singleton, digitChar_eq_digitChar n small]
  | case2 n great ih =>
    rw [Nat.toDigits_of_base_le (by decide) (Nat.le_of_not_lt great), List.map_append, ih,
      List.map_singleton, digitChar_eq_digitChar _ (Nat.mod_lt n (by decide))]

theorem render_eq_toString (v : Int) : render v = toString v := by
  unfold render write
  cases v with
  | ofNat n =>
    show _ = Nat.repr n
    rw [Nat.repr_eq_ofList_toDigits, ← writeNat_eq_toDigits]
  | negSucc n =>
    show _ = "-" ++ Nat.repr (n + 1)
    rw [Nat.repr_eq_ofList_toDigits, ← writeNat_eq_toDigits, ← String.toList_inj,
      String.toList_append, String.toList_ofList, String.toList_ofList, String.toList_ofList]
    rfl

theorem writeNat_injective : Function.Injective writeNat := by
  intro n n' same
  rw [← valueOf_digits n, ← filterMap_writeNat, same, filterMap_writeNat, valueOf_digits]

theorem scan_map_digitChar {ds : List Nat} (small : ∀ d ∈ ds, d < 10) (bare : Bool)
    (h : bare = true → ds ≠ []) : scan bare (ds.map digitChar) = some (ds, []) := by
  induction ds generalizing bare with
  | nil =>
    cases bare with
    | true => exact absurd rfl (h rfl)
    | false => rfl
  | cons d ds ih =>
    rw [List.forall_mem_cons] at small
    have rest := ih small.2 false nofun
    rw [List.map_cons, scan, if_neg (digitChar_ne d small.1).1, digitValue?_digitChar d small.1]
    dsimp only
    rw [rest]
    rfl

theorem readNat_map_digitChar {ds : List Nat} (some : ds ≠ []) (small : ∀ d ∈ ds, d < 10)
    (few : ds.length ≤ maxDigits) : readNat (ds.map digitChar) = .ok (valueOf ds) := by
  unfold readNat
  rw [scan_map_digitChar small true fun _ => some]
  exact if_neg (Nat.not_lt.mpr few)

theorem readSigned_map_digitChar {ds : List Nat} (some : ds ≠ []) (small : ∀ d ∈ ds, d < 10)
    (few : ds.length ≤ maxDigits) : readSigned (ds.map digitChar) = .ok (valueOf ds) := by
  obtain ⟨d, rest, rfl⟩ := List.exists_cons_of_ne_nil some
  have unsigned := (digitChar_ne d (small d List.mem_cons_self)).2
  have value := readNat_map_digitChar some small few
  unfold readSigned
  split
  . next sign => exact absurd (List.cons.inj sign).1 unsigned.1
  . next sign => exact absurd (List.cons.inj sign).1 unsigned.2
  . rw [value]
    rfl

theorem readNat_writeNat {n : Nat} (short : (digits n).length ≤ maxDigits)
    : readNat (writeNat n) = .ok n := by
  have value := readNat_map_digitChar (digits_ne_nil n) (digits_lt n) short
  rwa [valueOf_digits] at value

theorem readSigned_writeNat {n : Nat} (short : (digits n).length ≤ maxDigits)
    : readSigned (writeNat n) = .ok n := by
  have value := readSigned_map_digitChar (digits_ne_nil n) (digits_lt n) short
  rwa [valueOf_digits] at value

theorem trim_write (v : Int) : trim isNumeralBlank (write v) = write v :=
  trim_of_forall (write_ne_nil v) fun _ mem => (isMark_of_mem_write mem).isNumeralBlank

theorem read_write {v : Int} (short : Short v) : read (write v) = .ok v := by
  unfold read
  rw [trim_write]
  cases v with
  | ofNat n => exact readSigned_writeNat short
  | negSucc n =>
    have value : readNat (writeNat (n + 1)) = .ok (n + 1) := readNat_writeNat short
    simp only [write, readSigned]
    rw [value]
    rfl

theorem read_render {v : Int} (short : Short v) : read (render v).toList = .ok v := by
  rw [render, String.toList_ofList, read_write short]

end Intcode.Numeral
