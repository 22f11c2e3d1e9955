/-!
Blank characters, and the removal of blanks around a text. Two classes are in use: `isBlank` holds
every white-space and line-breaking character, `isNumeralBlank` lacks the four separators
U+001C–U+001F, which a numeral does not tolerate around itself.
-/
namespace Intcode.Text

def inRanges (ranges : List (Nat × Nat)) (c : Char) : Bool :=
  ranges.any fun (first, last) => first ≤ c.toNat && c.toNat ≤ last

def wideBlanks : List (Nat × Nat) :=
  [(0x85, 0x85), (0xA0, 0xA0), (0x1680, 0x1680), (0x2000, 0x200A), (0x2028, 0x2029),
    (0x202F, 0x202F), (0x205F, 0x205F), (0x3000, 0x3000)]

def isBlank : Char → Bool :=
  inRanges ((0x9, 0xD) :: (0x1C, 0x20) :: wideBlanks)

def isNumeralBlank : Char → Bool :=
  inRanges ((0x9, 0xD) :: (0x20, 0x20) :: wideBlanks)

def trimStart (blank : Char → Bool) (s : List Char) : List Char :=
  s.dropWhile blank

def trimEnd (blank : Char → Bool) (s : List Char) : List Char :=
  (s.reverse.dropWhile blank).reverse

def trim (blank : Char → Bool) (s : List Char) : List Char :=
  trimEnd blank (trimStart blank s)

theorem isBlank_of_isNumeralBlank {c : Char} (h : isNumeralBlank c) : isBlank c := by
  simp only [isNumeralBlank, isBlank, inRanges, List.any_cons, Bool.or_eq_true, Bool.and_eq_true,
    decide_eq_true_eq] at *
  rcases h with h | h | h
  . exact .inl h
  . exact .inr (.inl (by omega))
  . exact .inr (.inr h)

end Intcode.Text
