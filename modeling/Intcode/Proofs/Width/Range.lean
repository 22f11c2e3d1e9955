import Mathlib.Algebra.Group.Int.Defs
import Intcode.Width

namespace Intcode.Width

def Proper : Width → Prop
  | unbounded => True
  | bits count => 1 ≤ count

instance (width : Width) : Decidable width.Proper :=
  match width with
  | unbounded => inferInstanceAs (Decidable True)
  | bits count => inferInstanceAs (Decidable (1 ≤ count))

def Holds : Width → Int → Prop
  | unbounded, _ => True
  | bits count, value => -2 ^ (count - 1).toNat ≤ value ∧ value ≤ 2 ^ (count - 1).toNat - 1

instance (width : Width) (value : Int) : Decidable (width.Holds value) :=
  match width with
  | unbounded => inferInstanceAs (Decidable True)
  | bits count =>
    inferInstanceAs
      (Decidable (-2 ^ (count - 1).toNat ≤ value ∧ value ≤ 2 ^ (count - 1).toNat - 1))

theorem half_eq (count : Int) : half count = 2 ^ (count - 1).toNat := by
  unfold half
  rw [Nat.pow_eq, Int.natCast_pow]
  rfl

theorem fits_eq {width : Width} (proper : width.Proper) (value : Int)
    : width.fits value = .ok (decide (width.Holds value)) := by
  cases width with
  | unbounded => rfl
  | bits count =>
    have : ¬ count ≤ 0 := Int.not_le.mpr proper
    simp only [fits, limits, if_neg this, half_eq]
    exact congrArg Except.ok (Bool.decide_and _ _).symm

theorem holds_zero {width : Width} (proper : width.Proper) : width.Holds 0 := by
  cases width with
  | unbounded => trivial
  | bits count =>
    have := Int.pow_pos (n := 2) (m := (count - 1).toNat) (by decide)
    constructor
    . omega
    . omega

def Below : Width → Width → Prop
  | _, unbounded => True
  | bits count, bits count' => count ≤ count'
  | unbounded, bits _ => False

instance : LE Width := ⟨Below⟩

instance (width width' : Width) : Decidable (width ≤ width') :=
  match width, width' with
  | _, unbounded => inferInstanceAs (Decidable True)
  | bits count, bits count' => inferInstanceAs (Decidable (count ≤ count'))
  | unbounded, bits _ => inferInstanceAs (Decidable False)

theorem Proper.mono {width width' : Width} (proper : width.Proper) (wider : width ≤ width')
    : width'.Proper := by
  cases width' with
  | unbounded => trivial
  | bits count' =>
    cases width with
    | unbounded => exact wider.elim
    | bits count => exact Int.le_trans proper wider

theorem Holds.mono {width width' : Width} {value : Int} (h : width.Holds value)
    (wider : width ≤ width') : width'.Holds value := by
  cases width' with
  | unbounded => trivial
  | bits count' =>
    cases width with
    | unbounded => exact wider.elim
    | bits count =>
      have wider : count ≤ count' := wider
      have fewer : (count - 1).toNat ≤ (count' - 1).toNat := by omega
      have : (2 : Int) ^ (count - 1).toNat ≤ 2 ^ (count' - 1).toNat := by
        exact_mod_cast Nat.pow_le_pow_right (by decide) fewer
      constructor
      . have := h.1
        omega
      . have := h.2
        omega

end Intcode.Width

theorem Intcode.Profile.proper (profile : Intcode.Profile) : profile.width.Proper := by
  cases profile <;> decide
