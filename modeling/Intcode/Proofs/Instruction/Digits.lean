import Intcode.Instruction
import Mathlib.Data.Nat.Digits.Defs

namespace Intcode.Instruction

def modeDigits (word : Int) : List Nat :=
  Nat.digits 10 (word.toNat / 100)

def modeOf : Nat → Mode
  | 1 => .immediate
  | 2 => .relative
  | _ => .position

theorem ofDigit?_eq (digit : Nat)
    : Mode.ofDigit? digit = if 2 < digit then none else some (modeOf digit) := by
  match digit with
  | 0 | 1 | 2 => rfl
  | digit + 3 =>
    rw [if_pos (by omega)]
    rfl

theorem modesOf_eq (n : Nat)
    : modesOf n
        =
      match (Nat.digits 10 n).find? (2 < ·) with
      | some digit => .error digit
      | none => .ok ((Nat.digits 10 n).map modeOf) := by
  induction n using modesOf.induct with
  | case1 =>
    unfold modesOf
    simp
  | case2 n h mode known ih =>
    rw [ofDigit?_eq] at known
    split at known
    . contradiction
    . next small =>
      cases known
      unfold modesOf
      rw [if_neg h, ofDigit?_eq, if_neg small, Nat.digits_def' (by decide) (by omega), ih]
      simp only [List.find?_cons, decide_eq_false small, List.map_cons]
      cases (Nat.digits 10 (n / 10)).find? (2 < ·) with
      | none => rfl
      | some digit => rfl
  | case3 n h unknown =>
    rw [ofDigit?_eq] at unknown
    split at unknown
    . next large =>
      unfold modesOf
      rw [if_neg h, ofDigit?_eq, if_pos large, Nat.digits_def' (by decide) (by omega)]
      simp only [List.find?_cons, decide_eq_true large]
    . contradiction

theorem decode_eq (word : Int)
    : decode word
        =
      if word < 0 then
        .error (.unknownOpcode word word)
      else
        match Opcode.ofCode? (word % 100).toNat with
        | none => .error (.unknownOpcode (word % 100) word)
        | some opcode =>
          match (modeDigits word).find? (2 < ·) with
          | some digit => .error (.unknownMode digit word)
          | none => .ok { opcode, modes := (modeDigits word).map modeOf } := by
  unfold decode
  split
  . rfl
  . next nonneg =>
    have : word.toNat % 100 = (word % 100).toNat := by omega
    rw [this]
    cases Opcode.ofCode? (word % 100).toNat with
    | none => rfl
    | some opcode =>
      simp only [modesOf_eq]
      unfold modeDigits
      cases (Nat.digits 10 (word.toNat / 100)).find? (2 < ·) with
      | none => rfl
      | some digit => rfl

theorem mode_map_modeOf (opcode : Opcode) (digits : List Nat)
    : mode { opcode, modes := digits.map modeOf } = fun param => modeOf (digits.getD param 0) := by
  funext param
  unfold mode
  simp only [List.getD_eq_getElem?_getD, List.getElem?_map]
  cases digits[param]? with
  | none => rfl
  | some digit => rfl

end Intcode.Instruction
