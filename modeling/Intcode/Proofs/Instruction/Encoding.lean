import Intcode.Proofs.Instruction.Digits
import Intcode.Proofs.Text.Numeral
import Mathlib.Data.List.DropRight
import Mathlib.Data.Nat.Digits.Lemmas

namespace Intcode

def IsCode (n : Int) : Prop :=
  1 ≤ n ∧ n ≤ 9 ∨ n = 99

instance (n : Int) : Decidable (IsCode n) :=
  inferInstanceAs (Decidable (1 ≤ n ∧ n ≤ 9 ∨ n = 99))

theorem isCode_iff {n : Nat} : IsCode n ↔ ∃ opcode, Opcode.ofCode? n = some opcode := by
  constructor
  . intro known
    have small : n < 100 := by
      unfold IsCode at known
      omega
    have all : ∀ n < 100, IsCode (n : Nat) → (Opcode.ofCode? n).isSome = true := by decide
    exact Option.isSome_iff_exists.mp (all n small known)
  . rintro ⟨opcode, known⟩
    rw [← Opcode.ofCode?_eq_some_iff.mp known]
    cases opcode <;> decide

theorem isCode_code (opcode : Opcode) : IsCode opcode.code :=
  isCode_iff.mpr ⟨opcode, Opcode.ofCode?_eq_some_iff.mpr rfl⟩

theorem Opcode.code_lt (opcode : Opcode) : opcode.code < 100 := by
  cases opcode <;> decide

theorem Mode.digit_le (mode : Mode) : mode.digit ≤ 2 := by
  cases mode <;> decide

namespace Instruction

def significant (modes : List Mode) : List Mode :=
  modes.rdropWhile (· = .position)

variable {word : Int} {instr : Instruction}

theorem modeOf_digit (mode : Mode) : modeOf mode.digit = mode := by
  cases mode <;> rfl

theorem digit_modeOf {digit : Nat} (small : digit ≤ 2) : (modeOf digit).digit = digit := by
  match digit with
  | 0 | 1 | 2 => rfl

theorem significant_eq_self_iff {modes : List Mode}
    : significant modes = modes ↔ modes.getLast? ≠ some .position := by
  unfold significant
  rw [List.rdropWhile_eq_self_iff]
  cases modes using List.reverseRecOn with
  | nil => simp
  | append_singleton modes mode => simp

theorem getLast?_significant (modes : List Mode)
    : (significant modes).getLast? ≠ some .position := by
  rw [← significant_eq_self_iff]
  exact List.rdropWhile_idempotent _ modes

theorem getD_significant (modes : List Mode) (param : Nat)
    : (significant modes).getD param .position = modes.getD param .position := by
  induction modes using List.reverseRecOn with
  | nil => rfl
  | append_singleton modes mode ih =>
    unfold significant at ih ⊢
    by_cases last : mode = .position
    . rw [List.rdropWhile_concat_pos _ _ _ (by simpa using last), ih, last]
      simp only [List.getD_eq_getElem?_getD, List.getElem?_append]
      split
      . rfl
      . next beyond =>
        rw [List.getElem?_eq_none (Nat.le_of_not_lt beyond)]
        cases param - modes.length <;> rfl
    . rw [List.rdropWhile_concat_neg _ _ _ (by simpa using last)]

theorem ofDigits_significant (modes : List Mode)
    : Nat.ofDigits 10 ((significant modes).map (·.digit))
        = Nat.ofDigits 10 (modes.map (·.digit)) := by
  induction modes using List.reverseRecOn with
  | nil => rfl
  | append_singleton modes mode ih =>
    unfold significant at ih ⊢
    by_cases last : mode = .position
    . rw [List.rdropWhile_concat_pos _ _ _ (by simpa using last), ih, last, List.map_append]
      exact (Nat.ofDigits_append_zero _).symm
    . rw [List.rdropWhile_concat_neg _ _ _ (by simpa using last)]

theorem digits_ofDigits_digit (modes : List Mode)
    : Nat.digits 10 (Nat.ofDigits 10 (modes.map (·.digit)))
        = (significant modes).map (·.digit) := by
  rw [← ofDigits_significant]
  apply Nat.digits_ofDigits 10 (by decide)
  . intro digit mem
    obtain ⟨mode, -, rfl⟩ := List.mem_map.mp mem
    exact Nat.lt_of_le_of_lt mode.digit_le (by decide)
  . intro nonempty
    have nonempty' : significant modes ≠ [] := by simpa using nonempty
    have last : (significant modes).getLast nonempty' ≠ .position := by
      intro last
      apply getLast?_significant modes
      rw [List.getLast?_eq_some_getLast nonempty', last]
    rw [List.getLast_map]
    generalize (significant modes).getLast nonempty' = mode at last
    cases mode with
    | position => contradiction
    | immediate | relative => decide

theorem word_eq (instr : Instruction)
    : instr.word
        = ((instr.opcode.code + 100 * Nat.ofDigits 10 (instr.modes.map (·.digit)) : Nat) : Int) := by
  have made (modes : List Mode)
      : ofDigits (modes.map fun mode => (mode.digit : Int))
          = (Nat.ofDigits 10 (modes.map (·.digit)) : Nat) := by
    induction modes with
    | nil => rfl
    | cons mode modes ih =>
      rw [List.map_cons, ofDigits, ih, List.map_cons, Nat.ofDigits_cons]
      push_cast
      rfl
  unfold Instruction.word pack
  rw [made]
  push_cast
  rfl

theorem modeDigits_word (instr : Instruction)
    : modeDigits instr.word = (significant instr.modes).map (·.digit) := by
  have small := instr.opcode.code_lt
  unfold modeDigits
  rw [word_eq, Int.toNat_natCast, ← digits_ofDigits_digit]
  congr 1
  omega

theorem decode_word (instr : Instruction)
    : decode instr.word = .ok { instr with modes := significant instr.modes } := by
  have small := instr.opcode.code_lt
  have nonneg : ¬ instr.word < 0 := by
    rw [word_eq]
    exact Int.not_lt.mpr (Int.natCast_nonneg _)
  have code : (instr.word % 100).toNat = instr.opcode.code := by
    rw [word_eq]
    omega
  have good : ((significant instr.modes).map (·.digit)).find? (2 < ·) = none := by
    rw [List.find?_eq_none]
    intro digit mem
    obtain ⟨mode, -, rfl⟩ := List.mem_map.mp mem
    have := mode.digit_le
    simpa using this
  have modes : ((significant instr.modes).map (·.digit)).map modeOf = significant instr.modes := by
    rw [List.map_map]
    exact (List.map_congr_left fun mode _ => modeOf_digit mode).trans (List.map_id _)
  rw [decode_eq, if_neg nonneg, code, Opcode.ofCode?_eq_some_iff.mpr rfl, modeDigits_word]
  simp only [good, modes]

theorem isCode_mod_iff (word : Int)
    : IsCode (word % 100) ↔ ∃ opcode, Opcode.ofCode? (word % 100).toNat = some opcode := by
  rw [← isCode_iff, Int.toNat_of_nonneg (Int.emod_nonneg word (by decide))]

inductive Decodes (word : Int) : Except Cause Instruction → Prop where
  | negative : word < 0 → Decodes word (.error (.unknownOpcode word word))
  | unknownOpcode
    : 0 ≤ word → ¬ IsCode (word % 100) → Decodes word (.error (.unknownOpcode (word % 100) word))
  | unknownMode {digit : Nat}
    : 0 ≤ word → IsCode (word % 100) → (modeDigits word).find? (2 < ·) = some digit
      → Decodes word (.error (.unknownMode digit word))
  | instruction {opcode : Opcode}
    : 0 ≤ word → (opcode.code : Int) = word % 100 → (∀ digit ∈ modeDigits word, digit ≤ 2)
      → Decodes word (.ok { opcode, modes := (modeDigits word).map modeOf })

theorem decodes (word : Int) : Decodes word (decode word) := by
  rw [decode_eq]
  split
  . next negative => exact .negative negative
  . next nonneg =>
    have nonneg := Int.not_lt.mp nonneg
    have known := isCode_mod_iff word
    cases code : Opcode.ofCode? (word % 100).toNat with
    | none =>
      refine .unknownOpcode nonneg ?_
      rw [known, code]
      nofun
    | some opcode =>
      dsimp only
      cases bad : (modeDigits word).find? (2 < ·) with
      | some digit => exact .unknownMode nonneg (known.mpr ⟨opcode, code⟩) bad
      | none =>
        refine .instruction nonneg ?_ ?_
        . rw [Opcode.ofCode?_eq_some_iff.mp code]
          omega
        . intro digit mem
          simpa using List.find?_eq_none.mp bad digit mem

theorem map_digit_modeDigits (small : ∀ digit ∈ modeDigits word, digit ≤ 2)
    : ((modeDigits word).map modeOf).map (·.digit) = modeDigits word := by
  rw [List.map_map]
  exact (List.map_congr_left fun digit mem => digit_modeOf (small digit mem)).trans (List.map_id _)

theorem significant_map_modeOf (small : ∀ digit ∈ modeDigits word, digit ≤ 2)
    : significant ((modeDigits word).map modeOf) = (modeDigits word).map modeOf := by
  rw [significant_eq_self_iff, List.getLast?_map]
  intro last
  obtain ⟨digit, last, zero⟩ := Option.map_eq_some_iff.mp last
  have nonempty : modeDigits word ≠ [] := by
    intro empty
    rw [empty] at last
    contradiction
  have positive : digit ≠ 0 := by
    rw [List.getLast?_eq_some_getLast nonempty] at last
    rw [← Option.some_inj.mp last]
    exact Nat.getLast_digit_ne_zero 10 (Nat.digits_ne_nil_iff_ne_zero.mp nonempty)
  apply positive
  rw [← digit_modeOf (small digit (List.mem_of_getLast? last)), zero]
  rfl

theorem word_of_decode (h : decode word = .ok instr)
    : instr.word = word ∧ significant instr.modes = instr.modes := by
  have decodes := decodes word
  rw [h] at decodes
  cases decodes with
  | instruction nonneg code small =>
    refine ⟨?_, significant_map_modeOf small⟩
    rw [word_eq, map_digit_modeDigits small, modeDigits, Nat.ofDigits_digits]
    push_cast
    omega

theorem decode_eq_ok_iff
    : decode word = .ok instr ↔ instr.word = word ∧ instr.modes.getLast? ≠ some .position := by
  rw [← significant_eq_self_iff]
  constructor
  . exact word_of_decode
  . rintro ⟨rfl, same⟩
    rw [decode_word, same]

theorem decode_eq_error_iff {cause : Cause}
    : decode word = .error cause
        ↔ word < 0 ∧ cause = .unknownOpcode word word
          ∨ 0 ≤ word ∧ ¬ IsCode (word % 100) ∧ cause = .unknownOpcode (word % 100) word
          ∨ 0 ≤ word ∧ IsCode (word % 100)
            ∧ ∃ digit, (modeDigits word).find? (2 < ·) = some digit
              ∧ cause = .unknownMode digit word := by
  have decodes := decodes word
  constructor
  . intro h
    rw [h] at decodes
    cases decodes with
    | negative negative => exact .inl ⟨negative, rfl⟩
    | unknownOpcode nonneg unknown => exact .inr (.inl ⟨nonneg, unknown, rfl⟩)
    | unknownMode nonneg known bad => exact .inr (.inr ⟨nonneg, known, _, bad, rfl⟩)
  . generalize decode word = result at decodes
    cases decodes with
    | negative negative =>
      rintro (⟨-, rfl⟩ | ⟨nonneg, -⟩ | ⟨nonneg, -⟩)
      . rfl
      all_goals omega
    | unknownOpcode nonneg unknown =>
      rintro (⟨negative, -⟩ | ⟨-, -, rfl⟩ | ⟨-, known, -⟩)
      . omega
      . rfl
      . contradiction
    | unknownMode nonneg known bad =>
      rintro (⟨negative, -⟩ | ⟨-, unknown, -⟩ | ⟨-, -, digit, bad', rfl⟩)
      . omega
      . contradiction
      . rw [Option.some_inj.mp (bad.symm.trans bad')]
    | instruction nonneg code small =>
      rintro (⟨negative, -⟩ | ⟨-, unknown, -⟩ | ⟨-, -, digit, bad, -⟩)
      . omega
      . rw [← code] at unknown
        exact absurd (isCode_code _) unknown
      . have large := List.find?_some bad
        have := small digit (List.mem_of_find?_eq_some bad)
        simp only [decide_eq_true_eq] at large
        omega

theorem isWritable_refusal {cause : Cause} {ip : Option Int} (refused : decode word = .error cause)
    : Fault.IsWritable { cause, ip }
        ↔ Numeral.Short word ∧ ∀ i ∈ ip, Numeral.Short i := by
  have shown (v : Int)
      : (∀ i ∈ [v, word], Numeral.Short i) ↔ Numeral.Short v ∧ Numeral.Short word := by
    simp
  have part (v : Int) (small : Numeral.Short word → Numeral.Short v)
      : (∀ i ∈ ip.toList ++ [v, word], Numeral.Short i)
        ↔ Numeral.Short word ∧ ∀ i ∈ ip, Numeral.Short i := by
    rw [List.forall_mem_append, shown, and_iff_right_of_imp small, and_comm]
    simp only [Option.mem_toList, Option.mem_def]
  obtain ⟨-, rfl⟩ | ⟨-, -, rfl⟩ | ⟨-, -, digit, bad, rfl⟩ := decode_eq_error_iff.mp refused
  . exact part word id
  . have small : word % 100 < 100 := Int.emod_lt_of_pos word (by decide)
    exact part (word % 100) fun _ =>
      Numeral.short_of_lt (Int.emod_nonneg word (by decide)) (by omega)
  . have small : digit < 10 :=
      Nat.digits_lt_base (by decide) (List.mem_of_find?_eq_some bad)
    exact part digit fun _ => Numeral.short_of_lt (Int.natCast_nonneg digit) (by omega)

theorem exists_decode_iff
    : (∃ instr, decode word = .ok instr)
        ↔ 0 ≤ word ∧ IsCode (word % 100) ∧ ∀ digit ∈ modeDigits word, digit ≤ 2 := by
  have decodes := decodes word
  constructor
  . rintro ⟨instr, h⟩
    rw [h] at decodes
    cases decodes with
    | instruction nonneg code small =>
      refine ⟨nonneg, ?_, small⟩
      rw [← code]
      exact isCode_code _
  . rintro ⟨nonneg, known, small⟩
    generalize decode word = result at decodes
    cases decodes with
    | negative negative => omega
    | unknownOpcode _ unknown => contradiction
    | unknownMode _ _ bad =>
      have large := List.find?_some bad
      have := small _ (List.mem_of_find?_eq_some bad)
      simp only [decide_eq_true_eq] at large
      omega
    | instruction => exact ⟨_, rfl⟩

theorem decodeAt_eq_ok_iff {ip : Option Int}
    : decodeAt ip word = .ok instr ↔ decode word = .ok instr := by
  unfold decodeAt
  cases decode word with
  | error cause => exact ⟨nofun, nofun⟩
  | ok instr => simp only [Except.mapError, Except.ok.injEq]

theorem decodeAt_eq_error_iff {ip : Option Int} {e : Failure}
    : decodeAt ip word = .error e
        ↔ ∃ cause, decode word = .error cause
          ∧ e = if Numeral.Short word ∧ ∀ i ∈ ip, Numeral.Short i then
              Failure.fault { cause, ip }
            else
              .unwritable := by
  unfold decodeAt
  cases decoded : decode word with
  | ok instr => exact ⟨nofun, nofun⟩
  | error cause =>
    simp only [Except.mapError, Except.error.injEq, exists_eq_left']
    rw [Fault.raised, if_congr (isWritable_refusal decoded) rfl rfl, eq_comm]

theorem mode_significant (opcode : Opcode) (modes : List Mode)
    : mode { opcode, modes := significant modes } = fun param => modes.getD param .position :=
  funext fun param => getD_significant modes param

/--
A word is an instruction if it is not negative, its opcode is one and each of its further digits is
a mode. Of what is wrong with any other word the first thing counts: its sign, its opcode, its least
significant digit that is no mode; but a word of too many digits is not named by any fault. An
instruction is read from its word and from no other, except that the word does not tell the
positions at the end, as which all further parameters are read.
-/
theorem words_and_instructions (word : Int) (ip : Option Int)
    : ((∃ instr, decodeAt ip word = .ok instr)
        ↔ 0 ≤ word ∧ IsCode (word % 100) ∧ ∀ digit ∈ modeDigits word, digit ≤ 2)
      ∧ (∀ e, decodeAt ip word = .error e
        ↔ ∃ cause,
            (word < 0 ∧ cause = .unknownOpcode word word
              ∨ 0 ≤ word ∧ ¬ IsCode (word % 100) ∧ cause = .unknownOpcode (word % 100) word
              ∨ 0 ≤ word ∧ IsCode (word % 100)
                ∧ ∃ digit, (modeDigits word).find? (2 < ·) = some digit
                  ∧ cause = .unknownMode digit word)
            ∧ e = if Numeral.Short word ∧ ∀ i ∈ ip, Numeral.Short i then
                Failure.fault { cause, ip }
              else
                .unwritable)
      ∧ (∀ instr, decodeAt ip word = .ok instr
        ↔ instr.word = word ∧ instr.modes.getLast? ≠ some .position)
      ∧ ∀ opcode modes, ∃ instr, decodeAt ip (Instruction.word { opcode, modes }) = .ok instr
        ∧ instr.opcode = opcode ∧ instr.modes = modes.rdropWhile (· = .position)
        ∧ ∀ param, instr.mode param = modes.getD param .position := by
  refine ⟨?_, ?_, ?_, ?_⟩
  . simp only [decodeAt_eq_ok_iff]
    exact exists_decode_iff
  . intro e
    rw [decodeAt_eq_error_iff]
    simp only [decode_eq_error_iff]
  . intro instr
    rw [decodeAt_eq_ok_iff]
    exact decode_eq_ok_iff
  . intro opcode modes
    refine ⟨_, decodeAt_eq_ok_iff.mpr (decode_word _), rfl, rfl, ?_⟩
    intro param
    rw [mode_significant]

theorem decodeAt_long_word
    : decodeAt none (-10 ^ 4300) = .error .unwritable
      ∧ Failure.unwritable ≠ .fault { cause := .unknownOpcode (-10 ^ 4300) (-10 ^ 4300) } := by
  refine ⟨?_, nofun⟩
  rw [decodeAt_eq_error_iff]
  refine ⟨.unknownOpcode (-10 ^ 4300) (-10 ^ 4300), ?_, ?_⟩
  . exact decode_eq_error_iff.mpr (.inl ⟨by decide +kernel, rfl⟩)
  . rw [if_neg]
    exact fun short => absurd short.1 (by decide +kernel)

example : decode 1002 = .ok { opcode := .multiply, modes := [.position, .immediate] } := by
  decide +kernel

end Instruction

end Intcode
