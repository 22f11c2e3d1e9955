import Intcode.Instruction.Listing
import Intcode.Proofs.Text.Column
import Intcode.Proofs.Text.Literal

namespace Intcode

namespace Numeral

theorem write_of_neg {v : Int} (neg : v < 0) : write v = '-' :: writeNat v.natAbs := by
  cases v with
  | ofNat n => exact absurd neg (Int.not_lt.mpr (Int.natCast_nonneg n))
  | negSucc n => rfl

theorem writeSigned_injective : Function.Injective writeSigned := by
  intro v v' same
  unfold writeSigned at same
  by_cases neg : v < 0
  . by_cases neg' : v' < 0
    . rw [if_pos neg, if_pos neg'] at same
      exact write_injective same
    . rw [if_pos neg, if_neg neg', write_of_neg neg] at same
      cases same
  . by_cases neg' : v' < 0
    . rw [if_neg neg, if_pos neg', write_of_neg neg'] at same
      cases same
    . rw [if_neg neg, if_neg neg'] at same
      exact write_injective (List.cons.inj same).2

theorem comma_not_mem_writeSigned (v : Int) : ',' ∉ writeSigned v := by
  have unwritten : ',' ∉ write v := not_mem_write (by decide) (by decide) v
  unfold writeSigned
  split
  . exact unwritten
  . simpa using unwritten

end Numeral

namespace Listing

open Numeral Text

variable {addr word word' : Int} {instr : Instruction} {operands operands' : List Int}

def renderOperands (instr : Instruction) (operands : List Int) : List String :=
  operands.mapIdx fun i raw => renderOperand (instr.mode i) raw

def body (word : Int) (instr? : Option Instruction) (operands : List Int) : String :=
  match instr? with
  | none => "DATA   " ++ render word
  | some instr =>
    match renderOperands instr operands with
    | [] => instr.opcode.mnemonic
    | shown =>
      String.ofList (padEnd 6 ' ' instr.opcode.mnemonic.toList) ++ (" " ++ ", ".intercalate shown)

theorem dataLine_eq (addr word : Int)
    : dataLine addr word = writing [addr, word] (margin addr word ++ body word none []) := by
  unfold dataLine
  exact congrArg _ String.append_assoc

theorem instructionLine_eq (addr word : Int) (instr : Instruction) (operands : List Int)
    : instructionLine addr word instr operands
        = writing (addr :: word :: operands)
            (margin addr word ++ body word (some instr) operands) := by
  cases operands with
  | nil => rfl
  | cons raw operands =>
    unfold instructionLine body renderOperands
    simp only [List.mapIdx_cons, String.append_assoc]

theorem toList_margin (addr word : Int)
    : (margin addr word).toList
        = writeZeroPadded 6 addr ++ ' ' :: ' ' :: (padEnd 12 ' ' (write word) ++ [' ']) := by
  simp [margin]

theorem margin_append_inj {shown shown' : String}
    (same : margin addr word ++ shown = margin addr word' ++ shown')
    : word = word' ∧ shown = shown' := by
  have blank (v : Int) : ' ' ∉ write v := not_mem_write (by decide) (by decide) v
  have chars := congrArg String.toList same
  simp only [String.toList_append, toList_margin, List.append_assoc, List.cons_append,
    List.append_cancel_left_eq, List.cons.injEq, true_and, List.nil_append] at chars
  obtain ⟨n, front⟩ := padEnd_append 12 (write word) shown.toList
  obtain ⟨n', front'⟩ := padEnd_append 12 (write word') shown'.toList
  rw [front, front'] at chars
  have words := (append_cons_inj chars (blank _) (blank _)).1
  obtain rfl := write_injective words
  exact ⟨rfl, (String.append_right_inj _).mp same⟩

theorem words_margin_append (addr word : Int) (shown : String)
    : words (margin addr word ++ shown).toList
        = writeZeroPadded 6 addr :: write word :: words shown.toList := by
  have blank : ' ' ∉ write word := not_mem_write (by decide) (by decide) word
  have one := words_blanks_append 1 (padEnd 12 ' ' (write word) ++ ' ' :: shown.toList)
  rw [String.toList_append, toList_margin, List.append_assoc, List.cons_append,
    words_word_append (writeZeroPadded_ne_nil 6 addr) (blank_not_mem_writeZeroPadded 6 addr)]
  simp only [List.cons_append, List.append_assoc, List.nil_append]
  rw [← words_padEnd_append (write_ne_nil word) blank, ← one]
  rfl

def label (instr? : Option Instruction) : String :=
  instr?.elim "DATA" (·.opcode.mnemonic)

theorem label_spec (instr? : Option Instruction)
    : (label instr?).toList ≠ [] ∧ ' ' ∉ (label instr?).toList := by
  cases instr? with
  | none => decide
  | some instr =>
    show instr.opcode.mnemonic.toList ≠ [] ∧ ' ' ∉ instr.opcode.mnemonic.toList
    cases instr.opcode <;> decide

theorem words_body (word : Int) (instr? : Option Instruction) (operands : List Int)
    : ∃ rest, words (body word instr? operands).toList = (label instr?).toList :: rest := by
  obtain ⟨nonempty, whole⟩ := label_spec instr?
  unfold body
  cases instr? with
  | none =>
    refine ⟨words (' ' :: ' ' :: (render word).toList), ?_⟩
    rw [String.toList_append]
    exact words_word_append nonempty whole _
  | some instr =>
    dsimp only
    split
    . exact ⟨_, words_of_word nonempty whole⟩
    . refine ⟨words (", ".intercalate (renderOperands instr operands)).toList, ?_⟩
      rw [String.toList_append, String.toList_ofList, String.toList_append]
      exact words_padEnd_append nonempty whole 6 _

theorem toList_renderOperand (mode : Mode) (raw : Int)
    : (renderOperand mode raw).toList
        =
      match mode with
      | .position => '[' :: (write raw ++ [']'])
      | .immediate => '#' :: write raw
      | .relative => '[' :: 'r' :: 'b' :: (writeSigned raw ++ [']']) := by
  cases mode <;> simp [renderOperand, render, toString]

theorem comma_not_mem_renderOperand (mode : Mode) (raw : Int)
    : ',' ∉ (renderOperand mode raw).toList := by
  have unwritten : ',' ∉ write raw := not_mem_write (by decide) (by decide) raw
  rw [toList_renderOperand]
  cases mode with
  | position | immediate => simp [unwritten]
  | relative => simp [comma_not_mem_writeSigned]

theorem renderOperand_injective (mode : Mode) : Function.Injective (renderOperand mode) := by
  intro raw raw' same
  have chars := congrArg String.toList same
  simp only [toList_renderOperand] at chars
  cases mode with
  | position | immediate => exact write_injective (by simpa using chars)
  | relative => exact writeSigned_injective (by simpa using chars)

theorem renderOperands_injective (length : operands.length = operands'.length)
    (same : renderOperands instr operands = renderOperands instr operands')
    : operands = operands' := by
  apply List.ext_getElem length
  intro i inside inside'
  have part := congrArg (·[i]?) same
  apply renderOperand_injective (instr.mode i)
  simpa [renderOperands, inside, inside'] using part

theorem intercalate_renderOperands_injective (length : operands.length = operands'.length)
    (same : ", ".intercalate (renderOperands instr operands)
      = ", ".intercalate (renderOperands instr operands'))
    : operands = operands' := by
  have parts (operands : List Int)
      : ∀ part ∈ (renderOperands instr operands).map String.toList, ',' ∉ part := by
    simp only [renderOperands, List.mem_map, List.mem_mapIdx]
    rintro _ ⟨_, ⟨i, inside, rfl⟩, rfl⟩
    exact comma_not_mem_renderOperand _ _
  have joined : [',', ' '].intercalate ((renderOperands instr operands).map String.toList)
      = [',', ' '].intercalate ((renderOperands instr operands').map String.toList) := by
    simpa using congrArg String.toList same
  have shown := intercalate_injective (by simpa [renderOperands] using length) (parts _) (parts _)
    joined
  exact renderOperands_injective length
    (List.map_injective_iff.mpr (fun _ _ => String.toList_inj.mp) shown)

theorem body_injective (length : operands.length = operands'.length)
    (same : body word (some instr) operands = body word (some instr) operands')
    : operands = operands' := by
  cases operands with
  | nil => exact (List.length_eq_zero_iff.mp length.symm).symm
  | cons raw operands =>
    obtain ⟨raw', operands', rfl⟩ := List.exists_cons_of_length_eq_add_one length.symm
    have shown : ", ".intercalate (renderOperands instr (raw :: operands))
        = ", ".intercalate (renderOperands instr (raw' :: operands')) := by
      unfold body renderOperands at same
      simp only [List.mapIdx_cons, String.append_right_inj] at same
      simpa [renderOperands] using same
    exact intercalate_renderOperands_injective length shown

end Listing

end Intcode
