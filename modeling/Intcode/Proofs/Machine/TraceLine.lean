import Intcode.Machine.Trace
import Intcode.Proofs.Text.Column
import Mathlib.Data.List.Forall2

namespace Intcode.TraceEntry

open Numeral Text

def nameColumn (opcode : Opcode) : List Char :=
  opcode.mnemonic.toList ++ List.replicate (6 - opcode.mnemonic.length) ' '

/-- The columns of the line are the address, the name, the operands and the base of the entry. -/
def Reads (entry : TraceEntry) (line : List Char) : Prop :=
  ∃ head tail cells,
    line = head ++ ':' :: ' ' :: (nameColumn entry.opcode ++ ' ' :: '[' ::
        ([',', ' '].intercalate cells ++ ']' :: ' ' :: 'r' :: 'b' :: '=' :: tail))
      ∧ 6 ≤ head.length ∧ read head = .ok entry.ip
      ∧ List.Forall₂ (fun cell v => read cell = .ok v) cells entry.operands
      ∧ read tail = .ok entry.base
      ∧ ∀ column ∈ head :: tail :: cells, ∀ c ∈ column, IsMark c

variable {entry entry' : TraceEntry} {line : List Char}

theorem length_nameColumn (opcode : Opcode) : (nameColumn opcode).length = 6 := by
  cases opcode <;> rfl

theorem nameColumn_injective : Function.Injective nameColumn := by
  have name (opcode : Opcode) : (nameColumn opcode).filter (· ≠ ' ') = opcode.mnemonic.toList := by
    cases opcode <;> decide
  have mnemonic_injective (opcode opcode' : Opcode)
      (same : opcode.mnemonic.toList = opcode'.mnemonic.toList) : opcode = opcode' := by
    cases opcode <;> cases opcode' <;> first | rfl | exact absurd same (by decide)
  intro opcode opcode' same
  apply mnemonic_injective
  rw [← name, same, name]

theorem not_isMark_of_separator : ∀ c ∈ [':', ',', ']'], ¬ IsMark c := by
  have unmarked (c : Char) (sign : c ≠ '-') (digit : ∀ d < 10, c ≠ digitChar d) : ¬ IsMark c := by
    rintro (rfl | ⟨d, small, rfl⟩)
    . exact sign rfl
    . exact digit d small rfl
  simp only [List.forall_mem_cons]
  exact ⟨unmarked _ (by decide) (by decide), unmarked _ (by decide) (by decide),
    unmarked _ (by decide) (by decide), List.forall_mem_nil _⟩

theorem toList_render (entry : TraceEntry)
    : entry.render.toList
        = writeZeroPadded 6 entry.ip ++ ':' :: ' ' :: (nameColumn entry.opcode ++ ' ' :: '[' ::
            ([',', ' '].intercalate (entry.operands.map write)
              ++ ']' :: ' ' :: 'r' :: 'b' :: '=' :: write entry.base)) := by
  have column : padEnd 6 ' ' entry.opcode.mnemonic.toList = nameColumn entry.opcode := by
    rw [padEnd, String.length_toList]
    rfl
  simp [render, layout, column, Function.comp_def, Numeral.render]

theorem reads_render (writable : entry.IsWritable) : entry.Reads entry.render.toList := by
  have short (v : Int) (mem : v ∈ entry.numbers) : Short v := writable v mem
  refine ⟨_, _, _, toList_render entry, ?_, ?_, ?_, ?_, ?_⟩
  . unfold writeZeroPadded
    split
    . next negative =>
      rw [List.length_cons, padStart_length]
      omega
    . rw [padStart_length]
      exact Nat.le_max_left _ _
  . exact read_writeZeroPadded (by decide) (short _ List.mem_cons_self)
  . rw [List.forall₂_map_left_iff, List.forall₂_same]
    intro v mem
    exact read_write (short v (List.mem_cons_of_mem _ (List.mem_cons_of_mem _ mem)))
  . exact read_write (short _ (List.mem_cons_of_mem _ List.mem_cons_self))
  . rw [List.forall_mem_cons, List.forall_mem_cons, List.forall_mem_map]
    exact ⟨fun _ => isMark_of_mem_writeZeroPadded, fun _ => isMark_of_mem_write,
      fun _ _ _ => isMark_of_mem_write⟩

theorem eq_of_forall₂_read {cells : List (List Char)} {vs vs' : List Int}
    (reads : List.Forall₂ (fun cell v => read cell = .ok v) cells vs)
    (reads' : List.Forall₂ (fun cell v => read cell = .ok v) cells vs') : vs = vs' := by
  induction reads generalizing vs' with
  | nil =>
    cases reads'
    rfl
  | cons first _ ih =>
    cases reads' with
    | cons first' rest' =>
      cases first.symm.trans first'
      rw [ih rest']

theorem nil_not_mem_of_forall₂_read {cells : List (List Char)} {vs : List Int}
    (reads : List.Forall₂ (fun cell v => read cell = .ok v) cells vs) : [] ∉ cells := by
  intro mem
  induction reads with
  | nil => contradiction
  | cons first _ ih =>
    cases mem with
    | head => contradiction
    | tail _ mem => exact ih mem

theorem Reads.unique (reads : entry.Reads line) (reads' : entry'.Reads line) : entry = entry' := by
  obtain ⟨head, tail, cells, rfl, -, ip, operands, base, marks⟩ := reads
  obtain ⟨head', tail', cells', same, -, ip', operands', base', marks'⟩ := reads'
  have unmarked (c : Char) (mem : c ∈ [':', ',', ']']) {column : List Char}
      (marks : ∀ c ∈ column, IsMark c) : c ∉ column :=
    fun there => not_isMark_of_separator c mem (marks c there)
  simp only [List.forall_mem_cons] at marks marks'
  obtain ⟨heads, -, body⟩ :=
    append_cons_inj same (unmarked ':' (by simp) marks.1) (unmarked ':' (by simp) marks'.1)
  obtain ⟨names, body⟩ := List.append_inj (List.cons.inj body).2
    ((length_nameColumn _).trans (length_nameColumn _).symm)
  obtain ⟨listed, -, ending⟩ := append_cons_inj (List.cons.inj (List.cons.inj body).2).2
    (not_mem_intercalate (by decide) fun cell mem => unmarked ']' (by simp) (marks.2.2 cell mem))
    (not_mem_intercalate (by decide) fun cell mem => unmarked ']' (by simp) (marks'.2.2 cell mem))
  have cells := intercalate_injective_of_nonempty (nil_not_mem_of_forall₂_read operands)
    (nil_not_mem_of_forall₂_read operands')
    (fun cell mem => unmarked ',' (by simp) (marks.2.2 cell mem))
    (fun cell mem => unmarked ',' (by simp) (marks'.2.2 cell mem)) listed
  simp only [List.cons.injEq, true_and] at ending
  subst heads cells ending
  obtain ⟨_, opcode, _, _⟩ := entry
  obtain ⟨_, opcode', _, _⟩ := entry'
  cases ip.symm.trans ip'
  cases base.symm.trans base'
  cases eq_of_forall₂_read operands operands'
  cases nameColumn_injective names
  rfl

theorem render_injective (writable : entry.IsWritable) (writable' : entry'.IsWritable)
    (same : entry.render = entry'.render) : entry = entry' := by
  have reads := reads_render writable
  rw [same] at reads
  exact reads.unique (reads_render writable')

theorem render_unbroken (entry : TraceEntry)
    : entry.render ≠ "" ∧ '\n' ∉ entry.render.toList := by
  have unmarked : ¬ IsMark '\n' := fun mark => absurd mark.isBlank (by decide)
  have named : '\n' ∉ nameColumn entry.opcode := by
    cases entry.opcode <;> decide
  have listed : '\n' ∉ [',', ' '].intercalate (entry.operands.map write) := by
    apply not_mem_intercalate (by decide)
    rw [List.forall_mem_map]
    exact fun v _ mem => unmarked (isMark_of_mem_write mem)
  constructor
  . intro empty
    have shown := toList_render entry
    rw [empty] at shown
    simp at shown
  . rw [toList_render]
    simp only [List.mem_append, List.mem_cons, not_or]
    exact ⟨fun mem => unmarked (isMark_of_mem_writeZeroPadded mem), by decide, by decide, named,
      by decide, by decide, listed, by decide, by decide, by decide, by decide, by decide,
      fun mem => unmarked (isMark_of_mem_write mem)⟩

theorem reads_renderAll {entries : Array TraceEntry}
    (writable : ∀ entry ∈ entries.toList, entry.IsWritable)
    : List.Forall₂ Reads entries.toList (lines (renderAll entries).toList) := by
  rw [renderAll, lines_joinLines, List.map_map, List.forall₂_map_right_iff, List.forall₂_same]
  . exact fun entry mem => reads_render (writable entry mem)
  . exact List.forall_mem_map.mpr fun entry _ => render_unbroken entry

end Intcode.TraceEntry
