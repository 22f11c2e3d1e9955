import Intcode.Console.Port
import Intcode.Proofs.Text.Numeral

namespace Intcode.Port

open Numeral Text

theorem decodeByte_digitChar : ∀ d < 10,
    (digitChar d).toUInt8 ≠ lineBreak ∧ decodeByte (digitChar d).toUInt8 = digitChar d := by
  decide

theorem decodeByte_of_isMark {c : Char} (h : IsMark c)
    : c.toUInt8 ≠ lineBreak ∧ decodeByte c.toUInt8 = c := by
  obtain rfl | ⟨d, small, rfl⟩ := h
  . decide
  . exact decodeByte_digitChar d small

theorem decode_encode (v : Int) : decode (encode v) = Numeral.write v := by
  have marks : (Numeral.write v).map (decodeByte ∘ Char.toUInt8) = Numeral.write v := by
    calc
      _ = (Numeral.write v).map id :=
        List.map_congr_left fun c mem => (decodeByte_of_isMark (isMark_of_mem_write mem)).2
      _ = Numeral.write v := List.map_id _
  unfold decode encode
  rw [List.map_append, List.map_map, marks]
  apply trim_append_of_forall (write_ne_nil v)
  . intro c mem
    exact (isMark_of_mem_write mem).isBlank
  . rw [List.map_singleton, List.forall_mem_singleton]
    decide

theorem lineBreak_not_mem_write (v : Int) : lineBreak ∉ (Numeral.write v).map Char.toUInt8 := by
  intro mem
  obtain ⟨c, mem, same⟩ := List.mem_map.mp mem
  exact (decodeByte_of_isMark (isMark_of_mem_write mem)).1 same

def text (bytes : List UInt8) : String :=
  String.ofList (bytes.map fun b => Char.ofNat b.toNat)

theorem ofNat_toUInt8_digitChar : ∀ d < 10,
    Char.ofNat (digitChar d).toUInt8.toNat = digitChar d := by
  decide

theorem ofNat_toUInt8_of_isMark {c : Char} (h : IsMark c) : Char.ofNat c.toUInt8.toNat = c := by
  obtain rfl | ⟨d, small, rfl⟩ := h
  . decide
  . exact ofNat_toUInt8_digitChar d small

theorem text_encode (v : Int) : text (encode v) = s!"{v}\n" := by
  have marks : (Numeral.write v).map ((fun b => Char.ofNat b.toNat) ∘ Char.toUInt8)
      = Numeral.write v := by
    calc
      _ = (Numeral.write v).map id :=
        List.map_congr_left fun c mem => ofNat_toUInt8_of_isMark (isMark_of_mem_write mem)
      _ = Numeral.write v := List.map_id _
  unfold text encode
  rw [List.map_append, List.map_map, marks, ← render_eq_toString]
  exact String.ofList_append

end Intcode.Port
