import Intcode.Console.Loopback
import Intcode.Proofs.Console.Exchange
import Intcode.Proofs.Console.Line

namespace Intcode

open Numeral Text

namespace Port

/-- The bytes that wait in a port are those that were written and not yet read. -/
structure Fifo {π : Type} [Port π] (Holds : π → List UInt8 → Prop) : Prop where
  write {port : π} {bytes : List UInt8} (line : List UInt8)
    : Holds port bytes
      → ∃ port', Port.write line port = (.ok (), port') ∧ Holds port' (bytes ++ line)
  readLine {port : π} {line rest : List UInt8}
    : Holds port (line ++ lineBreak :: rest) → lineBreak ∉ line
      → ∃ port', Port.readLine port = (.ok (line ++ [lineBreak]), port') ∧ Holds port' rest
  timeout {port : π}
    : Holds port [] → ∃ port', Port.readLine port = (.ok [], port') ∧ Holds port' []

end Port

theorem Loopback.fifo : Port.Fifo fun (port : Loopback) bytes => port.waiting = bytes where
  write {port bytes} line holds := by
    subst holds
    exact ⟨_, rfl, rfl⟩
  readLine {port line rest} holds unbroken := by
    have whole : ∀ b ∈ line, (b != Port.lineBreak) = true := by
      intro b mem
      rw [bne_iff_ne]
      rintro rfl
      exact unbroken mem
    have split
        : (Port.lineBreak :: rest).dropWhile (· != Port.lineBreak) = Port.lineBreak :: rest :=
      List.dropWhile_cons_of_neg (by decide)
    have split' : (Port.lineBreak :: rest).takeWhile (· != Port.lineBreak) = [] :=
      List.takeWhile_cons_of_neg (by decide)
    simp only [Port.readLine, holds, List.dropWhile_append_of_pos whole,
      List.takeWhile_append_of_pos whole, split, split']
    rw [List.append_nil]
    exact ⟨_, rfl, rfl⟩
  timeout {port} holds := by
    simp only [Port.readLine, holds]
    exact ⟨_, rfl, rfl⟩

namespace Port

namespace Fifo

variable {π : Type} [Port π] {Holds : π → List UInt8 → Prop} {port : π}

theorem next_encode {v : Int} {rest : List UInt8} (fifo : Fifo Holds)
    (holds : Holds port (encode v ++ rest)) (short : Short v)
    : ∃ port', Port.next port = (some v, port') ∧ Holds port' rest := by
  unfold encode at holds
  rw [List.append_assoc] at holds
  obtain ⟨port', found, holds⟩ := fifo.readLine holds (lineBreak_not_mem_write v)
  refine ⟨port', ?_, holds⟩
  have line : (Numeral.write v).map Char.toUInt8 ++ [lineBreak] = encode v := rfl
  have value : Numeral.read (decode (encode v)) = .ok v := by
    rw [decode_encode, read_write short]
  rw [line] at found
  unfold Port.next
  rw [found]
  cases bytes : encode v with
  | nil => exact absurd bytes (List.append_ne_nil_of_right_ne_nil _ (List.cons_ne_nil _ _))
  | cons b bytes' =>
    rw [bytes] at value
    dsimp only
    rw [value]
    rfl

theorem next_nil (fifo : Fifo Holds) (holds : Holds port [])
    : ∃ port', Port.next port = (none, port') ∧ Holds port' []
        ∧ ∀ ip, Port.objection ip port = .fault { cause := .readTimedOut, ip := some ip } := by
  obtain ⟨port', found, holds⟩ := fifo.timeout holds
  unfold Port.next Port.objection
  rw [found]
  exact ⟨port', rfl, holds, fun _ => rfl⟩

end Fifo

end Port

end Intcode
