import Intcode.Text.Numeral
import Intcode.Text.Quoted

/-!
UTF-8. Decoding stops at the first sequence that is not well-formed, and says which bytes are to
blame: those that could still have begun a sequence, up to the one that could not go on with it.
-/
namespace Intcode.Utf8

inductive Reason where
  | invalidStart
  | invalidContinuation
  | unexpectedEnd
  deriving Repr, DecidableEq

def Reason.message : Reason → String
  | invalidStart => "invalid start byte"
  | invalidContinuation => "invalid continuation byte"
  | unexpectedEnd => "unexpected end of data"

structure Malformed where
  first : UInt8
  start : Nat
  stop : Nat
  reason : Reason
  deriving Repr, DecidableEq

def Malformed.message (m : Malformed) : String :=
  let start := Numeral.render m.start
  let culprit :=
    if m.stop = m.start + 1 then
      s!"byte 0x{String.ofList (Text.hex 2 m.first.toNat)} in position {start}"
    else
      s!"bytes in position {start}-{Numeral.render (m.stop - 1)}"
  s!"'utf-8' codec can't decode {culprit}: {m.reason.message}"

structure Partial where
  first : UInt8
  start : Nat
  bits : Nat
  missing : Nat
  least : Nat := 0x80
  greatest : Nat := 0xBF

def begin? (pos : Nat) (b : UInt8) : Option Partial :=
  let n := b.toNat
  let first := { first := b, start := pos, bits := n % 0x20, missing := 1 }
  if 0xC2 ≤ n ∧ n ≤ 0xDF then some first
  else if n = 0xE0 then some { first with bits := n % 0x10, missing := 2, least := 0xA0 }
  else if n = 0xED then some { first with bits := n % 0x10, missing := 2, greatest := 0x9F }
  else if 0xE1 ≤ n ∧ n ≤ 0xEF then some { first with bits := n % 0x10, missing := 2 }
  else if n = 0xF0 then some { first with bits := n % 0x8, missing := 3, least := 0x90 }
  else if n = 0xF4 then some { first with bits := n % 0x8, missing := 3, greatest := 0x8F }
  else if 0xF1 ≤ n ∧ n ≤ 0xF3 then some { first with bits := n % 0x8, missing := 3 }
  else none

def decodeFrom : (pos : Nat) → Option Partial → List UInt8 → Except Malformed (List Char)
  | _, none, [] => .ok []
  | pos, some p, [] =>
    .error { first := p.first, start := p.start, stop := pos, reason := .unexpectedEnd }
  | pos, none, b :: rest =>
    if b < 0x80 then
      (decodeFrom (pos + 1) none rest).map (Char.ofNat b.toNat :: ·)
    else
      match begin? pos b with
      | some p => decodeFrom (pos + 1) (some p) rest
      | none => .error { first := b, start := pos, stop := pos + 1, reason := .invalidStart }
  | pos, some p, b :: rest =>
    if p.least ≤ b.toNat ∧ b.toNat ≤ p.greatest then
      let bits := p.bits * 0x40 + b.toNat % 0x40
      if p.missing ≤ 1 then
        (decodeFrom (pos + 1) none rest).map (Char.ofNat bits :: ·)
      else
        let p := { p with bits, missing := p.missing - 1, least := 0x80, greatest := 0xBF }
        decodeFrom (pos + 1) (some p) rest
    else
      .error { first := p.first, start := p.start, stop := pos, reason := .invalidContinuation }

def decode (bytes : List UInt8) : Except Malformed (List Char) :=
  decodeFrom 0 none bytes

end Intcode.Utf8
