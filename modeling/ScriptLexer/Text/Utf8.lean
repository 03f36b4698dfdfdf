/-
  UTF-8. `Utf8.decode` reads bytes one at a time and knows, inside a character, how many bytes are
  missing and which values the next one may have (`Utf8.Pending`). An error covers the bytes of the
  unfinished character up to the first one that does not fit.
-/

namespace ScriptLexer

namespace Utf8

/-- The bytes of a text. -/
def encode (text : String) : List UInt8 := text.toList.flatMap String.utf8EncodeChar

inductive Reason
  | invalidStart | invalidContinuation | unexpectedEnd
deriving DecidableEq, Repr

def Reason.text : Reason → String
  | invalidStart => "invalid start byte"
  | invalidContinuation => "invalid continuation byte"
  | unexpectedEnd => "unexpected end of data"

/-- Bytes that are no text: the first of them, where it stands, and how many they are. -/
structure Error where
  byte : UInt8
  position : Nat
  width : Nat
  reason : Reason
deriving DecidableEq, Repr

def hexDigits (b : UInt8) : String :=
  String.ofList [Nat.digitChar (b.toNat / 16), Nat.digitChar (b.toNat % 16)]

def Error.message (e : Error) : String :=
  let place :=
    if e.width = 1 then s!"byte 0x{hexDigits e.byte} in position {e.position}"
    else s!"bytes in position {e.position}-{e.position + e.width - 1}"
  s!"'utf-8' codec can't decode {place}: {e.reason.text}"

/-- A character of which some bytes have been read: its first byte and their number, the bits so
far, how many bytes are missing, and the range of the next one. -/
structure Pending where
  lead : UInt8
  width : Nat
  bits : Nat
  missing : Nat
  low : UInt8
  high : UInt8

/-- What the first byte of a longer character asks of the rest. The range of the second byte keeps
out long forms, surrogates, and what lies beyond the last character. -/
def Pending.ofLead? (b : UInt8) : Option Pending :=
  let begins (missing : Nat) (low high : UInt8) : Option Pending :=
    some ⟨b, 1, b.toNat % Nat.pow 2 (6 - missing), missing, low, high⟩
  if 0xC2 ≤ b ∧ b ≤ 0xDF then begins 1 0x80 0xBF
  else if b = 0xE0 then begins 2 0xA0 0xBF
  else if b = 0xED then begins 2 0x80 0x9F
  else if 0xE1 ≤ b ∧ b ≤ 0xEF then begins 2 0x80 0xBF
  else if b = 0xF0 then begins 3 0x90 0xBF
  else if 0xF1 ≤ b ∧ b ≤ 0xF3 then begins 3 0x80 0xBF
  else if b = 0xF4 then begins 3 0x80 0x8F
  else none

/-- The error of a pending character that is broken off before `position`. -/
def Pending.broken (p : Pending) (position : Nat) (reason : Reason) : Error :=
  ⟨p.lead, position - p.width, p.width, reason⟩

/-- Decodes bytes of which the first stands at `position`, with or without a pending character. -/
def decodeFrom (position : Nat) : Option Pending → List UInt8 → Except Error (List Char)
  | none, [] => .ok []
  | some p, [] => .error (p.broken position .unexpectedEnd)
  | none, b :: rest =>
    if b < 0x80 then do
      let cs ← decodeFrom (position + 1) none rest
      return Char.ofNat b.toNat :: cs
    else match Pending.ofLead? b with
      | some p => decodeFrom (position + 1) (some p) rest
      | none => .error ⟨b, position, 1, .invalidStart⟩
  | some p, b :: rest =>
    if p.low ≤ b ∧ b ≤ p.high then
      let bits := p.bits * 64 + b.toNat % 64
      if p.missing ≤ 1 then do
        let cs ← decodeFrom (position + 1) none rest
        return Char.ofNat bits :: cs
      else
        decodeFrom (position + 1) (some ⟨p.lead, p.width + 1, bits, p.missing - 1, 0x80, 0xBF⟩) rest
    else .error (p.broken position .invalidContinuation)

/-- The text of bytes. -/
def decode (bytes : List UInt8) : Except Error (List Char) := decodeFrom 0 none bytes

end Utf8

end ScriptLexer
