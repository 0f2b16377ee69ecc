import PriorityLexer.Text.Written

namespace PriorityLexer.Text.Utf8

abbrev Bytes := List UInt8

def encode (text : Text) : Bytes := text.flatMap String.utf8EncodeChar

inductive Reason where
  | invalidStart
  | invalidContinuation
  | unexpectedEnd
deriving DecidableEq, Repr

structure DecodeError where
  position : Nat
  byte : Nat
  span : Nat
  reason : Reason
deriving DecidableEq, Repr

/-- What a first byte announces: how many bytes follow, its share of the code point, and the range
in which the next byte has to lie. -/
structure Lead where
  trailing : Nat
  bits : Nat
  low : Nat
  high : Nat
deriving DecidableEq, Repr

/-- The narrower ranges exclude overlong forms, surrogates and code points past U+10FFFF. -/
def lead? (byte : Nat) : Option Lead :=
  if byte < 0x80 then some ⟨0, byte, 0x80, 0xBF⟩
  else if byte < 0xC2 then none
  else if byte < 0xE0 then some ⟨1, byte - 0xC0, 0x80, 0xBF⟩
  else if byte < 0xF0 then
    some ⟨2, byte - 0xE0, if byte = 0xE0 then 0xA0 else 0x80, if byte = 0xED then 0x9F else 0xBF⟩
  else if byte < 0xF5 then
    some ⟨3, byte - 0xF0, if byte = 0xF0 then 0x90 else 0x80, if byte = 0xF4 then 0x8F else 0xBF⟩
  else none

/-- Adds six bits for each of the missing bytes, or says why that fails and how many bytes of the
sequence, `seen` before this call, were acceptable. -/
def continuation : (missing low high bits seen : Nat) → Bytes → Except (Reason × Nat) Nat
  | 0, _, _, bits, _, _ => .ok bits
  | _ + 1, _, _, _, seen, [] => .error (.unexpectedEnd, seen)
  | missing + 1, low, high, bits, seen, byte :: rest =>
    if low ≤ byte.toNat ∧ byte.toNat ≤ high then
      continuation missing 0x80 0xBF (bits * 64 + (byte.toNat - 0x80)) (seen + 1) rest
    else .error (.invalidContinuation, seen)

/-- The code point at the head of the bytes and the number of bytes after its first. -/
def codePoint (first : Nat) (rest : Bytes) : Except (Reason × Nat) (Nat × Nat) :=
  match lead? first with
  | none => .error (.invalidStart, 1)
  | some lead =>
    (continuation lead.trailing lead.low lead.high lead.bits 1 rest).map (·, lead.trailing)

def decodeFrom (position : Nat) (bytes : Bytes) : Except DecodeError Text :=
  match bytes with
  | [] => .ok []
  | first :: rest =>
    match codePoint first.toNat rest with
    | .error (reason, span) => .error ⟨position, first.toNat, span, reason⟩
    | .ok (code, trailing) =>
      (decodeFrom (position + 1 + trailing) (rest.drop trailing)).map (Char.ofNat code :: ·)
termination_by bytes.length
decreasing_by simp only [List.length_drop, List.length_cons]; omega

def decode (bytes : Bytes) : Except DecodeError Text := decodeFrom 0 bytes

def Reason.message : Reason → Text
  | .invalidStart => "invalid start byte".toList
  | .invalidContinuation => "invalid continuation byte".toList
  | .unexpectedEnd => "unexpected end of data".toList

def DecodeError.message (error : DecodeError) : Text :=
  let place :=
    if error.span = 1 then
      "byte 0x".toList ++ hexadecimal 2 error.byte ++ " in position ".toList ++
        decimal error.position
    else
      "bytes in position ".toList ++ decimal error.position ++ "-".toList ++
        decimal (error.position + error.span - 1)
  "'utf-8' codec can't decode ".toList ++ place ++ ": ".toList ++ error.reason.message

end PriorityLexer.Text.Utf8
