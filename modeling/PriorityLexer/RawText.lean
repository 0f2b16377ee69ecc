import PriorityLexer.Text.Utf8

namespace PriorityLexer

/-- A code point as the system hands it over. A surrogate is no character: between U+DC80 and
U+DCFF it stands for a byte that is not UTF-8, and otherwise for nothing. -/
inductive CodePoint where
  | char (c : Char)
  | surrogate (index : Fin 0x800)
deriving DecidableEq, Repr

namespace CodePoint

def value : CodePoint → Nat
  | char c => c.toNat
  | surrogate index => 0xD800 + index

/-- The byte behind a surrogate that stands for one. -/
def byte? : CodePoint → Option UInt8
  | char _ => none
  | surrogate index =>
    if 0x480 ≤ index.val ∧ index.val < 0x500 then some (UInt8.ofNat (index - 0x400)) else none

def isSurrogate : CodePoint → Bool
  | char _ => false
  | surrogate _ => true

/-- A surrogate is written as an escape, since no output takes it as it is. -/
def shown : CodePoint → Text
  | char c => [c]
  | surrogate index => Text.codeEscape (0xD800 + index)

def escaped (quote : Char) : CodePoint → Text
  | char c => Text.escaped quote c
  | surrogate index => Text.codeEscape (0xD800 + index)

end CodePoint

/-- An argument or a path. Texts are among them, as the ones without surrogates. -/
abbrev RawText := List CodePoint

/-- Why a raw text is no file name: `run` surrogates from a position on, the first of which stands
for no byte. -/
structure EncodeError where
  position : Nat
  first : CodePoint
  run : Nat
deriving DecidableEq, Repr

def EncodeError.message (error : EncodeError) : Text :=
  let place :=
    if error.run = 1 then
      "character '".toList ++ Text.codeEscape error.first.value ++ "' in position ".toList ++
        Text.decimal error.position
    else
      "characters in position ".toList ++ Text.decimal error.position ++ "-".toList ++
        Text.decimal (error.position + error.run - 1)
  "'utf-8' codec can't encode ".toList ++ place ++ ": surrogates not allowed".toList

namespace RawText

def ofText (text : Text) : RawText := text.map .char

def ofString (string : String) : RawText := ofText string.toList

def shown (raw : RawText) : Text := raw.flatMap CodePoint.shown

def quoted (raw : RawText) : Text :=
  let quote := Text.enclosingQuote raw.shown
  quote :: raw.flatMap (CodePoint.escaped quote) ++ [quote]

def nameFrom (position : Nat) : RawText → Except EncodeError Text.Utf8.Bytes
  | [] => .ok []
  | .char c :: rest => (nameFrom (position + 1) rest).map (String.utf8EncodeChar c ++ ·)
  | .surrogate index :: rest =>
    match (CodePoint.surrogate index).byte? with
    | some byte => (nameFrom (position + 1) rest).map (byte :: ·)
    | none =>
      .error ⟨position, .surrogate index, 1 + (rest.takeWhile CodePoint.isSurrogate).length⟩

/-- The bytes under which the system knows a path. -/
def name (raw : RawText) : Except EncodeError Text.Utf8.Bytes := nameFrom 0 raw

theorem shown_ofText (text : Text) : (ofText text).shown = text := by
  rw [shown, ofText, List.flatMap_map]
  exact List.flatMap_singleton' text

end RawText

end PriorityLexer
