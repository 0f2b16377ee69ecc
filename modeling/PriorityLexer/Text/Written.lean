import PriorityLexer.Text.Printable

namespace PriorityLexer.Text

def decimal (n : Nat) : Text := Nat.toDigits 10 n

def signedDecimal : Int → Text
  | .ofNat n => decimal n
  | .negSucc n => '-' :: decimal (n + 1)

/-- Lower-case hexadecimal; a number too long for the width keeps all its digits. -/
def hexadecimal (width n : Nat) : Text := (Nat.toDigits 16 n).leftpad width '0'

def upperHexadecimal (width n : Nat) : Text := (hexadecimal width n).map Char.toUpper

theorem decimal_injective {m n : Nat} (h : decimal m = decimal n) : m = n := by
  have hm := Nat.ofDigitChars_toDigits (b := 10) (n := m) (by decide) (by decide)
  have hn := Nat.ofDigitChars_toDigits (b := 10) (n := n) (by decide) (by decide)
  rw [decimal, decimal] at h
  rw [← hm, h, hn]

theorem decimal_ne_nil (n : Nat) : decimal n ≠ [] := Nat.toDigits_ne_nil

theorem isDigit_of_mem_decimal {n : Nat} {c : Char} (h : c ∈ decimal n) : c.isDigit = true :=
  Nat.isDigit_of_mem_toDigits (by decide) (by decide) h

theorem isDigit_or_of_mem_signedDecimal {n : Int} {c : Char} (h : c ∈ signedDecimal n) :
    c.isDigit = true ∨ c = '-' := by
  cases n with
  | ofNat n => exact .inl (isDigit_of_mem_decimal h)
  | negSucc n =>
    rcases List.mem_cons.1 h with minus | digit
    · exact .inr minus
    · exact .inl (isDigit_of_mem_decimal digit)

theorem not_mem_signedDecimal {c : Char} (not_digit : c.isDigit = false) (not_minus : c ≠ '-')
    (n : Int) : c ∉ signedDecimal n := by
  intro mem
  rcases isDigit_or_of_mem_signedDecimal mem with digit | minus
  · rw [not_digit] at digit
    cases digit
  · exact not_minus minus

theorem decimal_ne_minus_cons (n : Nat) (rest : Text) : decimal n ≠ '-' :: rest := by
  intro h
  have mem : '-' ∈ decimal n := by
    rw [h]
    exact List.mem_cons_self
  exact absurd (isDigit_of_mem_decimal mem) (by decide)

theorem signedDecimal_injective {m n : Int} (h : signedDecimal m = signedDecimal n) : m = n := by
  cases m with
  | ofNat m =>
    cases n with
    | ofNat n => rw [decimal_injective h]
    | negSucc n => exact absurd h (decimal_ne_minus_cons m _)
  | negSucc m =>
    cases n with
    | ofNat n => exact absurd h.symm (decimal_ne_minus_cons n _)
    | negSucc n => rw [Nat.succ_inj.1 (decimal_injective (List.cons.inj h).2)]

/-- The most digits that a number can be written with. -/
def digitLimit : Nat := 4300

def isWritable (n : Int) : Bool := (decimal n.natAbs).length ≤ digitLimit

/-- The enclosing quote is single unless the text has a single quote and no double one. -/
def enclosingQuote (text : Text) : Char :=
  if text.contains '\'' && !text.contains '"' then '"' else '\''

/-- The shortest of the three hexadecimal escapes that can hold the code point. -/
def codeEscape (code : Nat) : Text :=
  if code < 0x100 then ['\\', 'x'] ++ hexadecimal 2 code
  else if code < 0x10000 then ['\\', 'u'] ++ hexadecimal 4 code
  else ['\\', 'U'] ++ hexadecimal 8 code

def escaped (quote c : Char) : Text :=
  if c = quote ∨ c = '\\' then ['\\', c]
  else if c = '\n' then ['\\', 'n']
  else if c = '\r' then ['\\', 'r']
  else if c = '\t' then ['\\', 't']
  else if isPrintableChar c then [c]
  else codeEscape c.toNat

/-- A text between quotes, every character of which can be told. -/
def quoted (text : Text) : Text :=
  let quote := enclosingQuote text
  quote :: text.flatMap (escaped quote) ++ [quote]

namespace JsonString

def unitEscape (unit : Nat) : Text := ['\\', 'u'] ++ hexadecimal 4 unit

/-- One code unit, or the two surrogates of a code point past U+FFFF. -/
def codeEscape (code : Nat) : Text :=
  if code < 0x10000 then unitEscape code
  else
    unitEscape (0xD800 + (code - 0x10000) / 0x400) ++ unitEscape (0xDC00 + (code - 0x10000) % 0x400)

def escaped (c : Char) : Text :=
  if c = '"' then ['\\', '"']
  else if c = '\\' then ['\\', '\\']
  else if c = '\n' then ['\\', 'n']
  else if c = '\r' then ['\\', 'r']
  else if c = '\t' then ['\\', 't']
  else if c = '\x0c' then ['\\', 'f']
  else if c = '\x08' then ['\\', 'b']
  else if ' ' ≤ c ∧ c ≤ '~' then [c]
  else codeEscape c.toNat

/-- A JSON string in ASCII: all that is no printable ASCII character is escaped. -/
def encode (text : Text) : Text := '"' :: text.flatMap escaped ++ ['"']

end JsonString

end PriorityLexer.Text
