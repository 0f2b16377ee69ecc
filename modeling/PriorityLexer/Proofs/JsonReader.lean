import Mathlib.Data.List.Basic
import Mathlib.Data.List.TakeWhile
import Mathlib.Tactic.SplitIfs
import PriorityLexer.Proofs.Hexadecimal
import PriorityLexer.Proofs.JsonGrammar
import PriorityLexer.Text.Written

namespace PriorityLexer.Json

def isHigh (unit : Nat) : Bool := 0xD800 ≤ unit && unit < 0xDC00

def isLow (unit : Nat) : Bool := 0xDC00 ≤ unit && unit < 0xE000

def joined (high low : Nat) : Nat := 0x10000 + (high - 0xD800) * 0x400 + (low - 0xDC00)

/-- How much of an escape has been read. -/
inductive Escape where
  | none
  /-- The backslash. -/
  | backslash
  /-- The backslash, the letter `u` and these digits. -/
  | unit (digits : Text)
deriving DecidableEq, Repr

structure StringReader where
  text : Text
  /-- The first of two surrogates, if it has just been read. -/
  high? : Option Nat
  escape : Escape
deriving DecidableEq, Repr

namespace StringReader

def start : StringReader := ⟨[], none, .none⟩

def shortEscapes : List (Char × Char) := [
  ('"', '"'), ('\\', '\\'), ('/', '/'), ('b', '\x08'), ('f', '\x0c'), ('n', '\n'), ('r', '\r'),
  ('t', '\t')]

/-- Reads a character. It must not part two surrogates. -/
def add? (reader : StringReader) (c : Char) : Option StringReader :=
  match reader.high? with
  | some _ => none
  | none => some ⟨reader.text ++ [c], none, .none⟩

def addUnit? (reader : StringReader) (unit : Nat) : Option StringReader :=
  match reader.high? with
  | some high =>
    if isLow unit then
      some ⟨reader.text ++ [Char.ofNat (joined high unit)], none, .none⟩
    else none
  | none =>
    if isHigh unit then some ⟨reader.text, some unit, .none⟩
    else if isLow unit then none
    else some ⟨reader.text ++ [Char.ofNat unit], none, .none⟩

/-- Reads a character that does not close the string. -/
def step (reader : StringReader) (c : Char) : Option StringReader :=
  match reader.escape with
  | .none =>
    if c = '\\' then some { reader with escape := .backslash }
    else if c.toNat < 0x20 then none
    else reader.add? c
  | .backslash =>
    if c = 'u' then some { reader with escape := .unit [] }
    else (shortEscapes.lookup c).bind reader.add?
  | .unit digits =>
    let digits := digits ++ [c]
    if digits.length < 4 then some { reader with escape := .unit digits }
    else (Text.hexNumber? digits).bind reader.addUnit?

end StringReader

def natural? (digits : Text) : Option Nat :=
  if digits ≠ [] ∧ digits.all Char.isDigit then some (Nat.ofDigitChars 10 digits 0) else none

/-- The digits of a fraction, if there is one, and what stands behind them. -/
def fraction? : Text → Option (Text × Text)
  | '.' :: rest =>
    let digits := rest.takeWhile Char.isDigit
    if digits = [] then none else some (digits, rest.dropWhile Char.isDigit)
  | text => some ([], text)

def exponent? : Text → Option Int
  | [] => some 0
  | mark :: rest =>
    if mark = 'e' ∨ mark = 'E' then
      match rest with
      | '-' :: digits => (natural? digits).map fun n => -n
      | '+' :: digits => (natural? digits).map Int.ofNat
      | digits => (natural? digits).map Int.ofNat
    else none

/-- The digits and the exponent of a number without a sign. It must not begin with a zero unless
that is the only digit in front of the fraction. -/
def unsigned? (text : Text) : Option (Nat × Int) :=
  let whole := text.takeWhile Char.isDigit
  if whole = [] ∨ whole.head? = some '0' ∧ whole ≠ ['0'] then none
  else
    match fraction? (text.dropWhile Char.isDigit) with
    | none => none
    | some (fraction, rest) =>
      (exponent? rest).map fun exponent =>
        (Nat.ofDigitChars 10 (whole ++ fraction) 0, exponent - fraction.length)

def number? : Text → Option Symbol
  | '-' :: text => (unsigned? text).map fun (digits, exponent) => .number (-digits) exponent
  | text => (unsigned? text).map fun (digits, exponent) => .number digits exponent

/-- The symbol that a word or a number stands for. -/
def wordSymbol? (word : Text) : Option Symbol :=
  if word = "null".toList then some .null
  else if word = "true".toList then some (.bool true)
  else if word = "false".toList then some (.bool false)
  else number? word

def isWordChar (c : Char) : Bool := c.isAlphanum || c == '-' || c == '+' || c == '.'

def signs : List (Char × Symbol) := [
  ('[', .openArray), (']', .closeArray), ('\x7b', .openObject), ('\x7d', .closeObject),
  (',', .comma), (':', .colon)]

/-- What the next character belongs to. -/
inductive Inside where
  | nothing
  | word (text : Text)
  | string (reader : StringReader)
deriving DecidableEq, Repr

structure Reader where
  symbols : List Symbol
  inside : Inside
deriving DecidableEq, Repr

namespace Reader

def begin (symbols : List Symbol) (c : Char) : Option Reader :=
  if c ∈ [' ', '\t', '\n', '\r'] then some ⟨symbols, .nothing⟩
  else if c = '"' then some ⟨symbols, .string .start⟩
  else if isWordChar c then some ⟨symbols, .word [c]⟩
  else (signs.lookup c).map fun sign => ⟨symbols ++ [sign], .nothing⟩

def step (reader : Reader) (c : Char) : Option Reader :=
  match reader.inside with
  | .nothing => begin reader.symbols c
  | .word word =>
    if isWordChar c then some ⟨reader.symbols, .word (word ++ [c])⟩
    else (wordSymbol? word).bind fun symbol => begin (reader.symbols ++ [symbol]) c
  | .string inner =>
    if c = '"' ∧ inner.escape = .none then
      if inner.high? = none then some ⟨reader.symbols ++ [.string inner.text], .nothing⟩ else none
    else (inner.step c).map fun inner => ⟨reader.symbols, .string inner⟩

def finish (reader : Reader) : Option (List Symbol) :=
  match reader.inside with
  | .nothing => some reader.symbols
  | .word word => (wordSymbol? word).map fun symbol => reader.symbols ++ [symbol]
  | .string _ => none

def run (reader : Reader) (text : Text) : Option Reader := text.foldlM step reader

end Reader

def symbols? (text : Text) : Option (List Symbol) :=
  ((⟨[], .nothing⟩ : Reader).run text).bind Reader.finish

/-- The value that a text shows. -/
def read? (text : Text) : Option Json := (symbols? text).bind parse?

namespace Reader

theorem run_append (reader : Reader) (a b : Text) :
    reader.run (a ++ b) = (reader.run a).bind (run · b) :=
  List.foldlM_append

theorem run_cons (reader : Reader) (c : Char) (text : Text) :
    reader.run (c :: text) = (reader.step c).bind (run · text) :=
  List.foldlM_cons

theorem run_singleton (reader : Reader) (c : Char) : reader.run [c] = reader.step c := by
  rw [run_cons]
  cases reader.step c <;> rfl

theorem step_nothing (before : List Symbol) (c : Char) :
    (⟨before, .nothing⟩ : Reader).step c = begin before c := rfl

theorem step_word {c : Char} (member : isWordChar c = true) (before : List Symbol) (word : Text) :
    (⟨before, .word word⟩ : Reader).step c = some ⟨before, .word (word ++ [c])⟩ :=
  if_pos member

theorem step_behind_word {c : Char} (apart : isWordChar c = false) {word : Text} {symbol : Symbol}
    (means : wordSymbol? word = some symbol) (before : List Symbol) :
    (⟨before, .word word⟩ : Reader).step c = begin (before ++ [symbol]) c := by
  simp only [step, apart, means, Option.bind_some, Bool.false_eq_true, if_false]

end Reader

/-- The text is read as these symbols. -/
def Spells (text : Text) (symbols : List Symbol) : Prop :=
  ∀ before, (⟨before, .nothing⟩ : Reader).run text = some ⟨before ++ symbols, .nothing⟩

/-- The text is read as these symbols where no word goes on behind it. -/
def SpellsApart (text : Text) (symbols : List Symbol) : Prop :=
  ∀ before c, isWordChar c = false →
    (⟨before, .nothing⟩ : Reader).run (text ++ [c]) = Reader.begin (before ++ symbols) c

section Spells

variable {a b : Text} {s t : List Symbol} {c : Char}

theorem symbols?_of_spells (h : Spells a s) : symbols? a = some s := by
  rw [symbols?, h]
  rfl

theorem Spells.apart (h : Spells a s) : SpellsApart a s := by
  intro before c _
  rw [Reader.run_append, h before, Option.bind_some, Reader.run_singleton]
  rfl

theorem Spells.append (h : Spells a s) (h' : Spells b t) : Spells (a ++ b) (s ++ t) := by
  intro before
  rw [Reader.run_append, h before, Option.bind_some, h', List.append_assoc]

theorem Spells.append_apart (h : Spells a s) (h' : SpellsApart b t) :
    SpellsApart (a ++ b) (s ++ t) := by
  intro before c apart
  rw [List.append_assoc, Reader.run_append, h before, Option.bind_some, h' _ c apart,
    List.append_assoc]

/-- Behind such a text a character that does not go on with a word is read on its own. -/
theorem SpellsApart.run_append (h : SpellsApart a s) (apart : isWordChar c = false)
    (before : List Symbol) :
    (⟨before, .nothing⟩ : Reader).run (a ++ c :: b) =
      (⟨before ++ s, .nothing⟩ : Reader).run (c :: b) := by
  rw [← List.singleton_append, ← List.append_assoc, Reader.run_append, h before c apart,
    Reader.run_append, Reader.run_singleton]
  rfl

theorem SpellsApart.append (h : SpellsApart a s) (apart : isWordChar c = false)
    (h' : Spells (c :: b) t) : Spells (a ++ c :: b) (s ++ t) := by
  intro before
  rw [h.run_append apart, h', List.append_assoc]

theorem SpellsApart.append_apart (h : SpellsApart a s) (apart : isWordChar c = false)
    (h' : SpellsApart (c :: b) t) : SpellsApart (a ++ c :: b) (s ++ t) := by
  intro before d behind
  rw [List.append_assoc, List.cons_append, h.run_append apart, ← List.cons_append,
    h' _ d behind, List.append_assoc]

end Spells

section Words

theorem run_word (before : List Symbol) (start : Text) {word : Text}
    (members : ∀ c ∈ word, isWordChar c = true) :
    (⟨before, .word start⟩ : Reader).run word = some ⟨before, .word (start ++ word)⟩ := by
  induction word generalizing start with
  | nil =>
    rw [List.append_nil]
    rfl
  | cons c word ih =>
    have first := members c List.mem_cons_self
    rw [Reader.run_cons, Reader.step_word first, Option.bind_some,
      ih _ fun d mem => members d (.tail c mem), List.append_assoc, List.singleton_append]

theorem begin_of_isWordChar {c : Char} (member : isWordChar c = true) (before : List Symbol) :
    Reader.begin before c = some ⟨before, .word [c]⟩ := by
  have not_blank : c ∉ [' ', '\t', '\n', '\r'] := by
    simp only [List.mem_cons, List.not_mem_nil, or_false]
    rintro (rfl | rfl | rfl | rfl) <;> cases member
  have not_quote : c ≠ '"' := by
    rintro rfl
    cases member
  rw [Reader.begin, if_neg not_blank, if_neg not_quote, if_pos member]

theorem spellsApart_word {word : Text} {symbol : Symbol}
    (members : word.all isWordChar = true) (means : wordSymbol? word = some symbol) :
    SpellsApart word [symbol] := by
  cases word with
  | nil => cases means
  | cons c word =>
    intro before d apart
    rw [List.all_eq_true] at members
    have first := begin_of_isWordChar (members c List.mem_cons_self) before
    rw [List.cons_append, Reader.run_cons, Reader.step_nothing, first, Option.bind_some,
      Reader.run_append, run_word before [c] fun d mem => members d (.tail c mem), Option.bind_some,
      Reader.run_singleton, List.singleton_append, Reader.step_behind_word apart means]

end Words

section Numbers

theorem decimal_eq_zero_of_head? {n : Nat} (head : (Text.decimal n).head? = some '0') :
    Text.decimal n = ['0'] := by
  induction n using Nat.strongRecOn with
  | ind n ih =>
    rw [Text.decimal, Nat.toDigits_eq_if (by decide)] at head ⊢
    by_cases small : n < 10
    · rw [if_pos small] at head ⊢
      rw [Option.some.inj head]
    · rw [if_neg small, List.head?_append_of_ne_nil _ Nat.toDigits_ne_nil] at head
      have front : n / 10 = 0 := Text.decimal_injective (ih (n / 10) (by omega) head)
      omega

theorem unsigned?_decimal (n : Nat) : unsigned? (Text.decimal n) = some (n, 0) := by
  have digits : ∀ c ∈ Text.decimal n, c.isDigit = true := fun _ => Text.isDigit_of_mem_decimal
  have whole : (Text.decimal n).takeWhile Char.isDigit = Text.decimal n :=
    List.takeWhile_eq_self_iff.2 digits
  have rest : (Text.decimal n).dropWhile Char.isDigit = [] :=
    List.dropWhile_eq_nil_iff.2 digits
  have back : Nat.ofDigitChars 10 (Text.decimal n) 0 = n :=
    Nat.ofDigitChars_toDigits (by decide) (by decide)
  have no_zero : ¬(Text.decimal n = [] ∨
      (Text.decimal n).head? = some '0' ∧ Text.decimal n ≠ ['0']) := by
    rintro (empty | ⟨head, longer⟩)
    · exact Text.decimal_ne_nil n empty
    · exact longer (decimal_eq_zero_of_head? head)
  rw [unsigned?, whole, rest, if_neg no_zero, fraction?]
  · simp [exponent?, back]
  · rintro _ ⟨⟩

theorem number?_signedDecimal (n : Int) :
    number? (Text.signedDecimal n) = some (.number n 0) := by
  cases n with
  | ofNat n =>
    rw [Text.signedDecimal, number?, unsigned?_decimal]
    · rfl
    · exact Text.decimal_ne_minus_cons n
  | negSucc n =>
    rw [Text.signedDecimal, number?, unsigned?_decimal]
    rfl

theorem spellsApart_signedDecimal (n : Int) :
    SpellsApart (Text.signedDecimal n) [.number n 0] := by
  have members : (Text.signedDecimal n).all isWordChar = true := by
    apply List.all_eq_true.2
    intro c mem
    rcases Text.isDigit_or_of_mem_signedDecimal mem with digit | rfl
    · simp [isWordChar, Char.isAlphanum, digit]
    · rfl
  have no_letter : ∀ {word : Text} {c : Char}, c ∈ word → c.isDigit = false → c ≠ '-' →
      Text.signedDecimal n ≠ word := by
    rintro word c mem not_digit not_minus rfl
    exact Text.not_mem_signedDecimal not_digit not_minus n mem
  have means : wordSymbol? (Text.signedDecimal n) = some (.number n 0) := by
    rw [wordSymbol?, if_neg (no_letter (c := 'l') (by decide) rfl (by decide)),
      if_neg (no_letter (c := 'e') (by decide) rfl (by decide)),
      if_neg (no_letter (c := 'e') (by decide) rfl (by decide)), number?_signedDecimal]
  exact spellsApart_word members means

theorem spellsApart_null : SpellsApart "null".toList [.null] :=
  spellsApart_word rfl rfl

end Numbers

section Strings

variable {before : List Symbol} {text : Text}

theorem step_inside {inner : StringReader} {c : Char} (goes_on : c ≠ '"' ∨ inner.escape ≠ .none) :
    (⟨before, .string inner⟩ : Reader).step c =
      (inner.step c).map fun inner => ⟨before, .string inner⟩ := by
  have open_ : ¬(c = '"' ∧ inner.escape = .none) := by
    rcases goes_on with not_quote | escaped
    · exact fun closing => not_quote closing.1
    · exact fun closing => escaped closing.2
  exact if_neg open_

theorem run_unitEscape {unit : Nat} (fits : unit < 0x10000) (high? : Option Nat) :
    (⟨before, .string ⟨text, high?, .none⟩⟩ : Reader).run (Text.JsonString.unitEscape unit) =
      ((⟨text, high?, .none⟩ : StringReader).addUnit? unit).map fun inner =>
        ⟨before, .string inner⟩ := by
  have length : (Text.hexadecimal 4 unit).length = 4 :=
    Text.length_hexadecimal (by decide) fits
  have value := Text.hexNumber?_hexadecimal 4 unit
  obtain ⟨a, b, c, d, digits⟩ := List.length_eq_four.1 length
  rw [digits] at value
  rw [Text.JsonString.unitEscape, digits]
  -- no digit can close the string, since the escape goes on
  simp [Reader.run, step_inside, StringReader.step, StringReader.addUnit?, value]

theorem isHigh_eq {rest : Nat} (fits : rest < 0x100000) :
    isHigh (0xD800 + rest / 0x400) = true := by
  simp only [isHigh, Bool.and_eq_true, decide_eq_true_eq]
  omega

theorem isLow_eq (rest : Nat) : isLow (0xDC00 + rest % 0x400) = true := by
  simp only [isLow, Bool.and_eq_true, decide_eq_true_eq]
  omega

theorem joined_eq (rest : Nat) :
    joined (0xD800 + rest / 0x400) (0xDC00 + rest % 0x400) = 0x10000 + rest := by
  unfold joined
  omega

theorem not_surrogate (c : Char) : isHigh c.toNat = false ∧ isLow c.toNat = false := by
  have scalar : c.toNat.isValidChar := c.valid
  rw [Nat.isValidChar] at scalar
  simp only [isHigh, isLow, Bool.and_eq_false_iff, decide_eq_false_iff_not]
  omega

theorem addUnit?_toNat (c : Char) :
    (⟨text, none, .none⟩ : StringReader).addUnit? c.toNat = some ⟨text ++ [c], none, .none⟩ := by
  obtain ⟨not_high, not_low⟩ := not_surrogate c
  simp only [StringReader.addUnit?, not_high, not_low, Bool.false_eq_true, if_false,
    Char.ofNat_toNat]

theorem addUnit?_of_isHigh {unit : Nat} (high : isHigh unit = true) :
    (⟨text, none, .none⟩ : StringReader).addUnit? unit = some ⟨text, some unit, .none⟩ :=
  if_pos high

theorem addUnit?_of_isLow {unit : Nat} (low : isLow unit = true) (high : Nat) :
    (⟨text, some high, .none⟩ : StringReader).addUnit? unit =
      some ⟨text ++ [Char.ofNat (joined high unit)], none, .none⟩ :=
  if_pos low

theorem run_codeEscape (c : Char) :
    (⟨before, .string ⟨text, none, .none⟩⟩ : Reader).run (Text.JsonString.codeEscape c.toNat) =
      some ⟨before, .string ⟨text ++ [c], none, .none⟩⟩ := by
  unfold Text.JsonString.codeEscape
  by_cases small : c.toNat < 0x10000
  · rw [if_pos small, run_unitEscape small, addUnit?_toNat, Option.map_some]
  · obtain ⟨rest, code⟩ := Nat.exists_eq_add_of_le (Nat.not_lt.1 small)
    have fits : rest < 0x100000 := by
      have scalar : c.toNat.isValidChar := c.valid
      rw [Nat.isValidChar] at scalar
      omega
    have behind : c.toNat - 0x10000 = rest := by omega
    have back : Char.ofNat (0x10000 + rest) = c := by rw [← code, Char.ofNat_toNat]
    -- the first surrogate waits in the reader until the second one has been read
    rw [if_neg small, behind, Reader.run_append, run_unitEscape (by omega),
      addUnit?_of_isHigh (isHigh_eq fits), Option.map_some, Option.bind_some,
      run_unitEscape (by omega), addUnit?_of_isLow (isLow_eq rest), joined_eq, back,
      Option.map_some]

theorem run_escaped (c : Char) :
    (⟨before, .string ⟨text, none, .none⟩⟩ : Reader).run (Text.JsonString.escaped c) =
      some ⟨before, .string ⟨text ++ [c], none, .none⟩⟩ := by
  unfold Text.JsonString.escaped
  split_ifs with quote backslash newline return_ tab feed back plain
  · rw [quote]; rfl
  · rw [backslash]; rfl
  · rw [newline]; rfl
  · rw [return_]; rfl
  · rw [tab]; rfl
  · rw [feed]; rfl
  · rw [back]; rfl
  · have control : ¬c.toNat < 0x20 := Nat.not_lt.2 plain.1
    rw [Reader.run_singleton, step_inside (.inl quote), StringReader.step]
    simp only [backslash, control, if_false]
    rfl
  · exact run_codeEscape c

theorem run_flatMap_escaped (before : List Symbol) (text more : Text) :
    (⟨before, .string ⟨text, none, .none⟩⟩ : Reader).run (more.flatMap Text.JsonString.escaped) =
      some ⟨before, .string ⟨text ++ more, none, .none⟩⟩ := by
  induction more generalizing text with
  | nil =>
    rw [List.append_nil]
    rfl
  | cons c more ih =>
    rw [List.flatMap_cons, Reader.run_append, run_escaped, Option.bind_some, ih, List.append_assoc,
      List.singleton_append]

theorem spells_encode (text : Text) : Spells (Text.JsonString.encode text) [.string text] := by
  intro before
  have opens : Reader.begin before '"' = some ⟨before, .string .start⟩ := rfl
  rw [Text.JsonString.encode, List.cons_append, Reader.run_cons, Reader.step_nothing, opens,
    Option.bind_some, Reader.run_append, StringReader.start, run_flatMap_escaped, Option.bind_some]
  rfl

end Strings

/-- A text that is read as the symbols of a value shows that value. -/
theorem read?_of_spells {text : Text} {value : Json} (h : Spells text value.symbols) :
    read? text = some value := by
  rw [read?, symbols?_of_spells h, Option.bind_some, parse?_eq_some_iff]

example :
    read? "[null, true,-12.50e+2 ,\x7b\"\\u00e9\\uD83D\\ude00\": \"a\\/\\n\"\x7d]".toList =
      some (.array [.null, .bool true, .number (-1250) 0,
        .object [(['\u00e9', Char.ofNat 0x1F600], .string ['a', '/', '\n'])]]) := by
  rfl

example :
    ["[01]", "[1,]", "\"\\ud83d\""].map (fun text => read? text.toList) = [none, none, none] := by
  rfl

end PriorityLexer.Json
