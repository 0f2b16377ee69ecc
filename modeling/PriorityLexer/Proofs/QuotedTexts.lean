import Mathlib.Tactic.SplitIfs
import PriorityLexer.Proofs.Hexadecimal
import PriorityLexer.Text.Written

namespace PriorityLexer.Text

theorem isPrintableChar_of_ascii {c : Char} (lower : 0x20 ≤ c.toNat) (upper : c.toNat ≤ 0x7E) :
    isPrintableChar c = true :=
  CodeRanges.covers_of_mem List.mem_cons_self lower upper

theorem not_isPrintableChar_newline : isPrintableChar '\n' = false := by decide +kernel

theorem isPrintableChar_of_isDigit {c : Char} (h : c.isDigit = true) :
    isPrintableChar c = true := by
  simp only [Char.isDigit, Bool.and_eq_true, decide_eq_true_eq] at h
  exact isPrintableChar_of_ascii (Nat.le_trans (by decide) h.1) (Nat.le_trans h.2 (by decide))

theorem isPrintable_cons (c : Char) (text : Text) :
    isPrintable (c :: text) = (isPrintableChar c && isPrintable text) := rfl

section Numerals

theorem isPrintable_decimal (n : Nat) : isPrintable (decimal n) = true :=
  List.all_eq_true.2 fun _ mem => isPrintableChar_of_isDigit (isDigit_of_mem_decimal mem)

theorem isPrintable_signedDecimal (n : Int) : isPrintable (signedDecimal n) = true := by
  cases n with
  | ofNat n => exact isPrintable_decimal n
  | negSucc n =>
    rw [signedDecimal, isPrintable_cons, isPrintable_decimal]
    decide

theorem isPrintable_hexadecimal (width n : Nat) : isPrintable (hexadecimal width n) = true := by
  have digits : ∀ d < 16, isPrintableChar d.digitChar = true := by decide
  apply List.all_eq_true.2
  intro c mem
  obtain ⟨d, small, rfl⟩ := exists_digit_of_mem_hexadecimal mem
  exact digits d small

theorem isPrintable_upperHexadecimal (width n : Nat) :
    isPrintable (upperHexadecimal width n) = true := by
  have digits : ∀ d < 16, isPrintableChar d.digitChar.toUpper = true := by decide
  apply List.all_eq_true.2
  intro c mem
  obtain ⟨lower, lower_mem, rfl⟩ := List.mem_map.1 mem
  obtain ⟨d, small, rfl⟩ := exists_digit_of_mem_hexadecimal lower_mem
  exact digits d small

end Numerals

theorem isPrintable_codeEscape (code : Nat) : isPrintable (codeEscape code) = true := by
  have marked (letter : Char) (width : Nat) (mark : isPrintable ['\\', letter] = true) :
      isPrintable (['\\', letter] ++ hexadecimal width code) = true := by
    rw [isPrintable_append, mark, isPrintable_hexadecimal]
    rfl
  unfold codeEscape
  split_ifs
  · exact marked 'x' 2 (by decide)
  · exact marked 'u' 4 (by decide)
  · exact marked 'U' 8 (by decide)

theorem enclosingQuote_eq (text : Text) :
    enclosingQuote text = '"' ∨ enclosingQuote text = '\'' := by
  unfold enclosingQuote
  split
  · exact .inl rfl
  · exact .inr rfl

/-- The character that is shown as the text. -/
def unescaped? : Text → Option Char
  | [c] => some c
  | '\\' :: 'n' :: _ => some '\n'
  | '\\' :: 'r' :: _ => some '\r'
  | '\\' :: 't' :: _ => some '\t'
  | '\\' :: 'x' :: digits => (hexNumber? digits).map Char.ofNat
  | '\\' :: 'u' :: digits => (hexNumber? digits).map Char.ofNat
  | '\\' :: 'U' :: digits => (hexNumber? digits).map Char.ofNat
  | '\\' :: c :: _ => some c
  | _ => none

theorem unescaped?_codeEscape (c : Char) : unescaped? (codeEscape c.toNat) = some c := by
  have read (width : Nat) : (hexNumber? (hexadecimal width c.toNat)).map Char.ofNat = some c := by
    rw [hexNumber?_hexadecimal, Option.map_some, Char.ofNat_toNat]
  unfold codeEscape
  split_ifs
  · exact read 2
  · exact read 4
  · exact read 8

section Quote

variable {quote : Char} (isQuote : quote = '"' ∨ quote = '\'')
include isQuote

theorem isPrintableChar_quote : isPrintableChar quote = true := by
  rcases isQuote with rfl | rfl <;> decide

theorem isPrintable_escaped (c : Char) : isPrintable (escaped quote c) = true := by
  unfold escaped
  split_ifs with special newline carriage tab shown
  · rcases special with rfl | rfl
    · rw [isPrintable_cons, isPrintable_cons, isPrintableChar_quote isQuote]
      decide
    · decide
  · decide
  · decide
  · decide
  · rw [isPrintable_cons, shown]
    rfl
  · exact isPrintable_codeEscape c.toNat

theorem unescaped?_escaped (c : Char) : unescaped? (escaped quote c) = some c := by
  unfold escaped
  split_ifs with special newline carriage tab shown
  · rcases special with rfl | rfl
    · rcases isQuote with rfl | rfl <;> rfl
    · rfl
  · rw [newline]
    rfl
  · rw [carriage]
    rfl
  · rw [tab]
    rfl
  · rfl
  · exact unescaped?_codeEscape c

theorem escaped_injective {c c' : Char} (h : escaped quote c = escaped quote c') : c = c' := by
  apply Option.some.inj
  rw [← unescaped?_escaped isQuote c, h, unescaped?_escaped isQuote]

end Quote

theorem isPrintable_quoted (text : Text) : isPrintable (quoted text) = true := by
  have isQuote := enclosingQuote_eq text
  have characters : isPrintable (text.flatMap (escaped (enclosingQuote text))) = true := by
    apply List.all_eq_true.2
    intro c mem
    obtain ⟨shown, -, c_mem⟩ := List.mem_flatMap.1 mem
    exact List.all_eq_true.1 (isPrintable_escaped isQuote shown) c c_mem
  rw [quoted, List.cons_append, isPrintable_cons, isPrintable_append, characters, isPrintable_cons,
    isPrintableChar_quote isQuote]
  rfl

theorem quoted_singleton (c : Char) :
    quoted [c] =
      enclosingQuote [c] :: (escaped (enclosingQuote [c]) c ++ [enclosingQuote [c]]) := by
  simp [quoted]

theorem quoted_singleton_injective {c c' : Char} (h : quoted [c] = quoted [c']) : c = c' := by
  rw [quoted_singleton, quoted_singleton] at h
  obtain ⟨quotes, behind⟩ := List.cons.inj h
  rw [← quotes] at behind
  exact escaped_injective (enclosingQuote_eq [c]) (List.append_cancel_right behind)

end PriorityLexer.Text
