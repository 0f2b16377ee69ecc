import PriorityLexer.Text

namespace PriorityLexer

inductive Radix where
  | binary
  | octal
  | hexadecimal
deriving DecidableEq, Repr

def Radix.letter : Radix → Char
  | .binary => 'b'
  | .octal => 'o'
  | .hexadecimal => 'x'

def Radix.isDigit : Radix → Char → Bool
  | .binary, c => c == '0' || c == '1'
  | .octal, c => '0' ≤ c && c ≤ '7'
  | .hexadecimal, c => c.isDigit || ('a' ≤ c && c ≤ 'f') || ('A' ≤ c && c ≤ 'F')

inductive Pattern where
  /-- One fixed, non-empty word. -/
  | literal (first : Char) (rest : Text)
  /-- Two slashes and the rest of the line, without the newline. -/
  | lineComment
  /-- A slash and a star, up to the next star and slash. -/
  | blockComment
  /-- A zero, the letter of the radix in either case, and a run of its digits. -/
  | radixNumeral (radix : Radix)
  /-- A run of decimal digits of any script. -/
  | digits
  /-- A string literal between two copies of the quote. -/
  | quoted (quote : Char)
  /-- A run of ASCII letters. -/
  | letters
  /-- One blank character. -/
  | blank
  /-- One character, whatever it is. -/
  | anything
deriving DecidableEq, Repr

namespace Pattern

def run? (member : Char → Bool) (text : Text) : Option Nat :=
  match (text.takeWhile member).length with
  | 0 => none
  | n + 1 => some (n + 1)

def commentEnd? : Text → Option Nat
  | [] => none
  | c :: rest =>
    if c = '*' ∧ rest.head? = some '/' then some 2 else (commentEnd? rest).map (· + 1)

/-- The number of characters up to and including the quote that closes a string: the first one that
is not escaped, and the last one if all are. A character is escaped when the run of backslashes
before it is odd, which `escaped` says of the head of the text. -/
def closing? (quote : Char) (escaped : Bool) : Text → Option Nat
  | [] => none
  | c :: rest =>
    if c = quote ∧ escaped = false then some 1
    else
      match closing? quote (c == '\\' && !escaped) rest with
      | some n => some (n + 1)
      | none => if c = quote then some 1 else none

/-- The number of characters that the pattern takes at the head of the text. -/
def length? : Pattern → Text → Option Nat
  | literal first rest, text =>
    if (first :: rest).isPrefixOf text then some (rest.length + 1) else none
  | lineComment, text =>
    if ['/', '/'].isPrefixOf text then
      some (((text.drop 2).takeWhile fun c => c != '\n').length + 2)
    else none
  | blockComment, text =>
    if ['/', '*'].isPrefixOf text then (commentEnd? (text.drop 2)).map (· + 2) else none
  | radixNumeral radix, text =>
    if [['0', radix.letter], ['0', radix.letter.toUpper]].any (·.isPrefixOf text) then
      (run? radix.isDigit (text.drop 2)).map (· + 2)
    else none
  | digits, text => run? Text.isDecimalDigit text
  | quoted quote, text =>
    if [quote].isPrefixOf text then (closing? quote false (text.drop 1)).map (· + 1) else none
  | letters, text => run? Char.isAlpha text
  | blank, text => if text.head?.any Text.isBlank then some 1 else none
  | anything, text => if text.isEmpty then none else some 1

theorem run?_bounds {member : Char → Bool} {text : Text} {n : Nat} (h : run? member text = some n) :
    0 < n ∧ n ≤ text.length := by
  have taken := (List.takeWhile_sublist member (l := text)).length_le
  unfold run? at h
  split at h
  · cases h
  · cases h
    omega

theorem commentEnd?_bounds {text : Text} {n : Nat} (h : commentEnd? text = some n) :
    0 < n ∧ n ≤ text.length := by
  induction text generalizing n with
  | nil => cases h
  | cons c rest ih =>
    unfold commentEnd? at h
    split at h
    · rename_i star
      cases rest with
      | nil => simp at star
      | cons d rest => cases h; simp
    · obtain ⟨m, hm, rfl⟩ := Option.map_eq_some_iff.1 h
      have := ih hm
      simp only [List.length_cons]
      omega

theorem closing?_bounds {quote : Char} {escaped : Bool} {text : Text} {n : Nat}
    (h : closing? quote escaped text = some n) : 0 < n ∧ n ≤ text.length := by
  induction text generalizing escaped n with
  | nil => cases h
  | cons c rest ih =>
    unfold closing? at h
    split at h
    · cases h; simp
    · split at h
      · rename_i m hm
        cases h
        have := ih hm
        simp only [List.length_cons]
        omega
      · split at h
        · cases h; simp
        · cases h

theorem length_le_of_isPrefixOf {a b : Text} (h : a.isPrefixOf b = true) : a.length ≤ b.length :=
  (List.isPrefixOf_iff_prefix.1 h).length_le

/-- Whatever the pattern, it takes something and no more than there is. -/
theorem length?_bounds {pattern : Pattern} {text : Text} {n : Nat}
    (h : pattern.length? text = some n) : 0 < n ∧ n ≤ text.length := by
  cases pattern with
  | literal first rest =>
    simp only [length?, Option.ite_none_right_eq_some, Option.some.injEq] at h
    have := length_le_of_isPrefixOf h.1
    simp only [List.length_cons] at this
    omega
  | lineComment =>
    simp only [length?, Option.ite_none_right_eq_some, Option.some.injEq] at h
    have two := length_le_of_isPrefixOf h.1
    have taken := (List.takeWhile_sublist (fun c => c != '\n') (l := text.drop 2)).length_le
    simp only [List.length_cons, List.length_nil, List.length_drop] at two taken
    omega
  | blockComment =>
    simp only [length?, Option.ite_none_right_eq_some, Option.map_eq_some_iff] at h
    obtain ⟨two, m, hm, rfl⟩ := h
    have two := length_le_of_isPrefixOf two
    have taken := commentEnd?_bounds hm
    simp only [List.length_cons, List.length_nil, List.length_drop] at two taken
    omega
  | radixNumeral radix =>
    simp only [length?, Option.ite_none_right_eq_some, Option.map_eq_some_iff] at h
    obtain ⟨_, m, hm, rfl⟩ := h
    have taken := run?_bounds hm
    simp only [List.length_drop] at taken
    omega
  | digits => exact run?_bounds h
  | quoted quote =>
    simp only [length?, Option.ite_none_right_eq_some, Option.map_eq_some_iff] at h
    obtain ⟨_, m, hm, rfl⟩ := h
    have taken := closing?_bounds hm
    simp only [List.length_drop] at taken
    omega
  | letters => exact run?_bounds h
  | blank =>
    cases text with
    | nil => simp [length?] at h
    | cons c rest =>
      simp only [length?, Option.ite_none_right_eq_some, Option.some.injEq] at h
      obtain ⟨_, rfl⟩ := h
      simp
  | anything =>
    cases text with
    | nil => simp [length?] at h
    | cons c rest =>
      simp only [length?, List.isEmpty_cons, Bool.false_eq_true, if_false, Option.some.injEq] at h
      subst h
      simp

end Pattern

end PriorityLexer
