import PriorityLexer.Proofs.CommentEnds
import PriorityLexer.Proofs.IllegalCharacters
import PriorityLexer.Proofs.LongestMatch
import PriorityLexer.Proofs.PlainDump

namespace PriorityLexer

def Radix.digitRanges : Radix → Text.CodeRanges
  | .binary => [(0x30, 0x31)]
  | .octal => [(0x30, 0x37)]
  | .hexadecimal => Text.asciiAlphanumerics

theorem Radix.digitRanges_covers {radix : Radix} {c : Char} (h : radix.isDigit c = true) :
    radix.digitRanges.covers c = true := by
  cases radix with
  | binary =>
    simp only [Radix.isDigit, Bool.or_eq_true, beq_iff_eq] at h
    rcases h with rfl | rfl <;> decide
  | octal =>
    simp only [Radix.isDigit, Bool.and_eq_true, decide_eq_true_eq] at h
    exact Text.CodeRanges.covers_of_mem List.mem_cons_self h.1 h.2
  | hexadecimal => exact Radix.covers_of_isDigit h

theorem Radix.IsNumeral.isDigit_of_getLast? {radix : Radix} {numeral : Text} {c : Char}
    (h : radix.IsNumeral numeral) (last : numeral.getLast? = some c) : radix.isDigit c = true := by
  obtain ⟨letter, digits, -, rfl, not_empty, inside⟩ := h
  apply inside
  rw [List.getLast?_cons_cons, List.getLast?_cons_of_ne_nil not_empty] at last
  exact List.mem_of_getLast? last

namespace Pattern

/-- The characters that a match can end with, as ranges that can be compared. -/
def closers : Pattern → Text.CodeRanges
  | literal first rest => .only (rest.getLast?.getD first)
  | lineComment => [(0, 0x10FFFF)]
  | blockComment => .only '/'
  | radixNumeral radix => radix.digitRanges
  | digits => Text.decimalDigits
  | quoted quote => .only quote
  | letters => Text.asciiLetters
  | blank => Text.blanks
  | anything => [(0, 0x10FFFF)]

/-- No match of the pattern is followed by a character of the ranges. -/
def refuses (ranges : Text.CodeRanges) : Pattern → Bool
  | lineComment => !ranges.covers '\n'
  | digits => ranges == Text.decimalDigits
  | letters => ranges == Text.asciiLetters
  | _ => false

variable {pattern : Pattern} {lexeme rest : Text} {ranges : Text.CodeRanges} {c d : Char}

theorem getLast?_of_blockComment
    (h : blockComment.length? (lexeme ++ rest) = some lexeme.length) :
    lexeme.getLast? = some '/' := by
  obtain ⟨left, n, eq, ends, length⟩ := length?_blockComment_eq_some_iff.1 h
  obtain ⟨body, rfl, rfl⟩ := exists_body_of_append_two eq (by omega)
  obtain ⟨k, rfl, ⟨tail, closes⟩, -⟩ := exists_isLeast_of_commentEnd? ends
  have inside : body.length = k + 2 := by simpa using length
  have slash : (body ++ rest)[k + 1]? = some '/' := by
    rw [← List.getElem?_drop, ← closes]
    rfl
  rw [List.getElem?_append_left (by omega)] at slash
  have last : body.getLast? = some '/' := by
    rw [List.getLast?_eq_getElem?, inside]
    exact slash
  simp [List.getLast?_cons, last]

theorem getLast?_of_quoted {quote : Char}
    (h : (quoted quote).length? (lexeme ++ rest) = some lexeme.length) :
    lexeme.getLast? = some quote := by
  obtain ⟨body, k, rfl, length, closes⟩ := exists_closesIn_of_length? h
  simp [List.getLast?_cons, closes.getLast?_eq length]

theorem closers_covers (h : pattern.length? (lexeme ++ rest) = some lexeme.length)
    (last : lexeme.getLast? = some c) : pattern.closers.covers c = true := by
  cases pattern with
  | literal first word =>
    rw [length?_literal_append_self_iff.1 h, List.getLast?_cons, Option.some.injEq] at last
    exact last ▸ Text.CodeRanges.only_covers _
  | blockComment =>
    rw [getLast?_of_blockComment h, Option.some.injEq] at last
    exact last ▸ Text.CodeRanges.only_covers _
  | radixNumeral radix =>
    have numeral := (length?_radixNumeral_append_self_iff.1 h).1
    exact Radix.digitRanges_covers (numeral.isDigit_of_getLast? last)
  | digits => exact (run?_append_self_iff.1 h).1.2 c (List.mem_of_getLast? last)
  | quoted quote =>
    rw [getLast?_of_quoted h, Option.some.injEq] at last
    exact last ▸ Text.CodeRanges.only_covers _
  | letters =>
    exact Text.asciiLetters_covers ((run?_append_self_iff.1 h).1.2 c (List.mem_of_getLast? last))
  | blank =>
    obtain ⟨is_blank, length⟩ := length?_blank_eq_some_iff.1 h
    obtain ⟨d, rfl⟩ := List.length_eq_one_iff.1 length
    obtain rfl : d = c := Option.some.inj last
    exact is_blank
  | lineComment | anything =>
    exact Text.CodeRanges.covers_of_mem List.mem_cons_self (Nat.zero_le _) (Text.toNat_le c)

theorem not_covers_of_refuses (refuses : pattern.refuses ranges = true)
    (h : pattern.length? (lexeme ++ rest) = some lexeme.length) (next : rest.head? = some c) :
    ranges.covers c = false := by
  cases pattern with
  | lineComment =>
    obtain ⟨body, -, -, newline⟩ := length?_lineComment_append_self_iff.1 h
    rw [newline c next]
    simpa [Pattern.refuses] using refuses
  | digits =>
    rw [beq_iff_eq.1 refuses]
    exact (run?_append_self_iff.1 h).2 c next
  | letters =>
    rw [beq_iff_eq.1 refuses]
    have no_letter := (run?_append_self_iff.1 h).2 c next
    apply Bool.eq_false_iff.2
    intro covers
    rw [Text.isAlpha_of_covers covers] at no_letter
    cases no_letter
  | literal | blockComment | radixNumeral | quoted | blank | anything => cases refuses

end Pattern

/-- A class of characters and the rules whose matches have its members at their borders. -/
structure CharClass where
  member : Char → Bool
  ranges : Text.CodeRanges
  /-- The rules whose matches can begin with a member. -/
  opening : List RuleName
  /-- The rules whose matches can end with a member where another one follows. -/
  leading : List RuleName
  covers : ∀ c, member c = true → ranges.covers c = true
  legal : ∀ c rest, IsIllegal c rest → member c = false
  opens : ∀ rule ∈ rules, rule.name ∈ opening ∨ rule.name = .other ∨
    rule.pattern.openers.apart ranges = true
  leads : ∀ rule ∈ rules, rule.name ∈ leading ∨ rule.name = .other ∨
    rule.pattern.closers.apart ranges = true ∨ rule.pattern.refuses ranges = true

namespace CharClass

def letters : CharClass where
  member := Char.isAlpha
  ranges := Text.asciiLetters
  opening := [.identifier]
  leading := [.base16, .falseLiteral]
  covers _ letter := Text.asciiLetters_covers letter
  legal _ _ illegal := (classless_of_isLeft (isLeft_iff_isIllegal.2 illegal)).1
  opens := by decide
  leads := by decide

def digits : CharClass where
  member := Text.isDecimalDigit
  ranges := Text.decimalDigits
  opening := [.base2, .base8, .base16, .intLiteral]
  leading := [.base2, .base8, .base16]
  covers _ digit := digit
  legal _ _ illegal := (classless_of_isLeft (isLeft_iff_isIllegal.2 illegal)).2.1
  opens := by decide
  leads := by decide

end CharClass

section Match

variable {m : Match} {rest : Text} {c d : Char}

theorem Match.Leads.rule_ne_other (h : m.Leads rest) (charClass : CharClass)
    (front : m.lexeme.head? = some c) (is_member : charClass.member c = true) :
    m.rule ≠ .other := by
  intro other
  obtain ⟨body, lexeme⟩ := List.head?_eq_some_iff.1 front
  have text_eq : m.lexeme ++ rest = c :: (body ++ rest) := by rw [lexeme]; rfl
  have illegal := (h.rule_eq_other_iff text_eq).1 other
  rw [charClass.legal _ _ illegal] at is_member
  cases is_member

theorem Match.Leads.rule_mem_opening (h : m.Leads rest) (charClass : CharClass)
    (front : m.lexeme.head? = some c) (is_member : charClass.member c = true) :
    m.rule ∈ charClass.opening := by
  obtain ⟨body, lexeme⟩ := List.head?_eq_some_iff.1 front
  obtain ⟨rule, mem, name, taken⟩ := h.exists_rule
  rcases charClass.opens rule mem with opening | other | apart
  · exact name ▸ opening
  · exact absurd (name ▸ other) (h.rule_ne_other charClass front is_member)
  · rw [lexeme, List.cons_append] at taken
    have opener := Pattern.openers_covers (Pattern.startsWith_of_length? taken)
    have outside := Text.CodeRanges.not_covers_of_apart apart opener
    rw [charClass.covers c is_member] at outside
    cases outside

theorem Match.Leads.rule_mem_leading (h : m.Leads rest) (charClass : CharClass)
    (last : m.lexeme.getLast? = some d) (is_member : charClass.member d = true)
    (next : rest.head? = some c) (is_member' : charClass.member c = true) :
    m.rule ∈ charClass.leading := by
  obtain ⟨rule, mem, name, taken⟩ := h.exists_rule
  rcases charClass.leads rule mem with leading | other | apart | refuses
  · exact name ▸ leading
  · -- an illegal character is the first of its match as well as the last
    obtain ⟨e, lexeme⟩ := h.exists_lexeme_of_other (name ▸ other)
    rw [lexeme] at last
    exact absurd (name ▸ other) (h.rule_ne_other charClass (lexeme ▸ last) is_member)
  · have closer := Pattern.closers_covers taken last
    have outside := Text.CodeRanges.not_covers_of_apart apart closer
    rw [charClass.covers d is_member] at outside
    cases outside
  · have outside := Pattern.not_covers_of_refuses refuses taken next
    rw [charClass.covers c is_member'] at outside
    cases outside

end Match

section Scan

variable {source : Text} {m : Match}

theorem exists_preceding (mem : m ∈ scan source) {p : Nat} {c : Char} (behind : m.offset = p + 1)
    (at_p : source[p]? = some c) :
    ∃ m' ∈ scan source, m'.stop = m.offset ∧ m'.lexeme.getLast? = some c ∧
      m'.Leads (source.drop m.offset) := by
  obtain ⟨before, after, split⟩ := List.append_of_mem mem
  have scans := scans_scan source
  rw [split] at scans
  have start := scans.offset_eq
  have not_first : before ≠ [] := by
    rintro rfl
    rw [covered_nil, List.length_nil] at start
    omega
  obtain ⟨earlier, m', rfl⟩ := (List.eq_nil_or_concat' before).resolve_left not_first
  have mem' : m' ∈ scan source := by rw [split]; simp
  rw [List.append_assoc, List.singleton_append] at scans
  have stop : m'.stop = m.offset := by
    rw [Match.stop, scans.offset_eq, start]
    simp
  obtain ⟨rest, within, leads⟩ := exists_rest_of_mem_scan mem'
  refine ⟨m', mem', stop, ?_, ?_⟩
  · have positive := List.length_pos_of_ne_nil leads.lexeme_ne_nil
    have p_eq : p = m'.offset + (m'.lexeme.length - 1) := by
      unfold Match.stop at stop
      omega
    rw [p_eq, ← List.getElem?_drop, within, List.getElem?_append_left (by omega)] at at_p
    rw [List.getLast?_eq_getElem?, at_p]
  · rw [← stop, Match.drop_stop within]
    exact leads

/-- No member stands at the offset, so a run in front of it is over. -/
def EndsAt (source : Text) (member : Char → Bool) (offset : Nat) : Prop :=
  ∀ c, source[offset]? = some c → member c = false

/-- A member in front of the offset is the end of a match of one of these rules, so a run behind it
does not begin earlier. -/
def StartsAt (source : Text) (member : Char → Bool) (leading : List RuleName) (offset : Nat) :
    Prop :=
  ∀ p c, offset = p + 1 → source[p]? = some c → member c = true →
    ∃ m ∈ scan source, m.stop = offset ∧ m.rule ∈ leading

theorem endsAt_of_next {rest : Text} {member : Char → Bool}
    (within : source.drop m.offset = m.lexeme ++ rest)
    (next : ∀ c, rest.head? = some c → member c = false) : EndsAt source member m.stop := by
  intro c at_stop
  apply next
  rw [← Match.drop_stop within, List.head?_drop, at_stop]

theorem startsAt_of_mem_scan (mem : m ∈ scan source) (charClass : CharClass)
    (run : IsRun charClass.member m.lexeme) :
    StartsAt source charClass.member charClass.leading m.offset := by
  intro p d behind at_p is_member
  obtain ⟨m', mem', stop, last, leads⟩ := exists_preceding mem behind at_p
  refine ⟨m', mem', stop, ?_⟩
  obtain ⟨rest, within, -⟩ := exists_rest_of_mem_scan mem
  obtain ⟨c, body, lexeme⟩ := List.exists_cons_of_ne_nil run.1
  have next : (source.drop m.offset).head? = some c := by rw [within, lexeme]; rfl
  have is_member' := run.2 c (lexeme ▸ List.mem_cons_self)
  exact leads.rule_mem_leading charClass last is_member next is_member'

end Scan

end PriorityLexer
