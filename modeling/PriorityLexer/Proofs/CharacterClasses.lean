import PriorityLexer.Pattern

namespace PriorityLexer

namespace Text

/-- Every range of the one class lies before or behind every range of the other. -/
def CodeRanges.apart (ranges ranges' : CodeRanges) : Bool :=
  ranges.all fun (first, last) => ranges'.all fun (first', last') => last < first' || last' < first

theorem CodeRanges.not_covers_of_apart {ranges ranges' : CodeRanges}
    (h : ranges.apart ranges' = true) {c : Char} (covers : ranges.covers c = true) :
    ranges'.covers c = false := by
  apply Bool.eq_false_iff.2
  intro covers'
  obtain ⟨⟨first, last⟩, mem, inside⟩ := List.any_eq_true.1 covers
  obtain ⟨⟨first', last'⟩, mem', inside'⟩ := List.any_eq_true.1 covers'
  have order := List.all_eq_true.1 (List.all_eq_true.1 h _ mem) _ mem'
  simp only [Bool.and_eq_true, Bool.or_eq_true, decide_eq_true_eq] at inside inside' order
  omega

theorem CodeRanges.covers_of_subset {ranges ranges' : CodeRanges} (subset : ranges ⊆ ranges')
    {c : Char} (covers : ranges.covers c = true) : ranges'.covers c = true := by
  obtain ⟨range, mem, inside⟩ := List.any_eq_true.1 covers
  exact List.any_eq_true.2 ⟨range, subset mem, inside⟩

def asciiLetters : CodeRanges := [(0x41, 0x5A), (0x61, 0x7A)]

def asciiAlphanumerics : CodeRanges := [(0x30, 0x39), (0x41, 0x5A), (0x61, 0x7A)]

variable {c : Char}

theorem covers_of_isDigit (h : c.isDigit = true) : asciiAlphanumerics.covers c = true := by
  simp only [Char.isDigit, Bool.and_eq_true, decide_eq_true_eq] at h
  exact CodeRanges.covers_of_mem (by decide : (0x30, 0x39) ∈ asciiAlphanumerics) h.1 h.2

theorem asciiLetters_covers (h : c.isAlpha = true) : asciiLetters.covers c = true := by
  unfold Char.isAlpha Char.isUpper Char.isLower at h
  simp only [Bool.or_eq_true, Bool.and_eq_true, decide_eq_true_eq] at h
  rcases h with upper | lower
  · exact CodeRanges.covers_of_mem (by decide : (0x41, 0x5A) ∈ asciiLetters) upper.1 upper.2
  · exact CodeRanges.covers_of_mem (by decide : (0x61, 0x7A) ∈ asciiLetters) lower.1 lower.2

theorem isAlpha_of_covers (h : asciiLetters.covers c = true) : c.isAlpha = true := by
  obtain ⟨range, mem, inside⟩ := List.any_eq_true.1 h
  simp only [Bool.and_eq_true, decide_eq_true_eq] at inside
  unfold Char.isAlpha Char.isUpper Char.isLower
  simp only [Bool.or_eq_true, Bool.and_eq_true, decide_eq_true_eq]
  simp only [asciiLetters, List.mem_cons, List.not_mem_nil, or_false] at mem
  rcases mem with rfl | rfl
  · exact .inl inside
  · exact .inr inside

theorem covers_of_isAlpha (h : c.isAlpha = true) : asciiAlphanumerics.covers c = true :=
  CodeRanges.covers_of_subset (List.subset_cons_self _ asciiLetters) (asciiLetters_covers h)

theorem not_isBlank_of_alphanumeric (h : asciiAlphanumerics.covers c = true) : isBlank c = false :=
  CodeRanges.not_covers_of_apart (by decide : asciiAlphanumerics.apart blanks = true) h

theorem not_isBlank_of_isAlpha (h : c.isAlpha = true) : isBlank c = false :=
  not_isBlank_of_alphanumeric (covers_of_isAlpha h)

theorem not_isBlank_of_isDecimalDigit (h : isDecimalDigit c = true) : isBlank c = false :=
  CodeRanges.not_covers_of_apart (by decide : decimalDigits.apart blanks = true) h

end Text

theorem Radix.covers_of_isDigit {radix : Radix} {c : Char} (h : radix.isDigit c = true) :
    Text.asciiAlphanumerics.covers c = true := by
  cases radix with
  | binary =>
    simp only [Radix.isDigit, Bool.or_eq_true, beq_iff_eq] at h
    rcases h with rfl | rfl <;> decide
  | octal =>
    simp only [Radix.isDigit, Bool.and_eq_true, decide_eq_true_eq] at h
    have upper : c.toNat ≤ 0x39 := Nat.le_trans h.2 (by decide)
    exact Text.CodeRanges.covers_of_mem (by decide : (0x30, 0x39) ∈ _) h.1 upper
  | hexadecimal =>
    simp only [Radix.isDigit, Bool.or_eq_true, Bool.and_eq_true, decide_eq_true_eq] at h
    rcases h with (digit | lower) | upper
    · exact Text.covers_of_isDigit digit
    · have last : c.toNat ≤ 0x7A := Nat.le_trans lower.2 (by decide)
      exact Text.CodeRanges.covers_of_mem (by decide : (0x61, 0x7A) ∈ _) lower.1 last
    · have last : c.toNat ≤ 0x5A := Nat.le_trans upper.2 (by decide)
      exact Text.CodeRanges.covers_of_mem (by decide : (0x41, 0x5A) ∈ _) upper.1 last

theorem Radix.not_isBlank_of_isDigit {radix : Radix} {c : Char} (h : radix.isDigit c = true) :
    Text.isBlank c = false :=
  Text.not_isBlank_of_alphanumeric (covers_of_isDigit h)

end PriorityLexer
