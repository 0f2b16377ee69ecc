import PriorityLexer.Proofs.CharacterClasses
import PriorityLexer.Proofs.Lexemes

namespace PriorityLexer

/-- No rule reaches further at the position, and none before it in the table as far. -/
structure IsLongest (source : Text) (position : Nat) (hit : Hit) : Prop where
  at_index : rules[hit.index]? = some hit.rule
  ends : hit.rule.endAt? source position = some hit.extent
  longest : ∀ rule ∈ rules, ∀ stop, rule.endAt? source position = some stop → stop ≤ hit.extent
  first : ∀ index rule, rules[index]? = some rule → index < hit.index →
    rule.endAt? source position ≠ some hit.extent

/-- A word of which only the first character is taken: the rule that takes it stands before the
rule that misses the word. -/
structure CutShort where
  word : Text
  taken : Rule
  missed : Rule
deriving DecidableEq, Repr

def cutShort : List CutShort := [
  ⟨['=', '='], ⟨.assign, .literal '=' []⟩, ⟨.equal, .literal '=' ['=']⟩⟩,
  ⟨['>', '='], ⟨.great, .literal '>' []⟩, ⟨.greatEq, .literal '>' ['=']⟩⟩,
  ⟨['>', '>'], ⟨.great, .literal '>' []⟩, ⟨.shiftRight, .literal '>' ['>']⟩⟩,
  ⟨['<', '='], ⟨.less, .literal '<' []⟩, ⟨.lessEq, .literal '<' ['=']⟩⟩,
  ⟨['<', '<'], ⟨.less, .literal '<' []⟩, ⟨.shiftLeft, .literal '<' ['<']⟩⟩]

namespace Text

def CodeRanges.only (c : Char) : CodeRanges := [(c.toNat, c.toNat)]

theorem CodeRanges.only_covers (c : Char) : (only c).covers c = true :=
  covers_of_mem List.mem_cons_self (Nat.le_refl _) (Nat.le_refl _)

theorem toNat_le (c : Char) : c.toNat ≤ 0x10FFFF := by
  have valid := c.valid
  simp only [UInt32.isValidChar, Nat.isValidChar] at valid
  show c.val.toNat ≤ _
  omega

end Text

namespace Pattern

/-- The characters that a match can begin with, as ranges that can be compared. -/
def openers : Pattern → Text.CodeRanges
  | literal first _ => .only first
  | lineComment => .only '/'
  | blockComment => .only '/'
  | radixNumeral _ => .only '0'
  | digits => Text.decimalDigits
  | quoted quote => .only quote
  | letters => Text.asciiLetters
  | blank => Text.blanks
  | anything => [(0, 0x10FFFF)]

/-- The characters that a longer match can have in the second place. -/
def continuesWith : Pattern → Char → Bool
  | literal _ [], _ => false
  | literal _ (second :: _), c => c == second
  | lineComment, c => c == '/'
  | blockComment, c => c == '*'
  | radixNumeral radix, c => c == radix.letter || c == radix.letter.toUpper
  | digits, c => Text.isDecimalDigit c
  | quoted _, _ => true
  | letters, c => c.isAlpha
  | blank, _ => false
  | anything, _ => false

/-- The second characters of the matches, where every match has one of a few. -/
def seconds? : Pattern → Option Text
  | literal _ (second :: _) => some [second]
  | lineComment => some ['/']
  | blockComment => some ['*']
  | radixNumeral radix => some [radix.letter, radix.letter.toUpper]
  | _ => none

def isSingle : Pattern → Bool
  | literal _ [] => true
  | blank => true
  | anything => true
  | _ => false

/-- The pattern takes as much as the other one wherever both match: the other one takes a single
character, no text begins with a match of both, or the other one does not go on where this one
does. -/
def reaches (pattern other : Pattern) : Bool :=
  other.isSingle || pattern.openers.apart other.openers ||
    pattern.seconds?.any fun seconds => seconds.all fun c => !other.continuesWith c

variable {pattern other : Pattern} {text : Text} {n k : Nat}

theorem openers_covers {c : Char} (h : pattern.startsWith c = true) :
    pattern.openers.covers c = true := by
  cases pattern with
  | literal first _ =>
    obtain rfl := beq_iff_eq.1 h
    exact Text.CodeRanges.only_covers _
  | lineComment | blockComment | radixNumeral | quoted =>
    obtain rfl := beq_iff_eq.1 h
    exact Text.CodeRanges.only_covers _
  | digits => exact h
  | letters => exact Text.asciiLetters_covers h
  | blank => exact h
  | anything =>
    exact Text.CodeRanges.covers_of_mem List.mem_cons_self (Nat.zero_le _) (Text.toNat_le c)

theorem member_second_of_run? {member : Char → Bool} {c d : Char}
    (h : run? member (c :: d :: text) = some n) (two : 2 ≤ n) : member d = true :=
  member_of_run? h (List.mem_take_iff_getElem.2 ⟨1, by simp; omega, rfl⟩)

theorem continuesWith_of_length? {c d : Char}
    (h : pattern.length? (c :: d :: text) = some n) (two : 2 ≤ n) :
    pattern.continuesWith d = true := by
  cases pattern with
  | literal first word =>
    obtain ⟨leads, rfl⟩ := length?_literal_eq_some_iff.1 h
    cases word with
    | nil => exact absurd two (by decide)
    | cons second word =>
      obtain ⟨rest, eq⟩ := leads
      obtain ⟨-, eq⟩ := List.cons.inj eq
      obtain ⟨rfl, -⟩ := List.cons.inj eq
      exact beq_self_eq_true _
  | lineComment =>
    obtain ⟨rest, eq, -⟩ := length?_lineComment_eq_some_iff.1 h
    cases eq
    rfl
  | blockComment =>
    obtain ⟨rest, k, eq, -⟩ := length?_blockComment_eq_some_iff.1 h
    cases eq
    rfl
  | radixNumeral radix =>
    obtain ⟨letter, rest, k, isLetter, eq, -⟩ := length?_radixNumeral_eq_some_iff.1 h
    cases eq
    simpa [continuesWith] using isLetter
  | digits => exact member_second_of_run? h two
  | quoted => rfl
  | letters => exact member_second_of_run? h two
  | blank =>
    have one := (length?_blank_eq_some_iff.1 h).2
    omega
  | anything =>
    have one := (length?_anything_eq_some_iff.1 h).2
    omega

theorem exists_second {seconds : Text} (listed : pattern.seconds? = some seconds)
    (h : pattern.length? text = some n) :
    ∃ c d rest, text = c :: d :: rest ∧ d ∈ seconds := by
  cases pattern with
  | literal first word =>
    cases word with
    | nil => cases listed
    | cons second word =>
      cases listed
      obtain ⟨⟨rest, rfl⟩, -⟩ := length?_literal_eq_some_iff.1 h
      exact ⟨first, second, word ++ rest, rfl, List.mem_singleton_self _⟩
  | lineComment =>
    cases listed
    obtain ⟨rest, rfl, -⟩ := length?_lineComment_eq_some_iff.1 h
    exact ⟨_, _, rest, rfl, List.mem_singleton_self _⟩
  | blockComment =>
    cases listed
    obtain ⟨rest, k, rfl, -⟩ := length?_blockComment_eq_some_iff.1 h
    exact ⟨_, _, rest, rfl, List.mem_singleton_self _⟩
  | radixNumeral radix =>
    cases listed
    obtain ⟨letter, rest, k, isLetter, rfl, -⟩ := length?_radixNumeral_eq_some_iff.1 h
    exact ⟨_, letter, rest, rfl, by simpa using isLetter⟩
  | digits | quoted | letters | blank | anything => cases listed

theorem eq_one_of_isSingle (single : pattern.isSingle = true) (h : pattern.length? text = some n) :
    n = 1 := by
  cases pattern with
  | literal first word =>
    cases word with
    | nil => exact (length?_literal_eq_some_iff.1 h).2
    | cons => cases single
  | blank => exact (length?_blank_eq_some_iff.1 h).2
  | anything => exact (length?_anything_eq_some_iff.1 h).2
  | lineComment | blockComment | radixNumeral | digits | quoted | letters => cases single

theorem length?_le_of_reaches (reaches : pattern.reaches other = true)
    (h : pattern.length? text = some n) (h' : other.length? text = some k) : k ≤ n := by
  have positive := (length?_bounds h).1
  simp only [Pattern.reaches, Bool.or_eq_true] at reaches
  rcases reaches with (single | apart) | leaves
  · rw [eq_one_of_isSingle single h']
    exact positive
  · -- both would begin with the first character of the text
    obtain ⟨c, rest, rfl⟩ : ∃ c rest, text = c :: rest :=
      List.exists_cons_of_length_pos (by have := length?_bounds h; omega)
    have own := openers_covers (startsWith_of_length? h)
    have others := openers_covers (startsWith_of_length? h')
    rw [Text.CodeRanges.not_covers_of_apart apart own] at others
    cases others
  · obtain ⟨seconds, listed, stops⟩ := (Option.any_eq_true _ _).1 leaves
    obtain ⟨c, d, rest, rfl, mem⟩ := exists_second listed h
    have stop := List.all_eq_true.1 stops d mem
    by_contra longer
    have goes := continuesWith_of_length? h' (by omega)
    rw [goes] at stop
    cases stop

/-- The pattern asks for a text that begins with a word that is cut short. -/
def isCutShort : Pattern → Bool
  | literal first rest => cutShort.any fun entry => entry.word.isPrefixOf (first :: rest)
  | _ => false

theorem exists_cutShort (short : pattern.isCutShort = true) (h : pattern.length? text = some n) :
    ∃ entry ∈ cutShort, entry.word <+: text := by
  cases pattern with
  | literal first rest =>
    obtain ⟨entry, mem, leads⟩ := List.any_eq_true.1 short
    exact ⟨entry, mem,
      (List.isPrefixOf_iff_prefix.1 leads).trans (length?_literal_eq_some_iff.1 h).1⟩
  | lineComment | blockComment | radixNumeral | digits | quoted | letters | blank | anything =>
    cases short

end Pattern

/-- Of two rules the later one reaches further only with a word that is cut short. -/
theorem rules_pairwise : rules.Pairwise fun rule later =>
    rule.pattern.reaches later.pattern = true ∨ later.pattern.isCutShort = true := by
  decide +kernel

section Hit

variable {source text : Text} {position : Nat} {hit : Hit}

/-- Where a rule reaches further than the first one that applies, a word is cut short. -/
theorem exists_cutShort_of_longer (taken : headHit? rules text = some hit) {rule : Rule} {n : Nat}
    (mem : rule ∈ rules) (applies : rule.pattern.length? text = some n) (longer : hit.extent < n) :
    ∃ entry ∈ cutShort, entry.word <+: text := by
  obtain ⟨at_index, own⟩ := firstHit?_eq_some taken
  obtain ⟨index, at_index'⟩ := List.mem_iff_getElem?.1 mem
  rcases Nat.lt_trichotomy index hit.index with before | same | behind
  · rw [firstHit?_none_before taken at_index' before] at applies
    cases applies
  · rw [same, at_index, Option.some.injEq] at at_index'
    rw [← at_index', own, Option.some.injEq] at applies
    omega
  · obtain ⟨inside, rfl⟩ := List.getElem?_eq_some_iff.1 at_index'
    obtain ⟨inside', eq⟩ := List.getElem?_eq_some_iff.1 at_index
    have pair := List.pairwise_iff_getElem.1 rules_pairwise _ _ inside' inside behind
    rw [eq] at pair
    rcases pair with reaches | short
    · have no_longer := Pattern.length?_le_of_reaches reaches own applies
      omega
    · exact Pattern.exists_cutShort short applies

theorem candidates_equals :
    candidates '=' = [(⟨.assign, .literal '=' []⟩, 0), (⟨.equal, .literal '=' ['=']⟩, 3),
      (⟨.other, .anything⟩, 41)] := by
  decide

theorem candidates_greater :
    candidates '>' = [(⟨.great, .literal '>' []⟩, 5), (⟨.greatEq, .literal '>' ['=']⟩, 6),
      (⟨.shiftRight, .literal '>' ['>']⟩, 13), (⟨.unsignedShiftRight, .literal '>' ['>', '>']⟩, 14),
      (⟨.other, .anything⟩, 41)] := by
  decide

theorem candidates_less :
    candidates '<' = [(⟨.less, .literal '<' []⟩, 7), (⟨.lessEq, .literal '<' ['=']⟩, 8),
      (⟨.shiftLeft, .literal '<' ['<']⟩, 12), (⟨.less, .literal '<' []⟩, 28),
      (⟨.other, .anything⟩, 41)] := by
  decide

/-- A word that is cut short is there as a whole for the rule that misses it. -/
theorem headHit?_of_cutShort {entry : CutShort} (mem : entry ∈ cutShort)
    (leads : entry.word <+: text) :
    headHit? rules text = some ⟨rules.idxOf entry.taken, entry.taken, 1⟩ ∧
      entry.missed.pattern.length? text = some 2 := by
  obtain ⟨rest, rfl⟩ := leads
  simp only [cutShort, List.mem_cons, List.not_mem_nil, or_false] at mem
  rcases mem with rfl | rfl | rfl | rfl | rfl
  · refine ⟨?_, rfl⟩
    rw [List.cons_append, headHit?_cons, candidates_equals]
    rfl
  · refine ⟨?_, rfl⟩
    rw [List.cons_append, headHit?_cons, candidates_greater]
    rfl
  · refine ⟨?_, rfl⟩
    rw [List.cons_append, headHit?_cons, candidates_greater]
    rfl
  · refine ⟨?_, rfl⟩
    rw [List.cons_append, headHit?_cons, candidates_less]
    rfl
  · refine ⟨?_, rfl⟩
    rw [List.cons_append, headHit?_cons, candidates_less]
    rfl

theorem matchAt_of_headHit? (taken : headHit? rules (source.drop position) = some hit) :
    matchAt source position = .ok { hit with extent := position + hit.extent } := by
  rw [matchAt_eq, Int.toNat_natCast, taken]

theorem isLongest_of_headHit? (taken : headHit? rules (source.drop position) = some hit)
    (whole : ¬ ∃ entry ∈ cutShort, entry.word <+: source.drop position) :
    IsLongest source position { hit with extent := position + hit.extent } := by
  obtain ⟨at_index, own⟩ := firstHit?_eq_some taken
  refine ⟨at_index, ?_, ?_, ?_⟩
  · rw [Rule.endAt?_eq, Int.toNat_natCast, own, Option.map_some]
  · intro rule mem stop reached
    rw [Rule.endAt?_eq, Int.toNat_natCast, Option.map_eq_some_iff] at reached
    obtain ⟨n, applies, rfl⟩ := reached
    by_contra further
    simp only [Nat.add_le_add_iff_left, Nat.not_le] at further
    exact whole (exists_cutShort_of_longer taken mem applies further)
  · intro index rule at_index' before reached
    rw [Rule.endAt?_eq, Int.toNat_natCast,
      firstHit?_none_before taken at_index' before] at reached
    cases reached

end Hit

/-- The first rule that applies at a position of the source is one that reaches furthest, and the
first of these, unless the text there begins with one of the words that are cut short. Of those the
first rule takes one character, and a later rule would take more. -/
theorem first_match_is_longest_iff (source : Text) (position : Nat)
    (inside : position < source.length) :
    ∃ hit, matchAt source position = .ok hit ∧
      (IsLongest source position hit ↔
        ¬ ∃ entry ∈ cutShort, entry.word <+: source.drop position) ∧
      ∀ entry ∈ cutShort, entry.word <+: source.drop position →
        hit = ⟨rules.idxOf entry.taken, entry.taken, position + 1⟩ ∧
        rules.idxOf entry.taken < rules.idxOf entry.missed ∧ entry.missed ∈ rules ∧
        entry.missed.endAt? source position = some (position + 2) := by
  obtain ⟨hit, taken⟩ := exists_headHit? (List.drop_eq_nil_iff.not.2 (Nat.not_le.2 inside))
  have misses : ∀ entry ∈ cutShort, rules.idxOf entry.taken < rules.idxOf entry.missed ∧
      entry.missed ∈ rules := by decide
  have short : ∀ entry ∈ cutShort, entry.word <+: source.drop position →
      hit = ⟨rules.idxOf entry.taken, entry.taken, 1⟩ ∧
        entry.missed.endAt? source position = some (position + 2) := by
    intro entry mem leads
    obtain ⟨cut, missed⟩ := headHit?_of_cutShort mem leads
    rw [taken, Option.some.injEq] at cut
    refine ⟨cut, ?_⟩
    rw [Rule.endAt?_eq, Int.toNat_natCast, missed, Option.map_some]
  refine ⟨_, matchAt_of_headHit? taken, ⟨?_, isLongest_of_headHit? taken⟩, ?_⟩
  · rintro longest ⟨entry, mem, leads⟩
    obtain ⟨rfl, further⟩ := short entry mem leads
    have no_further := longest.longest entry.missed (misses entry mem).2 _ further
    simp only at no_further
    omega
  · intro entry mem leads
    obtain ⟨rfl, further⟩ := short entry mem leads
    exact ⟨rfl, (misses entry mem).1, (misses entry mem).2, further⟩

/-- The binary numeral is longer than the zero it begins with, and the shift behind it is cut
short. -/
theorem first_match_is_longest_iff_no_shift :
    2 < "b 0b1>>>2".toList.length ∧
      matchAt "b 0b1>>>2".toList 2 = .ok ⟨23, ⟨.base2, .radixNumeral .binary⟩, 5⟩ ∧
      IsLongest "b 0b1>>>2".toList 2 ⟨23, ⟨.base2, .radixNumeral .binary⟩, 5⟩ ∧
      5 < "b 0b1>>>2".toList.length ∧
      matchAt "b 0b1>>>2".toList 5 = .ok ⟨5, ⟨.great, .literal '>' []⟩, 6⟩ ∧
      ¬ IsLongest "b 0b1>>>2".toList 5 ⟨5, ⟨.great, .literal '>' []⟩, 6⟩ := by
  obtain ⟨numeral, taken, longest_iff, -⟩ :=
    first_match_is_longest_iff "b 0b1>>>2".toList 2 (by decide)
  obtain ⟨shift, taken', longest_iff', cut⟩ :=
    first_match_is_longest_iff "b 0b1>>>2".toList 5 (by decide)
  obtain rfl : numeral = ⟨23, ⟨.base2, .radixNumeral .binary⟩, 5⟩ :=
    Except.ok.inj (taken.symm.trans (by decide +kernel))
  have short : ∃ entry ∈ cutShort, entry.word <+: "b 0b1>>>2".toList.drop 5 := by decide
  obtain ⟨rfl, -⟩ := cut ⟨['>', '>'], ⟨.great, .literal '>' []⟩, ⟨.shiftRight, .literal '>' ['>']⟩⟩
    (by decide) (by decide)
  exact ⟨by decide, taken, longest_iff.2 (by decide), by decide, taken',
    fun longest => longest_iff'.1 longest short⟩

end PriorityLexer
