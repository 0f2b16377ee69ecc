import PriorityLexer.Proofs.Recovery

namespace PriorityLexer

/-- The characters that are matches by themselves. -/
def operators : Text := [
  '=', '/', '!', '>', '<', '|', '^', '&', '*', '-', '+', '%', '~', '(', ')', '\x7b', '\x7d', ':',
  ';', ',']

/-- The characters that begin a match only in front of certain texts. -/
def dependents : Text := ['"', '\'', '#']

def IsIllegal (c : Char) (rest : Text) : Prop :=
  (c = '"' ∨ c = '\'') ∧ c ∉ rest ∨
    c = '#' ∧ rest.head? ≠ some 'f' ∨
    c ∉ dependents ∧ c ∉ operators ∧ c.isAlpha = false ∧ Text.isDecimalDigit c = false ∧
      Text.isBlank c = false

namespace Pattern

/-- The one character that every match of the pattern begins with, if there is one. -/
def opener? : Pattern → Option Char
  | literal first _ => some first
  | lineComment => some '/'
  | blockComment => some '/'
  | radixNumeral _ => some '0'
  | quoted quote => some quote
  | digits => none
  | letters => none
  | blank => none
  | anything => none

theorem opener?_of_startsWith {pattern : Pattern} {c : Char} (h : pattern.startsWith c = true) :
    pattern.opener? = some c ∨ Text.isDecimalDigit c = true ∨ c.isAlpha = true ∨
      Text.isBlank c = true ∨ pattern = anything := by
  cases pattern with
  | literal | lineComment | blockComment | radixNumeral | quoted =>
    obtain rfl := beq_iff_eq.1 h
    exact .inl rfl
  | digits => exact .inr (.inl h)
  | letters => exact .inr (.inr (.inl h))
  | blank => exact .inr (.inr (.inr (.inl h)))
  | anything => exact .inr (.inr (.inr (.inr rfl)))

end Pattern

/-- All rules but the last miss the text. -/
def IsLeft (text : Text) : Prop :=
  ∀ rule ∈ rules, rule.name ≠ .other → rule.pattern.length? text = none

theorem other_iff_isLeft {text : Text} {hit : Hit} (taken : headHit? rules text = some hit) :
    hit.rule.name = .other ↔ IsLeft text := by
  constructor
  · intro other rule mem named
    have last : ∀ entry ∈ rules.zipIdx, entry.1.name = .other →
        ∀ entry' ∈ rules.zipIdx, entry'.1.name ≠ .other → entry'.2 < entry.2 := by decide
    obtain ⟨index, at_index⟩ := List.mem_iff_getElem?.1 mem
    apply firstHit?_none_before taken at_index
    exact last (hit.rule, hit.index) (List.mem_zipIdx_iff_getElem?.2 (firstHit?_eq_some taken).1)
      other (rule, index) (List.mem_zipIdx_iff_getElem?.2 at_index) named
  · intro left
    by_contra named
    have missed := left hit.rule (headHit?_rule_mem taken) named
    rw [(firstHit?_eq_some taken).2] at missed
    cases missed

section IsLeft

variable {c : Char} {rest : Text}

theorem candidates_sharp :
    candidates '#' = [(⟨.falseLiteral, .literal '#' ['f']⟩, 26), (⟨.other, .anything⟩, 41)] := by
  decide

theorem exists_mem_candidates {rule : Rule} (mem : rule ∈ rules) {n : Nat}
    (applies : rule.pattern.length? (c :: rest) = some n) :
    ∃ index, (rule, index) ∈ candidates c := by
  obtain ⟨index, at_index⟩ := List.mem_iff_getElem?.1 mem
  refine ⟨index, List.mem_filter.2 ⟨List.mem_zipIdx_iff_getElem?.2 at_index, ?_⟩⟩
  exact Pattern.startsWith_of_length? applies

theorem isLeft_of_quote (isQuote : c = '"' ∨ c = '\'') (absent : c ∉ rest) :
    IsLeft (c :: rest) := by
  intro rule mem named
  apply Option.eq_none_iff_forall_ne_some.2
  intro n applies
  obtain ⟨index, candidate⟩ := exists_mem_candidates mem applies
  rw [candidates_quote isQuote] at candidate
  simp only [List.mem_cons, Prod.mk.injEq, List.not_mem_nil, or_false] at candidate
  rcases candidate with ⟨rfl, -⟩ | ⟨rfl, -⟩
  · obtain ⟨left, k, eq, closes, -⟩ := Pattern.length?_quoted_eq_some_iff.1 applies
    cases eq
    rw [Pattern.closing?_eq_none_iff.2 absent] at closes
    cases closes
  · exact named rfl

theorem isLeft_of_sharp (other : rest.head? ≠ some 'f') : IsLeft ('#' :: rest) := by
  intro rule mem named
  apply Option.eq_none_iff_forall_ne_some.2
  intro n applies
  obtain ⟨index, candidate⟩ := exists_mem_candidates mem applies
  rw [candidates_sharp] at candidate
  simp only [List.mem_cons, Prod.mk.injEq, List.not_mem_nil, or_false] at candidate
  rcases candidate with ⟨rfl, -⟩ | ⟨rfl, -⟩
  · obtain ⟨⟨left, eq⟩, -⟩ := Pattern.length?_literal_eq_some_iff.1 applies
    cases eq
    exact other rfl
  · exact named rfl

theorem isLeft_of_classless (independent : c ∉ dependents) (no_operator : c ∉ operators)
    (no_letter : c.isAlpha = false) (no_digit : Text.isDecimalDigit c = false)
    (no_blank : Text.isBlank c = false) : IsLeft (c :: rest) := by
  have openers : ∀ rule ∈ rules, rule.pattern.opener?.all (fun c => c ∈ dependents ∨
      c ∈ operators ∨ Text.isDecimalDigit c = true ∨ Text.isBlank c = true) = true := by
    decide
  have last : ∀ rule ∈ rules, rule.pattern = .anything → rule.name = .other := by decide
  intro rule mem named
  apply Option.eq_none_iff_forall_ne_some.2
  intro n applies
  have starts := Pattern.startsWith_of_length? applies
  rcases Pattern.opener?_of_startsWith starts with opener | digit | letter | blank | anything
  · have listed := of_decide_eq_true ((Option.all_eq_true _ _).1 (openers rule mem) c opener)
    rcases listed with dependent | operator | digit | blank
    · exact independent dependent
    · exact no_operator operator
    · simp [digit] at no_digit
    · simp [blank] at no_blank
  · simp [digit] at no_digit
  · simp [letter] at no_letter
  · simp [blank] at no_blank
  · exact named (last rule mem anything)

theorem not_isLeft {rule : Rule} (mem : rule ∈ rules) (named : rule.name ≠ .other) {text : Text}
    {n : Nat} (applies : rule.pattern.length? text = some n) : ¬ IsLeft text := by
  intro left
  rw [left rule mem named] at applies
  cases applies

theorem not_mem_of_isLeft_quote (isQuote : c = '"' ∨ c = '\'') (left : IsLeft (c :: rest)) :
    c ∉ rest := by
  intro occurs
  have mem : stringRule c ∈ rules := by rcases isQuote with rfl | rfl <;> decide
  obtain ⟨k, closes⟩ : ∃ k, Pattern.closing? c false rest = some k := by
    apply Option.ne_none_iff_exists'.1
    exact fun unclosed => Pattern.closing?_eq_none_iff.1 unclosed occurs
  have named : (stringRule c).name ≠ .other := fun same => by cases same
  have applies := Pattern.length?_quoted_eq_some_iff.2 ⟨rest, k, rfl, closes, rfl⟩
  exact not_isLeft mem named applies left

theorem head?_ne_of_isLeft_sharp (left : IsLeft ('#' :: rest)) : rest.head? ≠ some 'f' := by
  intro front
  obtain ⟨further, rfl⟩ := List.head?_eq_some_iff.1 front
  have mem : (⟨.falseLiteral, .literal '#' ['f']⟩ : Rule) ∈ rules := by decide
  have applies := Pattern.length?_literal_eq_some_iff.2 ⟨List.prefix_append ['#', 'f'] further, rfl⟩
  exact not_isLeft mem (by decide) applies left

theorem not_mem_operators_of_isLeft (left : IsLeft (c :: rest)) : c ∉ operators := by
  intro operator
  have single : operators.all (fun c => ∃ rule ∈ rules,
      rule.name ≠ .other ∧ rule.pattern = .literal c []) = true := by
    decide
  obtain ⟨rule, mem, named, pattern⟩ := of_decide_eq_true (List.all_eq_true.1 single c operator)
  apply not_isLeft (n := 1) mem named _ left
  rw [pattern, Pattern.length?_literal_eq_some_iff]
  exact ⟨List.prefix_append [c] rest, rfl⟩

theorem classless_of_isLeft (left : IsLeft (c :: rest)) :
    c.isAlpha = false ∧ Text.isDecimalDigit c = false ∧ Text.isBlank c = false := by
  have letters : (⟨.identifier, .letters⟩ : Rule) ∈ rules := by decide
  have digits : (⟨.intLiteral, .digits⟩ : Rule) ∈ rules := by decide
  have blank : (⟨.whiteSpace, .blank⟩ : Rule) ∈ rules := by decide
  refine ⟨Bool.eq_false_iff.2 ?_, Bool.eq_false_iff.2 ?_, Bool.eq_false_iff.2 ?_⟩
  · intro letter
    obtain ⟨n, applies⟩ := Pattern.exists_run?_iff.2 ⟨c, List.head?_cons, letter⟩
    exact not_isLeft letters (by decide) applies left
  · intro digit
    obtain ⟨n, applies⟩ := Pattern.exists_run?_iff.2 ⟨c, List.head?_cons, digit⟩
    exact not_isLeft digits (by decide) applies left
  · intro is_blank
    have applies : Pattern.blank.length? (c :: rest) = some 1 :=
      Pattern.length?_blank_eq_some_iff.2 ⟨is_blank, rfl⟩
    exact not_isLeft blank (by decide) applies left

/-- What the last rule takes can be seen from the character and the text behind it. -/
theorem isLeft_iff_isIllegal : IsLeft (c :: rest) ↔ IsIllegal c rest := by
  constructor
  · intro left
    by_cases isQuote : c = '"' ∨ c = '\''
    · exact .inl ⟨isQuote, not_mem_of_isLeft_quote isQuote left⟩
    · by_cases sharp : c = '#'
      · subst sharp
        exact .inr (.inl ⟨rfl, head?_ne_of_isLeft_sharp left⟩)
      · have independent : c ∉ dependents := by
          simp only [dependents, List.mem_cons, List.not_mem_nil, or_false, not_or]
          exact ⟨fun double => isQuote (.inl double), fun single => isQuote (.inr single), sharp⟩
        exact .inr (.inr ⟨independent, not_mem_operators_of_isLeft left, classless_of_isLeft left⟩)
  · rintro (⟨isQuote, absent⟩ | ⟨rfl, other⟩ | ⟨independent, no_operator, no_letter, no_digit,
      no_blank⟩)
    · exact isLeft_of_quote isQuote absent
    · exact isLeft_of_sharp other
    · exact isLeft_of_classless independent no_operator no_letter no_digit no_blank

end IsLeft

theorem Match.Leads.rule_eq_other_iff {m : Match} {rest left : Text} {c : Char} (h : m.Leads rest)
    (text_eq : m.lexeme ++ rest = c :: left) : m.rule = .other ↔ IsIllegal c left := by
  obtain ⟨hit, taken, name, -⟩ := h
  rw [text_eq] at taken
  rw [← name, other_iff_isLeft taken, isLeft_iff_isIllegal]

theorem exists_first_of_mem_scan {source : Text} {m : Match} (mem : m ∈ scan source) :
    ∃ c, source[m.offset]? = some c ∧
      (m.rule = .other ↔ IsIllegal c (source.drop (m.offset + 1))) := by
  obtain ⟨rest, within, leads⟩ := exists_rest_of_mem_scan mem
  obtain ⟨c, body, lexeme⟩ := List.exists_cons_of_ne_nil leads.lexeme_ne_nil
  have begins : source.drop m.offset = c :: (body ++ rest) := by rw [within, lexeme]; rfl
  have behind : source.drop (m.offset + 1) = body ++ rest := by
    rw [← List.drop_drop, begins]
    rfl
  refine ⟨c, ?_, ?_⟩
  · rw [← List.head?_drop, begins, List.head?_cons]
  · rw [behind]
    exact leads.rule_eq_other_iff (within ▸ begins)

theorem length_le_one_of_offset_eq {tokens : List Token}
    (increasing : tokens.Pairwise fun a b => a.location.offset < b.location.offset)
    (same : ∀ a ∈ tokens, ∀ b ∈ tokens, a.location.offset = b.location.offset) :
    tokens.length ≤ 1 := by
  match tokens with
  | [] => exact Nat.zero_le 1
  | [_] => exact Nat.le_refl 1
  | first :: second :: others =>
    have less := (List.pairwise_cons.1 increasing).1 second List.mem_cons_self
    have equal := same first List.mem_cons_self second
      (List.mem_cons_of_mem first List.mem_cons_self)
    omega

def IsLastPlace (source : Text) (c : Char) (offset : Nat) : Prop :=
  source[offset]? = some c ∧ c ∉ source.drop (offset + 1)

theorem IsLastPlace.unique {source : Text} {c : Char} {offset offset' : Nat}
    (h : IsLastPlace source c offset) (h' : IsLastPlace source c offset') : offset = offset' := by
  have le : ∀ {i j : Nat}, IsLastPlace source c i → IsLastPlace source c j → j ≤ i := by
    intro i j last occurs
    by_contra behind
    apply last.2
    obtain ⟨k, rfl⟩ := Nat.exists_eq_add_of_lt (Nat.not_le.1 behind)
    apply List.mem_of_getElem? (i := k)
    rw [List.getElem?_drop, ← occurs.1]
    congr 1
    omega
  exact Nat.le_antisymm (le h' h) (le h h')

section Tokens

variable {source filename : Text} {tokens : List Token}

/-- The illegal tokens stand where the matches of the last rule begin. -/
theorem exists_isIllegal_at_iff (read : tokenize source filename = .ok tokens) (offset : Nat) :
    (∃ token ∈ tokens, token.isIllegal = true ∧ token.location.offset = offset) ↔
      ∃ m ∈ scan source, m.rule = .other ∧ m.offset = offset := by
  rw [tokenize_eq, Except.ok.injEq] at read
  have offsets :=
    Cursor.illegalOffsets_stream filename source.length Cursor.start (scan source)
  rw [read] at offsets
  have listed : (offset : Int) ∈ illegalOffsets tokens ↔
      ∃ m ∈ scan source, m.rule = .other ∧ m.offset = offset := by
    rw [offsets]
    simp only [List.mem_map, List.mem_filter, decide_eq_true_eq, Int.natCast_inj, and_assoc]
  rw [← listed]
  simp only [illegalOffsets, List.mem_map, List.mem_filter, and_assoc]

theorem exists_match_of_isIllegal (read : tokenize source filename = .ok tokens) {token : Token}
    (mem : token ∈ tokens) (illegal : token.isIllegal = true) :
    ∃ m ∈ scan source, ∃ c, token.location.offset = m.offset ∧ token.lexeme = some [c] ∧
      source[m.offset]? = some c ∧ IsIllegal c (source.drop (m.offset + 1)) := by
  have read' := read
  rw [tokenize_eq, Except.ok.injEq] at read'
  obtain ⟨offset, c, place, lexeme, at_offset⟩ := exists_char_of_isIllegal (read' ▸ mem) illegal
  obtain ⟨m, m_mem, other, rfl⟩ :=
    (exists_isIllegal_at_iff read offset).1 ⟨token, mem, illegal, place⟩
  obtain ⟨c', at_offset', other_iff⟩ := exists_first_of_mem_scan m_mem
  rw [at_offset, Option.some.injEq] at at_offset'
  subst at_offset'
  exact ⟨m, m_mem, c, place, lexeme, at_offset, other_iff.1 other⟩

theorem tokens_increasing (read : tokenize source filename = .ok tokens) :
    tokens.Pairwise fun a b => a.location.offset < b.location.offset := by
  have increasing : (Cursor.start.stream filename (0 + source.length) (scan source)).Pairwise
      fun a b => a.location.offset < b.location.offset :=
    Cursor.stream_pairwise_offset (scans_scan source)
  rw [tokenize_eq, Except.ok.injEq] at read
  rwa [Nat.zero_add, read] at increasing

theorem isLastPlace_of_isIllegal (read : tokenize source filename = .ok tokens) {token : Token}
    (mem : token ∈ tokens) (illegal : token.isIllegal = true) {quote : Char}
    (isQuote : quote = '"' ∨ quote = '\'') (lexeme : token.lexeme = some [quote]) :
    ∃ offset : Nat, token.location.offset = offset ∧ IsLastPlace source quote offset := by
  obtain ⟨m, -, c, place, lexeme', at_offset, is_illegal⟩ :=
    exists_match_of_isIllegal read mem illegal
  rw [lexeme, Option.some.injEq, List.cons.injEq] at lexeme'
  obtain ⟨rfl, -⟩ := lexeme'
  refine ⟨m.offset, place, at_offset, ?_⟩
  rcases is_illegal with ⟨-, absent⟩ | ⟨rfl, -⟩ | ⟨independent, -⟩
  · exact absent
  · exact absurd isQuote (by decide)
  · rcases isQuote with rfl | rfl <;> exact absurd independent (by decide)

theorem length_illegal_quotes_le_one (read : tokenize source filename = .ok tokens) {quote : Char}
    (isQuote : quote = '"' ∨ quote = '\'') :
    (tokens.filter fun token => token.isIllegal && token.lexeme == some [quote]).length ≤ 1 := by
  apply length_le_one_of_offset_eq ((tokens_increasing read).filter _)
  have last : ∀ token ∈ tokens.filter (fun token => token.isIllegal &&
      token.lexeme == some [quote]), ∃ offset : Nat, token.location.offset = offset ∧
        IsLastPlace source quote offset := by
    intro token kept
    obtain ⟨mem, shown⟩ := List.mem_filter.1 kept
    obtain ⟨illegal, lexeme⟩ := Bool.and_eq_true_iff.1 shown
    exact isLastPlace_of_isIllegal read mem illegal isQuote (beq_iff_eq.1 lexeme)
  intro a a_mem b b_mem
  obtain ⟨offset, place, is_last⟩ := last a a_mem
  obtain ⟨offset', place', is_last'⟩ := last b b_mem
  rw [place, place', is_last.unique is_last']

end Tokens

/-- At the beginning of a match there is an illegal token exactly if the character there is illegal
in front of what follows it, and every illegal token is such a character. For each kind of quote at
most one token is illegal, and it stands at the last place of the quote in the source. -/
theorem illegal_characters_are_leftovers (source filename : Text) :
    ∃ tokens, tokenize source filename = .ok tokens ∧
      (∀ m ∈ scan source, ∃ c, source[m.offset]? = some c ∧
        ((∃ token ∈ tokens, token.isIllegal = true ∧ token.location.offset = m.offset) ↔
          IsIllegal c (source.drop (m.offset + 1)))) ∧
      (∀ token ∈ tokens, token.isIllegal = true → ∃ m ∈ scan source, ∃ c,
        token.location.offset = m.offset ∧ token.lexeme = some [c] ∧
          source[m.offset]? = some c) ∧
      ∀ quote, quote = '"' ∨ quote = '\'' →
        (tokens.filter fun token => token.isIllegal && token.lexeme == some [quote]).length ≤ 1 ∧
        ∀ token ∈ tokens, token.isIllegal = true → token.lexeme = some [quote] →
          ∃ offset : Nat, token.location.offset = offset ∧ IsLastPlace source quote offset := by
  have read := tokenize_eq source filename
  refine ⟨_, read, ?_, ?_, ?_⟩
  · intro m mem
    obtain ⟨c, at_offset, other_iff⟩ := exists_first_of_mem_scan mem
    refine ⟨c, at_offset, ?_⟩
    rw [exists_isIllegal_at_iff read, ← other_iff]
    constructor
    · rintro ⟨m', mem', other, same⟩
      obtain ⟨c', at_offset', other_iff'⟩ := exists_first_of_mem_scan mem'
      rw [same, at_offset, Option.some.injEq] at at_offset'
      rw [other_iff, at_offset', ← same]
      exact other_iff'.1 other
    · exact fun other => ⟨m, mem, other, rfl⟩
  · intro token mem illegal
    obtain ⟨m, m_mem, c, place, lexeme, at_offset, -⟩ := exists_match_of_isIllegal read mem illegal
    exact ⟨m, m_mem, c, place, lexeme, at_offset⟩
  · intro quote isQuote
    exact ⟨length_illegal_quotes_le_one read isQuote,
      fun token mem illegal => isLastPlace_of_isIllegal read mem illegal isQuote⟩

end PriorityLexer
