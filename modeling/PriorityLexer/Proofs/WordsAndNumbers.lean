import PriorityLexer.Proofs.Borders
import PriorityLexer.Proofs.SelfContained

namespace PriorityLexer

def Radix.ruleName : Radix → RuleName
  | .binary => .base2
  | .octal => .base8
  | .hexadecimal => .base16

def Radix.category : Radix → Category
  | .binary => .binaryLiteral
  | .octal => .octalLiteral
  | .hexadecimal => .hexLiteral

/-- The categories of identifiers and reserved words. -/
def Category.isWord (category : Category) : Bool :=
  [identifier, boolKeyword, endKeyword, ifKeyword, intKeyword, printKeyword, thenKeyword,
    trueKeyword].contains category

section Numeral

variable {radix radix' : Radix} {numeral : Text}

theorem Radix.of_letter {letter : Char}
    (isLetter : letter = radix.letter ∨ letter = radix.letter.toUpper) :
    letter.toLower = radix.letter ∧ Text.isDecimalDigit letter = false := by
  cases radix with
  | binary => rcases isLetter with rfl | rfl <;> decide
  | octal => rcases isLetter with rfl | rfl <;> decide
  | hexadecimal => rcases isLetter with rfl | rfl <;> decide

theorem Radix.letter_injective (same : radix.letter = radix'.letter) : radix = radix' := by
  revert same
  cases radix <;> cases radix' <;> decide

theorem Radix.IsNumeral.not_isRun (h : radix.IsNumeral numeral) :
    ¬ IsRun Text.isDecimalDigit numeral := by
  obtain ⟨letter, digits, isLetter, rfl, -⟩ := h
  rintro ⟨-, inside⟩
  have digit := inside letter (by simp)
  rw [(Radix.of_letter isLetter).2] at digit
  cases digit

theorem Radix.IsNumeral.radix_unique (h : radix.IsNumeral numeral)
    (h' : radix'.IsNumeral numeral) : radix = radix' := by
  obtain ⟨letter, digits, isLetter, rfl, -⟩ := h
  obtain ⟨letter', digits', isLetter', eq, -⟩ := h'
  obtain rfl : letter = letter' := (List.cons.inj (List.cons.inj eq).2).1
  apply Radix.letter_injective
  rw [← (Radix.of_letter isLetter).1, (Radix.of_letter isLetter').1]

theorem Radix.IsNumeral.exists_length? (h : radix.IsNumeral numeral) (rest : Text) :
    ∃ n, (Pattern.radixNumeral radix).length? (numeral ++ rest) = some n := by
  obtain ⟨letter, digits, isLetter, rfl, not_empty, inside⟩ := h
  obtain ⟨c, more, rfl⟩ := List.exists_cons_of_ne_nil not_empty
  obtain ⟨n, run⟩ : ∃ n, Pattern.run? radix.isDigit (c :: more ++ rest) = some n :=
    Pattern.exists_run?_iff.2 ⟨c, rfl, inside c List.mem_cons_self⟩
  exact ⟨n + 2,
    Pattern.length?_radixNumeral_eq_some_iff.2 ⟨letter, _, n, isLetter, rfl, run, rfl⟩⟩

end Numeral

namespace Match

variable {m : Match} {rest : Text}

theorem Leads.length?_of_rule {name : RuleName} {pattern : Pattern} (h : m.Leads rest)
    (only : ∀ rule ∈ rules, rule.name = name → rule.pattern = pattern) (named : m.rule = name) :
    pattern.length? (m.lexeme ++ rest) = some m.lexeme.length := by
  obtain ⟨rule, mem, name, taken⟩ := h.exists_rule
  rwa [only rule mem (name.trans named)] at taken

theorem Leads.run_of_identifier (h : m.Leads rest) (word : m.rule = .identifier) :
    IsRun Char.isAlpha m.lexeme ∧ ∀ c, rest.head? = some c → c.isAlpha = false := by
  have only : ∀ rule ∈ rules, rule.name = .identifier → rule.pattern = .letters := by decide
  exact Pattern.run?_append_self_iff.1 (h.length?_of_rule only word)

theorem Leads.run_of_intLiteral (h : m.Leads rest) (number : m.rule = .intLiteral) :
    IsRun Text.isDecimalDigit m.lexeme ∧
      ∀ c, rest.head? = some c → Text.isDecimalDigit c = false := by
  have only : ∀ rule ∈ rules, rule.name = .intLiteral → rule.pattern = .digits := by decide
  exact Pattern.run?_append_self_iff.1 (h.length?_of_rule only number)

theorem Leads.numeral_of_radix {radix : Radix} (h : m.Leads rest)
    (named : m.rule = radix.ruleName) :
    radix.IsNumeral m.lexeme ∧ ∀ c, rest.head? = some c → radix.isDigit c = false := by
  have only : ∀ rule ∈ rules, rule.name = radix.ruleName → rule.pattern = .radixNumeral radix := by
    cases radix <;> decide
  exact Pattern.length?_radixNumeral_append_self_iff.1 (h.length?_of_rule only named)

theorem Leads.rule_eq_identifier_iff (h : m.Leads rest) :
    m.rule = .identifier ↔ IsRun Char.isAlpha m.lexeme := by
  constructor
  · exact fun word => (h.run_of_identifier word).1
  · rintro ⟨not_empty, inside⟩
    obtain ⟨c, body, lexeme⟩ := List.exists_cons_of_ne_nil not_empty
    have letter := inside c (lexeme ▸ List.mem_cons_self)
    have opening := h.rule_mem_opening .letters (by rw [lexeme]; rfl) letter
    exact List.mem_singleton.1 opening

/-- A match that begins with a digit is a numeral of a radix or an integer. -/
theorem Leads.exists_radix_or_of_digit (h : m.Leads rest) {c : Char}
    (front : m.lexeme.head? = some c) (digit : Text.isDecimalDigit c = true) :
    (∃ radix : Radix, m.rule = radix.ruleName) ∨ m.rule = .intLiteral := by
  have opening := h.rule_mem_opening .digits front digit
  simp only [CharClass.digits, List.mem_cons, List.not_mem_nil, or_false] at opening
  rcases opening with binary | octal | hexadecimal | integer
  · exact .inl ⟨.binary, binary⟩
  · exact .inl ⟨.octal, octal⟩
  · exact .inl ⟨.hexadecimal, hexadecimal⟩
  · exact .inr integer

theorem Leads.rule_eq_intLiteral_iff (h : m.Leads rest) :
    m.rule = .intLiteral ↔ IsRun Text.isDecimalDigit m.lexeme := by
  constructor
  · exact fun number => (h.run_of_intLiteral number).1
  · intro run
    obtain ⟨c, body, lexeme⟩ := List.exists_cons_of_ne_nil run.1
    have digit := run.2 c (lexeme ▸ List.mem_cons_self)
    rcases h.exists_radix_or_of_digit (by rw [lexeme]; rfl) digit with ⟨radix, named⟩ | integer
    · exact absurd run (h.numeral_of_radix named).1.not_isRun
    · exact integer

theorem Leads.rule_eq_ruleName_iff (h : m.Leads rest) (radix : Radix) :
    m.rule = radix.ruleName ↔ radix.IsNumeral m.lexeme := by
  constructor
  · exact fun named => (h.numeral_of_radix named).1
  · intro numeral
    have front : m.lexeme.head? = some '0' := by
      obtain ⟨letter, digits, -, lexeme, -⟩ := numeral
      rw [lexeme]
      rfl
    rcases h.exists_radix_or_of_digit front (by decide) with ⟨radix', named⟩ | integer
    · rw [numeral.radix_unique (h.numeral_of_radix named).1]
      exact named
    · exact absurd (h.run_of_intLiteral integer).1 numeral.not_isRun

/-- No numeral of a radix begins where an integer does, for the rules for them come first. -/
theorem Leads.numeral_not_prefix (h : m.Leads rest) (number : m.rule = .intLiteral)
    {radix : Radix} {numeral : Text} (isNumeral : radix.IsNumeral numeral) :
    ¬ numeral <+: m.lexeme ++ rest := by
  rintro ⟨left, eq⟩
  obtain ⟨hit, taken, name, -⟩ := h
  have earlier : ∀ entry ∈ rules.zipIdx, entry.1.name = .intLiteral → ∃ entry' ∈ rules.zipIdx,
      entry'.1.pattern = .radixNumeral radix ∧ entry'.2 < entry.2 := by
    cases radix <;> decide
  obtain ⟨⟨rule, index⟩, entry, pattern, before⟩ := earlier (hit.rule, hit.index)
    (List.mem_zipIdx_iff_getElem?.2 (firstHit?_eq_some taken).1) (name.trans number)
  obtain ⟨n, applies⟩ := isNumeral.exists_length? left
  have missed := firstHit?_none_before taken (List.mem_zipIdx_iff_getElem?.1 entry) before
  rw [pattern, ← eq, applies] at missed
  cases missed

end Match

def IsReserved (word : Text) : Prop := ∃ category, (word, category) ∈ keywords

theorem keyword?_eq_some_iff {word : Text} {category : Category} :
    keyword? word = some category ↔ (word, category) ∈ keywords := by
  constructor
  · exact mem_of_lookup_eq_some
  · have table : ∀ entry ∈ keywords, keyword? entry.1 = some entry.2 := by decide
    exact table (word, category)

namespace RuleName

variable {rule : RuleName} {lexeme : Text}

theorem tokenCategory?_eq_radix_iff (radix : Radix) :
    rule.tokenCategory? lexeme = some radix.category ↔ rule = radix.ruleName := by
  have word : wordCategory lexeme ≠ radix.category := by
    cases radix <;> exact wordCategory_ne (by decide) (by decide) lexeme
  cases rule with
  | identifier => cases radix <;> simpa [tokenCategory?, Radix.ruleName] using word
  | _ => cases radix <;> simp [tokenCategory?, category?, Radix.ruleName, Radix.category]

theorem tokenCategory?_eq_intLiteral_iff :
    rule.tokenCategory? lexeme = some .intLiteral ↔ rule = .intLiteral := by
  have word := wordCategory_ne (by decide : Category.intLiteral ≠ .identifier) (by decide) lexeme
  cases rule with
  | identifier => simpa [tokenCategory?] using word
  | _ => simp [tokenCategory?, category?]

theorem isWord_wordCategory (word : Text) : (wordCategory word).isWord = true := by
  unfold wordCategory
  cases found : keyword? word with
  | none => rfl
  | some reserved =>
    have words : ∀ entry ∈ keywords, entry.2.isWord = true := by decide
    exact words (word, reserved) (keyword?_eq_some_iff.1 found)

theorem isWord_iff_of_tokenCategory? {category : Category}
    (made : rule.tokenCategory? lexeme = some category) :
    category.isWord = true ↔ rule = .identifier := by
  constructor
  · intro is_word
    have others : ∀ rule ∈ all, ∀ category ∈ rule.category?, category.isWord = false := by decide
    rcases of_tokenCategory? made with ⟨word, -⟩ | ⟨-, rfl⟩ | ⟨-, rfl⟩ | fixed
    · exact word
    · cases is_word
    · cases is_word
    · rw [others rule (mem_all rule) category fixed] at is_word
      cases is_word
  · rintro rfl
    obtain rfl := Option.some.inj made
    exact isWord_wordCategory lexeme

end RuleName

namespace Token

def Shows (token : Token) (property : Text → Prop) : Prop :=
  ∃ lexeme, token.lexeme = some lexeme ∧ property lexeme

/-- The lexeme stands at the offset, and it is all there is of a word, a numeral or an integer. -/
structure IsMaximalAt (token : Token) (source lexeme : Text) (offset : Nat) : Prop where
  place : token.location.offset = offset
  begins : lexeme <+: source.drop offset
  word : token.category.isWord = true →
    EndsAt source Char.isAlpha (offset + lexeme.length) ∧
      StartsAt source Char.isAlpha [.base16, .falseLiteral] offset
  numeral : ∀ radix : Radix, token.category = radix.category →
    EndsAt source radix.isDigit (offset + lexeme.length)
  integer : token.category = .intLiteral →
    EndsAt source Text.isDecimalDigit (offset + lexeme.length) ∧
      StartsAt source Text.isDecimalDigit [.base2, .base8, .base16] offset ∧
      ∀ (radix : Radix) (numeral : Text), radix.IsNumeral numeral →
        ¬ numeral <+: source.drop offset

namespace IsOf

variable {token : Token} {source : Text} {m : Match}

theorem exists_leads (h : token.IsOf source m) : ∃ rest, m.Leads rest :=
  (scans_scan source).leads_of_mem h.mem

theorem shows_iff (h : token.IsOf source m) {property : Text → Prop} :
    token.Shows property ↔ property m.lexeme := by
  simp [Shows, h.lexeme]

theorem isWord_iff (h : token.IsOf source m) :
    token.category.isWord = true ↔ IsRun Char.isAlpha m.lexeme := by
  obtain ⟨rest, leads⟩ := h.exists_leads
  rw [RuleName.isWord_iff_of_tokenCategory? h.made, leads.rule_eq_identifier_iff]

theorem radix_iff (h : token.IsOf source m) (radix : Radix) :
    token.category = radix.category ↔ radix.IsNumeral m.lexeme := by
  obtain ⟨rest, leads⟩ := h.exists_leads
  rw [← leads.rule_eq_ruleName_iff, ← RuleName.tokenCategory?_eq_radix_iff, h.made,
    Option.some.injEq]

theorem intLiteral_iff (h : token.IsOf source m) :
    token.category = .intLiteral ↔ IsRun Text.isDecimalDigit m.lexeme := by
  obtain ⟨rest, leads⟩ := h.exists_leads
  rw [← leads.rule_eq_intLiteral_iff, ← RuleName.tokenCategory?_eq_intLiteral_iff, h.made,
    Option.some.injEq]

theorem category_of_isWord (h : token.IsOf source m) (word : IsRun Char.isAlpha m.lexeme) :
    token.category = wordCategory m.lexeme := by
  obtain ⟨rest, leads⟩ := h.exists_leads
  have made := h.made
  rw [leads.rule_eq_identifier_iff.2 word] at made
  exact (Option.some.inj made).symm

theorem isKeyword_iff (h : token.IsOf source m) :
    token.isKeyword = true ↔ IsReserved m.lexeme := by
  unfold Token.isKeyword
  rw [h.lexeme, Option.bind_some]
  constructor
  · intro keyword
    cases found : keyword? m.lexeme with
    | none =>
      rw [found] at keyword
      cases keyword
    | some category => exact ⟨category, keyword?_eq_some_iff.1 found⟩
  · rintro ⟨category, mem⟩
    have words : ∀ entry ∈ keywords, entry.1 ≠ [] ∧ entry.1.all Char.isAlpha = true := by decide
    have run : IsRun Char.isAlpha m.lexeme := (words _ mem).imp_right List.all_eq_true.1
    have found := keyword?_eq_some_iff.2 mem
    rw [found]
    simp [h.category_of_isWord run, wordCategory, found]

theorem isMaximalAt (h : token.IsOf source m) : token.IsMaximalAt source m.lexeme m.offset := by
  obtain ⟨rest, within, leads⟩ := exists_rest_of_mem_scan h.mem
  refine ⟨h.offset, within ▸ List.prefix_append _ rest, ?_, ?_, ?_⟩
  · intro word
    have run := h.isWord_iff.1 word
    have next := (leads.run_of_identifier (leads.rule_eq_identifier_iff.2 run)).2
    exact ⟨endsAt_of_next within next, startsAt_of_mem_scan h.mem .letters run⟩
  · intro radix named
    have numeral := (h.radix_iff radix).1 named
    have next := (leads.numeral_of_radix ((leads.rule_eq_ruleName_iff radix).2 numeral)).2
    exact endsAt_of_next within next
  · intro number
    have run := h.intLiteral_iff.1 number
    have named := leads.rule_eq_intLiteral_iff.2 run
    have next := (leads.run_of_intLiteral named).2
    refine ⟨endsAt_of_next within next, startsAt_of_mem_scan h.mem .digits run, ?_⟩
    intro radix numeral isNumeral
    rw [within]
    exact leads.numeral_not_prefix named isNumeral

end IsOf

section EndOfFile

variable {token : Token}

theorem not_shows (no_lexeme : token.lexeme = none) (property : Text → Prop) :
    ¬ token.Shows property := by
  rintro ⟨lexeme, shown, -⟩
  rw [no_lexeme] at shown
  cases shown

theorem isKeyword_of_none (no_lexeme : token.lexeme = none) : token.isKeyword = false := by
  rw [isKeyword, no_lexeme]
  rfl

end EndOfFile

end Token

/-- Words and reserved words are the runs of letters, and the table of reserved words gives them
their categories. Numerals of a radix and integers are known by their lexemes as well. None of them
could be longer: what goes on behind them is something else, and what stands before a word or an
integer is no letter or digit, unless it is the end of a numeral or a false literal. -/
theorem words_and_numbers_are_maximal (source filename : Text) :
    ∃ tokens, tokenize source filename = .ok tokens ∧ ∀ token ∈ tokens,
      (token.category.isWord = true ↔ token.Shows (IsRun Char.isAlpha)) ∧
      (token.isKeyword = true ↔ token.Shows IsReserved) ∧
      (∀ radix : Radix, token.category = radix.category ↔ token.Shows radix.IsNumeral) ∧
      (token.category = .intLiteral ↔ token.Shows (IsRun Text.isDecimalDigit)) ∧
      ∀ lexeme, token.lexeme = some lexeme →
        (token.category.isWord = true → token.category = wordCategory lexeme) ∧
        ∃ offset, token.IsMaximalAt source lexeme offset := by
  refine ⟨_, tokenize_eq source filename, ?_⟩
  intro token mem
  rcases exists_isOf_or_of_mem_stream mem with ⟨m, made⟩ | ⟨no_lexeme, is_end⟩
  · refine ⟨made.isWord_iff.trans made.shows_iff.symm, made.isKeyword_iff.trans made.shows_iff.symm,
      fun radix => (made.radix_iff radix).trans made.shows_iff.symm,
      made.intLiteral_iff.trans made.shows_iff.symm, ?_⟩
    intro lexeme shown
    obtain rfl : m.lexeme = lexeme := Option.some.inj (made.lexeme.symm.trans shown)
    exact ⟨fun word => made.category_of_isWord (made.isWord_iff.1 word), _, made.isMaximalAt⟩
  · -- the end-of-file token shows no lexeme and has none of the categories
    have shows_none := Token.not_shows no_lexeme
    have no_radix : ∀ radix : Radix, token.category ≠ radix.category := by
      intro radix
      rw [is_end]
      cases radix <;> decide
    refine ⟨iff_of_false ?_ (shows_none _), iff_of_false ?_ (shows_none _),
      fun radix => iff_of_false (no_radix radix) (shows_none _), iff_of_false ?_ (shows_none _), ?_⟩
    · rw [is_end]
      decide
    · rw [Token.isKeyword_of_none no_lexeme]
      decide
    · rw [is_end]
      decide
    · intro lexeme shown
      rw [no_lexeme] at shown
      cases shown

/-- Where a run is cut in two, the second part begins behind a numeral or a false literal. -/
example : ((scan "0xFg0b12#fif".toList).map fun m => (m.rule, m.lexeme)) =
    [(.base16, "0xF".toList), (.identifier, ['g']), (.base2, "0b1".toList), (.intLiteral, ['2']),
      (.falseLiteral, "#f".toList), (.identifier, "if".toList)] := by
  decide +kernel

end PriorityLexer
