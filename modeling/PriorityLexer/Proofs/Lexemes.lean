import PriorityLexer.Proofs.Partition

namespace PriorityLexer

def IsRun (member : Char → Bool) (word : Text) : Prop := word ≠ [] ∧ ∀ c ∈ word, member c = true

/-- A zero, the letter of the radix, and a run of its digits. -/
def Radix.IsNumeral (radix : Radix) (numeral : Text) : Prop :=
  ∃ letter digits, (letter = radix.letter ∨ letter = radix.letter.toUpper) ∧
    numeral = '0' :: letter :: digits ∧ IsRun radix.isDigit digits

namespace Pattern

/-- The characters that can stand in a match of the pattern. -/
def takes : Pattern → Char → Bool
  | literal first rest, c => (first :: rest).contains c
  | lineComment, c => c != '\n'
  | blockComment, _ => true
  | radixNumeral radix, c =>
    c == '0' || c == radix.letter || c == radix.letter.toUpper || radix.isDigit c
  | digits, c => Text.isDecimalDigit c
  | quoted _, _ => true
  | letters, c => c.isAlpha
  | blank, c => Text.isBlank c
  | anything, _ => true

variable {text : Text} {n : Nat} {c : Char}

theorem length?_literal_eq_some_iff {first : Char} {rest : Text} :
    (literal first rest).length? text = some n ↔ first :: rest <+: text ∧ n = rest.length + 1 := by
  simp only [length?, Option.ite_none_right_eq_some, Option.some.injEq, List.isPrefixOf_iff_prefix,
    eq_comm (a := n)]

theorem length?_lineComment_eq_some_iff :
    lineComment.length? text = some n ↔
      ∃ rest, text = '/' :: '/' :: rest ∧ n = (rest.takeWhile fun c => c != '\n').length + 2 := by
  simp only [length?, Option.ite_none_right_eq_some, Option.some.injEq, List.isPrefixOf_iff_prefix]
  constructor
  · rintro ⟨⟨rest, rfl⟩, rfl⟩
    exact ⟨rest, rfl, rfl⟩
  · rintro ⟨rest, rfl, rfl⟩
    exact ⟨⟨rest, rfl⟩, rfl⟩

theorem length?_lineComment_append_iff {body rest : Text} :
    lineComment.length? ('/' :: '/' :: (body ++ rest)) = some (body.length + 2) ↔
      '\n' ∉ body ∧ ∀ c, rest.head? = some c → c = '\n' := by
  have whole : lineComment.length? ('/' :: '/' :: (body ++ rest)) = some (body.length + 2) ↔
      ((body ++ rest).takeWhile fun c => c != '\n').length = body.length := by
    simp [length?]
  rw [whole]
  constructor
  · intro length
    have front := List.takeWhile_prefix (fun c => c != '\n') (l := body ++ rest)
    have covers : (body ++ rest).takeWhile (fun c => c != '\n') = body := by
      rw [List.prefix_iff_eq_take.1 front, length, List.take_left]
    have inside : ∀ c ∈ body, (c != '\n') = true := by
      intro c mem
      rw [← covers] at mem
      exact List.all_eq_true.1 List.all_takeWhile c mem
    refine ⟨fun mem => absurd (inside '\n' mem) (by decide), ?_⟩
    intro c head
    obtain ⟨rest, rfl⟩ := List.head?_eq_some_iff.1 head
    rw [List.takeWhile_append_of_pos inside, List.append_right_eq_self] at covers
    by_contra other
    rw [List.takeWhile_cons_of_pos (by simpa using other)] at covers
    cases covers
  · rintro ⟨absent, lineEnd⟩
    have inside : ∀ c ∈ body, (c != '\n') = true := by
      intro c mem
      rw [bne_iff_ne]
      rintro rfl
      exact absent mem
    rw [List.takeWhile_append_of_pos inside]
    cases rest with
    | nil => simp
    | cons c rest => simp [lineEnd c rfl]

theorem length?_blockComment_eq_some_iff :
    blockComment.length? text = some n ↔
      ∃ rest k, text = '/' :: '*' :: rest ∧ commentEnd? rest = some k ∧ n = k + 2 := by
  simp only [length?, Option.ite_none_right_eq_some, Option.map_eq_some_iff,
    List.isPrefixOf_iff_prefix]
  constructor
  · rintro ⟨⟨rest, rfl⟩, k, ends, rfl⟩
    exact ⟨rest, k, rfl, ends, rfl⟩
  · rintro ⟨rest, k, rfl, ends, rfl⟩
    exact ⟨⟨rest, rfl⟩, k, ends, rfl⟩

theorem length?_radixNumeral_eq_some_iff {radix : Radix} :
    (radixNumeral radix).length? text = some n ↔
      ∃ letter rest k, (letter = radix.letter ∨ letter = radix.letter.toUpper) ∧
        text = '0' :: letter :: rest ∧ run? radix.isDigit rest = some k ∧ n = k + 2 := by
  simp only [length?, Option.ite_none_right_eq_some, Option.map_eq_some_iff, List.any_cons,
    List.any_nil, Bool.or_false, Bool.or_eq_true, List.isPrefixOf_iff_prefix]
  constructor
  · rintro ⟨⟨rest, rfl⟩ | ⟨rest, rfl⟩, k, digits, rfl⟩
    · exact ⟨_, rest, k, .inl rfl, rfl, digits, rfl⟩
    · exact ⟨_, rest, k, .inr rfl, rfl, digits, rfl⟩
  · rintro ⟨letter, rest, k, rfl | rfl, rfl, digits, rfl⟩
    · exact ⟨.inl ⟨rest, rfl⟩, k, digits, rfl⟩
    · exact ⟨.inr ⟨rest, rfl⟩, k, digits, rfl⟩

theorem length?_quoted_eq_some_iff {quote : Char} :
    (quoted quote).length? text = some n ↔
      ∃ rest k, text = quote :: rest ∧ closing? quote false rest = some k ∧ n = k + 1 := by
  simp only [length?, Option.ite_none_right_eq_some, Option.map_eq_some_iff,
    List.isPrefixOf_iff_prefix]
  constructor
  · rintro ⟨⟨rest, rfl⟩, k, closes, rfl⟩
    exact ⟨rest, k, rfl, closes, rfl⟩
  · rintro ⟨rest, k, rfl, closes, rfl⟩
    exact ⟨⟨rest, rfl⟩, k, closes, rfl⟩

theorem length?_blank_eq_some_iff :
    blank.length? text = some n ↔ text.head?.any Text.isBlank = true ∧ n = 1 := by
  simp only [length?, Option.ite_none_right_eq_some, Option.some.injEq, eq_comm (a := n)]

theorem length?_anything_eq_some_iff :
    anything.length? text = some n ↔ text ≠ [] ∧ n = 1 := by
  simp only [length?, Option.ite_none_left_eq_some, Option.some.injEq, List.isEmpty_iff, ne_eq,
    eq_comm (a := n)]

theorem run?_eq_some_iff {member : Char → Bool} :
    run? member text = some n ↔ 0 < n ∧ (text.takeWhile member).length = n := by
  unfold run?
  split
  · rename_i none_taken
    rw [none_taken]
    constructor
    · intro h
      cases h
    · rintro ⟨positive, rfl⟩
      cases positive
  · rename_i taken
    rw [taken, Option.some.injEq]
    constructor
    · rintro rfl
      exact ⟨Nat.succ_pos _, rfl⟩
    · exact And.right

theorem exists_run?_iff {member : Char → Bool} :
    (∃ n, run? member text = some n) ↔ ∃ c, text.head? = some c ∧ member c = true := by
  cases text with
  | nil => simp [run?]
  | cons first rest =>
    cases is_member : member first with
    | false => simp [run?_cons_eq_none is_member, is_member]
    | true => simp [run?, is_member]

theorem member_of_run? {member : Char → Bool} (h : run? member text = some n)
    (mem : c ∈ text.take n) : member c = true := by
  obtain ⟨-, taken⟩ := run?_eq_some_iff.1 h
  have whole : text.take n = text.takeWhile member := by
    rw [← taken]
    exact (List.prefix_iff_eq_take.1 (List.takeWhile_prefix member)).symm
  exact List.all_eq_true.1 List.all_takeWhile c (whole ▸ mem)

theorem mem_take_add_two {a b : Char} {rest : Text} (mem : c ∈ (a :: b :: rest).take (n + 2)) :
    c = a ∨ c = b ∨ c ∈ rest.take n := by
  simpa using mem

theorem takes_of_mem {pattern : Pattern} (h : pattern.length? text = some n)
    (mem : c ∈ text.take n) : pattern.takes c = true := by
  cases pattern with
  | literal first rest =>
    obtain ⟨leads, rfl⟩ := length?_literal_eq_some_iff.1 h
    have whole : text.take (rest.length + 1) = first :: rest :=
      (List.prefix_iff_eq_take.1 leads).symm
    rw [whole] at mem
    simpa [takes] using mem
  | lineComment =>
    obtain ⟨rest, rfl, rfl⟩ := length?_lineComment_eq_some_iff.1 h
    rcases mem_take_add_two mem with rfl | rfl | further
    · rfl
    · rfl
    · rw [← List.prefix_iff_eq_take.1 (List.takeWhile_prefix _)] at further
      exact List.all_eq_true.1 List.all_takeWhile c further
  | radixNumeral radix =>
    obtain ⟨letter, rest, k, isLetter, rfl, digits, rfl⟩ := length?_radixNumeral_eq_some_iff.1 h
    simp only [takes, Bool.or_eq_true, beq_iff_eq]
    rcases mem_take_add_two mem with rfl | rfl | further
    · simp
    · rcases isLetter with lower | upper
      · simp [lower]
      · simp [upper]
    · exact .inr (member_of_run? digits further)
  | digits => exact member_of_run? h mem
  | letters => exact member_of_run? h mem
  | blank =>
    obtain ⟨is_blank, rfl⟩ := length?_blank_eq_some_iff.1 h
    cases text with
    | nil => cases is_blank
    | cons first rest =>
      obtain rfl : c = first := by simpa using mem
      exact is_blank
  | blockComment => rfl
  | quoted => rfl
  | anything => rfl

end Pattern

theorem candidates_newline :
    candidates '\n' = [(⟨.newline, .literal '\n' []⟩, 29), (⟨.whiteSpace, .blank⟩, 40),
      (⟨.other, .anything⟩, 41)] := by
  decide

theorem headHit?_newline (rest : Text) :
    headHit? rules ('\n' :: rest) = some ⟨29, ⟨.newline, .literal '\n' []⟩, 1⟩ := by
  rw [headHit?_cons, candidates_newline]
  rfl

theorem takes_newline {rule : Rule} (mem : rule ∈ rules) (takes : rule.pattern.takes '\n' = true) :
    rule = ⟨.newline, .literal '\n' []⟩ ∨ rule.name = .comment ∨ rule.name = .string ∨
      rule.pattern = .blank ∨ rule.pattern = .anything := by
  have table : ∀ rule ∈ rules, rule.pattern.takes '\n' = true →
      rule = ⟨.newline, .literal '\n' []⟩ ∨ rule.name = .comment ∨ rule.name = .string ∨
        rule.pattern = .blank ∨ rule.pattern = .anything := by decide
  exact table rule mem takes

namespace Match

variable {m : Match} {rest : Text}

theorem Leads.exists_rule (h : m.Leads rest) :
    ∃ rule ∈ rules, rule.name = m.rule ∧
      rule.pattern.length? (m.lexeme ++ rest) = some m.lexeme.length := by
  obtain ⟨hit, taken, name, extent⟩ := h
  exact ⟨hit.rule, headHit?_rule_mem taken, name, extent ▸ (firstHit?_eq_some taken).2⟩

theorem Leads.of_head_newline (h : m.Leads rest) (head : m.lexeme.head? = some '\n') :
    m.rule = .newline := by
  obtain ⟨hit, taken, name, -⟩ := h
  obtain ⟨left, lexeme⟩ := List.head?_eq_some_iff.1 head
  rw [lexeme, List.cons_append, headHit?_newline, Option.some.injEq] at taken
  rw [← name, ← taken]

theorem Leads.lexeme_of_newline (h : m.Leads rest) (newline : m.rule = .newline) :
    m.lexeme = ['\n'] := by
  obtain ⟨rule, mem, name, taken⟩ := h.exists_rule
  have table : ∀ rule ∈ rules, rule.name = .newline → rule.pattern = .literal '\n' [] := by decide
  rw [table rule mem (name.trans newline), Pattern.length?_literal_eq_some_iff] at taken
  obtain ⟨leads, length⟩ := taken
  have whole := List.prefix_iff_eq_take.1 leads
  rw [List.length_singleton, ← Nat.zero_add 1, ← List.length_nil, ← length, List.take_left] at whole
  exact whole.symm

theorem Leads.exists_lexeme_of_other (h : m.Leads rest) (other : m.rule = .other) :
    ∃ c, m.lexeme = [c] := by
  obtain ⟨rule, mem, name, taken⟩ := h.exists_rule
  have table : ∀ rule ∈ rules, rule.name = .other → rule.pattern = .anything := by decide
  rw [table rule mem (name.trans other)] at taken
  exact List.length_eq_one_iff.1 (Pattern.length?_anything_eq_some_iff.1 taken).2

/-- Outside of newline matches, comments and strings there is no newline. -/
theorem Leads.newline_not_mem (h : m.Leads rest) (not_newline : m.rule ≠ .newline)
    (not_comment : m.rule ≠ .comment) (not_string : m.rule ≠ .string) : '\n' ∉ m.lexeme := by
  intro mem
  obtain ⟨rule, rule_mem, name, taken⟩ := h.exists_rule
  have takes := Pattern.takes_of_mem taken (by rwa [List.take_left])
  -- a newline by itself is taken by the rule for newlines, which comes before the last two
  have single : m.lexeme.length ≠ 1 := by
    intro one
    obtain ⟨c, lexeme⟩ := List.length_eq_one_iff.1 one
    apply not_newline (h.of_head_newline _)
    rw [lexeme, List.mem_singleton] at mem
    rw [lexeme, ← mem]
    rfl
  rcases takes_newline rule_mem takes with rfl | comment | string | blank | anything
  · exact not_newline name.symm
  · exact not_comment (name.symm.trans comment)
  · exact not_string (name.symm.trans string)
  · rw [blank] at taken
    exact single ((Pattern.length?_blank_eq_some_iff.1 taken).2)
  · rw [anything] at taken
    exact single ((Pattern.length?_anything_eq_some_iff.1 taken).2)

end Match

end PriorityLexer
