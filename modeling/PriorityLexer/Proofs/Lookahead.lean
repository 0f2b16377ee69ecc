import PriorityLexer.Proofs.Continuation
import PriorityLexer.Proofs.Lossless

namespace PriorityLexer

/-- The first two characters of a text, or fewer if its first line ends before. -/
def ahead (text : Text) : Text := (text.takeWhile fun c => c != '\n').take 2

section Ahead

variable {text rest rest' word : Text}

theorem ahead_cons (c : Char) (text : Text) :
    ahead (c :: text) = if c = '\n' then [] else c :: (ahead text).take 1 := by
  unfold ahead
  by_cases newline : c = '\n'
  · simp [newline]
  · simp [newline, List.take_take]

/-- What is visible in front of a text is all that a word in front of it can make visible. -/
theorem ahead_append_congr (word : Text) (same : ahead rest = ahead rest') :
    ahead (word ++ rest) = ahead (word ++ rest') := by
  induction word with
  | nil => exact same
  | cons c word ih => rw [List.cons_append, List.cons_append, ahead_cons, ahead_cons, ih]

theorem ahead_append_of_two_le (two : 2 ≤ text.length) (rest : Text) :
    ahead (text ++ rest) = ahead text := by
  match text, two with
  | c :: d :: text, _ =>
    rw [List.cons_append, List.cons_append, ahead_cons, ahead_cons, ahead_cons, ahead_cons]
    by_cases newline : d = '\n'
    · simp [newline]
    · simp [newline]

theorem prefix_ahead_iff (short : word.length ≤ 2) (oneLine : '\n' ∉ word) :
    word <+: ahead text ↔ word <+: text := by
  constructor
  · intro visible
    exact (visible.trans (List.take_prefix _ _)).trans (List.takeWhile_prefix _)
  · rintro ⟨rest, rfl⟩
    have inside : ∀ c ∈ word, (c != '\n') = true := by
      intro c mem
      rw [bne_iff_ne]
      rintro rfl
      exact oneLine mem
    rw [ahead, List.takeWhile_append_of_pos inside, List.prefix_take_iff]
    exact ⟨List.prefix_append word _, short⟩

theorem prefix_of_ahead_eq (same : ahead rest = ahead rest') (short : word.length ≤ 2)
    (oneLine : '\n' ∉ word) (front : word <+: rest') : word <+: rest := by
  rwa [← prefix_ahead_iff short oneLine, ← same, prefix_ahead_iff short oneLine] at front

theorem head?_of_ahead_eq (same : ahead rest = ahead rest') {c : Char} (inLine : c ≠ '\n')
    (front : rest'.head? = some c) : rest.head? = some c := by
  obtain ⟨left, rfl⟩ := List.head?_eq_some_iff.1 front
  obtain ⟨left', rfl⟩ :=
    prefix_of_ahead_eq same (by simp) (by simpa using inLine.symm) (List.prefix_append [c] left)
  rfl

end Ahead

namespace Pattern

/-- The pattern asks for at most two more characters of the line behind its first one, apart from
runs. Block comments and strings look for their end as far as the text goes. -/
def isNear : Pattern → Bool
  | literal _ rest => rest.length ≤ 2 && !rest.contains '\n'
  | blockComment => false
  | quoted _ => false
  | _ => true

theorem exists_run?_cons {member : Char → Bool} {c : Char} {rest' : Text} {n : Nat}
    (h : run? member (c :: rest') = some n) (rest : Text) :
    ∃ k, run? member (c :: rest) = some k := by
  obtain ⟨d, front, is_member⟩ := exists_run?_iff.1 ⟨n, h⟩
  exact exists_run?_iff.2 ⟨d, front, is_member⟩

theorem exists_length?_of_ahead_eq {pattern : Pattern} {rest rest' : Text} {n : Nat} {c : Char}
    (near : pattern.isNear = true) (same : ahead rest = ahead rest')
    (h : pattern.length? (c :: rest') = some n) : ∃ k, pattern.length? (c :: rest) = some k := by
  cases pattern with
  | literal first word =>
    obtain ⟨⟨left, eq⟩, -⟩ := length?_literal_eq_some_iff.1 h
    obtain ⟨rfl, rfl⟩ := List.cons.inj eq
    simp only [isNear, Bool.and_eq_true, decide_eq_true_eq, Bool.not_eq_true', List.contains_eq_mem,
      decide_eq_false_iff_not] at near
    obtain ⟨left, rfl⟩ := prefix_of_ahead_eq same near.1 near.2 (List.prefix_append word left)
    exact ⟨_, length?_literal_eq_some_iff.2 ⟨⟨left, rfl⟩, rfl⟩⟩
  | lineComment =>
    obtain ⟨left, eq, -⟩ := length?_lineComment_eq_some_iff.1 h
    obtain ⟨rfl, rfl⟩ := List.cons.inj eq
    obtain ⟨left, rfl⟩ :=
      prefix_of_ahead_eq same (by simp) (by decide) (List.prefix_append ['/'] left)
    exact ⟨_, length?_lineComment_eq_some_iff.2 ⟨left, rfl, rfl⟩⟩
  | blockComment => cases near
  | radixNumeral radix =>
    obtain ⟨letter, left, k, isLetter, eq, digits, -⟩ := length?_radixNumeral_eq_some_iff.1 h
    obtain ⟨rfl, rfl⟩ := List.cons.inj eq
    obtain ⟨digit, front, is_digit⟩ := exists_run?_iff.1 ⟨k, digits⟩
    obtain ⟨left, rfl⟩ := List.head?_eq_some_iff.1 front
    -- the letter and the first digit are the two characters in sight
    have oneLine : '\n' ∉ [letter, digit] := by
      simp only [List.mem_cons, List.not_mem_nil, or_false, not_or]
      constructor
      · rcases isLetter with rfl | rfl <;> cases radix <;> decide
      · rintro rfl
        exact absurd (Radix.not_isBlank_of_isDigit is_digit) (by decide)
    obtain ⟨left', rfl⟩ :=
      prefix_of_ahead_eq same (by simp) oneLine (List.prefix_append [letter, digit] left)
    obtain ⟨k', digits'⟩ := exists_run?_cons digits left'
    exact ⟨_, length?_radixNumeral_eq_some_iff.2
      ⟨letter, digit :: left', k', isLetter, rfl, digits', rfl⟩⟩
  | digits => exact exists_run?_cons h rest
  | quoted quote => cases near
  | letters => exact exists_run?_cons h rest
  | blank => exact ⟨n, length?_blank_eq_some_iff.2 (length?_blank_eq_some_iff.1 h)⟩
  | anything => exact ⟨1, rfl⟩

end Pattern

/-- Text further on can still reach back to the match, where `rest` follows it. -/
def Match.IsOpen (m : Match) (rest : Text) : Prop :=
  (m.rule = .other ∧ (m.lexeme = ['"'] ∨ m.lexeme = ['\''])) ∨
    (m.rule = .division ∧ rest.head? = some '*') ∨
    (m.rule = .string ∧ backslashRun m.lexeme.tail.dropLast % 2 = 1)

instance (m : Match) (rest : Text) : Decidable (m.IsOpen rest) :=
  inferInstanceAs (Decidable (_ ∨ _ ∨ _))

theorem candidates_slash :
    candidates '/' = [(⟨.comment, .blockComment⟩, 1), (⟨.comment, .lineComment⟩, 2),
      (⟨.division, .literal '/' []⟩, 19), (⟨.other, .anything⟩, 41)] := by
  decide

/-- Apart from those for block comments and strings the rules look only at what is near. -/
theorem isNear_or_of_mem_rules {rule : Rule} (mem : rule ∈ rules) :
    rule.pattern.isNear = true ∨ rule = ⟨.comment, .blockComment⟩ ∨
      ∃ quote, (quote = '"' ∨ quote = '\'') ∧ rule = stringRule quote := by
  have table : ∀ rule ∈ rules, rule.pattern.isNear = true ∨ rule = ⟨.comment, .blockComment⟩ ∨
      rule = stringRule '"' ∨ rule = stringRule '\'' := by decide
  rcases table rule mem with near | comment | double | single
  · exact .inl near
  · exact .inr (.inl comment)
  · exact .inr (.inr ⟨'"', .inl rfl, double⟩)
  · exact .inr (.inr ⟨'\'', .inr rfl, single⟩)

namespace Match

variable {m : Match} {rest rest' : Text}

theorem Leads.isOpen_of_comment (h : m.Leads rest) {left : Text}
    (text_eq : m.lexeme ++ rest = '/' :: '*' :: left)
    (missed : Pattern.blockComment.length? (m.lexeme ++ rest) = none) : m.IsOpen rest := by
  obtain ⟨hit, taken, name, extent⟩ := h
  rw [text_eq] at taken missed
  rw [headHit?_cons, candidates_slash] at taken
  simp only [List.findSome?_cons, missed] at taken
  obtain rfl : hit = ⟨19, ⟨.division, .literal '/' []⟩, 1⟩ := (Option.some.inj taken).symm
  obtain ⟨c, lexeme⟩ := List.length_eq_one_iff.1 extent.symm
  rw [lexeme] at text_eq
  obtain ⟨-, rfl⟩ := List.cons.inj text_eq
  exact .inr (.inl ⟨name.symm, rfl⟩)

theorem Leads.isOpen_of_quote (h : m.Leads rest) {quote : Char} {left : Text}
    (isQuote : quote = '"' ∨ quote = '\'') (text_eq : m.lexeme ++ rest = quote :: left)
    (missed : (Pattern.quoted quote).length? (m.lexeme ++ rest) = none) : m.IsOpen rest := by
  obtain ⟨hit, taken, name, extent⟩ := h
  rw [text_eq] at taken missed
  rw [headHit?_cons, candidates_quote isQuote] at taken
  simp only [List.findSome?_cons, stringRule, missed] at taken
  obtain rfl : hit = ⟨_, catchAll, 1⟩ := (Option.some.inj taken).symm
  obtain ⟨c, lexeme⟩ := List.length_eq_one_iff.1 extent.symm
  rw [lexeme] at text_eq
  obtain ⟨rfl, -⟩ := List.cons.inj text_eq
  refine .inl ⟨name.symm, ?_⟩
  rw [lexeme]
  rcases isQuote with rfl | rfl
  · exact .inl rfl
  · exact .inr rfl

theorem not_escapesNext_of_not_isOpen (closed : ¬ m.IsOpen rest) (string : m.rule = .string)
    {quote : Char} {body : Text} (lexeme : m.lexeme = quote :: body) :
    escapesNext body.dropLast = false := by
  apply Bool.eq_false_iff.2
  intro escaped
  apply closed
  refine .inr (.inr ⟨string, ?_⟩)
  rw [lexeme]
  simpa [escapesNext] using escaped

/-- A rule that misses in front of a match that is not open still misses where the same can be seen
behind the match. -/
theorem Leads.miss_of_ahead_eq (h : m.Leads rest) (closed : ¬ m.IsOpen rest)
    (same : ahead rest = ahead rest') {rule : Rule} (mem : rule ∈ rules)
    (miss : rule.pattern.length? (m.lexeme ++ rest) = none) :
    rule.pattern.length? (m.lexeme ++ rest') = none := by
  obtain ⟨c, lexeme, eq⟩ := List.exists_cons_of_ne_nil h.lexeme_ne_nil
  have text_eq : m.lexeme ++ rest = c :: (lexeme ++ rest) := by rw [eq, List.cons_append]
  have behind : ahead (lexeme ++ rest) = ahead (lexeme ++ rest') := ahead_append_congr lexeme same
  apply Option.eq_none_iff_forall_ne_some.2
  intro n found
  rw [eq, List.cons_append] at found
  rcases isNear_or_of_mem_rules mem with near | rfl | ⟨quote, isQuote, rfl⟩
  · obtain ⟨k, before⟩ := Pattern.exists_length?_of_ahead_eq near behind found
    rw [text_eq, before] at miss
    cases miss
  · obtain ⟨left, k, slash, -⟩ := Pattern.length?_blockComment_eq_some_iff.1 found
    obtain ⟨rfl, star⟩ := List.cons.inj slash
    have front : (lexeme ++ rest').head? = some '*' := by rw [star, List.head?_cons]
    obtain ⟨left', star'⟩ := List.head?_eq_some_iff.1 (head?_of_ahead_eq behind (by decide) front)
    exact closed (h.isOpen_of_comment (text_eq.trans (by rw [star'])) miss)
  · obtain ⟨left, k, opens, -⟩ := Pattern.length?_quoted_eq_some_iff.1 found
    obtain ⟨rfl, -⟩ := List.cons.inj opens
    exact closed (h.isOpen_of_quote isQuote text_eq miss)

theorem length?_of_ahead_eq (closed : ¬ m.IsOpen rest) (same : ahead rest = ahead rest')
    {rule : Rule} (mem : rule ∈ rules) (name : rule.name = m.rule)
    (applies : rule.pattern.length? (m.lexeme ++ rest) = some m.lexeme.length) :
    rule.pattern.length? (m.lexeme ++ rest') = some m.lexeme.length := by
  apply Pattern.length?_append applies
  · intro c visible front
    apply head?_of_ahead_eq same _ front
    rintro rfl
    exact absurd visible (by decide)
  · intro is_line c front
    rw [is_line] at applies
    obtain ⟨body, -, -, lineEnd⟩ := Pattern.length?_lineComment_append_self_iff.1 applies
    by_contra inLine
    exact inLine (lineEnd c (head?_of_ahead_eq same inLine front))
  · intro quote body is_quoted lexeme ends
    have string : m.rule = .string := by
      rcases isNear_or_of_mem_rules mem with near | rfl | ⟨q, -, rfl⟩
      · rw [is_quoted] at near
        cases near
      · cases is_quoted
      · exact name.symm
    rw [← escapesNext_nil] at ends ⊢
    apply Pattern.closing?_append ends
    intro escaped
    rw [List.nil_append, not_escapesNext_of_not_isOpen closed string lexeme] at escaped
    cases escaped

/-- The first match of a text stays the first match where the same can be seen behind it, unless it
is open. -/
theorem Leads.of_ahead_eq (h : m.Leads rest) (closed : ¬ m.IsOpen rest)
    (same : ahead rest = ahead rest') : m.Leads rest' := by
  obtain ⟨hit, taken, name, extent⟩ := id h
  have mem := headHit?_rule_mem taken
  have applies : hit.rule.pattern.length? (m.lexeme ++ rest) = some m.lexeme.length :=
    extent ▸ (firstHit?_eq_some taken).2
  refine ⟨hit, firstHit?_of_misses taken ?_ ?_, name, extent⟩
  · exact fun rule rule_mem miss => h.miss_of_ahead_eq closed same rule_mem miss
  · rw [extent]
    exact length?_of_ahead_eq closed same mem name applies

end Match

/-- Behind matches that are not open the text can be exchanged for one that begins alike. -/
theorem Scans.exchange {source rest rest' : Text} {before after after' : List Match} {offset : Nat}
    (h : Scans offset (covered before ++ rest) (before ++ after))
    (within : source.drop offset = covered before ++ rest)
    (closed : ∀ m ∈ before, ¬ m.IsOpen (source.drop m.stop))
    (same : before ≠ [] → ahead rest = ahead rest')
    (further : Scans (offset + (covered before).length) rest' after') :
    Scans offset (covered before ++ rest') (before ++ after') := by
  induction before generalizing offset with
  | nil => exact further
  | cons m before ih =>
    obtain ⟨rfl, left, eq, leads, scans⟩ := h.of_cons
    rw [covered_cons, List.append_assoc] at eq within ⊢
    obtain rfl := List.append_cancel_left eq
    have passed := Match.drop_stop within
    have begins : ahead rest = ahead rest' := same (List.cons_ne_nil m before)
    have closed_here := closed m List.mem_cons_self
    rw [passed] at closed_here
    have leads' := leads.of_ahead_eq closed_here (ahead_append_congr (covered before) begins)
    refine .cons leads' (ih scans passed ?_ (fun _ => begins) ?_)
    · exact fun m' mem => closed m' (List.mem_cons_of_mem m mem)
    · simpa [Match.stop, Nat.add_assoc] using further

end PriorityLexer
