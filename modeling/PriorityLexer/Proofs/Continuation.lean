import PriorityLexer.Proofs.CharacterClasses
import PriorityLexer.Proofs.Lexemes
import PriorityLexer.Proofs.StringEnds

namespace PriorityLexer.Pattern

variable {rest rest' body lexeme : Text} {n : Nat}

theorem commentEnd?_append (h : commentEnd? (body ++ rest) = some body.length) (rest' : Text) :
    commentEnd? (body ++ rest') = some body.length := by
  induction body with
  | nil =>
    have bounds := commentEnd?_bounds h
    exact absurd bounds.1 (Nat.lt_irrefl 0)
  | cons c body ih =>
    rw [List.cons_append, commentEnd?] at h ⊢
    cases body with
    | nil =>
      split at h
      · cases h
      · obtain ⟨n, further, one⟩ := Option.map_eq_some_iff.1 h
        have bounds := commentEnd?_bounds further
        simp only [List.length_singleton] at one
        omega
    | cons d body =>
      by_cases closes : c = '*' ∧ d = '/'
      · simpa [closes] using h
      · simp only [List.cons_append, List.head?_cons, Option.some.injEq, closes, if_false,
          Option.map_eq_some_iff] at h ⊢
        obtain ⟨n, further, length⟩ := h
        obtain rfl : n = (d :: body).length := Nat.succ_inj.1 length
        exact ⟨_, ih further, rfl⟩

/-- A string keeps its end if its closing quote is not escaped, and else if no quote turns up behind
it for the first time. -/
theorem closing?_append {quote : Char} {passed : Text}
    (h : closing? quote (escapesNext passed) (body ++ rest) = some body.length)
    (absent : escapesNext (passed ++ body.dropLast) = true → quote ∉ rest → quote ∉ rest') :
    closing? quote (escapesNext passed) (body ++ rest') = some body.length := by
  induction body generalizing passed with
  | nil =>
    have bounds := closing?_bounds h
    exact absurd bounds.1 (Nat.lt_irrefl 0)
  | cons c body ih =>
    rw [List.cons_append, closing?] at h ⊢
    by_cases closes : c = quote ∧ escapesNext passed = false
    · simpa [closes] using h
    · rw [if_neg closes, ← escapesNext_concat] at h ⊢
      cases further : closing? quote (escapesNext (passed ++ [c])) (body ++ rest) with
      | some n =>
        rw [further] at h
        obtain rfl : n = body.length := Nat.succ_inj.1 (Option.some.inj h)
        have positive := (closing?_bounds further).1
        rw [List.dropLast_cons_of_ne_nil (List.ne_nil_of_length_pos positive)] at absent
        rw [ih further (by simpa using absent)]
        rfl
      | none =>
        -- the quote in front is escaped and closes the string because no other one follows
        rw [further] at h
        by_cases same : c = quote
        · simp only [same, if_true, Option.some.injEq, List.length_cons] at h
          obtain rfl : body = [] := List.length_eq_zero_iff.1 (by omega)
          have escaped : escapesNext (passed ++ [c].dropLast) = true := by
            simpa [same] using closes
          have gone := absent escaped (closing?_eq_none_iff.1 further)
          simp [same, closing?_eq_none_iff.2 gone]
        · simp [same] at h

theorem run?_append_self_iff {member : Char → Bool} :
    run? member (body ++ rest) = some body.length ↔
      IsRun member body ∧ ∀ c, rest.head? = some c → member c = false := by
  constructor
  · intro h
    obtain ⟨positive, length⟩ := run?_eq_some_iff.1 h
    have inside : ∀ c ∈ body, member c = true := by
      intro c mem
      exact member_of_run? h (by rwa [List.take_left])
    refine ⟨⟨List.ne_nil_of_length_pos positive, inside⟩, ?_⟩
    intro c front
    obtain ⟨left, rfl⟩ := List.head?_eq_some_iff.1 front
    apply Bool.eq_false_iff.2
    intro is_member
    rw [List.takeWhile_append_of_pos inside, List.length_append,
      List.takeWhile_cons_of_pos is_member, List.length_cons] at length
    omega
  · rintro ⟨⟨not_empty, inside⟩, next⟩
    have stops : rest.takeWhile member = [] := by
      cases rest with
      | nil => rfl
      | cons c left => exact List.takeWhile_cons_of_neg (Bool.eq_false_iff.1 (next c rfl))
    rw [run?_eq_some_iff, List.takeWhile_append_of_pos inside, stops, List.append_nil]
    exact ⟨List.length_pos_of_ne_nil not_empty, rfl⟩

theorem run?_append {member : Char → Bool} (h : run? member (body ++ rest) = some body.length)
    (next : ∀ c, member c = true → rest'.head? = some c → rest.head? = some c) :
    run? member (body ++ rest') = some body.length := by
  obtain ⟨run, stops⟩ := run?_append_self_iff.1 h
  refine run?_append_self_iff.2 ⟨run, ?_⟩
  intro c front
  by_contra is_member
  exact is_member (stops c (next c (by simpa using is_member) front))

theorem exists_body_of_append {left : Text} {c : Char} (h : lexeme ++ rest = c :: left)
    (one : 1 ≤ lexeme.length) : ∃ body, lexeme = c :: body ∧ left = body ++ rest := by
  cases lexeme with
  | nil => exact absurd one (by decide)
  | cons d body =>
    obtain ⟨rfl, rfl⟩ := List.cons.inj h
    exact ⟨body, rfl, rfl⟩

theorem exists_body_of_append_two {left : Text} {c d : Char}
    (h : lexeme ++ rest = c :: d :: left) (two : 2 ≤ lexeme.length) :
    ∃ body, lexeme = c :: d :: body ∧ left = body ++ rest := by
  obtain ⟨tail, rfl, eq⟩ := exists_body_of_append h (by omega)
  rw [List.length_cons] at two
  obtain ⟨body, rfl, rfl⟩ := exists_body_of_append eq.symm (by omega)
  exact ⟨body, rfl, rfl⟩

theorem length?_literal_append_self_iff {first : Char} {word : Text} :
    (literal first word).length? (lexeme ++ rest) = some lexeme.length ↔
      lexeme = first :: word := by
  rw [length?_literal_eq_some_iff]
  constructor
  · rintro ⟨leads, length⟩
    have whole := List.prefix_iff_eq_take.1 leads
    rw [List.length_cons, ← length, List.take_left] at whole
    exact whole.symm
  · rintro rfl
    exact ⟨List.prefix_append _ rest, rfl⟩

theorem length?_radixNumeral_append_self_iff {radix : Radix} :
    (radixNumeral radix).length? (lexeme ++ rest) = some lexeme.length ↔
      radix.IsNumeral lexeme ∧ ∀ c, rest.head? = some c → radix.isDigit c = false := by
  rw [length?_radixNumeral_eq_some_iff]
  constructor
  · rintro ⟨letter, left, n, isLetter, eq, digits, length⟩
    obtain ⟨body, rfl, rfl⟩ := exists_body_of_append_two eq (by omega)
    obtain rfl : body.length = n := by simpa using length
    obtain ⟨run, stops⟩ := run?_append_self_iff.1 digits
    exact ⟨⟨letter, body, isLetter, rfl, run⟩, stops⟩
  · rintro ⟨⟨letter, body, isLetter, rfl, run⟩, stops⟩
    exact ⟨letter, body ++ rest, body.length, isLetter, rfl,
      run?_append_self_iff.2 ⟨run, stops⟩, rfl⟩

theorem length?_lineComment_append_self_iff :
    lineComment.length? (lexeme ++ rest) = some lexeme.length ↔
      ∃ body, lexeme = '/' :: '/' :: body ∧ '\n' ∉ body ∧ ∀ c, rest.head? = some c → c = '\n' := by
  constructor
  · intro h
    obtain ⟨left, eq, length⟩ := length?_lineComment_eq_some_iff.1 h
    obtain ⟨body, rfl, rfl⟩ := exists_body_of_append_two eq (by omega)
    exact ⟨body, rfl, length?_lineComment_append_iff.1 h⟩
  · rintro ⟨body, rfl, oneLine⟩
    exact length?_lineComment_append_iff.2 oneLine

/-- A match stays as it is when what follows it is exchanged, on what each pattern asks of that. No
run has a blank for a member. -/
theorem length?_append {pattern : Pattern}
    (h : pattern.length? (lexeme ++ rest) = some lexeme.length)
    (next : ∀ c, Text.isBlank c = false → rest'.head? = some c → rest.head? = some c)
    (lineEnd : pattern = .lineComment → ∀ c, rest'.head? = some c → c = '\n')
    (closes : ∀ quote body, pattern = .quoted quote → lexeme = quote :: body →
      closing? quote false (body ++ rest) = some body.length →
        closing? quote false (body ++ rest') = some body.length) :
    pattern.length? (lexeme ++ rest') = some lexeme.length := by
  cases pattern with
  | literal first word =>
    rw [length?_literal_append_self_iff] at h ⊢
    exact h
  | lineComment =>
    obtain ⟨body, eq, oneLine, -⟩ := length?_lineComment_append_self_iff.1 h
    exact length?_lineComment_append_self_iff.2 ⟨body, eq, oneLine, lineEnd rfl⟩
  | blockComment =>
    obtain ⟨left, k, eq, ends, length⟩ := length?_blockComment_eq_some_iff.1 h
    obtain ⟨body, rfl, rfl⟩ := exists_body_of_append_two eq (by omega)
    obtain rfl : k = body.length := by simp only [List.length_cons] at length; omega
    have ends' := commentEnd?_append ends rest'
    exact length?_blockComment_eq_some_iff.2 ⟨body ++ rest', _, rfl, ends', length⟩
  | radixNumeral radix =>
    obtain ⟨letter, left, k, isLetter, eq, digits, length⟩ := length?_radixNumeral_eq_some_iff.1 h
    obtain ⟨body, rfl, rfl⟩ := exists_body_of_append_two eq (by omega)
    obtain rfl : k = body.length := by simp only [List.length_cons] at length; omega
    have digits' := run?_append digits fun c digit => next c (Radix.not_isBlank_of_isDigit digit)
    exact length?_radixNumeral_eq_some_iff.2
      ⟨letter, body ++ rest', _, isLetter, rfl, digits', length⟩
  | digits => exact run?_append h fun c digit => next c (Text.not_isBlank_of_isDecimalDigit digit)
  | quoted quote =>
    obtain ⟨left, k, eq, ends, length⟩ := length?_quoted_eq_some_iff.1 h
    obtain ⟨body, rfl, rfl⟩ := exists_body_of_append eq (by omega)
    obtain rfl : k = body.length := by simp only [List.length_cons] at length; omega
    have ends' := closes quote body rfl rfl ends
    exact length?_quoted_eq_some_iff.2 ⟨body ++ rest', _, rfl, ends', length⟩
  | letters => exact run?_append h fun c letter => next c (Text.not_isBlank_of_isAlpha letter)
  | blank =>
    obtain ⟨is_blank, length⟩ := length?_blank_eq_some_iff.1 h
    obtain ⟨c, rfl⟩ := List.length_eq_one_iff.1 length
    exact length?_blank_eq_some_iff.2 ⟨is_blank, rfl⟩
  | anything =>
    obtain ⟨-, length⟩ := length?_anything_eq_some_iff.1 h
    obtain ⟨c, rfl⟩ := List.length_eq_one_iff.1 length
    rfl

end PriorityLexer.Pattern
