import Mathlib.Order.Bounds.Basic
import PriorityLexer.Proofs.CommentPatterns
import PriorityLexer.Proofs.LongestMatch
import PriorityLexer.Proofs.Loosening
import PriorityLexer.Proofs.Lookahead

namespace PriorityLexer

def blockCommentRule : Rule := ⟨.comment, .blockComment⟩

def lineCommentRule : Rule := ⟨.comment, .lineComment⟩

def slashRule : Rule := ⟨.division, .literal '/' []⟩

def starRule : Rule := ⟨.mul, .literal '*' []⟩

def doubleStarRule : Rule := ⟨.power, .literal '*' ['*']⟩

def Rule.hit (rule : Rule) (extent : Nat) : Hit := ⟨rules.idxOf rule, rule, extent⟩

/-- A star and a slash stand at `k`, behind the two characters that open a comment at `pos`. -/
def ClosesAt (source : Text) (pos k : Nat) : Prop := pos + 2 ≤ k ∧ ['*', '/'] <+: source.drop k

/-- A newline stands at `k`, behind the two slashes at `pos`. -/
def EndsLineAt (source : Text) (pos k : Nat) : Prop := pos + 2 ≤ k ∧ source[k]? = some '\n'

section Ends

variable {text : Text} {n : Nat}

theorem isLeast_shifted {p : Nat → Prop} {start k : Nat} (h : IsLeast {i | p (start + i)} k) :
    IsLeast {j | start ≤ j ∧ p j} (start + k) := by
  refine ⟨⟨Nat.le_add_right start k, h.1⟩, ?_⟩
  rintro j ⟨behind, holds⟩
  have least : k ≤ j - start := h.2 (by
    show p (start + (j - start))
    rwa [Nat.add_sub_cancel' behind])
  omega

theorem closer_prefix_cons_iff {c : Char} {rest : Text} :
    ['*', '/'] <+: c :: rest ↔ c = '*' ∧ rest.head? = some '/' := by
  rw [List.cons_prefix_cons, eq_comm, List.singleton_prefix_iff_head?_eq_some]

theorem Pattern.exists_isLeast_of_commentEnd? (h : commentEnd? text = some n) :
    ∃ k, n = k + 2 ∧ IsLeast {i | ['*', '/'] <+: text.drop i} k := by
  induction text generalizing n with
  | nil => cases h
  | cons c rest ih =>
    rw [commentEnd?] at h
    by_cases closes : c = '*' ∧ rest.head? = some '/'
    · rw [if_pos closes, Option.some.injEq] at h
      exact ⟨0, h.symm, closer_prefix_cons_iff.2 closes, fun _ _ => Nat.zero_le _⟩
    · rw [if_neg closes, Option.map_eq_some_iff] at h
      obtain ⟨m, further, rfl⟩ := h
      obtain ⟨k, rfl, occurs, least⟩ := ih further
      refine ⟨k + 1, rfl, occurs, ?_⟩
      intro i at_i
      cases i with
      | zero => exact absurd (closer_prefix_cons_iff.1 at_i) closes
      | succ i => exact Nat.succ_le_succ (least at_i)

theorem Pattern.commentEnd?_eq_none (h : ∀ i, ¬ ['*', '/'] <+: text.drop i) :
    commentEnd? text = none := by
  cases ends : commentEnd? text with
  | none => rfl
  | some n =>
    obtain ⟨k, -, occurs, -⟩ := exists_isLeast_of_commentEnd? ends
    exact absurd occurs (h k)

theorem isLeast_or_of_takeWhile (text : Text) :
    IsLeast {i : Nat | text[i]? = some '\n'} (text.takeWhile fun c => c != '\n').length ∨
      (∀ i : Nat, text[i]? ≠ some '\n') ∧
        (text.takeWhile fun c => c != '\n').length = text.length := by
  induction text with
  | nil => exact .inr ⟨fun i => by simp, rfl⟩
  | cons c rest ih =>
    by_cases newline : c = '\n'
    · subst newline
      exact .inl ⟨rfl, fun _ _ => Nat.zero_le _⟩
    · rw [List.takeWhile_cons_of_pos (by simpa using newline), List.length_cons, List.length_cons]
      have first : ∀ i : Nat, (c :: rest)[i]? = some '\n' →
          ∃ j, i = j + 1 ∧ rest[j]? = some '\n' := by
        intro i at_i
        cases i with
        | zero => exact absurd (Option.some.inj at_i) newline
        | succ j => exact ⟨j, rfl, at_i⟩
      rcases ih with ⟨occurs, least⟩ | ⟨absent, whole⟩
      · refine .inl ⟨occurs, ?_⟩
        intro i at_i
        obtain ⟨j, rfl, at_j⟩ := first i at_i
        exact Nat.succ_le_succ (least at_j)
      · refine .inr ⟨?_, congrArg Nat.succ whole⟩
        intro i at_i
        obtain ⟨j, rfl, at_j⟩ := first i at_i
        exact absent j at_j

end Ends

theorem headHit?_slash (rest : Text) :
    headHit? rules ('/' :: rest) =
      match Pattern.blockComment.length? ('/' :: rest),
        Pattern.lineComment.length? ('/' :: rest) with
      | some n, _ => some (blockCommentRule.hit n)
      | none, some n => some (lineCommentRule.hit n)
      | none, none => some (slashRule.hit 1) := by
  have operator : slashRule.pattern.length? ('/' :: rest) = some 1 := rfl
  rw [headHit?_cons, candidates_slash]
  cases block : Pattern.blockComment.length? ('/' :: rest) with
  | some n => simp only [List.findSome?_cons, block, Option.map_some]; rfl
  | none =>
    cases line : Pattern.lineComment.length? ('/' :: rest) with
    | some n => simp only [List.findSome?_cons, block, line, Option.map_none, Option.map_some]; rfl
    | none =>
      simp only [List.findSome?_cons, block, line, Option.map_none]
      rfl

theorem candidates_star :
    candidates '*' = [(doubleStarRule, rules.idxOf doubleStarRule),
      (starRule, rules.idxOf starRule), (catchAll, rules.idxOf catchAll)] := by
  decide

theorem headHit?_star (rest : Text) :
    headHit? rules ('*' :: rest) =
      if rest.head? = some '*' then some (doubleStarRule.hit 2) else some (starRule.hit 1) := by
  rw [headHit?_cons, candidates_star]
  cases rest with
  | nil => rfl
  | cons c rest =>
    by_cases star : c = '*'
    · subst star
      rfl
    · have other : doubleStarRule.pattern.length? ('*' :: c :: rest) = none := by
        simp [doubleStarRule, Pattern.length?, Ne.symm star]
      simp only [List.findSome?_cons, other, Option.map_none]
      simp [star]
      rfl

section Opened

variable {source : Text} {pos k n : Nat}

theorem drop_of_two {a b : Char} (opens : [a, b] <+: source.drop pos) :
    source.drop pos = a :: b :: source.drop (pos + 2) := by
  obtain ⟨rest, eq⟩ := opens
  rw [← List.drop_drop, ← eq]
  rfl

theorem matchAt_hit {rule : Rule} {text : Text} (begins : source.drop pos = text)
    (taken : headHit? rules text = some (rule.hit n)) :
    matchAt source pos = .ok (rule.hit (pos + n)) :=
  matchAt_of_headHit? (begins ▸ taken)

theorem exists_first_closer (ends : Pattern.commentEnd? (source.drop (pos + 2)) = some n) :
    ∃ first, IsLeast {k | ClosesAt source pos k} first ∧ pos + (n + 2) = first + 2 := by
  obtain ⟨k, rfl, least⟩ := Pattern.exists_isLeast_of_commentEnd? ends
  simp only [List.drop_drop] at least
  exact ⟨pos + 2 + k, isLeast_shifted least, by omega⟩

theorem exists_commentEnd?_of_closesAt (closes : ClosesAt source pos k) :
    ∃ n, Pattern.commentEnd? (source.drop (pos + 2)) = some n := by
  apply Option.ne_none_iff_exists'.1
  intro unclosed
  rw [Pattern.commentEnd?_eq_none_iff] at unclosed
  obtain ⟨behind, occurs⟩ := closes
  obtain ⟨i, rfl⟩ := Nat.exists_eq_add_of_le behind
  rw [← List.drop_drop] at occurs
  exact unclosed (occurs.isInfix.trans (List.drop_suffix i _).isInfix)

/-- A block comment that is closed reaches the first closer. -/
theorem matchAt_closed (opens : ['/', '*'] <+: source.drop pos) (closes : ClosesAt source pos k) :
    ∃ first, IsLeast {k | ClosesAt source pos k} first ∧
      matchAt source pos = .ok (blockCommentRule.hit (first + 2)) := by
  obtain ⟨n, ends⟩ := exists_commentEnd?_of_closesAt closes
  obtain ⟨first, least, stop⟩ := exists_first_closer ends
  refine ⟨first, least, ?_⟩
  have block : Pattern.blockComment.length? ('/' :: '*' :: source.drop (pos + 2)) = some (n + 2) :=
    congrArg (Option.map (· + 2)) ends
  rw [← stop]
  apply matchAt_hit (drop_of_two opens)
  rw [headHit?_slash, block]

/-- Without a closer the slash is an operator, and behind it the star begins another one. -/
theorem matchAt_unclosed (opens : ['/', '*'] <+: source.drop pos)
    (unclosed : ∀ k, ¬ ClosesAt source pos k) :
    matchAt source pos = .ok (slashRule.hit (pos + 1)) ∧
      (source[pos + 2]? = some '*' →
        matchAt source (pos + 1 : Nat) = .ok (doubleStarRule.hit (pos + 3))) ∧
      (source[pos + 2]? ≠ some '*' →
        matchAt source (pos + 1 : Nat) = .ok (starRule.hit (pos + 2))) := by
  have begins := drop_of_two opens
  have ends : Pattern.commentEnd? (source.drop (pos + 2)) = none := by
    apply Pattern.commentEnd?_eq_none
    intro i occurs
    rw [List.drop_drop] at occurs
    exact unclosed _ ⟨Nat.le_add_right _ i, occurs⟩
  have block : Pattern.blockComment.length? ('/' :: '*' :: source.drop (pos + 2)) = none :=
    congrArg (Option.map (· + 2)) ends
  have behind : source.drop (pos + 1) = '*' :: source.drop (pos + 2) := by
    rw [← List.drop_drop, begins]
    rfl
  refine ⟨?_, ?_, ?_⟩
  · apply matchAt_hit begins
    rw [headHit?_slash, block]
    rfl
  · intro star
    apply matchAt_hit (n := 2) behind
    rw [headHit?_star, List.head?_drop, if_pos star]
  · intro other
    apply matchAt_hit (n := 1) behind
    rw [headHit?_star, List.head?_drop, if_neg other]

theorem matchAt_line (opens : ['/', '/'] <+: source.drop pos) :
    ∃ n, matchAt source pos = .ok (lineCommentRule.hit (pos + 2 + n)) ∧
      (IsLeast {k | EndsLineAt source pos k} (pos + 2 + n) ∨
        (∀ k, ¬ EndsLineAt source pos k) ∧ pos + 2 + n = source.length) := by
  have block : Pattern.blockComment.length? ('/' :: '/' :: source.drop (pos + 2)) = none := rfl
  refine ⟨((source.drop (pos + 2)).takeWhile fun c => c != '\n').length, ?_, ?_⟩
  · rw [Nat.add_assoc, Nat.add_comm 2]
    apply matchAt_hit (drop_of_two opens)
    rw [headHit?_slash, block]
    rfl
  · rcases isLeast_or_of_takeWhile (source.drop (pos + 2)) with least | ⟨absent, whole⟩
    · simp only [List.getElem?_drop] at least
      exact .inl (isLeast_shifted least)
    · have fits := congrArg List.length (drop_of_two opens)
      simp only [List.length_drop, List.length_cons] at fits
      refine .inr ⟨?_, by rw [whole, List.length_drop]; omega⟩
      rintro k ⟨behind, occurs⟩
      obtain ⟨i, rfl⟩ := Nat.exists_eq_add_of_le behind
      exact absent i (by rwa [List.getElem?_drop])

/-- Only the two openings lead to a comment, and a block comment is closed. -/
theorem opens_of_comment {hit : Hit} (taken : matchAt source pos = .ok hit)
    (comment : hit.rule.name = .comment) :
    ['/', '/'] <+: source.drop pos ∨
      ['/', '*'] <+: source.drop pos ∧ ∃ k, ClosesAt source pos k := by
  have table : ∀ rule ∈ rules, rule.name = .comment →
      rule.pattern = .lineComment ∨ rule.pattern = .blockComment := by decide
  obtain ⟨first, found, -, same⟩ := exists_headHit?_of_matchAt taken
  have applies : first.rule.pattern.length? (source.drop pos) = some first.extent :=
    (firstHit?_eq_some found).2
  rcases table first.rule (headHit?_rule_mem found) (same ▸ comment) with line | block
  · rw [line, Pattern.length?_lineComment_eq_some_iff] at applies
    obtain ⟨rest, begins, -⟩ := applies
    exact .inl ⟨rest, begins.symm⟩
  · rw [block, Pattern.length?_blockComment_eq_some_iff] at applies
    obtain ⟨rest, k, begins, ends, -⟩ := applies
    have opens : ['/', '*'] <+: source.drop pos := ⟨rest, begins.symm⟩
    rw [drop_of_two opens] at begins
    cases begins
    obtain ⟨first, least, -⟩ := exists_first_closer ends
    exact .inr ⟨opens, first, least.1⟩

end Opened

theorem comment_rules_agree (source : Text) (position : Int) :
    blockCommentRule.endAt? source position = Regex.blockComment.endAt? source position ∧
      lineCommentRule.endAt? source position = Regex.lineComment.endAt? source position := by
  constructor
  · rw [Rule.endAt?_eq, Regex.endAt?_eq rfl, Regex.blockComment_length?]
    rfl
  · rw [Rule.endAt?_eq, Regex.endAt?_eq rfl, Regex.lineComment_length?]
    rfl

/-- A slash and a star open a comment that reaches the first star and slash behind them, as the
pattern with its runs of stars finds it. If there is none, the slash is an operator, and so is the
star, together with a second star if one follows. Two slashes open a comment that reaches the end of
the line. Nothing else is a comment. -/
theorem comments_reach_first_closer (source : Text) (pos : Nat) :
    (['/', '*'] <+: source.drop pos →
      (∀ k, ClosesAt source pos k → ∃ first, IsLeast {k | ClosesAt source pos k} first ∧
        matchAt source pos = .ok (blockCommentRule.hit (first + 2))) ∧
      ((∀ k, ¬ ClosesAt source pos k) →
        matchAt source pos = .ok (slashRule.hit (pos + 1)) ∧
        (source[pos + 2]? = some '*' →
          matchAt source (pos + 1 : Nat) = .ok (doubleStarRule.hit (pos + 3))) ∧
        (source[pos + 2]? ≠ some '*' →
          matchAt source (pos + 1 : Nat) = .ok (starRule.hit (pos + 2))))) ∧
    (['/', '/'] <+: source.drop pos →
      (∀ k, EndsLineAt source pos k → ∃ first, IsLeast {k | EndsLineAt source pos k} first ∧
        matchAt source pos = .ok (lineCommentRule.hit first)) ∧
      ((∀ k, ¬ EndsLineAt source pos k) →
        matchAt source pos = .ok (lineCommentRule.hit source.length))) ∧
    (∀ hit, matchAt source pos = .ok hit → hit.rule.name = .comment →
      ['/', '/'] <+: source.drop pos ∨
        ['/', '*'] <+: source.drop pos ∧ ∃ k, ClosesAt source pos k) ∧
    (∀ position, blockCommentRule.endAt? source position =
        Regex.blockComment.endAt? source position ∧
      lineCommentRule.endAt? source position = Regex.lineComment.endAt? source position) := by
  refine ⟨?_, ?_, fun hit => opens_of_comment, comment_rules_agree source⟩
  · intro opens
    exact ⟨fun k => matchAt_closed opens, matchAt_unclosed opens⟩
  · intro opens
    obtain ⟨n, taken, ends⟩ := matchAt_line opens
    constructor
    · intro k newline
      rcases ends with least | ⟨absent, -⟩
      · exact ⟨_, least, taken⟩
      · exact absurd newline (absent k)
    · intro absent
      rcases ends with least | ⟨-, whole⟩
      · exact absurd least.1 (absent _)
      · rwa [← whole]

/-- The star that opens a comment does not help to close it. -/
example : matchAt "/*/***/*/".toList 0 = .ok (blockCommentRule.hit 7) ∧
    matchAt "/*/".toList 0 = .ok (slashRule.hit 1) ∧
    matchAt "/*/".toList 1 = .ok (starRule.hit 2) := by decide +kernel

end PriorityLexer
