import PriorityLexer.Proofs.StringPatterns

namespace PriorityLexer

namespace Regex

def slashMark : Regex := one (· == '/')

def starMark : Regex := one (· == '*')

def toStars : Regex := chain (star (one (· != '*'))) (plus starMark)

/-- The next run of stars, behind a character that does not end the comment. -/
def commentItem : Regex := chain (one fun c => c != '/' && c != '*') toStars

def blockComment : Regex :=
  chain slashMark (chain starMark (chain toStars (chain (star commentItem) slashMark)))

def lineComment : Regex := chain slashMark (chain slashMark (star (one (· != '\n'))))

end Regex

/-- What a block comment leaves of the text behind its opening. -/
def commentRest (text : Text) : Option Text := (Pattern.commentEnd? text).map text.drop

section CommentRest

variable {c : Char} {rest : Text}

@[simp] theorem commentRest_nil : commentRest [] = none := rfl

theorem commentRest_cons (h : ¬ (c = '*' ∧ rest.head? = some '/')) :
    commentRest (c :: rest) = commentRest rest := by
  simp only [commentRest, Pattern.commentEnd?, h, if_false]
  cases Pattern.commentEnd? rest <;> simp

@[simp] theorem commentRest_closes : commentRest ('*' :: '/' :: rest) = some rest := by
  simp [commentRest, Pattern.commentEnd?]

end CommentRest

namespace Regex

def behindRun : Regex := chain (star commentItem) slashMark

def behindStar : Regex := chain (star starMark) behindRun

def insideComment : Regex := chain toStars behindRun

section Paths

variable {c : Char} {rest : Text}

theorem one_paths_cons (accepts : Char → Bool) (c : Char) (rest : Text) :
    (one accepts).paths (c :: rest) = if accepts c then [rest] else [] := rfl

theorem toStars_paths (text : Text) :
    toStars.paths text =
      ((one (· != '*')).paths text).flatMap toStars.paths ++ (plus starMark).paths text :=
  star_chain_paths rfl _ text

theorem behindRun_paths (text : Text) :
    behindRun.paths text =
      (commentItem.paths text).flatMap behindRun.paths ++ slashMark.paths text :=
  star_chain_paths rfl _ text

theorem behindStar_paths (text : Text) :
    behindStar.paths text =
      (starMark.paths text).flatMap behindStar.paths ++ behindRun.paths text :=
  star_chain_paths rfl _ text

theorem insideComment_paths_nil : insideComment.paths [] = [] := paths_nil_of_consumes rfl

theorem insideComment_paths_cons (not_star : c ≠ '*') :
    insideComment.paths (c :: rest) = insideComment.paths rest := by
  have skipped : toStars.paths (c :: rest) = toStars.paths rest := by
    rw [toStars_paths]
    simp [plus, starMark, paths, not_star]
  change (toStars.paths (c :: rest)).flatMap behindRun.paths = _
  rw [skipped]
  rfl

theorem insideComment_paths_star :
    insideComment.paths ('*' :: rest) = behindStar.paths rest := by
  have taken : toStars.paths ('*' :: rest) = (star starMark).paths rest := by
    rw [toStars_paths]
    simp [plus, starMark, paths]
  change (toStars.paths ('*' :: rest)).flatMap behindRun.paths = _
  rw [taken]
  rfl

theorem behindStar_paths_nil : behindStar.paths [] = [] := paths_nil_of_consumes rfl

theorem behindStar_paths_star : behindStar.paths ('*' :: rest) = behindStar.paths rest := by
  rw [behindStar_paths, behindRun_paths]
  simp [one_paths_cons, commentItem, starMark, slashMark, paths]

theorem behindStar_paths_slash : behindStar.paths ('/' :: rest) = [rest] := by
  rw [behindStar_paths, behindRun_paths]
  simp [one_paths_cons, commentItem, starMark, slashMark, paths]

theorem behindStar_paths_cons (not_star : c ≠ '*') (not_slash : c ≠ '/') :
    behindStar.paths (c :: rest) = insideComment.paths rest := by
  have item : commentItem.paths (c :: rest) = toStars.paths rest := by
    simp [commentItem, paths, not_star, not_slash]
  rw [behindStar_paths, behindRun_paths, item]
  simp only [one_paths_cons, starMark, slashMark, beq_eq_false_iff_ne.2 not_star,
    beq_eq_false_iff_ne.2 not_slash, Bool.false_eq_true, if_false, List.flatMap_nil,
    List.nil_append, List.append_nil]
  rfl

end Paths

/-- The only path leads behind the first star and slash, which a star that has just been taken can
be a part of. -/
theorem comment_paths (text : Text) :
    insideComment.paths text = (commentRest text).toList ∧
      behindStar.paths text = (commentRest ('*' :: text)).toList := by
  induction text with
  | nil => exact ⟨insideComment_paths_nil, behindStar_paths_nil⟩
  | cons c rest ih =>
    obtain ⟨inside, behind⟩ := ih
    by_cases star : c = '*'
    · subst star
      have longer : commentRest ('*' :: '*' :: rest) = commentRest ('*' :: rest) :=
        commentRest_cons (by simp)
      constructor
      · rw [insideComment_paths_star, behind]
      · rw [behindStar_paths_star, behind, longer]
    · have left : commentRest (c :: rest) = commentRest rest :=
        commentRest_cons fun closes => star closes.1
      constructor
      · rw [insideComment_paths_cons star, inside, left]
      · by_cases slash : c = '/'
        · subst slash
          rw [behindStar_paths_slash, commentRest_closes]
          rfl
        · have other : commentRest ('*' :: c :: rest) = commentRest (c :: rest) :=
            commentRest_cons (by simpa using slash)
          rw [behindStar_paths_cons star slash, inside, other, left]

theorem insideComment_length? (text : Text) :
    insideComment.length? text = Pattern.commentEnd? text := by
  rw [length?, (comment_paths text).1, commentRest]
  cases ends : Pattern.commentEnd? text with
  | none => rfl
  | some n =>
    have bounds := Pattern.commentEnd?_bounds ends
    simp only [Option.map_some, Option.toList_some, List.head?_cons, List.length_drop]
    congr 1
    omega

theorem star_one_length? (accepts : Char → Bool) (text : Text) :
    (star (one accepts)).length? text = some (text.takeWhile accepts).length := by
  have first : ((star (one accepts)).paths text).head? = some (text.dropWhile accepts) := by
    induction text with
    | nil => rw [star_paths rfl]; rfl
    | cons c rest ih =>
      rw [star_paths rfl, one_paths_cons, List.dropWhile_cons]
      by_cases accepted : accepts c = true
      · simp [accepted, ih]
      · simp [accepted]
  have whole := congrArg List.length (List.takeWhile_append_dropWhile (p := accepts) (l := text))
  rw [List.length_append] at whole
  rw [length?, first, Option.map_some]
  congr 1
  omega

theorem opening_length? (a b : Char) (next : Regex) (text : Text) :
    (chain (one (· == a)) (chain (one (· == b)) next)).length? text =
      if [a, b].isPrefixOf text then (next.length? (text.drop 2)).map (· + 2) else none := by
  by_cases opens : [a, b] <+: text
  · obtain ⟨rest, rfl⟩ := opens
    have paths_eq : (chain (one (· == a)) (chain (one (· == b)) next)).paths (a :: b :: rest) =
        next.paths rest := by simp [paths]
    simp only [length?, List.cons_append, List.nil_append, paths_eq]
    cases first : (next.paths rest).head? with
    | none => simp [first]
    | some left =>
      have le := length_le_of_mem_paths (List.mem_of_mem_head? first)
      simp [first]
      omega
  · have failed : (chain (one (· == a)) (chain (one (· == b)) next)).paths text = [] := by
      cases text with
      | nil => rfl
      | cons c rest =>
        by_cases same : c = a
        · cases rest with
          | nil => simp [paths, same]
          | cons d rest =>
            have other : d ≠ b := by
              rintro rfl
              exact opens ⟨rest, by rw [same]; rfl⟩
            simp [paths, same, other]
        · simp [paths, same]
    have missed : [a, b].isPrefixOf text = false := by
      rwa [← Bool.not_eq_true, List.isPrefixOf_iff_prefix]
    rw [length?, failed, missed]
    rfl

/-- The pattern that takes runs of stars has the length of the rule for block comments. -/
theorem blockComment_length? (text : Text) :
    blockComment.length? text = Pattern.blockComment.length? text := by
  have opened := opening_length? '/' '*' insideComment text
  rw [insideComment_length?] at opened
  exact opened

theorem lineComment_length? (text : Text) :
    lineComment.length? text = Pattern.lineComment.length? text := by
  have opened := opening_length? '/' '/' (star (one (· != '\n'))) text
  rw [star_one_length?] at opened
  exact opened

end Regex

end PriorityLexer
