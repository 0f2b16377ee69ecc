import Mathlib.Data.List.Forall2
import PriorityLexer.Report

namespace PriorityLexer

/-- A lexeme that can be shown neither as it stands nor by a code point. -/
def Text.isUnshowable (lexeme : Text) : Bool := !isPrintable lexeme && lexeme.length != 1

theorem Text.isUnshowable_singleton (c : Char) : isUnshowable [c] = false := Bool.and_false _

section Help

variable {lexeme : Text}

theorem illegalHelp_of_unshowable (unshowable : Text.isUnshowable lexeme = true) :
    illegalHelp lexeme = .error (.notOneCharacter lexeme.length) := by
  obtain ⟨hidden, length⟩ : Text.isPrintable lexeme = false ∧ lexeme.length ≠ 1 := by
    simpa [Text.isUnshowable] using unshowable
  have no_quote : ¬(lexeme = ['"'] ∨ lexeme = ['\'']) := by
    rintro (rfl | rfl)
    · exact length rfl
    · exact length rfl
  unfold illegalHelp
  rw [if_neg no_quote, hidden, if_neg Bool.false_ne_true]
  match lexeme, length with
  | [], _ => rfl
  | [c], single => exact absurd rfl single
  | _ :: _ :: _, _ => rfl

theorem exists_illegalHelp (showable : Text.isUnshowable lexeme = false) :
    ∃ shown, illegalHelp lexeme = .ok shown := by
  unfold illegalHelp
  split
  · exact ⟨_, rfl⟩
  · split
    · exact ⟨_, rfl⟩
    · rename_i hidden
      have length : lexeme.length = 1 := by simpa [Text.isUnshowable, hidden] using showable
      obtain ⟨c, rfl⟩ := List.length_eq_one_iff.1 length
      exact ⟨_, rfl⟩

end Help

namespace Token

def isUnshowable (token : Token) : Bool :=
  token.isIllegal && token.lexeme.any Text.isUnshowable

variable {token : Token}

theorem exists_of_isUnshowable (unshowable : token.isUnshowable = true) :
    token.isIllegal = true ∧
      ∃ lexeme, token.lexeme = some lexeme ∧ Text.isUnshowable lexeme = true := by
  simpa [isUnshowable, Option.any_eq_true] using unshowable

theorem exists_of_not_isUnshowable (showable : token.isUnshowable = false)
    (illegal : token.isIllegal = true) (spelled : token.lexeme.isSome = true) :
    ∃ lexeme, token.lexeme = some lexeme ∧ Text.isUnshowable lexeme = false := by
  obtain ⟨lexeme, shows⟩ := Option.isSome_iff_exists.1 spelled
  exact ⟨lexeme, shows, by simpa [isUnshowable, illegal, shows] using showable⟩

end Token

/-- The error is the one made for the token: it carries the token, its place and the code that
stands for illegal characters. -/
structure LexicalError.Reports (error : LexicalError) (token : Token) : Prop where
  made : illegalError token = .ok error
  token_eq : error.token = some token
  location_eq : error.diagnostic.location = token.location
  code_eq : error.diagnostic.code = some "L001".toList

section Error

variable {token : Token} {lexeme : Text}

theorem reports_of_illegalError {error : LexicalError}
    (made : illegalError token = .ok error) : error.Reports token := by
  have whole := made
  unfold illegalError at made
  split at made
  · split at made
    · cases made
    · rename_i lexeme _
      cases help : illegalHelp lexeme with
      | error fault =>
        rw [help] at made
        cases made
      | ok shown =>
        rw [help] at made
        cases made
        exact ⟨whole, rfl, rfl, rfl⟩
  · cases made

theorem exists_illegalError (illegal : token.isIllegal = true) (spelled : token.lexeme = some lexeme)
    (showable : Text.isUnshowable lexeme = false) : ∃ error, illegalError token = .ok error := by
  obtain ⟨shown, help⟩ := exists_illegalHelp showable
  simp only [illegalError, illegal, if_true, spelled, help]
  exact ⟨_, rfl⟩

theorem illegalError_of_unshowable (illegal : token.isIllegal = true)
    (spelled : token.lexeme = some lexeme) (unshowable : Text.isUnshowable lexeme = true) :
    illegalError token = .error (.notOneCharacter lexeme.length) := by
  simp only [illegalError, illegal, if_true, spelled, illegalHelp_of_unshowable unshowable]
  rfl

end Error

theorem exists_mapM_ok {α β : Type} {make : α → Except Fault β} {xs : List α}
    (each : ∀ x ∈ xs, ∃ y, make x = .ok y) :
    ∃ ys, xs.mapM make = .ok ys ∧ List.Forall₂ (fun y x => make x = .ok y) ys xs := by
  induction xs with
  | nil => exact ⟨[], rfl, .nil⟩
  | cons x xs ih =>
    obtain ⟨y, first⟩ := each x List.mem_cons_self
    obtain ⟨ys, others, related⟩ := ih fun x' mem => each x' (List.mem_cons_of_mem x mem)
    refine ⟨y :: ys, ?_, .cons first related⟩
    rw [List.mapM_cons, first, others]
    rfl

section Errors

variable {tokens others : List Token}

/-- Tokens whose illegal lexemes can be shown are reported, each illegal one by an error of its
own. -/
theorem illegalErrors_of_showable
    (showable : ∀ token ∈ tokens, token.isIllegal = true →
      ∃ lexeme, token.lexeme = some lexeme ∧ Text.isUnshowable lexeme = false) :
    ∃ errors, illegalErrors tokens = .ok errors ∧
      List.Forall₂ LexicalError.Reports errors (tokens.filter Token.isIllegal) := by
  have each : ∀ token ∈ tokens.filter Token.isIllegal, ∃ error, illegalError token = .ok error := by
    intro token mem
    obtain ⟨inside, illegal⟩ := List.mem_filter.1 mem
    obtain ⟨lexeme, shows, can_show⟩ := showable token inside illegal
    exact exists_illegalError illegal shows can_show
  obtain ⟨errors, made, related⟩ := exists_mapM_ok each
  exact ⟨errors, made, related.imp fun _ _ => reports_of_illegalError⟩

theorem illegalErrors_of_not_isUnshowable
    (spelled : ∀ token ∈ tokens, token.isIllegal = true → token.lexeme.isSome = true)
    (showable : ∀ token ∈ tokens, token.isUnshowable = false) :
    ∃ errors, illegalErrors tokens = .ok errors ∧
      List.Forall₂ LexicalError.Reports errors (tokens.filter Token.isIllegal) := by
  apply illegalErrors_of_showable
  intro token mem illegal
  exact Token.exists_of_not_isUnshowable (showable token mem) illegal (spelled token mem illegal)

theorem illegalErrors_append :
    illegalErrors (tokens ++ others) = (do
      let errors ← illegalErrors tokens
      let further ← illegalErrors others
      return errors ++ further) := by
  rw [illegalErrors, List.filter_append, List.mapM_append]
  rfl

theorem illegalErrors_append_eq_ok_iff {errors : List LexicalError} :
    illegalErrors (tokens ++ others) = .ok errors ↔
      ∃ first second, illegalErrors tokens = .ok first ∧ illegalErrors others = .ok second ∧
        first ++ second = errors := by
  rw [illegalErrors_append]
  cases illegalErrors tokens with
  | error fault => simp [bind, Except.bind]
  | ok first =>
    cases illegalErrors others with
    | error fault => simp [bind, Except.bind]
    | ok second => simp [bind, Except.bind, pure, Except.pure]

/-- The errors made before the first failure are given up. -/
theorem illegalErrors_of_find?
    (spelled : ∀ token ∈ tokens, token.isIllegal = true → token.lexeme.isSome = true)
    {token : Token} (found : tokens.find? Token.isUnshowable = some token) :
    ∃ lexeme, token.lexeme = some lexeme ∧
      illegalErrors tokens = .error (.notOneCharacter lexeme.length) := by
  obtain ⟨unshowable, before, after, rfl, earlier⟩ := List.find?_eq_some_iff_append.1 found
  obtain ⟨illegal, lexeme, shows, hidden⟩ := Token.exists_of_isUnshowable unshowable
  obtain ⟨errors, made, -⟩ := illegalErrors_of_not_isUnshowable
    (fun token mem => spelled token (List.mem_append_left _ mem))
    (fun token mem => by simpa using earlier token mem)
  refine ⟨lexeme, shows, ?_⟩
  have failed : illegalErrors (token :: after) = .error (.notOneCharacter lexeme.length) := by
    rw [illegalErrors, List.filter_cons_of_pos illegal, List.mapM_cons,
      illegalError_of_unshowable illegal shows hidden]
    rfl
  rw [illegalErrors_append, made, failed]
  rfl

end Errors

/-- The reports on any tokens, as long as the illegal ones have a lexeme. They fail if and only if
some illegal token has a lexeme that is neither printable nor a single character, and then with the
length of the first such lexeme. Otherwise there is one error for each illegal token, in order and
with its place, and none for other tokens. The reports on two lists in a row are made if those on
both are, and they are those on the first and then those on the second. -/
theorem tokens_are_reported_or_refused (tokens : List Token)
    (spelled : ∀ token ∈ tokens, token.isIllegal = true → token.lexeme.isSome = true) :
    ((∃ length, illegalErrors tokens = .error (.notOneCharacter length)) ↔
      ∃ token ∈ tokens, token.isUnshowable = true) ∧
    (∀ token, tokens.find? Token.isUnshowable = some token →
      ∃ lexeme, token.lexeme = some lexeme ∧
        illegalErrors tokens = .error (.notOneCharacter lexeme.length)) ∧
    ((∀ token ∈ tokens, token.isUnshowable = false) →
      ∃ errors, illegalErrors tokens = .ok errors ∧
        List.Forall₂ LexicalError.Reports errors (tokens.filter Token.isIllegal)) ∧
    ∀ others errors, illegalErrors (tokens ++ others) = .ok errors ↔
      ∃ first second, illegalErrors tokens = .ok first ∧ illegalErrors others = .ok second ∧
        first ++ second = errors := by
  refine ⟨⟨?_, ?_⟩, fun _ => illegalErrors_of_find? spelled,
    illegalErrors_of_not_isUnshowable spelled, fun _ _ => illegalErrors_append_eq_ok_iff⟩
  · rintro ⟨length, failed⟩
    by_contra none
    have showable : ∀ token ∈ tokens, token.isUnshowable = false := by simpa using none
    obtain ⟨errors, made, -⟩ := illegalErrors_of_not_isUnshowable spelled showable
    rw [made] at failed
    cases failed
  · intro some_unshowable
    obtain ⟨token, found⟩ := Option.isSome_iff_exists.1 (List.find?_isSome.2 some_unshowable)
    obtain ⟨lexeme, -, failed⟩ := illegalErrors_of_find? spelled found
    exact ⟨lexeme.length, failed⟩

/-- Tokens that no source makes. The lexemes of the last two cannot be shown. -/
def oddTokens : List Token :=
  [(.identifier, ['\x01', '\x02', '\x03']), (.illegalChar, ['@', '@']), (.illegalChar, []),
    (.illegalChar, ['\x01', '\x02']), (.illegalChar, ['@', '\x01', '@'])].map
      fun (category, lexeme) => ⟨category, some lexeme, ⟨"p.bc".toList, 1, 1, 0⟩⟩

/-- The odd tokens are refused for the first hidden lexeme. Without it and what follows they are
reported, also twice in a row. -/
theorem tokens_are_reported_or_refused_odd :
    (∀ token ∈ oddTokens, token.isIllegal = true → token.lexeme.isSome = true) ∧
    illegalErrors oddTokens = .error (.notOneCharacter 2) ∧
    ∃ errors, illegalErrors (oddTokens.take 3) = .ok errors ∧ errors.length = 2 ∧
      illegalErrors (oddTokens.take 3 ++ oddTokens.take 3) = .ok (errors ++ errors) := by
  have spelled : ∀ token ∈ oddTokens, token.isIllegal = true → token.lexeme.isSome = true := by
    decide
  obtain ⟨-, refused, -, -⟩ := tokens_are_reported_or_refused oddTokens spelled
  obtain ⟨-, -, reported, append⟩ := tokens_are_reported_or_refused (oddTokens.take 3)
    fun token mem => spelled token (List.mem_of_mem_take mem)
  obtain ⟨errors, made, reports⟩ := reported (by decide +kernel)
  have first : oddTokens.find? Token.isUnshowable = oddTokens[3]? := by decide +kernel
  obtain ⟨lexeme, shows, failed⟩ := refused _ first
  obtain rfl : ['\x01', '\x02'] = lexeme := Option.some.inj shows
  exact ⟨spelled, failed, errors, made, reports.length_eq, (append _ _).2 ⟨_, _, made, made, rfl⟩⟩

end PriorityLexer
