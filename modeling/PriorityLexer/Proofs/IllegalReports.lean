import PriorityLexer.Proofs.Recovery
import PriorityLexer.Proofs.ReportableTokens

namespace PriorityLexer

/-- All illegal characters of a source can be reported. -/
theorem illegalErrors_of_tokenize {source filename : Text} {tokens : List Token}
    (read : tokenize source filename = .ok tokens) :
    ∃ errors, illegalErrors tokens = .ok errors ∧
      List.Forall₂ LexicalError.Reports errors (tokens.filter Token.isIllegal) := by
  apply illegalErrors_of_showable
  intro token mem illegal
  rw [tokenize_eq, Except.ok.injEq] at read
  rw [← read] at mem
  obtain ⟨offset, c, -, lexeme, -⟩ := exists_char_of_isIllegal mem illegal
  exact ⟨[c], lexeme, Text.isUnshowable_singleton c⟩

section Reports

variable {tokens : List Token} {errors : List LexicalError}

theorem length_eq_countP
    (reports : List.Forall₂ LexicalError.Reports errors (tokens.filter Token.isIllegal)) :
    errors.length = tokens.countP Token.isIllegal := by
  rw [reports.length_eq, List.countP_eq_length_filter]

theorem ne_nil_iff_exists_isIllegal
    (reports : List.Forall₂ LexicalError.Reports errors (tokens.filter Token.isIllegal)) :
    errors ≠ [] ↔ ∃ token ∈ tokens, token.isIllegal = true := by
  rw [← List.length_pos_iff, length_eq_countP reports, List.countP_pos_iff]

end Reports

namespace Cursor

theorem past_illegalCount (cursor : Cursor) (m : Match) :
    (cursor.past m).illegalCount =
      if m.rule = .other then cursor.illegalCount + 1 else cursor.illegalCount := by
  unfold past classified
  cases m.rule <;> rfl

theorem pastAll_illegalCount (cursor : Cursor) (ms : List Match) :
    (cursor.pastAll ms).illegalCount =
      cursor.illegalCount + (ms.filter fun m => m.rule = .other).length := by
  induction ms generalizing cursor with
  | nil => rfl
  | cons m ms ih =>
    rw [pastAll_cons, ih, past_illegalCount]
    by_cases other : m.rule = .other
    · simp [other]
      omega
    · simp [other]

theorem length_filter_isIllegal_stream (filename : Text) (size : Nat) (cursor : Cursor)
    (ms : List Match) :
    ((cursor.stream filename size ms).filter Token.isIllegal).length =
      (ms.filter fun m => m.rule = .other).length := by
  have offsets := congrArg List.length (illegalOffsets_stream filename size cursor ms)
  simpa [illegalOffsets] using offsets

end Cursor

theorem Lexer.readTokens_cursor (lexer : Lexer) (ms : List Match) :
    (lexer.readTokens ms).2.cursor = lexer.cursor.pastAll ms := by
  induction ms generalizing lexer with
  | nil => rfl
  | cons m ms ih =>
    rw [readTokens_cons]
    exact ih (lexer.past m ms)

theorem illegalCount_of_tokenize {source filename : Text} {tokens : List Token}
    (read : tokenize source filename = .ok tokens) :
    (Lexer.ofSource source filename).remaining.2.cursor.illegalCount =
      (tokens.filter Token.isIllegal).length := by
  have cursor : (Lexer.ofSource source filename).remaining.2.cursor =
      Cursor.start.pastAll (scan source) :=
    (Lexer.ofSource source filename).started.readTokens_cursor (scan source)
  rw [tokenize_eq, Except.ok.injEq] at read
  rw [cursor, Cursor.pastAll_illegalCount, ← read, Cursor.length_filter_isIllegal_stream]
  exact Nat.zero_add _

section Strict

variable {source filename : Text} {tokens : List Token}

theorem tokenizeText_lenient (read : tokenize source filename = .ok tokens) :
    tokenizeText source filename false = .ok tokens := by
  rw [tokenizeText, read]
  rfl

/-- A strict reading fails with the error of the first illegal token, if there is one. -/
theorem tokenizeText_strict_eq_error_iff (read : tokenize source filename = .ok tokens)
    {errors : List LexicalError} (made : illegalErrors tokens = .ok errors) {error : LexicalError} :
    tokenizeText source filename true = .error (.lexical error) ↔ errors.head? = some error := by
  simp only [tokenizeText, read, if_true, made]
  cases errors with
  | nil => simp
  | cons first others => simp

end Strict

end PriorityLexer
