import PriorityLexer.Proofs.CommandLine

namespace PriorityLexer

theorem tokenizeFile_of_encode {host : Host} {path : RawText} {text : Text}
    (found : host.content path = .ok (Text.Utf8.encode text)) (strict : Bool) :
    tokenizeFile host path strict = tokenizeText text path.shown strict := by
  simp only [tokenizeFile, found, bind, Except.bind, decodeBytes_encode]

namespace Cli

/-- A strict run on a file has status 1 if a strict reading of the file fails, and it writes the
error of the reading first. -/
theorem exists_strict_run {dialect : Dialect} (stamp : Text) {host : Host}
    {arguments : List RawText} {request : Request} {text : Text}
    (parsed : parse dialect arguments = .ok (.scan request)) (strict : request.strict = true)
    (apart : request.file ≠ standardInput)
    (found : host.content request.file = .ok (Text.Utf8.encode text)) :
    ∃ outcome, run dialect stamp host arguments = .ok outcome ∧
      (outcome.status = 1 ↔
        ∃ error, tokenizeFile host request.file true = .error (.lexical error)) ∧
      ∀ error, tokenizeFile host request.file true = .error (.lexical error) →
        request.verbose = false → error.text <+: outcome.stderr := by
  have loaded : sourceBytes host request.file = .ok (Text.Utf8.encode text) :=
    (if_neg apart).trans found
  obtain ⟨outcome, tokens, ran, read, shows⟩ :=
    exists_run_of_encode stamp parsed (fun input => absurd input apart) loaded
  have source : readAs request.file text = text := if_neg apart
  have name : sourceName request.file = request.file.shown := if_neg apart
  rw [source, name] at read
  obtain ⟨errors, made, reports⟩ := illegalErrors_of_tokenize read
  have fails_iff : ∀ error, tokenizeFile host request.file true = .error (.lexical error) ↔
      errors.head? = some error := by
    intro error
    rw [tokenizeFile_of_encode found]
    exact tokenizeText_strict_eq_error_iff read made
  have status_iff : outcome.status = 1 ↔ errors ≠ [] := by
    rw [shows.status, ne_nil_iff_exists_isIllegal reports]
    simp [strict]
  refine ⟨outcome, ran, ?_, ?_⟩
  · rw [status_iff, ← List.isSome_head?, Option.isSome_iff_exists]
    simp only [fails_iff]
  · intro error failed quiet
    obtain ⟨others, rfl⟩ := List.head?_eq_some_iff.1 ((fails_iff error).1 failed)
    obtain ⟨written, same, stderr⟩ := shows.rejects quiet (status_iff.2 (List.cons_ne_nil _ _))
    obtain rfl := Except.ok.inj (same.symm.trans made)
    rw [stderr, List.flatMap_cons, List.append_assoc]
    exact List.prefix_append _ _

end Cli

open Cli

/-- The strict readings agree. There is one error for each illegal token, in order and with its
place, and the lexer counts as many of them. A strict reading of the text fails with the error of
the first illegal token, and hands out all tokens if there is none, as one that is not strict does
in any case. A strict run on a file with this text has status 1 if a strict reading of the file
fails, and what it writes then begins with the text of the error. -/
theorem strict_readings_agree (source filename : Text) :
    ∃ tokens errors, tokenize source filename = .ok tokens ∧ illegalErrors tokens = .ok errors ∧
      List.Forall₂ LexicalError.Reports errors (tokens.filter Token.isIllegal) ∧
      (Lexer.ofSource source filename).remaining.2.cursor.illegalCount =
        (tokens.filter Token.isIllegal).length ∧
      tokenizeText source filename false = .ok tokens ∧
      (tokens.filter Token.isIllegal = [] → tokenizeText source filename true = .ok tokens) ∧
      (∀ token others, tokens.filter Token.isIllegal = token :: others →
        ∃ error, error.Reports token ∧
          tokenizeText source filename true = .error (.lexical error)) ∧
      ∀ host path, host.content path = .ok (Text.Utf8.encode source) → path ≠ standardInput →
        ∀ dialect stamp arguments json verbose,
          parse dialect arguments = .ok (.scan ⟨path, json, true, verbose⟩) →
          ∃ outcome, run dialect stamp host arguments = .ok outcome ∧
            (outcome.status = 1 ↔
              ∃ error, tokenizeFile host path true = .error (.lexical error)) ∧
            ∀ error, tokenizeFile host path true = .error (.lexical error) →
              verbose = false → error.text <+: outcome.stderr := by
  have read := tokenize_eq source filename
  obtain ⟨errors, made, reports⟩ := illegalErrors_of_tokenize read
  refine ⟨_, errors, read, made, reports, illegalCount_of_tokenize read, tokenizeText_lenient read,
    ?_, ?_, ?_⟩
  · intro none
    exact tokenizeText_of_legal read (List.filter_eq_nil_iff.1 none) true
  · intro token others illegal
    rw [illegal] at reports
    cases reports with
    | cons first _ =>
      exact ⟨_, first, (tokenizeText_strict_eq_error_iff read made).2 rfl⟩
  · intro host path found apart dialect stamp arguments json verbose parsed
    exact exists_strict_run stamp parsed rfl apart found

/-- A word is read strictly. A lonely quote is rejected by the readings of the text and of the file
and by the run, which writes the error. -/
theorem strict_readings_agree_on_lonely_quote :
    let path := RawText.ofString "p.bc"
    (∃ tokens, tokenize ['a'] "p.bc".toList = .ok tokens ∧
      tokenizeText ['a'] "p.bc".toList true = .ok tokens) ∧
    twoFiles.content path = .ok (Text.Utf8.encode ['"']) ∧
    ∃ error outcome, tokenizeFile twoFiles path true = .error (.lexical error) ∧
      tokenizeText ['"'] "p.bc".toList true = .error (.lexical error) ∧
      run .late [] twoFiles [RawText.ofString "--strict", path] = .ok outcome ∧
      outcome.status = 1 ∧ error.text <+: outcome.stderr ∧
      error.text = [
        "ERROR: Illegal character: '\"'\n",
        "  --> p.bc:1:1\n",
        "  help: This looks like the start of an unterminated string literal.\n",
        "  suggestions:\n",
        "    - Add a closing \" quote\n",
        "    - Check for a stray quote character\n"].flatMap String.toList := by
  intro path
  have found : twoFiles.content path = .ok (Text.Utf8.encode ['"']) := by decide +kernel
  have parsed : parse .late [RawText.ofString "--strict", path] =
      .ok (.scan ⟨path, false, true, false⟩) := by decide +kernel
  refine ⟨?_, found, ?_⟩
  · obtain ⟨tokens, -, read, -, -, -, -, clean, -⟩ := strict_readings_agree ['a'] "p.bc".toList
    have word : tokenize ['a'] "p.bc".toList = .ok
        [⟨.identifier, some ['a'], ⟨"p.bc".toList, 1, 1, 0⟩⟩,
          ⟨.endOfFile, none, ⟨"p.bc".toList, 1, 2, 1⟩⟩] := by decide +kernel
    obtain rfl := Except.ok.inj (word.symm.trans read)
    exact ⟨_, read, clean rfl⟩
  · obtain ⟨tokens, -, read, -, -, -, -, -, rejected, runs⟩ :=
      strict_readings_agree ['"'] "p.bc".toList
    obtain rfl := Except.ok.inj (tokenize_quote.symm.trans read)
    obtain ⟨error, -, strict⟩ := rejected _ _ rfl
    obtain ⟨outcome, ran, status_iff, first⟩ :=
      runs twoFiles path found (by decide) .late [] _ false false parsed
    have failed := (tokenizeFile_of_encode found true).trans strict
    refine ⟨error, outcome, failed, strict, ran, status_iff.2 ⟨error, failed⟩,
      first error failed rfl, ?_⟩
    have message := congrArg (Except.mapError Fault.message) strict
    exact Except.error.inj (message.symm.trans (by decide +kernel))

end PriorityLexer
