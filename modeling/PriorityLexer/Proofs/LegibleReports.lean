import PriorityLexer.Proofs.IllegalReports
import PriorityLexer.Proofs.QuotedTexts

namespace PriorityLexer

namespace Diagnostic

def helpLines : Option Text → List Text
  | none | some [] => []
  | some help => ["  help: ".toList ++ help]

def suggestionLines : Option (List Text) → List Text
  | none | some [] => []
  | some suggestions => "  suggestions:".toList :: suggestions.map ("    - ".toList ++ ·)

def lines (diagnostic : Diagnostic) : List Text :=
  [Text.upper diagnostic.severity ++ ": ".toList ++ diagnostic.message,
    "  --> ".toList ++ diagnostic.location.text] ++
      (helpLines diagnostic.help ++ suggestionLines diagnostic.suggestions)

def closed (lines : List Text) : Text := lines.flatMap (· ++ ['\n'])

theorem closed_append (lines lines' : List Text) :
    closed (lines ++ lines') = closed lines ++ closed lines' := List.flatMap_append

theorem text_eq (diagnostic : Diagnostic) : diagnostic.text = closed diagnostic.lines := by
  rcases diagnostic with ⟨message, location, severity, code, help, suggestions⟩
  have heading : Text.upper severity ++ ": ".toList ++ message ++ "\n".toList ++
      "  --> ".toList ++ location.text ++ "\n".toList =
        closed [Text.upper severity ++ ": ".toList ++ message, "  --> ".toList ++ location.text] := by
    simp [closed]
  have hint : ∀ help : Option Text, closed (helpLines help) =
      match help with
      | none | some [] => []
      | some help => "  help: ".toList ++ help ++ "\n".toList := by
    rintro (_ | _ | ⟨c, help⟩) <;> simp [closed, helpLines]
  have list : ∀ suggestions : Option (List Text), closed (suggestionLines suggestions) =
      match suggestions with
      | none | some [] => []
      | some suggestions =>
        "  suggestions:\n".toList ++
          suggestions.flatMap fun suggestion => "    - ".toList ++ suggestion ++ "\n".toList := by
    rintro (_ | _ | ⟨first, others⟩) <;>
      simp [closed, suggestionLines, List.flatMap_map]
  rw [lines, closed_append, closed_append, ← heading, hint, list, ← List.append_assoc]
  rfl

section Printable

variable {lines : List Text} (printable : ∀ line ∈ lines, Text.isPrintable line = true)
include printable

theorem isPrintableChar_or_of_mem_closed {c : Char} (h : c ∈ closed lines) :
    Text.isPrintableChar c = true ∨ c = '\n' := by
  obtain ⟨line, line_mem, c_mem⟩ := List.mem_flatMap.1 h
  rcases List.mem_append.1 c_mem with inside | last
  · exact .inl (List.all_eq_true.1 (printable line line_mem) c inside)
  · exact .inr (List.mem_singleton.1 last)

theorem count_newline_closed : (closed lines).count '\n' = lines.length := by
  induction lines with
  | nil => rfl
  | cons line lines ih =>
    have inside : '\n' ∉ line := by
      intro mem
      have shown := List.all_eq_true.1 (printable line List.mem_cons_self) '\n' mem
      rw [Text.not_isPrintableChar_newline] at shown
      cases shown
    have others := ih fun other mem => printable other (List.mem_cons_of_mem line mem)
    rw [← List.singleton_append, closed_append, List.count_append, others]
    simp [closed, List.count_eq_zero_of_not_mem inside]
    omega

omit printable in
theorem getLast?_closed (not_empty : lines ≠ []) : (closed lines).getLast? = some '\n' := by
  obtain ⟨before, last, rfl⟩ := List.eq_nil_or_concat lines |>.resolve_left not_empty
  simp [closed]

end Printable

end Diagnostic

/-- The report on a character shows nothing but printable characters, on as many lines as there are
things to say about the character. -/
structure LexicalError.IsLegible (error : LexicalError) (c : Char) : Prop where
  printable_or_newline : ∀ d ∈ error.text, Text.isPrintableChar d = true ∨ d = '\n'
  closed : error.text.getLast? = some '\n'
  count_newline : error.text.count '\n' = if c = '"' ∨ c = '\'' then 6 else 3
  shown : c ∈ error.text → Text.isPrintableChar c = true

theorem Location.isPrintable_text {location : Location}
    (printable : Text.isPrintable location.filename = true) :
    Text.isPrintable location.text = true := by
  have colon : Text.isPrintable ":".toList = true := by decide
  simp only [Location.text, Text.isPrintable_append, printable, colon,
    Text.isPrintable_signedDecimal, Bool.and_self]

theorem Text.isPrintable_framed {before inside behind : Text} (front : isPrintable before = true)
    (middle : isPrintable inside = true) (back : isPrintable behind = true) :
    isPrintable (before ++ inside ++ behind) = true := by
  rw [isPrintable_append, isPrintable_append, front, middle, back]
  rfl

/-- What a report says of a character behind its place: one line, or four lines on a quote. -/
theorem illegalHelp_lines {c : Char} {help : Text} {suggestions : Option (List Text)}
    (made : illegalHelp [c] = .ok (help, suggestions)) :
    (∀ line ∈ Diagnostic.helpLines (some help) ++ Diagnostic.suggestionLines suggestions,
      Text.isPrintable line = true) ∧
    (Diagnostic.helpLines (some help) ++ Diagnostic.suggestionLines suggestions).length =
      if c = '"' ∨ c = '\'' then 4 else 1 := by
  have quote_iff : ([c] = ['"'] ∨ [c] = ['\'']) ↔ (c = '"' ∨ c = '\'') := by simp
  have lead : Text.isPrintable "  help: ".toList = true := by decide
  simp only [illegalHelp, quote_iff] at made
  by_cases isQuote : c = '"' ∨ c = '\''
  · rw [if_pos isQuote] at made ⊢
    cases made
    rcases isQuote with rfl | rfl <;> decide
  rw [if_neg isQuote] at made ⊢
  by_cases printable : Text.isPrintable [c] = true
  · rw [if_pos printable] at made
    cases made
    refine ⟨?_, rfl⟩
    intro line mem
    rw [List.mem_singleton.1 mem, Text.isPrintable_append, lead,
      Text.isPrintable_framed (by decide) printable (by decide)]
    rfl
  · rw [if_neg printable] at made
    cases made
    refine ⟨?_, rfl⟩
    intro line mem
    rw [List.mem_singleton.1 mem, Text.isPrintable_append, lead,
      Text.isPrintable_framed (by decide) (Text.isPrintable_upperHexadecimal 4 c.toNat) (by decide)]
    rfl

section Error

variable {token : Token} {error : LexicalError} {c : Char}

theorem lines_of_illegalError (made : illegalError token = .ok error)
    (lexeme : token.lexeme = some [c]) :
    ∃ help suggestions, illegalHelp [c] = .ok (help, suggestions) ∧
      error.diagnostic.message = "Illegal character: ".toList ++ Text.quoted [c] ∧
      error.diagnostic.lines =
        ["ERROR: Illegal character: ".toList ++ Text.quoted [c],
          "  --> ".toList ++ token.location.text] ++
            (Diagnostic.helpLines (some help) ++ Diagnostic.suggestionLines suggestions) := by
  unfold illegalError at made
  split at made
  · rw [lexeme] at made
    obtain ⟨⟨help, suggestions⟩, helped⟩ := exists_illegalHelp (Text.isUnshowable_singleton c)
    simp only [helped, Except.map, Except.ok.injEq] at made
    subst made
    exact ⟨help, suggestions, helped, rfl, rfl⟩
  · cases made

theorem lines_legible (made : illegalError token = .ok error) (lexeme : token.lexeme = some [c])
    (printable : Text.isPrintable token.location.filename = true) :
    (∀ line ∈ error.diagnostic.lines, Text.isPrintable line = true) ∧
      error.diagnostic.lines.length = if c = '"' ∨ c = '\'' then 6 else 3 := by
  obtain ⟨help, suggestions, helped, -, lines⟩ := lines_of_illegalError made lexeme
  obtain ⟨others, length⟩ := illegalHelp_lines helped
  rw [lines]
  constructor
  · have heading : Text.isPrintable "ERROR: Illegal character: ".toList = true := by decide
    have arrow : Text.isPrintable "  --> ".toList = true := by decide
    intro line mem
    simp only [List.cons_append, List.nil_append, List.mem_cons] at mem
    rcases mem with rfl | rfl | other
    · rw [Text.isPrintable_append, heading, Text.isPrintable_quoted]
      rfl
    · rw [Text.isPrintable_append, arrow, Location.isPrintable_text printable]
      rfl
    · exact others line other
  · rw [List.length_append, length]
    split <;> rfl

/-- The report on an illegal character is legible, unless the character is a newline. -/
theorem isLegible_of_illegalError (made : illegalError token = .ok error)
    (lexeme : token.lexeme = some [c]) (not_newline : c ≠ '\n')
    (printable : Text.isPrintable token.location.filename = true) : error.IsLegible c := by
  obtain ⟨shown, length⟩ := lines_legible made lexeme printable
  have text_eq : error.text = Diagnostic.closed error.diagnostic.lines := error.diagnostic.text_eq
  constructor
  · intro d mem
    rw [text_eq] at mem
    exact Diagnostic.isPrintableChar_or_of_mem_closed shown mem
  · rw [text_eq]
    exact Diagnostic.getLast?_closed (List.cons_ne_nil _ _)
  · rw [text_eq, Diagnostic.count_newline_closed shown, length]
  · intro mem
    rw [text_eq] at mem
    exact (Diagnostic.isPrintableChar_or_of_mem_closed shown mem).resolve_right not_newline

end Error

section Stream

variable {source filename : Text} {tokens : List Token} {token : Token}

theorem exists_reportable (read : tokenize source filename = .ok tokens) (mem : token ∈ tokens)
    (illegal : token.isIllegal = true) :
    ∃ c error, token.lexeme = some [c] ∧ c ≠ '\n' ∧ token.location.filename = filename ∧
      illegalError token = .ok error := by
  rw [tokenize_eq, Except.ok.injEq] at read
  rw [← read] at mem
  rcases Cursor.mem_stream mem with ⟨before, m, after, split, made⟩ | rfl
  · have m_mem : m ∈ scan source := by simp [split]
    obtain ⟨rest, leads⟩ := (scans_scan source).leads_of_mem m_mem
    have other := (Cursor.token?_isIllegal made).1 illegal
    obtain ⟨c, lexeme⟩ := leads.exists_lexeme_of_other other
    obtain ⟨category, -, rfl⟩ := Option.map_eq_some_iff.1 made
    have shows : some m.lexeme = some [c] := congrArg some lexeme
    obtain ⟨error, reported⟩ :=
      exists_illegalError illegal shows (Text.isUnshowable_singleton c)
    refine ⟨c, error, shows, ?_, rfl, reported⟩
    rintro rfl
    rw [leads.of_head_newline (by rw [lexeme]; rfl)] at other
    cases other
  · cases illegal

end Stream

/-- Every illegal token of a source can be reported, and the report is legible: it has only printable
characters on three lines, or on six if the character is a quote, and it shows the character itself
only if that is printable. Reports on different characters, be they of one source or of two, have
different messages. -/
theorem illegal_reports_are_legible {filename : Text}
    (printable : Text.isPrintable filename = true) (source source' filename' : Text) :
    ∃ tokens tokens', tokenize source filename = .ok tokens ∧
      tokenize source' filename' = .ok tokens' ∧
      (∀ token ∈ tokens, token.isIllegal = true →
        ∃ c error, token.lexeme = some [c] ∧ illegalError token = .ok error ∧ error.IsLegible c) ∧
      ∀ token ∈ tokens, ∀ token' ∈ tokens', token.isIllegal = true → token'.isIllegal = true →
        token.lexeme ≠ token'.lexeme →
          ∃ error error', illegalError token = .ok error ∧ illegalError token' = .ok error' ∧
            error.diagnostic.message ≠ error'.diagnostic.message := by
  have read := tokenize_eq source filename
  have read' := tokenize_eq source' filename'
  refine ⟨_, _, read, read', ?_, ?_⟩
  · intro token mem illegal
    obtain ⟨c, error, lexeme, not_newline, named, made⟩ := exists_reportable read mem illegal
    exact ⟨c, error, lexeme, made,
      isLegible_of_illegalError made lexeme not_newline (named ▸ printable)⟩
  · intro token mem token' mem' illegal illegal' different
    obtain ⟨c, error, lexeme, -, -, made⟩ := exists_reportable read mem illegal
    obtain ⟨c', error', lexeme', -, -, made'⟩ := exists_reportable read' mem' illegal'
    obtain ⟨-, -, -, message, -⟩ := lines_of_illegalError made lexeme
    obtain ⟨-, -, -, message', -⟩ := lines_of_illegalError made' lexeme'
    refine ⟨error, error', made, made', ?_⟩
    intro same
    rw [message, message', List.append_cancel_left_eq] at same
    rw [lexeme, lexeme', Text.quoted_singleton_injective same] at different
    exact different rfl

/-- A zero-width space in one source and a lonely quote in another one. -/
theorem illegal_reports_are_legible_on_hidden_character :
    let hidden : Token := ⟨.illegalChar, some ['\u200b'], ⟨"é.bc".toList, 1, 2, 1⟩⟩
    let quote : Token := ⟨.illegalChar, some ['\''], ⟨['\n'], 1, 1, 0⟩⟩
    Text.isPrintable "é.bc".toList = true ∧
      ∃ error error', illegalError hidden = .ok error ∧ illegalError quote = .ok error' ∧
        error.IsLegible '\u200b' ∧ '\u200b' ∉ error.text ∧ error.text.count '\n' = 3 ∧
        error.diagnostic.message ≠ error'.diagnostic.message := by
  intro hidden quote
  have printable : Text.isPrintable "é.bc".toList = true := by decide
  obtain ⟨tokens, tokens', read, read', legible, different⟩ :=
    illegal_reports_are_legible printable ['a', '\u200b'] ['\''] ['\n']
  have tokens_eq : tokens = [⟨.identifier, some ['a'], ⟨"é.bc".toList, 1, 1, 0⟩⟩, hidden,
      ⟨.endOfFile, none, ⟨"é.bc".toList, 1, 3, 2⟩⟩] :=
    Except.ok.inj (read.symm.trans (by decide +kernel))
  have tokens_eq' : tokens' = [quote, ⟨.endOfFile, none, ⟨['\n'], 1, 2, 1⟩⟩] :=
    Except.ok.inj (read'.symm.trans (by decide +kernel))
  subst tokens_eq tokens_eq'
  obtain ⟨c, error, lexeme, made, is_legible⟩ := legible hidden (by simp) rfl
  obtain rfl : '\u200b' = c := by simpa [hidden] using lexeme
  obtain ⟨same, error', made₀, made', differs⟩ :=
    different hidden (by simp) quote (by simp) rfl rfl (by decide)
  obtain rfl : error = same := Except.ok.inj (made.symm.trans made₀)
  have concealed : Text.isPrintableChar '\u200b' = false := by decide +kernel
  refine ⟨printable, error, error', made, made', is_legible, ?_, is_legible.count_newline, differs⟩
  intro shown
  rw [is_legible.shown shown] at concealed
  cases concealed

end PriorityLexer
