import PriorityLexer.Proofs.CommentEnds
import PriorityLexer.Proofs.JoinedLines
import PriorityLexer.Proofs.Layout
import PriorityLexer.Proofs.Recovery

namespace PriorityLexer

/-- The second text is the first one with carriage returns put in, each directly in front of a
newline. -/
inductive Returned : Text → Text → Prop
  | nil : Returned [] []
  | keep (c : Char) {text text' : Text} (h : Returned text text') :
      Returned (c :: text) (c :: text')
  | insert {text text' : Text} (h : Returned text text') :
      Returned ('\n' :: text) ('\r' :: '\n' :: text')

/-- What a token shows apart from the file and its offset in it. -/
def Token.view (token : Token) : Category × Option Text × Int × Int :=
  (token.category, token.lexeme, token.location.line, token.location.column)

namespace Returned

variable {text text' rest : Text}

theorem loosened (h : Returned text text') : Loosened text text' := by
  induction h with
  | nil => exact .stop []
  | keep c h ih => exact .keep c ih
  | insert h ih => exact .gap (by decide) (List.suffix_refl _) (.keep '\n' ih)

theorem of_append {word : Text} (oneLine : '\n' ∉ word) (h : Returned (word ++ rest) text') :
    ∃ rest', text' = word ++ rest' ∧ Returned rest rest' := by
  induction word generalizing text' with
  | nil => exact ⟨text', rfl, h⟩
  | cons c word ih =>
    cases h with
    | keep _ h =>
      obtain ⟨rest', rfl, further⟩ := ih (fun mem => oneLine (List.mem_cons_of_mem c mem)) h
      exact ⟨rest', rfl, further⟩
    | insert => exact absurd List.mem_cons_self oneLine

end Returned

def EndsLine (ms : List Match) : Prop := ms.head?.map Match.rule = some .newline

/-- The second matches are the first ones with carriage returns in front of some newlines. -/
inductive ReturnedScan : List Match → List Match → Prop
  | nil : ReturnedScan [] []
  | same {m m' : Match} {ms ms' : List Match} (rule_eq : m'.rule = m.rule)
      (lexeme_eq : m'.lexeme = m.lexeme) (h : ReturnedScan ms ms') :
      ReturnedScan (m :: ms) (m' :: ms')
  | skipped {m' : Match} {ms ms' : List Match} (skipped : m'.rule.isSkipped = true)
      (not_newline : m'.rule ≠ .newline) (lexeme_eq : m'.lexeme = ['\r']) (line : EndsLine ms)
      (h : ReturnedScan ms ms') : ReturnedScan ms (m' :: ms')
  | comment {m m' : Match} {ms ms' : List Match} (rule_eq : m.rule = .comment)
      (rule_eq' : m'.rule = .comment) (lexeme_eq : m'.lexeme = m.lexeme ++ ['\r'])
      (line : EndsLine ms) (h : ReturnedScan ms ms') : ReturnedScan (m :: ms) (m' :: ms')

/-- No newline lies inside of another match. -/
def NoHiddenNewline (ms : List Match) : Prop := ∀ m ∈ ms, '\n' ∈ m.lexeme → m.rule = .newline

theorem ReturnedScan.noHiddenNewline {ms ms' : List Match} (h : ReturnedScan ms ms')
    (shown : NoHiddenNewline ms) : NoHiddenNewline ms' := by
  induction h with
  | nil => exact shown
  | same rule_eq lexeme_eq h ih =>
    obtain ⟨first, others⟩ := List.forall_mem_cons.1 shown
    refine List.forall_mem_cons.2 ⟨?_, ih others⟩
    rw [rule_eq, lexeme_eq]
    exact first
  | skipped skipped not_newline lexeme_eq line h ih =>
    refine List.forall_mem_cons.2 ⟨?_, ih shown⟩
    rw [lexeme_eq]
    intro mem
    exact absurd mem (by decide)
  | comment rule_eq rule_eq' lexeme_eq line h ih =>
    obtain ⟨first, others⟩ := List.forall_mem_cons.1 shown
    refine List.forall_mem_cons.2 ⟨?_, ih others⟩
    intro mem
    rw [lexeme_eq, List.mem_append] at mem
    rcases mem with hidden | return_
    · rw [rule_eq', ← rule_eq]
      exact first hidden
    · exact absurd return_ (by decide)

section Stream

variable {m m' : Match} {ms ms' : List Match} {offset offset' : Nat} {cursor cursor' : Cursor}

/-- The cursors are on the same line and the offsets at the same column, unless the line is at its
end. -/
structure Abreast (ms : List Match) (offset offset' : Nat) (cursor cursor' : Cursor) : Prop where
  line_eq : cursor'.line = cursor.line
  column_eq : EndsLine ms ∨ offset' - cursor'.columnStart = offset - cursor.columnStart

theorem Abreast.column_eq_of_not_newline (h : Abreast (m :: ms) offset offset' cursor cursor')
    (not_newline : m.rule ≠ .newline) :
    offset' - cursor'.columnStart = offset - cursor.columnStart := by
  rcases h.column_eq with line | same
  · exact absurd (Option.some.inj line) not_newline
  · exact same

theorem Abreast.past (h : Abreast (m :: ms) m.offset m'.offset cursor cursor')
    (rule_eq : m'.rule = m.rule) (lexeme_eq : m'.lexeme = m.lexeme) :
    Abreast ms m.stop m'.stop (cursor.past m) (cursor'.past m') := by
  constructor
  · rw [Cursor.past_line, Cursor.past_line, rule_eq, h.line_eq]
  · apply Or.inr
    rw [Cursor.past_columnStart, Cursor.past_columnStart, rule_eq]
    by_cases newline : m.rule = .newline
    · simp [newline]
    · have same := h.column_eq_of_not_newline newline
      rw [if_neg newline, if_neg newline, Match.stop, Match.stop, lexeme_eq]
      omega

theorem Abreast.token?_view (h : Abreast (m :: ms) m.offset m'.offset cursor cursor')
    (rule_eq : m'.rule = m.rule) (lexeme_eq : m'.lexeme = m.lexeme) (filename : Text) :
    (cursor'.token? filename m').map Token.view = (cursor.token? filename m).map Token.view := by
  rw [Cursor.token?, Cursor.token?, rule_eq, lexeme_eq]
  cases made : m.rule.tokenCategory? m.lexeme with
  | none => rfl
  | some category =>
    have not_newline : m.rule ≠ .newline := by
      intro newline
      rw [newline] at made
      cases made
    have same := h.column_eq_of_not_newline not_newline
    simp [Token.view, Cursor.locate, h.line_eq, same]

theorem Match.offset_add_length (m : Match) (rest : Text) :
    m.offset + (m.lexeme ++ rest).length = m.stop + rest.length := by
  rw [List.length_append, stop, Nat.add_assoc]

/-- The tokens with and without the carriage returns look the same. -/
theorem ReturnedScan.stream_view (h : ReturnedScan ms ms') {text text' : Text}
    (scans : Scans offset text ms) (scans' : Scans offset' text' ms')
    (abreast : Abreast ms offset offset' cursor cursor') (filename : Text) :
    (cursor'.stream filename (offset' + text'.length) ms').map Token.view =
      (cursor.stream filename (offset + text.length) ms).map Token.view := by
  induction h generalizing offset offset' text text' cursor cursor' with
  | nil =>
    cases scans
    cases scans'
    rcases abreast.column_eq with line | same
    · cases line
    · simp [Cursor.stream, Token.view, Cursor.locate, abreast.line_eq, same]
  | same rule_eq lexeme_eq h ih =>
    obtain ⟨rfl, rest, rfl, -, further⟩ := scans.of_cons
    obtain ⟨rfl, rest', rfl, -, further'⟩ := scans'.of_cons
    have first := abreast.token?_view rule_eq lexeme_eq filename
    have others := ih further further' (abreast.past rule_eq lexeme_eq)
    rw [Match.offset_add_length, Match.offset_add_length, Cursor.stream, Cursor.stream,
      List.map_append, List.map_append, others, ← Option.toList_map, ← Option.toList_map, first]
  | skipped skipped not_newline lexeme_eq line h ih =>
    obtain ⟨rfl, rest', rfl, -, further'⟩ := scans'.of_cons
    have level := (cursor'.past_line _).trans (if_neg not_newline)
    rw [Match.offset_add_length, Cursor.stream, Cursor.token?_of_isSkipped filename skipped]
    exact ih scans further' ⟨level.trans abreast.line_eq, .inl line⟩
  | @comment m m' ms ms' rule_eq rule_eq' lexeme_eq line h ih =>
    obtain ⟨rfl, rest, rfl, -, further⟩ := scans.of_cons
    obtain ⟨rfl, rest', rfl, -, further'⟩ := scans'.of_cons
    have level : (cursor'.past m').line = (cursor.past m).line := by
      rw [Cursor.past_line, Cursor.past_line, rule_eq, rule_eq', abreast.line_eq]
    have skipped : m.rule.isSkipped = true := by rw [rule_eq]; rfl
    have skipped' : m'.rule.isSkipped = true := by rw [rule_eq']; rfl
    rw [Match.offset_add_length, Match.offset_add_length, Cursor.stream, Cursor.stream,
      Cursor.token?_of_isSkipped filename skipped, Cursor.token?_of_isSkipped filename skipped']
    exact ih further further' ⟨level, .inl line⟩

end Stream

theorem leads_lineComment {body rest : Text} (oneLine : '\n' ∉ body)
    (lineEnd : ∀ c, rest.head? = some c → c = '\n') (offset : Nat) :
    Match.Leads ⟨.comment, '/' :: '/' :: body, offset⟩ rest := by
  have block : Pattern.blockComment.length? ('/' :: '/' :: (body ++ rest)) = none := rfl
  have line := Pattern.length?_lineComment_append_iff.2 ⟨oneLine, lineEnd⟩
  refine ⟨lineCommentRule.hit (body.length + 2), ?_, rfl, rfl⟩
  rw [List.cons_append, List.cons_append, headHit?_slash, block, line]

theorem leads_of_newline {m : Match} (newline : m.rule = .newline) (lexeme : m.lexeme = ['\n'])
    (rest : Text) : m.Leads rest := by
  obtain ⟨hit, taken, name, extent⟩ := leads_newline m.offset rest
  exact ⟨hit, lexeme ▸ taken, name.trans newline.symm, extent.trans (congrArg _ lexeme.symm)⟩

theorem exists_leads_return (offset : Nat) (rest : Text) :
    ∃ m : Match, m.lexeme = ['\r'] ∧ m.offset = offset ∧ m.rule.isSkipped = true ∧
      m.rule ≠ .newline ∧ m.Leads rest := by
  obtain ⟨m, lexeme, place, skipped, leads⟩ :=
    Match.exists_leads_of_isBlank (by decide : Text.isBlank '\r' = true) offset rest
  refine ⟨m, lexeme, place, skipped, ?_, leads⟩
  intro newline
  rw [leads.lexeme_of_newline newline] at lexeme
  cases lexeme

theorem Scans.endsLine {offset : Nat} {text : Text} {ms : List Match}
    (h : Scans offset ('\n' :: text) ms) : EndsLine ms := by
  cases ms with
  | nil => cases h.covered_eq
  | cons m ms =>
    obtain ⟨-, rest, text_eq, leads, -⟩ := h.of_cons
    obtain ⟨c, lexeme, lexeme_eq⟩ := List.exists_cons_of_ne_nil leads.lexeme_ne_nil
    rw [lexeme_eq, List.cons_append] at text_eq
    have head : m.lexeme.head? = some '\n' := by
      rw [lexeme_eq, (List.cons.inj text_eq).1]
      rfl
    exact congrArg some (leads.of_head_newline head)

/-- Wherever the text begins, it is scanned into the matches with some carriage returns. -/
def Rescans (ms : List Match) (text' : Text) : Prop :=
  ∀ offset', ∃ ms', Scans offset' text' ms' ∧ ReturnedScan ms ms'

namespace Rescans

variable {m : Match} {ms : List Match} {rest' : Text}

theorem nil : Rescans [] [] := fun offset' => ⟨[], .nil offset', .nil⟩

theorem cons (leads : m.Leads rest') (h : Rescans ms rest') :
    Rescans (m :: ms) (m.lexeme ++ rest') := by
  intro offset'
  obtain ⟨ms', scans, same⟩ := h (offset' + m.lexeme.length)
  have leads' : Match.Leads ⟨m.rule, m.lexeme, offset'⟩ rest' := leads
  exact ⟨_, .cons leads' scans, .same rfl rfl same⟩

theorem skipped (line : EndsLine ms) (h : Rescans ms rest') : Rescans ms ('\r' :: rest') := by
  intro offset'
  obtain ⟨m', lexeme, rfl, skips, not_newline, leads⟩ := exists_leads_return offset' rest'
  obtain ⟨ms', scans, same⟩ := h m'.stop
  have whole := Scans.cons leads scans
  rw [lexeme] at whole
  exact ⟨m' :: ms', whole, .skipped skips not_newline lexeme line same⟩

/-- A line comment takes in the carriage return that is put in behind it. -/
theorem comment (is_comment : m.rule = .comment) (slashes : ['/', '/'] <+: m.lexeme)
    (oneLine : '\n' ∉ m.lexeme) (line : EndsLine ms) (h : Rescans ms ('\n' :: rest')) :
    Rescans (m :: ms) (m.lexeme ++ '\r' :: '\n' :: rest') := by
  intro offset'
  obtain ⟨body, lexeme⟩ := slashes
  obtain ⟨ms', scans, same⟩ := h (offset' + (m.lexeme ++ ['\r']).length)
  have leads : Match.Leads ⟨.comment, m.lexeme ++ ['\r'], offset'⟩ ('\n' :: rest') := by
    rw [← lexeme] at oneLine ⊢
    exact leads_lineComment (by simpa using oneLine) (by simp) offset'
  have whole := Scans.cons leads scans
  rw [List.append_assoc] at whole
  exact ⟨_, whole, .comment is_comment rfl rfl line same⟩

end Rescans

/-- The text with carriage returns is scanned into the same matches with carriage returns. -/
theorem Scans.rescans {offset : Nat} {text text' : Text} {ms : List Match}
    (h : Scans offset text ms) (shown : NoHiddenNewline ms) (returned : Returned text text') :
    Rescans ms text' := by
  induction h generalizing text' with
  | nil =>
    cases returned
    exact .nil
  | @cons m rest ms leads scans ih =>
    obtain ⟨own, others⟩ := List.forall_mem_cons.1 shown
    by_cases newline : m.rule = .newline
    · have lexeme := leads.lexeme_of_newline newline
      have line : ∀ {rest'}, Returned rest rest' → Rescans (m :: ms) ('\n' :: rest') := by
        intro rest' further
        have leads' : m.Leads rest' := leads_of_newline newline lexeme rest'
        have whole := (ih others further).cons leads'
        rwa [lexeme] at whole
      rw [lexeme, List.singleton_append] at returned
      cases returned with
      | keep _ further => exact line further
      | insert further => exact (line further).skipped (congrArg some newline)
    · have oneLine : '\n' ∉ m.lexeme := fun mem => newline (own mem)
      obtain ⟨rest', rfl, further⟩ := returned.of_append oneLine
      by_cases lineEnd : m.rule = .comment → ['/', '/'] <+: m.lexeme →
          ∀ c, rest'.head? = some c → c = '\n'
      · exact (ih others further).cons (leads.loosened further.loosened lineEnd)
      · -- only a line comment that is followed by a new carriage return is left
        push Not at lineEnd
        obtain ⟨comment, slashes, c, front, other⟩ := lineEnd
        cases further with
        | nil => cases front
        | keep d further =>
          obtain rfl : d = c := Option.some.inj front
          exact absurd (leads.head_of_lineComment comment slashes rfl) other
        | insert further =>
          exact (ih others (.keep '\n' further)).comment comment slashes oneLine scans.endsLine

/-- Carriage returns directly in front of newlines cannot be seen in the tokens of a source that
hides no newline in a string or a comment, and no newline is hidden with them. -/
theorem carriage_returns_are_invisible {source source' : Text}
    (shown : ∀ m ∈ scan source, '\n' ∈ m.lexeme → m.rule = .newline)
    (returned : Returned source source') (filename : Text) :
    ∃ tokens tokens', tokenize source filename = .ok tokens ∧
      tokenize source' filename = .ok tokens' ∧
      tokens'.map Token.view = tokens.map Token.view ∧
      ∀ m ∈ scan source', '\n' ∈ m.lexeme → m.rule = .newline := by
  obtain ⟨ms', scans', same⟩ := (scans_scan source).rescans shown returned 0
  obtain rfl : ms' = scan source' := scans'.eq_scanFrom
  have start : Abreast (scan source) 0 0 Cursor.start Cursor.start := ⟨rfl, .inr rfl⟩
  have views := same.stream_view (scans_scan source) scans' start filename
  rw [Nat.zero_add, Nat.zero_add] at views
  exact ⟨_, _, tokenize_eq source filename, tokenize_eq source' filename, views,
    same.noHiddenNewline shown⟩

/-- One carriage return ends a line comment and one stands on an empty line. Neither the quote nor the
comment that is left open takes notice. -/
theorem carriage_returns_are_invisible_behind_comment :
    let source := "a// b\n\"c\n\n/*".toList
    let source' := "a// b\r\n\"c\n\r\n/*".toList
    (∀ m ∈ scan source, '\n' ∈ m.lexeme → m.rule = .newline) ∧ Returned source source' ∧
      ⟨.comment, "// b\r".toList, 1⟩ ∈ scan source' ∧
      (∀ m ∈ scan source', '\n' ∈ m.lexeme → m.rule = .newline) ∧
      ∃ tokens', tokenize source' [] = .ok tokens' ∧
        tokens'.map Token.view =
          [(.identifier, some ['a'], 1, 1), (.illegalChar, some ['"'], 2, 1),
            (.identifier, some ['c'], 2, 2), (.division, some ['/'], 4, 1),
            (.mul, some ['*'], 4, 2), (.endOfFile, none, 4, 3)] := by
  intro source source'
  have shown : ∀ m ∈ scan source, '\n' ∈ m.lexeme → m.rule = .newline := by decide +kernel
  have returned : Returned source source' :=
    .keep 'a' (.keep '/' (.keep '/' (.keep ' ' (.keep 'b' (.insert (.keep '"' (.keep 'c'
      (.keep '\n' (.insert (.keep '/' (.keep '*' .nil)))))))))))
  obtain ⟨tokens, tokens', read, read', views, shown'⟩ :=
    carriage_returns_are_invisible shown returned []
  have views_eq : tokens.map Token.view = _ :=
    congrArg (List.map Token.view) (Except.ok.inj (read.symm.trans (tokenize_eq source [])))
  refine ⟨shown, returned, by decide +kernel, shown', tokens', read', ?_⟩
  rw [views, views_eq]
  decide +kernel

end PriorityLexer
