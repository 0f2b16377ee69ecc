import PriorityLexer.Proofs.IllegalReports
import PriorityLexer.Proofs.OneStream

namespace PriorityLexer

/-- What is noted down of a token. -/
def Event.ofToken? (token : Token) : Option Event :=
  if token.isIllegal then token.lexeme.map fun lexeme => .illegalCharacter lexeme token.location
  else none

theorem Event.illegalCharacter_message (lexeme : Text) (location : Location) :
    (illegalCharacter lexeme location).message =
      "Illegal character ".toList ++ Text.quoted lexeme ++ " at ".toList ++
        (location.filename ++ ":".toList ++ Text.signedDecimal location.line ++
          ":".toList ++ Text.signedDecimal location.column) := rfl

namespace Cursor

variable (cursor : Cursor) (filename : Text) (m : Match)

theorem token?_bind_event :
    ((cursor.token? filename m).bind Event.ofToken?).toList =
      if m.rule = .other then
        [Event.illegalCharacter m.lexeme (cursor.locate filename m.offset)]
      else [] := by
  by_cases other : m.rule = .other
  · simp [token?, RuleName.tokenCategory?, other, Event.ofToken?, Token.isIllegal]
  · rw [if_neg other]
    cases made : cursor.token? filename m with
    | none => rfl
    | some token =>
      have illegal_iff := token?_isIllegal made
      simp [Event.ofToken?, illegal_iff, other]

theorem past_illegalCount_eq_add_countP :
    (cursor.past m).illegalCount =
      cursor.illegalCount + (cursor.token? filename m).toList.countP Token.isIllegal := by
  rw [past_illegalCount]
  by_cases other : m.rule = .other
  · simp [token?, RuleName.tokenCategory?, other, Token.isIllegal]
  · rw [if_neg other]
    cases made : cursor.token? filename m with
    | none => rfl
    | some token =>
      have illegal_iff := token?_isIllegal made
      simp [illegal_iff, other]

theorem filename_of_mem_stream {cursor : Cursor} {filename : Text} {size : Nat} {ms : List Match}
    {token : Token} (mem : token ∈ cursor.stream filename size ms) :
    token.location.filename = filename := by
  rcases mem_stream mem with ⟨before, m, after, -, made⟩ | rfl
  · obtain ⟨category, -, rfl⟩ := Option.map_eq_some_iff.1 made
    rfl
  · rfl

end Cursor

namespace Lexer

/-- The lexer has handed out these tokens and is not at the end yet. -/
structure Notes (lexer : Lexer) (filename : Text) (size : Nat) (tokens : List Token) : Prop where
  filename_eq : lexer.filename = filename
  stage_eq : lexer.stage = .reading
  events_eq : lexer.events = .started filename size :: tokens.filterMap Event.ofToken?
  tokenCount_eq : lexer.tokenCount = tokens.length
  illegalCount_eq : lexer.cursor.illegalCount = tokens.countP Token.isIllegal

/-- The lexer has come to the end, on this line, behind these tokens. -/
structure Concludes (lexer : Lexer) (filename : Text) (size : Nat) (tokens : List Token)
    (line : Nat) : Prop where
  stage_eq : lexer.stage = .ended
  events_eq : lexer.events = .started filename size :: (tokens.filterMap Event.ofToken? ++
    [.finished filename tokens.length (tokens.countP Token.isIllegal) line])

/-- The lexer has handed out one more token behind the others, which may be the last one. -/
def Tells (lexer : Lexer) (filename : Text) (size : Nat) (tokens : List Token) (token : Token) :
    Prop :=
  token.isEndOfFile = false ∧ lexer.Notes filename size (tokens ++ [token]) ∨
    token.isEndOfFile = true ∧
      ∃ line : Nat, token.location.line = line ∧ lexer.Concludes filename size tokens line

variable {lexer later : Lexer} {filename : Text} {size : Nat} {tokens : List Token}

theorem started_notes (source filename : Text) :
    (ofSource source filename).started.Notes filename source.length [] :=
  ⟨rfl, rfl, rfl, rfl, rfl⟩

theorem Notes.past (notes : lexer.Notes filename size tokens) (m : Match) (rest : List Match) :
    (lexer.past m rest).Notes filename size
      (tokens ++ (lexer.cursor.token? lexer.filename m).toList) where
  filename_eq := notes.filename_eq
  stage_eq := notes.stage_eq
  events_eq := by
    have noted := lexer.cursor.token?_bind_event lexer.filename m
    have before := notes.events_eq
    rw [events] at before
    rw [events, Lexer.past, ← noted, List.reverse_append, before, List.filterMap_append]
    cases lexer.cursor.token? lexer.filename m with
    | none => simp
    | some token => cases made : Event.ofToken? token <;> simp [made]
  tokenCount_eq := by rw [List.length_append, ← notes.tokenCount_eq]; rfl
  illegalCount_eq := by
    rw [List.countP_append, ← notes.illegalCount_eq]
    exact lexer.cursor.past_illegalCount_eq_add_countP lexer.filename m

theorem Notes.finished (notes : lexer.Notes filename size tokens) :
    lexer.finished.Concludes filename size tokens lexer.cursor.line where
  stage_eq := rfl
  events_eq := by
    have before := notes.events_eq
    rw [events] at before
    rw [events, Lexer.finished, List.reverse_cons, before, notes.filename_eq, notes.tokenCount_eq,
      notes.illegalCount_eq]
    rfl

/-- Reading one token notes it down, or concludes the journal with the token at the end. -/
theorem Notes.readToken (notes : lexer.Notes filename size tokens) {ms : List Match} {token : Token}
    (read : lexer.readToken ms = (.ok token, later)) :
    later.Tells filename size tokens token := by
  induction ms generalizing lexer with
  | nil =>
    cases read
    exact .inr ⟨rfl, lexer.cursor.line, rfl, notes.finished⟩
  | cons m ms ih =>
    have past := notes.past m ms
    rw [Lexer.readToken, consume_eq] at read
    cases made : lexer.cursor.token? lexer.filename m with
    | none =>
      rw [made] at read past
      exact ih (by simpa using past) read
    | some handed =>
      rw [made] at read past
      cases read
      refine .inl ⟨?_, past⟩
      obtain ⟨category, found, rfl⟩ := Option.map_eq_some_iff.1 made
      have inside := RuleName.tokenCategory?_ne_endOfFile m.rule m.lexeme
      rw [found] at inside
      simpa [Token.isEndOfFile] using inside

theorem started_next (open_ : lexer.stage ≠ .ended) : lexer.started.next = lexer.next := by
  have reading := lexer.started_stage open_
  have again : lexer.started.started = lexer.started := by
    rw [started, reading]
  have pending : lexer.started.pending = lexer.pending := by
    unfold started
    split <;> rfl
  rw [next, next, if_neg open_, if_neg (by rw [reading]; decide), again, pending]

theorem Notes.next (notes : lexer.Notes filename size tokens) {token : Token}
    (read : lexer.next = (.ok token, later)) :
    later.Tells filename size tokens token := by
  have started : lexer.started = lexer := by rw [started, notes.stage_eq]
  rw [Lexer.next, if_neg (by rw [notes.stage_eq]; decide), started] at read
  exact notes.readToken read

theorem after_nexts_of_ended (ended : lexer.stage = .ended) (count : Nat) :
    lexer.after (List.replicate count .next) = lexer := by
  induction count with
  | zero => rfl
  | succ count ih =>
    have stays : (lexer.perform .next).2 = lexer := by
      rw [perform, next_of_remainder_nil (remainder_of_ended ended)]
    rw [List.replicate_succ, after, List.foldl_cons, stays]
    exact ih

/-- Asking for some more tokens notes them down, and concludes the journal if they include the
last one. -/
theorem Notes.after_nexts (notes : lexer.Notes filename size tokens) {others : List Token}
    {last : Token} (left : lexer.remainder = others ++ [last])
    (not_end : ∀ token ∈ others, token.isEndOfFile = false) (at_end : last.isEndOfFile = true)
    {line : Nat} (line_eq : last.location.line = line) (count : Nat) :
    if count ≤ others.length then
      (lexer.after (List.replicate count .next)).Notes filename size (tokens ++ others.take count)
    else
      (lexer.after (List.replicate count .next)).Concludes filename size (tokens ++ others)
        line := by
  -- each step moves one token from those to come to those that are noted down
  induction count generalizing lexer tokens others with
  | zero => simpa [after] using notes
  | succ count ih =>
    rw [List.replicate_succ, after, List.foldl_cons]
    cases others with
    | nil =>
      obtain ⟨later, read, -, -⟩ := next_of_remainder_cons left
      rcases notes.next read with ⟨inside, -⟩ | ⟨-, line', line_eq', concludes⟩
      · rw [at_end] at inside
        cases inside
      · obtain rfl : line' = line := by omega
        have behind : (lexer.perform .next).2 = later := by rw [perform, read]
        have stays := after_nexts_of_ended concludes.stage_eq count
        rw [after] at stays
        rw [behind, stays]
        simpa using concludes
    | cons token others =>
      obtain ⟨later, read, remainder, -⟩ := next_of_remainder_cons left
      have behind : (lexer.perform .next).2 = later := by rw [perform, read]
      rcases notes.next read with ⟨-, noted⟩ | ⟨ends, -⟩
      · have further := ih noted remainder fun token mem => not_end token (.tail _ mem)
        rw [behind]
        simpa [after] using further
      · rw [not_end token List.mem_cons_self] at ends
        cases ends

theorem after_nexts_ofSource (source filename : Text) (count : Nat) :
    (ofSource source filename).after (List.replicate (count + 1) .next) =
      (ofSource source filename).started.after (List.replicate (count + 1) .next) := by
  have same : (ofSource source filename).started.next = (ofSource source filename).next :=
    started_next (fun ended => by cases ended)
  rw [List.replicate_succ, after, after, List.foldl_cons, List.foldl_cons, perform, perform, same]

end Lexer

/-- Until a token is asked for nothing is noted down. From then on the journal opens with the start,
goes on with the illegal characters among the tokens that have been handed out, each at the place of
its token, and ends with a summary as soon as, and only if, the last token has been handed out. -/
theorem journal_tells_what_was_pulled (source filename : Text) (count : Nat) :
    ∃ full last, ∃ lines : Nat, tokenize source filename = .ok full ∧
      full.getLast? = some last ∧ last.category = .endOfFile ∧ last.location.line = lines ∧
      (∀ token ∈ full, token.isIllegal = true →
        ∃ c, token.lexeme = some [c] ∧
          Event.ofToken? token = some (.illegalCharacter [c] token.location) ∧
          (Event.illegalCharacter [c] token.location).message =
            "Illegal character ".toList ++ Text.quoted [c] ++ " at ".toList ++
              (filename ++ ":".toList ++ Text.signedDecimal token.location.line ++
                ":".toList ++ Text.signedDecimal token.location.column)) ∧
      ((Lexer.ofSource source filename).after (List.replicate count .next)).events =
        if count = 0 then []
        else .started filename source.length :: ((full.take count).filterMap Event.ofToken? ++
          if full.length ≤ count then
            [.finished filename (full.length - 1) (full.countP Token.isIllegal) lines]
          else []) := by
  obtain ⟨others, whole, not_end⟩ :=
    Cursor.start.stream_eq_append filename source.length (scan source)
  have read := tokenize_eq source filename
  rw [whole] at read
  refine ⟨_, _, _, read, List.getLast?_concat, rfl, rfl, ?_, ?_⟩
  · intro token mem illegal
    rw [← whole] at mem
    obtain ⟨-, c, -, lexeme, -⟩ := exists_char_of_isIllegal mem illegal
    refine ⟨c, lexeme, by rw [Event.ofToken?, if_pos illegal, lexeme]; rfl, ?_⟩
    rw [Event.illegalCharacter_message, Cursor.filename_of_mem_stream mem]
  · cases count with
    | zero => rfl
    | succ count =>
      have told := (Lexer.started_notes source filename).after_nexts whole
        (by simpa [Token.isEndOfFile] using not_end) rfl rfl (count + 1)
      rw [if_neg (Nat.succ_ne_zero count), Lexer.after_nexts_ofSource]
      rw [List.nil_append, List.nil_append] at told
      rw [List.length_append, List.length_singleton]
      by_cases inside : count + 1 ≤ others.length
      · have unfinished : ¬(others.length + 1 ≤ count + 1) := by omega
        rw [if_pos inside] at told
        rw [told.events_eq, if_neg unfinished, List.take_append_of_le_length inside,
          List.append_nil]
      · have finished : others.length + 1 ≤ count + 1 := by omega
        rw [if_neg inside] at told
        rw [told.events_eq, if_pos finished, List.take_of_length_le (by simpa using finished),
          List.filterMap_append, List.countP_append, List.append_assoc]
        rfl

end PriorityLexer
