import PriorityLexer.Proofs.IllegalReports
import PriorityLexer.Proofs.OneStream

namespace PriorityLexer

namespace Cursor

/-- Nothing that the cursor counts is less in the later one. -/
structure Reaches (cursor later : Cursor) : Prop where
  pos_le : cursor.pos ≤ later.pos
  line_le : cursor.line ≤ later.line
  columnStart_le : cursor.columnStart ≤ later.columnStart
  illegalCount_le : cursor.illegalCount ≤ later.illegalCount

theorem Reaches.refl (cursor : Cursor) : cursor.Reaches cursor :=
  ⟨Nat.le_refl _, Nat.le_refl _, Int.le_refl _, Nat.le_refl _⟩

theorem Reaches.trans {cursor middle later : Cursor} (h : cursor.Reaches middle)
    (h' : middle.Reaches later) : cursor.Reaches later :=
  ⟨Nat.le_trans h.pos_le h'.pos_le, Nat.le_trans h.line_le h'.line_le,
    Int.le_trans h.columnStart_le h'.columnStart_le,
    Nat.le_trans h.illegalCount_le h'.illegalCount_le⟩

theorem reaches_past {cursor : Cursor} {m : Match} (pos : cursor.pos = m.offset)
    (start : cursor.columnStart ≤ m.offset) : cursor.Reaches (cursor.past m) := by
  have forward : m.offset ≤ m.stop := Nat.le_add_right _ _
  refine ⟨pos ▸ forward, ?_, ?_, ?_⟩
  · rw [past_line]
    split <;> omega
  · rw [past_columnStart]
    split <;> omega
  · rw [past_illegalCount]
    split <;> omega

theorem past_columnStart_le {cursor : Cursor} {m : Match} (start : cursor.columnStart ≤ m.offset) :
    (cursor.past m).columnStart ≤ m.stop := by
  have forward : m.offset ≤ m.stop := Nat.le_add_right _ _
  rw [past_columnStart]
  split <;> omega

theorem reaches_pastAll {cursor : Cursor} {offset : Nat} {text : Text} {passed after : List Match}
    (scans : Scans offset text (passed ++ after)) (pos : cursor.pos = offset)
    (start : cursor.columnStart ≤ offset) : cursor.Reaches (cursor.pastAll passed) := by
  induction passed generalizing cursor offset text with
  | nil => exact .refl cursor
  | cons m passed ih =>
    obtain ⟨rfl, rest, -, -, further⟩ := scans.of_cons
    exact (reaches_past pos start).trans (ih further rfl (past_columnStart_le start))

theorem pastAll_pos {cursor : Cursor} {offset : Nat} {text : Text} {passed after : List Match}
    (scans : Scans offset text (passed ++ after)) (pos : cursor.pos = offset) :
    (cursor.pastAll passed).pos = offset + (covered passed).length := by
  induction passed generalizing cursor offset text with
  | nil => exact pos
  | cons m passed ih =>
    obtain ⟨rfl, rest, -, -, further⟩ := scans.of_cons
    rw [pastAll_cons, ih further rfl, covered_cons, List.length_append, Match.stop, Nat.add_assoc]

theorem pastAll_append (cursor : Cursor) (before after : List Match) :
    cursor.pastAll (before ++ after) = (cursor.pastAll before).pastAll after :=
  List.foldl_append

theorem pastAll_concat (cursor : Cursor) (before : List Match) (m : Match) :
    cursor.pastAll (before ++ [m]) = (cursor.pastAll before).past m := by
  simp [pastAll]

theorem tokens_append (filename : Text) (cursor : Cursor) (before after : List Match) :
    cursor.tokens filename (before ++ after) =
      cursor.tokens filename before ++ (cursor.pastAll before).tokens filename after := by
  induction before generalizing cursor with
  | nil => rfl
  | cons m before ih => rw [List.cons_append, tokens, ih, tokens, pastAll_cons, List.append_assoc]

theorem columnStart_eq_of_locate (cursor : Cursor) (filename : Text) (offset : Int) :
    cursor.columnStart = offset - (cursor.locate filename offset).column + 1 := by
  simp only [locate]
  omega

theorem length_filter_isIllegal_tokens (filename : Text) (ms : List Match) :
    ((start.tokens filename ms).filter Token.isIllegal).length =
      (start.pastAll ms).illegalCount := by
  have counted := length_filter_isIllegal_stream filename 0 start ms
  rw [stream_eq, List.filter_append, List.length_append] at counted
  rw [pastAll_illegalCount, ← counted]
  exact (Nat.zero_add _).symm

end Cursor

theorem isBoundary_of_append {source : Text} {passed after : List Match}
    (split : scan source = passed ++ after) :
    IsBoundary source passed (covered passed).length := by
  cases after with
  | nil =>
    rw [List.append_nil] at split
    rw [← split, (scans_scan source).covered_eq]
    exact isBoundary_length source
  | cons m after =>
    have scans := scans_scan source
    rw [split] at scans
    have start := scans.offset_eq
    rw [Nat.zero_add] at start
    exact start ▸ isBoundary_offset split

theorem lineStart_eq_zero_or (source : Text) (offset : Nat) :
    lineStart source offset = 0 ∨
      ∃ n, lineStart source offset = n + 1 ∧ source[n]? = some '\n' := by
  unfold lineStart
  cases last : (newlinesUpTo source offset).getLast? with
  | none => exact .inl rfl
  | some m =>
    have mem := List.mem_of_getLast? last
    simp only [newlinesUpTo, List.mem_filter, decide_eq_true_eq] at mem
    obtain ⟨m_mem, newline, -⟩ := mem
    obtain ⟨rest, leads⟩ := (scans_scan source).leads_of_mem m_mem
    have lexeme := leads.lexeme_of_newline newline
    have slice := (slice_of_mem_scan m_mem).2
    rw [lexeme] at slice
    refine .inr ⟨m.offset, ?_, getElem?_of_slice slice⟩
    simp only [Option.map_some, Option.getD_some, Match.stop, lexeme]
    rfl

namespace Lexer

/-- The later lexer has read these of the matches that were pending. -/
structure Passes (lexer later : Lexer) (passed : List Match) : Prop where
  filename_eq : later.filename = lexer.filename
  size_eq : later.size = lexer.size
  pending_eq : lexer.pending = passed ++ later.pending
  cursor_eq : later.cursor = lexer.cursor.pastAll passed
  open_ : later.stage ≠ .ended → lexer.stage ≠ .ended
  ended : lexer.stage ≠ .ended → later.stage = .ended → later.pending = []

/-- Unless it has come to the end, the later lexer waits behind a match that makes a token. -/
structure Halts (lexer later : Lexer) (passed : List Match) : Prop
    extends lexer.Passes later passed where
  waits : later.stage ≠ .ended →
    passed = [] ∨ ∃ before m, passed = before ++ [m] ∧ m.rule.isSkipped = false

variable {lexer middle later : Lexer} {passed further : List Match}

theorem Passes.refl (lexer : Lexer) : lexer.Passes lexer [] :=
  ⟨rfl, rfl, rfl, rfl, id, fun unfinished finished => absurd finished unfinished⟩

theorem Halts.refl (lexer : Lexer) : lexer.Halts lexer [] :=
  ⟨.refl lexer, fun _ => .inl rfl⟩

theorem Passes.trans (h : lexer.Passes middle passed) (h' : middle.Passes later further) :
    lexer.Passes later (passed ++ further) where
  filename_eq := h'.filename_eq.trans h.filename_eq
  size_eq := h'.size_eq.trans h.size_eq
  pending_eq := by rw [h.pending_eq, h'.pending_eq, List.append_assoc]
  cursor_eq := by rw [h'.cursor_eq, h.cursor_eq, Cursor.pastAll_append]
  open_ := fun unfinished => h.open_ (h'.open_ unfinished)
  ended := by
    intro unfinished finished
    by_cases middle_ended : middle.stage = .ended
    · have nothing := h.ended unfinished middle_ended
      rw [h'.pending_eq] at nothing
      exact (List.append_eq_nil_iff.1 nothing).2
    · exact h'.ended middle_ended finished

theorem Halts.trans (h : lexer.Halts middle passed) (h' : middle.Halts later further) :
    lexer.Halts later (passed ++ further) := by
  refine ⟨h.toPasses.trans h'.toPasses, ?_⟩
  intro unfinished
  rcases h'.waits unfinished with rfl | ⟨before, m, rfl, made⟩
  · rw [List.append_nil]
    exact h.waits (h'.open_ unfinished)
  · exact .inr ⟨passed ++ before, m, (List.append_assoc _ _ _).symm, made⟩

theorem started_passes (lexer : Lexer) : lexer.Passes lexer.started [] := by
  unfold started
  cases stage : lexer.stage with
  | untouched | taken => exact ⟨rfl, rfl, rfl, rfl, by simp [stage], by simp⟩
  | reading | ended => exact .refl lexer

theorem past_passes {m : Match} {ms : List Match} (pending : lexer.pending = m :: ms) :
    lexer.Passes (lexer.past m ms) [m] :=
  ⟨rfl, rfl, pending, rfl, id, fun unfinished finished => absurd finished unfinished⟩

theorem finished_passes (pending : lexer.pending = []) (open_ : lexer.stage ≠ .ended) :
    lexer.Passes lexer.finished [] :=
  ⟨rfl, rfl, pending, rfl, fun _ => open_, fun _ _ => rfl⟩

/-- Reading one token passes the skipped matches in front of it and the one that makes it. -/
theorem exists_readToken_passes (lexer : Lexer) {ms : List Match} (pending : lexer.pending = ms)
    (open_ : lexer.stage ≠ .ended) :
    ∃ passed, lexer.Passes (lexer.readToken ms).2 passed ∧
      ((lexer.readToken ms).2.stage ≠ .ended →
        ∃ before m, passed = before ++ [m] ∧ m.rule.isSkipped = false) := by
  induction ms generalizing lexer with
  | nil => exact ⟨[], finished_passes pending open_, fun unfinished => absurd rfl unfinished⟩
  | cons m ms ih =>
    have first := past_passes pending
    rw [readToken, consume_eq]
    cases made : lexer.cursor.token? lexer.filename m with
    | none =>
      obtain ⟨passed, others, waits⟩ := ih (lexer.past m ms) rfl open_
      refine ⟨m :: passed, first.trans others, ?_⟩
      intro unfinished
      obtain ⟨before, last, rfl, not_skipped⟩ := waits unfinished
      exact ⟨m :: before, last, rfl, not_skipped⟩
    | some token =>
      refine ⟨[m], first, fun _ => ⟨[], m, rfl, ?_⟩⟩
      by_contra skipped
      rw [Cursor.token?_of_isSkipped _ (Bool.not_eq_false _ ▸ skipped)] at made
      cases made

theorem readTokens_passes (lexer : Lexer) {ms : List Match} (pending : lexer.pending = ms)
    (open_ : lexer.stage ≠ .ended) : lexer.Passes (lexer.readTokens ms).2 ms := by
  induction ms generalizing lexer with
  | nil => exact finished_passes pending open_
  | cons m ms ih =>
    rw [readTokens_cons]
    exact (past_passes pending).trans (ih (lexer.past m ms) rfl open_)

theorem exists_next_halts (lexer : Lexer) : ∃ passed, lexer.Halts lexer.next.2 passed := by
  unfold next
  split
  · exact ⟨[], .refl lexer⟩
  · rename_i open_
    have opened := lexer.started_passes
    obtain ⟨passed, others, waits⟩ := lexer.started.exists_readToken_passes
      opened.pending_eq.symm (by rw [started_stage lexer open_]; decide)
    exact ⟨passed, opened.trans others, fun unfinished => .inr (waits unfinished)⟩

theorem exists_remaining_halts (lexer : Lexer) :
    ∃ passed, lexer.Halts lexer.remaining.2 passed := by
  unfold remaining
  split
  · exact ⟨[], .refl lexer⟩
  · rename_i open_
    have opened := lexer.started_passes
    have others := lexer.started.readTokens_passes opened.pending_eq.symm
      (by rw [started_stage lexer open_]; decide)
    obtain ⟨later, read, ended⟩ := lexer.started.readTokens_eq lexer.pending
    rw [read] at others ⊢
    exact ⟨_, opened.trans others, fun unfinished => absurd ended unfinished⟩

theorem takeStream_halts (lexer : Lexer) : lexer.Halts lexer.takeStream.2 [] := by
  unfold takeStream
  split
  · rename_i untouched
    exact ⟨⟨rfl, rfl, rfl, rfl, by simp [untouched], by simp⟩, fun _ => .inl rfl⟩
  · exact .refl lexer

theorem exists_pull_halts (lexer : Lexer) (count : Nat) :
    ∃ passed, lexer.Halts (lexer.pull count).2 passed := by
  induction count generalizing lexer with
  | zero => exact ⟨[], .refl lexer⟩
  | succ count ih =>
    obtain ⟨passed, first⟩ := lexer.exists_next_halts
    rcases read : lexer.next with ⟨_ | token, middle⟩ <;> rw [read] at first
    · rw [pull_of_next_error read]
      exact ⟨passed, first⟩
    · obtain ⟨further, others⟩ := ih middle
      rw [pull_of_next_ok read]
      exact ⟨passed ++ further, first.trans others⟩

/-- One step passes some of the pending matches. -/
theorem exists_perform_halts (lexer : Lexer) {step : Step} (quiet : step.interferes = false) :
    ∃ passed, lexer.Halts (lexer.perform step).2 passed := by
  cases step with
  | next => exact lexer.exists_next_halts
  | remaining => exact lexer.exists_remaining_halts
  | takeStream => exact ⟨[], lexer.takeStream_halts⟩
  | pull count => exact lexer.exists_pull_halts count
  | classify rule lexeme offset => cases quiet
  | inspect => exact ⟨[], .refl lexer⟩

/-- So does a run of steps. -/
theorem exists_after_halts (lexer : Lexer) {steps : List Step}
    (quiet : ∀ step ∈ steps, step.interferes = false) :
    ∃ passed, lexer.Halts (lexer.after steps) passed := by
  induction steps generalizing lexer with
  | nil => exact ⟨[], .refl lexer⟩
  | cons step steps ih =>
    obtain ⟨passed, first⟩ := lexer.exists_perform_halts (quiet step List.mem_cons_self)
    obtain ⟨further, others⟩ :=
      ih (lexer.perform step).2 fun later mem => quiet later (List.mem_cons_of_mem step mem)
    exact ⟨passed ++ further, first.trans others⟩

theorem after_remainder (source filename : Text) {steps : List Step}
    (quiet : ∀ step ∈ steps, step.interferes = false) :
    ((ofSource source filename).after steps).remainder =
      (ofSource source filename).remainder.drop
        (Step.position (ofSource source filename).remainder.length steps) := by
  induction steps using List.reverseRecOn with
  | nil => rfl
  | append_singleton steps step ih =>
    have before := ih fun earlier mem => quiet earlier (List.mem_append_left _ mem)
    rw [after_concat, Step.position_concat]
    exact perform_remainder before (quiet step (by simp))

theorem after_append (lexer : Lexer) (before later : List Step) :
    lexer.after (before ++ later) = (lexer.after before).after later :=
  List.foldl_append

/-- The state between two steps of a lexer that has handed out these tokens. The matches behind the
last of them are all pending. -/
structure WaitsBehind (lexer : Lexer) (source : Text) (handed : List Token) : Prop where
  at_start : handed = [] → lexer.cursor = ⟨0, 1, 0, 0⟩ ∧ lexer.pending = scan source
  behind_token : ∀ token, handed.getLast? = some token → token.category ≠ .endOfFile →
    ∃ before m, scan source = before ++ m :: lexer.pending ∧
      token.lexeme = some m.lexeme ∧ token.location.offset = m.offset ∧
      lexer.cursor.pos = m.offset + m.lexeme.length ∧
      lexer.cursor.line = token.location.line ∧
      lexer.cursor.columnStart = token.location.offset - token.location.column + 1
  behind_end : ∀ token, handed.getLast? = some token → token.category = .endOfFile →
    lexer.pending = [] ∧ lexer.cursor.pos = source.length ∧
      lexer.cursor.line = token.location.line ∧
      lexer.cursor.columnStart = source.length - token.location.column + 1
  illegalCount_eq : lexer.cursor.illegalCount = (handed.filter Token.isIllegal).length
  columnStart_le : lexer.cursor.columnStart ≤ lexer.cursor.pos
  line_start : lexer.cursor.columnStart = 0 ∨
    ∃ n : Nat, lexer.cursor.columnStart = n + 1 ∧ source[n]? = some '\n'

section WaitsBehind

variable {source filename : Text} {handed : List Token}

theorem Passes.scan_eq (h : (ofSource source filename).Passes lexer passed) :
    scan source = passed ++ lexer.pending :=
  h.pending_eq

theorem Passes.pos_eq (h : (ofSource source filename).Passes lexer passed) :
    lexer.cursor.pos = (covered passed).length := by
  have scans := scans_scan source
  rw [h.scan_eq] at scans
  rw [h.cursor_eq, Cursor.pastAll_pos scans rfl, Nat.zero_add]

theorem Passes.columnStart_eq (h : (ofSource source filename).Passes lexer passed) :
    lexer.cursor.columnStart = lineStart source lexer.cursor.pos := by
  rw [h.pos_eq, h.cursor_eq]
  exact (isBoundary_of_append h.pending_eq).columnStart_eq

theorem Passes.columnStart_le (h : (ofSource source filename).Passes lexer passed) :
    lexer.cursor.columnStart ≤ lexer.cursor.pos := by
  rw [h.columnStart_eq]
  exact Int.ofNat_le.2 (lineStart_le source _)

theorem Passes.line_start (h : (ofSource source filename).Passes lexer passed) :
    lexer.cursor.columnStart = 0 ∨
      ∃ n : Nat, lexer.cursor.columnStart = n + 1 ∧ source[n]? = some '\n' := by
  rw [h.columnStart_eq]
  exact_mod_cast lineStart_eq_zero_or source lexer.cursor.pos

/-- The lexer has handed out the tokens of the matches that it has passed. -/
theorem Passes.handed_eq (h : (ofSource source filename).Passes lexer passed)
    (unfinished : lexer.stage ≠ .ended)
    (whole : Cursor.start.stream filename source.length (scan source) = handed ++ lexer.remainder) :
    handed = Cursor.start.tokens filename passed := by
  rw [remainder_of_not_ended unfinished, h.filename_eq, h.size_eq, h.cursor_eq, h.scan_eq,
    Cursor.stream_append] at whole
  exact (List.append_cancel_right whole).symm

theorem Halts.exists_last_token (h : lexer.Halts later passed) (unfinished : later.stage ≠ .ended)
    (filename : Text) :
    passed = [] ∨ ∃ before m category, passed = before ++ [m] ∧ m.rule ≠ .newline ∧
      Cursor.start.tokens filename passed = Cursor.start.tokens filename before ++
        [⟨category, some m.lexeme, (Cursor.start.pastAll before).locate filename m.offset⟩] := by
  rcases h.waits unfinished with nothing | ⟨before, m, rfl, not_skipped⟩
  · exact .inl nothing
  · obtain ⟨category, made⟩ :=
      Cursor.exists_token?_of_not_isSkipped filename not_skipped (Cursor.start.pastAll before)
    refine .inr ⟨before, m, category, rfl, ?_, ?_⟩
    · intro newline
      rw [newline] at not_skipped
      cases not_skipped
    · rw [Cursor.tokens_append, Cursor.tokens, made]
      rfl

theorem Halts.waitsBehind_of_not_ended (h : (ofSource source filename).Halts lexer passed)
    (unfinished : lexer.stage ≠ .ended)
    (whole : Cursor.start.stream filename source.length (scan source) = handed ++ lexer.remainder) :
    lexer.WaitsBehind source handed := by
  obtain rfl := h.handed_eq unfinished whole
  have split := h.scan_eq
  have cursor : lexer.cursor = Cursor.start.pastAll passed := h.cursor_eq
  constructor
  · intro nothing
    rcases h.exists_last_token unfinished filename with rfl | ⟨before, m, category, -, -, tokens⟩
    · exact ⟨cursor, split.symm⟩
    · rw [nothing] at tokens
      exact absurd tokens.symm (List.concat_ne_nil _ _)
  · intro token last _
    rcases h.exists_last_token unfinished filename with
      rfl | ⟨before, m, category, rfl, not_newline, tokens⟩
    · cases last
    · rw [tokens, List.getLast?_concat, Option.some.injEq] at last
      rw [cursor, Cursor.pastAll_concat, ← last]
      refine ⟨before, m, by rw [split, List.append_assoc]; rfl, rfl, rfl, rfl, ?_, ?_⟩
      · rw [Cursor.past_line, if_neg not_newline]
        rfl
      · rw [Cursor.past_columnStart, if_neg not_newline]
        exact Cursor.columnStart_eq_of_locate _ filename m.offset
  · intro token last at_end
    exact absurd at_end (Cursor.category_ne_endOfFile_of_mem_tokens (List.mem_of_getLast? last))
  · rw [cursor, Cursor.length_filter_isIllegal_tokens]
  · exact h.columnStart_le
  · exact h.line_start

theorem Halts.waitsBehind_of_ended (h : (ofSource source filename).Halts lexer passed)
    (finished : lexer.stage = .ended)
    (whole : Cursor.start.stream filename source.length (scan source) = handed ++ lexer.remainder) :
    lexer.WaitsBehind source handed := by
  have nothing : lexer.pending = [] := h.ended (by intro stage; cases stage) finished
  have split := h.scan_eq
  rw [nothing, List.append_nil] at split
  have cursor : lexer.cursor = Cursor.start.pastAll passed := h.cursor_eq
  have pos : lexer.cursor.pos = source.length := by
    rw [h.pos_eq, ← split, (scans_scan source).covered_eq]
  rw [remainder_of_ended finished, List.append_nil, split] at whole
  have last_eq : ∀ token, handed.getLast? = some token →
      token = ⟨.endOfFile, none, lexer.cursor.locate filename source.length⟩ := by
    intro token last
    rw [← whole, Cursor.stream_eq, List.getLast?_concat] at last
    rw [cursor]
    exact (Option.some.inj last).symm
  constructor
  · intro empty
    obtain ⟨token, rest, nonempty⟩ :=
      Cursor.exists_stream_eq_cons filename source.length Cursor.start passed
    rw [whole, empty] at nonempty
    cases nonempty
  · intro token last not_end
    rw [last_eq token last] at not_end
    exact absurd rfl not_end
  · intro token last _
    rw [last_eq token last]
    exact ⟨nothing, pos, rfl, lexer.cursor.columnStart_eq_of_locate filename source.length⟩
  · rw [← whole, Cursor.length_filter_isIllegal_stream, cursor, Cursor.pastAll_illegalCount]
    exact Nat.zero_add _
  · exact h.columnStart_le
  · exact h.line_start

theorem Passes.reaches (h : (ofSource source filename).Passes middle passed)
    (h' : middle.Passes later further) : middle.cursor.Reaches later.cursor := by
  have scans := scans_scan source
  rw [h.scan_eq, h'.pending_eq] at scans
  obtain ⟨rest, -, others⟩ := scans.of_append
  rw [Nat.zero_add, ← h.pos_eq] at others
  rw [h'.cursor_eq]
  exact Cursor.reaches_pastAll others rfl h.columnStart_le

end WaitsBehind

end Lexer

/-- Whatever steps read a lexer, it waits behind the token handed out last, and no step takes its
cursor back. The position that the steps lead to says how many tokens have been handed out. -/
theorem cursor_waits_behind_last_token (source filename : Text) {steps : List Step}
    (quiet : ∀ step ∈ steps, step.interferes = false) :
    let lexer := (Lexer.ofSource source filename).after steps
    ∃ full, tokenize source filename = .ok full ∧
      lexer.remaining.1 = .ok (full.drop (Step.position full.length steps)) ∧
      lexer.WaitsBehind source (full.take (Step.position full.length steps)) ∧
      ∀ before later, steps = before ++ later →
        ((Lexer.ofSource source filename).after before).cursor.Reaches lexer.cursor := by
  intro lexer
  obtain ⟨full, full_eq⟩ :
      ∃ full, Cursor.start.stream filename source.length (scan source) = full := ⟨_, rfl⟩
  have left : lexer.remainder = full.drop (Step.position full.length steps) := by
    rw [← full_eq]
    exact Lexer.after_remainder source filename quiet
  have whole : Cursor.start.stream filename source.length (scan source) =
      full.take (Step.position full.length steps) ++ lexer.remainder := by
    rw [full_eq, left, List.take_append_drop]
  obtain ⟨passed, halts⟩ := (Lexer.ofSource source filename).exists_after_halts quiet
  obtain ⟨behind, rest, -, -⟩ := lexer.remaining_eq
  refine ⟨full, full_eq ▸ tokenize_eq source filename, by rw [rest, left], ?_, ?_⟩
  · by_cases finished : lexer.stage = .ended
    · exact halts.waitsBehind_of_ended finished whole
    · exact halts.waitsBehind_of_not_ended finished whole
  · rintro before later rfl
    obtain ⟨passed, halts⟩ := (Lexer.ofSource source filename).exists_after_halts
      fun step mem => quiet step (List.mem_append_left _ mem)
    obtain ⟨further, halts'⟩ := ((Lexer.ofSource source filename).after before).exists_after_halts
      fun step mem => quiet step (List.mem_append_right _ mem)
    have forward := halts.reaches halts'.toPasses
    rwa [← Lexer.after_append] at forward

/-- The comment and the newline behind an illegal character wait for the step that reads on to the
end. -/
theorem cursor_waits_behind_last_token_on_comment :
    let source := "a\n # /* b */\n".toList
    let steps : List Step := [.next, .takeStream, .pull 1]
    let first : Token := ⟨.identifier, some ['a'], ⟨['f'], 1, 1, 0⟩⟩
    let second : Token := ⟨.illegalChar, some ['#'], ⟨['f'], 2, 2, 3⟩⟩
    let lexer := (Lexer.ofSource source ['f']).after steps
    (∀ step ∈ steps, step.interferes = false) ∧ lexer.cursor = ⟨4, 2, 2, 1⟩ ∧
      lexer.WaitsBehind source [first, second] ∧
      ((Lexer.ofSource source ['f']).after [.next]).cursor.Reaches lexer.cursor ∧
      lexer.remaining.1 = .ok [⟨.endOfFile, none, ⟨['f'], 3, 1, 13⟩⟩] := by
  intro source steps first second lexer
  have quiet : ∀ step ∈ steps, step.interferes = false := by decide
  obtain ⟨full, read, rest, waits, forward⟩ := cursor_waits_behind_last_token source ['f'] quiet
  have full_eq : full = [first, second, ⟨.endOfFile, none, ⟨['f'], 3, 1, 13⟩⟩] :=
    Except.ok.inj (read.symm.trans (by decide +kernel))
  subst full_eq
  exact ⟨quiet, by decide +kernel, waits, forward [.next] [.takeStream, .pull 1] rfl, rest⟩

end PriorityLexer
