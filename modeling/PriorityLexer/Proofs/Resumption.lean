import PriorityLexer.Proofs.JoinedLines

namespace PriorityLexer

/-- The hit as it is in a text with so many characters more in front. -/
def Hit.shifted (count : Nat) (hit : Hit) : Hit := { hit with extent := hit.extent + count }

/-- The place in a source of what has this place in the text from `start` on, for a lexer that has
come to `start` with its cursor. -/
def Location.resumed (start : Nat) (entry : Cursor) (location : Location) : Location :=
  { location with
    line := location.line + (entry.line - 1)
    column :=
      if location.line = 1 then location.column + (start - entry.columnStart) else location.column
    offset := location.offset + start }

def Token.resumed (start : Nat) (entry : Cursor) (token : Token) : Token :=
  { token with location := token.location.resumed start entry }

/-- Reads one match after the other, which leaves the matches in `rest`. -/
def Lexer.consumeAll (rest : List Match) (lexer : Lexer) : List Match → Except Fault Lexer
  | [] => .ok lexer
  | m :: ms =>
    match lexer.consume m (ms ++ rest) with
    | (.error fault, _) => .error fault
    | (.ok _, lexer) => lexer.consumeAll rest ms

theorem matchAt_drop {source : Text} {position : Nat} (inside : position < source.length) :
    matchAt source position =
      (matchAt (source.drop position) 0).map (Hit.shifted position) := by
  obtain ⟨hit, taken⟩ := exists_headHit? (List.drop_eq_nil_iff.not.2 (Nat.not_le.2 inside))
  rw [matchAt_eq, matchAt_eq, Int.toNat_natCast, Int.toNat_zero, List.drop_zero, taken]
  simp only [Except.map, Hit.shifted, Nat.zero_add, Nat.add_comm position]

theorem Lexer.consumeAll_eq (rest : List Match) (lexer : Lexer) (ms : List Match) :
    ∃ later, lexer.consumeAll rest ms = .ok later ∧ later.cursor = lexer.cursor.pastAll ms := by
  induction ms generalizing lexer with
  | nil => exact ⟨lexer, rfl, rfl⟩
  | cons m ms ih =>
    obtain ⟨later, read, cursor⟩ := ih (lexer.past m (ms ++ rest))
    refine ⟨later, ?_, cursor⟩
    rw [consumeAll, consume_eq]
    exact read

namespace Cursor

/-- The one cursor stands in a source where the other stands in the text from `start` on, after a
lexer has come to `start` with the cursor `entry`. Up to the first newline both are still on the
line of `start`. -/
structure Resumes (start : Nat) (entry cursor cursor' : Cursor) : Prop where
  line : (cursor'.line : Int) = cursor.line + (entry.line - 1)
  positive : 1 ≤ cursor.line
  onFirst : cursor.line = 1 →
    cursor.columnStart = 0 ∧ cursor'.columnStart = entry.columnStart
  behind : cursor.line ≠ 1 → cursor'.columnStart = cursor.columnStart + start

variable {start : Nat} {entry cursor cursor' : Cursor}

theorem resumes_start (start : Nat) (entry : Cursor) : Resumes start entry Cursor.start entry where
  line := by
    show (entry.line : Int) = (1 : Nat) + (entry.line - 1)
    omega
  positive := Nat.le_refl 1
  onFirst := fun _ => ⟨rfl, rfl⟩
  behind := fun other => absurd rfl other

/-- One step: both cursors pass the same match, and behind a newline a line begins for both. -/
theorem Resumes.past (h : Resumes start entry cursor cursor') (m : Match) :
    Resumes start entry (cursor.past m) (cursor'.past (m.shifted start)) := by
  have rule : (m.shifted start).rule = m.rule := rfl
  have line := h.line
  have positive := h.positive
  by_cases newline : m.rule = .newline
  · constructor
    · rw [past_line, past_line, rule, if_pos newline, if_pos newline]
      omega
    · rw [past_line, if_pos newline]
      omega
    · intro first
      rw [past_line, if_pos newline] at first
      omega
    · intro _
      rw [past_columnStart, past_columnStart, rule, if_pos newline, if_pos newline,
        Match.shifted_stop, Int.natCast_add]
  · have line_eq : (cursor.past m).line = cursor.line := by rw [past_line, if_neg newline]
    have start_eq : (cursor.past m).columnStart = cursor.columnStart := by
      rw [past_columnStart, if_neg newline]
    have line_eq' : (cursor'.past (m.shifted start)).line = cursor'.line := by
      rw [past_line, rule, if_neg newline]
    have start_eq' : (cursor'.past (m.shifted start)).columnStart = cursor'.columnStart := by
      rw [past_columnStart, rule, if_neg newline]
    constructor
    · rw [line_eq, line_eq', line]
    · rwa [line_eq]
    · rw [line_eq, start_eq, start_eq']
      exact h.onFirst
    · rw [line_eq, start_eq, start_eq']
      exact h.behind

theorem Resumes.locate_eq (h : Resumes start entry cursor cursor') (filename : Text)
    (offset : Nat) :
    cursor'.locate filename (offset + start : Nat) =
      (cursor.locate filename offset).resumed start entry := by
  have line := h.line
  by_cases first : cursor.line = 1
  · obtain ⟨origin, entered⟩ := h.onFirst first
    have onFirst : (cursor.locate filename offset).line = 1 := congrArg Nat.cast first
    rw [Location.resumed, if_pos onFirst]
    simp only [locate, Location.mk.injEq, true_and]
    omega
  · have columnStart := h.behind first
    have further : (cursor.locate filename offset).line ≠ 1 := fun same => first (by
      simp only [locate] at same
      omega)
    rw [Location.resumed, if_neg further]
    simp only [locate, Location.mk.injEq, true_and]
    omega

theorem Resumes.token?_eq (h : Resumes start entry cursor cursor') (filename : Text) (m : Match) :
    cursor'.token? filename (m.shifted start) =
      (cursor.token? filename m).map (Token.resumed start entry) := by
  simp only [token?, Match.shifted, h.locate_eq, Option.map_map]
  rfl

/-- A run: the stream from a boundary on hands out the tokens of the text that begins there. -/
theorem Resumes.stream_eq (h : Resumes start entry cursor cursor') (filename : Text) (size : Nat)
    (ms : List Match) :
    cursor'.stream filename (size + start) (ms.map (Match.shifted start)) =
      (cursor.stream filename size ms).map (Token.resumed start entry) := by
  induction ms generalizing cursor cursor' with
  | nil =>
    simp only [List.map_nil, stream, h.locate_eq]
    rfl
  | cons m ms ih =>
    rw [List.map_cons, stream, stream, h.token?_eq, ih (h.past m), List.map_append,
      Option.toList_map]

theorem exists_offset_of_mem_tokens {filename : Text} {ms : List Match} {token : Token}
    (mem : token ∈ cursor.tokens filename ms) : ∃ m ∈ ms, token.location.offset = m.offset := by
  induction ms generalizing cursor with
  | nil => cases mem
  | cons m ms ih =>
    rcases List.mem_append.1 mem with own | further
    · obtain ⟨category, -, rfl⟩ := Option.map_eq_some_iff.1 (Option.mem_toList.1 own)
      exact ⟨m, List.mem_cons_self, rfl⟩
    · obtain ⟨m', m_mem, offset⟩ := ih further
      exact ⟨m', List.mem_cons_of_mem m m_mem, offset⟩

end Cursor

/-- The places where a match of the source begins, and the end of the source. -/
def boundaries (source : Text) : List Nat := (scan source).map Match.offset ++ [source.length]

theorem exists_split_of_mem_boundaries {source : Text} {start : Nat}
    (boundary : start ∈ boundaries source) :
    ∃ before after, scan source = before ++ after ∧ IsBoundary source before start := by
  rcases List.mem_append.1 boundary with inside | last
  · obtain ⟨m, mem, rfl⟩ := List.mem_map.1 inside
    obtain ⟨before, after, split⟩ := List.append_of_mem mem
    exact ⟨before, m :: after, split, isBoundary_offset split⟩
  · rw [List.mem_singleton.1 last]
    exact ⟨scan source, [], (List.append_nil _).symm, isBoundary_length source⟩

theorem scan_resumed {source : Text} {before after : List Match} {start : Nat}
    (split : scan source = before ++ after) (boundary : IsBoundary source before start) :
    after = (scan (source.drop start)).map (Match.shifted start) := by
  have scans : Scans 0 source (before ++ after) := split ▸ scans_scan source
  have length_eq : (covered before).length = start := by
    rw [boundary.covers, List.length_take_of_le boundary.inside]
  obtain ⟨rest, whole, behind⟩ := scans.of_append
  have rest_eq : source.drop start = rest := by rw [whole, ← length_eq, List.drop_left]
  have resumed := (scans_scan rest).shifted start
  rw [rest_eq, resumed.eq_scanFrom, behind.eq_scanFrom, length_eq]

section Boundary

variable {source filename : Text} {before after : List Match} {start : Nat}

theorem stream_resumed (split : scan source = before ++ after)
    (boundary : IsBoundary source before start) :
    (Cursor.start.pastAll before).stream filename source.length after =
      (Cursor.start.stream filename (source.drop start).length (scan (source.drop start))).map
        (Token.resumed start (Cursor.start.pastAll before)) := by
  have inside := boundary.inside
  have length_eq : source.length = (source.drop start).length + start := by
    rw [List.length_drop]
    omega
  rw [scan_resumed split boundary, length_eq]
  exact (Cursor.resumes_start start _).stream_eq filename _ _

theorem offset_lt_of_mem_tokens (boundary : IsBoundary source before start) {cursor : Cursor}
    {token : Token} (mem : token ∈ cursor.tokens filename before) :
    token.location.offset < start := by
  obtain ⟨m, m_mem, offset⟩ := Cursor.exists_offset_of_mem_tokens mem
  rw [← boundary.matches_before, List.mem_filter, decide_eq_true_eq] at m_mem
  have bounds := (scans_scan source).bounds m_mem.1
  omega

theorem le_offset_of_mem_resumed {entry : Cursor} {token : Token}
    (mem : token ∈ (Cursor.start.stream filename source.length (scan source)).map
      (Token.resumed start entry)) : (start : Int) ≤ token.location.offset := by
  obtain ⟨token', mem', rfl⟩ := List.mem_map.1 mem
  obtain ⟨-, offset, -, place⟩ := exists_boundary_of_mem_stream mem'
  simp only [Token.resumed, Location.resumed, place, placeOf]
  omega

end Boundary

/-- The match at a position is the match at the beginning of the text there. The tokens from a
boundary on are therefore those of the text that begins there. They stand so many lines further
down as the lexer has passed on its way to the boundary, and on the first line as many columns
further right as lie between the beginning of that line and the boundary. -/
theorem tokenize_resumed (source filename : Text) :
    (∀ position : Nat, position < source.length →
      matchAt source position =
        (matchAt (source.drop position) 0).map (Hit.shifted position)) ∧
    ∀ start ∈ boundaries source, ∃ lexer tokens tokens',
      (Lexer.ofSource source filename).started.consumeAll
          ((scan source).filter fun m => start ≤ m.offset)
          ((scan source).filter fun m => m.stop ≤ start) = .ok lexer ∧
        tokenize source filename = .ok tokens ∧
        tokenize (source.drop start) filename = .ok tokens' ∧
        tokens.filter (fun token => (start : Int) ≤ token.location.offset) =
          tokens'.map (Token.resumed start lexer.cursor) := by
  refine ⟨fun position inside => matchAt_drop inside, ?_⟩
  intro start mem
  obtain ⟨before, after, split, boundary⟩ := exists_split_of_mem_boundaries mem
  obtain ⟨lexer, read, cursor⟩ := (Lexer.ofSource source filename).started.consumeAll_eq
    ((scan source).filter fun m => start ≤ m.offset) before
  have entry : lexer.cursor = Cursor.start.pastAll before := cursor
  refine ⟨lexer, _, _, ?_, tokenize_of_append split filename, tokenize_eq _ filename, ?_⟩
  · rw [boundary.matches_before]
    exact read
  · rw [stream_resumed split boundary, entry, List.filter_append, List.filter_eq_nil_iff.2 ?_,
      List.nil_append, List.filter_eq_self.2 ?_]
    · intro token mem
      exact decide_eq_true (le_offset_of_mem_resumed mem)
    · intro token mem
      have before_start := offset_lt_of_mem_tokens boundary mem
      simp only [decide_eq_true_eq]
      omega

/-- The string stands in the third column of the second line, and hides a newline. What follows it
on the next line keeps its column. -/
theorem tokenize_resumed_at_string :
    4 ∈ boundaries "a\n  'b\nc' \n\"".toList ∧
      ∃ tokens, tokenize "a\n  'b\nc' \n\"".toList [] = .ok tokens ∧
        tokens.filter (fun token => ((4 : Nat) : Int) ≤ token.location.offset) =
          [⟨.string, some "'b\nc'".toList, ⟨[], 2, 3, 4⟩⟩,
            ⟨.illegalChar, some ['"'], ⟨[], 3, 1, 11⟩⟩, ⟨.endOfFile, none, ⟨[], 3, 2, 12⟩⟩] := by
  have boundary : 4 ∈ boundaries "a\n  'b\nc' \n\"".toList := by decide +kernel
  obtain ⟨lexer, tokens, tokens', passed, read, read', resumed⟩ :=
    (tokenize_resumed "a\n  'b\nc' \n\"".toList []).2 4 boundary
  have entry : lexer.cursor = ⟨4, 2, 2, 0⟩ := by
    have cursor := congrArg (Except.map Lexer.cursor) passed
    exact Except.ok.inj (cursor.symm.trans (by decide +kernel))
  have alone : tokens' = [⟨.string, some "'b\nc'".toList, ⟨[], 1, 1, 0⟩⟩,
      ⟨.illegalChar, some ['"'], ⟨[], 2, 1, 7⟩⟩, ⟨.endOfFile, none, ⟨[], 2, 2, 8⟩⟩] :=
    Except.ok.inj (read'.symm.trans (by decide +kernel))
  rw [entry, alone] at resumed
  exact ⟨boundary, tokens, read, resumed⟩

end PriorityLexer
