import PriorityLexer.Proofs.Lookahead
import PriorityLexer.Proofs.Positions

namespace PriorityLexer

/-- The match as it stands in a text with so many characters more in front. -/
def Match.shifted (count : Nat) (m : Match) : Match := { m with offset := m.offset + count }

/-- The place in a text with so many lines and characters more in front. -/
def Location.moved (lines count : Int) (location : Location) : Location :=
  { location with line := location.line + lines, offset := location.offset + count }

def Token.moved (lines count : Int) (token : Token) : Token :=
  { token with location := token.location.moved lines count }

theorem Match.shifted_stop (count : Nat) (m : Match) : (m.shifted count).stop = m.stop + count := by
  simp only [shifted, stop]
  omega

theorem Scans.shifted {offset : Nat} {text : Text} {ms : List Match} (h : Scans offset text ms)
    (count : Nat) : Scans (offset + count) text (ms.map (Match.shifted count)) := by
  induction h with
  | nil offset => exact .nil (offset + count)
  | @cons m rest ms leads scans ih =>
    rw [← Match.shifted_stop] at ih
    have leads' : (m.shifted count).Leads rest := leads
    exact .cons leads' ih

theorem leads_newline (offset : Nat) (rest : Text) :
    Match.Leads ⟨.newline, ['\n'], offset⟩ rest :=
  ⟨_, headHit?_newline rest, rfl, rfl⟩

namespace Cursor

variable {cursor cursor' : Cursor} {lines : Nat} {count : Nat}

theorem locate_shifted (filename : Text) (offset : Nat) (line : cursor'.line = cursor.line + lines)
    (columnStart : cursor'.columnStart = cursor.columnStart + count) :
    cursor'.locate filename (offset + count : Nat) =
      (cursor.locate filename offset).moved lines count := by
  simp only [locate, Location.moved, line, columnStart, Location.mk.injEq, true_and]
  omega

theorem token?_shifted (filename : Text) (m : Match) (line : cursor'.line = cursor.line + lines)
    (columnStart : cursor'.columnStart = cursor.columnStart + count) :
    cursor'.token? filename (m.shifted count) =
      (cursor.token? filename m).map (Token.moved lines count) := by
  simp only [token?, Match.shifted, locate_shifted filename m.offset line columnStart,
    Option.map_map]
  rfl

/-- The stream of a text that stands further down hands out the same tokens, moved. -/
theorem stream_shifted (filename : Text) (size : Nat) (ms : List Match)
    (line : cursor'.line = cursor.line + lines)
    (columnStart : cursor'.columnStart = cursor.columnStart + count) :
    cursor'.stream filename (size + count) (ms.map (Match.shifted count)) =
      (cursor.stream filename size ms).map (Token.moved lines count) := by
  induction ms generalizing cursor cursor' with
  | nil =>
    simp only [List.map_nil, stream, locate_shifted filename size line columnStart]
    rfl
  | cons m ms ih =>
    have line' : (cursor'.past (m.shifted count)).line = (cursor.past m).line + lines := by
      rw [past_line, past_line, line]
      show (if m.rule = .newline then _ else _) = _
      split <;> omega
    have columnStart' : (cursor'.past (m.shifted count)).columnStart =
        (cursor.past m).columnStart + count := by
      rw [past_columnStart, past_columnStart, columnStart, Match.shifted_stop]
      show (if m.rule = .newline then _ else _) = _
      split <;> omega
    rw [List.map_cons, stream, stream, token?_shifted filename m line columnStart,
      ih line' columnStart', List.map_append, Option.toList_map]

end Cursor

theorem scan_joined {source : Text} (closed : ∀ m ∈ scan source, ¬ m.IsOpen (source.drop m.stop))
    (other : Text) :
    scan (source ++ '\n' :: other) =
      scan source ++ ⟨.newline, ['\n'], source.length⟩ ::
        (scan other).map (Match.shifted (source.length + 1)) := by
  have scans := scans_scan source
  have covers := scans.covered_eq
  have behind := (scans_scan other).shifted (source.length + 1)
  rw [Nat.zero_add] at behind
  have line : Scans source.length ('\n' :: other) (⟨.newline, ['\n'], source.length⟩ ::
      (scan other).map (Match.shifted (source.length + 1))) :=
    .cons (leads_newline source.length other) behind
  have alone : Scans 0 (covered (scan source) ++ []) (scan source ++ []) := by
    rwa [List.append_nil, List.append_nil, covers]
  -- the end of the source and a newline leave nothing to see
  have begins : ahead [] = ahead ('\n' :: other) := rfl
  have whole := alone.exchange (by rw [covers, List.append_nil, List.drop_zero]) closed
    (fun _ => begins) (by rwa [Nat.zero_add, covers])
  rw [covers] at whole
  exact whole.eq_scanFrom.symm

/-- A text without open matches, a newline and any other text are scanned one after the other, and
the tokens of the other text follow those of the first, moved by its lines and characters. -/
theorem tokenize_joined (source other filename : Text)
    (closed : ∀ m ∈ scan source, ¬ m.IsOpen (source.drop m.stop)) :
    scan (source ++ '\n' :: other) =
        scan source ++ ⟨.newline, ['\n'], source.length⟩ ::
          (scan other).map (Match.shifted (source.length + 1)) ∧
      ∃ tokens last tokens',
        tokenize source filename = .ok (tokens ++ [last]) ∧
        last.category = .endOfFile ∧ (∀ token ∈ tokens, token.category ≠ .endOfFile) ∧
        tokenize other filename = .ok tokens' ∧
        tokenize (source ++ '\n' :: other) filename =
          .ok (tokens ++ tokens'.map (Token.moved last.location.line (source.length + 1))) := by
  have joined := scan_joined closed other
  have length_eq : (source ++ '\n' :: other).length = other.length + (source.length + 1) := by
    rw [List.length_append, List.length_cons]
    omega
  -- behind the newline the cursor has passed the lines of the source and a new line begins
  have line : ((Cursor.start.pastAll (scan source)).past ⟨.newline, ['\n'], source.length⟩).line =
      Cursor.start.line + (Cursor.start.pastAll (scan source)).line := Nat.add_comm _ _
  have columnStart :
      ((Cursor.start.pastAll (scan source)).past ⟨.newline, ['\n'], source.length⟩).columnStart =
        Cursor.start.columnStart + (source.length + 1 : Nat) := (Int.zero_add _).symm
  have moved := Cursor.stream_shifted filename other.length (scan other) line columnStart
  refine ⟨joined, Cursor.start.tokens filename (scan source),
    ⟨.endOfFile, none, (Cursor.start.pastAll (scan source)).locate filename source.length⟩, _,
    ?_, rfl, fun _ => Cursor.category_ne_endOfFile_of_mem_tokens, tokenize_eq other filename, ?_⟩
  · rw [tokenize_eq, Cursor.stream_eq]
  · rw [tokenize_of_append joined, Cursor.stream, length_eq, moved]
    rfl

/-- The quote in the comment opens no string, and the one in the second line does not reach back. -/
theorem tokenize_joined_behind_comment :
    (∀ m ∈ scan "0x//\"".toList, ¬ m.IsOpen ("0x//\"".toList.drop m.stop)) ∧
      tokenize "0x//\"\nf\"".toList [] =
        .ok [⟨.intLiteral, some ['0'], ⟨[], 1, 1, 0⟩⟩, ⟨.identifier, some ['x'], ⟨[], 1, 2, 1⟩⟩,
          ⟨.identifier, some ['f'], ⟨[], 2, 1, 6⟩⟩, ⟨.illegalChar, some ['"'], ⟨[], 2, 2, 7⟩⟩,
          ⟨.endOfFile, none, ⟨[], 2, 3, 8⟩⟩] := by
  have closed : ∀ m ∈ scan "0x//\"".toList, ¬ m.IsOpen ("0x//\"".toList.drop m.stop) := by
    decide +kernel
  obtain ⟨-, tokens, last, tokens', read, -, -, read', joined⟩ :=
    tokenize_joined "0x//\"".toList "f\"".toList [] closed
  have first : tokens ++ [last] =
      [⟨.intLiteral, some ['0'], ⟨[], 1, 1, 0⟩⟩, ⟨.identifier, some ['x'], ⟨[], 1, 2, 1⟩⟩] ++
        [⟨.endOfFile, none, ⟨[], 1, 6, 5⟩⟩] :=
    Except.ok.inj (read.symm.trans (by decide +kernel))
  have second : tokens' =
      [⟨.identifier, some ['f'], ⟨[], 1, 1, 0⟩⟩, ⟨.illegalChar, some ['"'], ⟨[], 1, 2, 1⟩⟩,
        ⟨.endOfFile, none, ⟨[], 1, 3, 2⟩⟩] :=
    Except.ok.inj (read'.symm.trans (by decide +kernel))
  obtain ⟨rfl, same⟩ := List.append_inj' first rfl
  obtain rfl := List.singleton_inj.1 same
  subst second
  exact ⟨closed, joined⟩

end PriorityLexer
