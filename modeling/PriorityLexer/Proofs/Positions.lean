import PriorityLexer.Proofs.Lexemes
import PriorityLexer.Proofs.TokenStream

namespace PriorityLexer

/-- The newline matches of the source that end at or before the offset. -/
def newlinesUpTo (source : Text) (offset : Nat) : List Match :=
  (scan source).filter fun m => m.rule = .newline ∧ m.stop ≤ offset

/-- The end of the last newline match that ends at or before the offset. -/
def lineStart (source : Text) (offset : Nat) : Nat :=
  ((newlinesUpTo source offset).getLast?.map Match.stop).getD 0

/-- How many newlines lie inside the comments and strings that end at or before the offset. -/
def hiddenNewlines (source : Text) (offset : Nat) : Nat :=
  (covered ((scan source).filter
    fun m => (m.rule = .comment ∨ m.rule = .string) ∧ m.stop ≤ offset)).count '\n'

/-- The order of reading: line by line, and on one line by column. -/
def Location.Precedes (a b : Location) : Prop :=
  a.line < b.line ∨ (a.line = b.line ∧ a.column < b.column)

/-- The offset lies between the matches of the source, with these before it. -/
structure IsBoundary (source : Text) (before : List Match) (offset : Nat) : Prop where
  matches_before : (scan source).filter (fun m => m.stop ≤ offset) = before
  covers : covered before = source.take offset
  inside : offset ≤ source.length

theorem isBoundary_offset {source : Text} {before after : List Match} {m : Match}
    (split : scan source = before ++ m :: after) : IsBoundary source before m.offset := by
  have scans := scans_scan source
  rw [split] at scans
  have start := scans.offset_eq
  obtain ⟨rest, source_eq, -⟩ := scans.of_append
  rw [Nat.zero_add] at start
  refine ⟨?_, ?_, ?_⟩
  · rw [split]
    exact scans.filter_stop_le
  · rw [start, source_eq, List.take_left]
  · have := congrArg List.length source_eq
    rw [List.length_append] at this
    omega

theorem isBoundary_length (source : Text) : IsBoundary source (scan source) source.length := by
  have scans := scans_scan source
  refine ⟨List.filter_eq_self.2 ?_, ?_, Nat.le_refl _⟩
  · intro m mem
    have := (scans.bounds mem).2.2
    exact decide_eq_true (by omega)
  · rw [scans.covered_eq, List.take_length]

namespace Cursor

theorem past_line (cursor : Cursor) (m : Match) :
    (cursor.past m).line = if m.rule = .newline then cursor.line + 1 else cursor.line := by
  unfold past classified
  cases m.rule <;> rfl

theorem past_columnStart (cursor : Cursor) (m : Match) :
    (cursor.past m).columnStart =
      if m.rule = .newline then (m.stop : Int) else cursor.columnStart := by
  unfold past classified
  cases m.rule <;> rfl

theorem pastAll_line (cursor : Cursor) (ms : List Match) :
    (cursor.pastAll ms).line = cursor.line + (ms.filter fun m => m.rule = .newline).length := by
  induction ms generalizing cursor with
  | nil => rfl
  | cons m ms ih =>
    rw [pastAll_cons, ih, past_line]
    by_cases newline : m.rule = .newline
    · simp [newline]
      omega
    · simp [newline]

theorem pastAll_columnStart (cursor : Cursor) (ms : List Match) :
    (cursor.pastAll ms).columnStart =
      ((ms.filter fun m => m.rule = .newline).getLast?.map fun m => (m.stop : Int)).getD
        cursor.columnStart := by
  induction ms generalizing cursor with
  | nil => rfl
  | cons m ms ih =>
    rw [pastAll_cons, ih, past_columnStart]
    by_cases newline : m.rule = .newline
    · rw [if_pos newline, List.filter_cons_of_pos (by simpa using newline), List.getLast?_cons]
      cases (ms.filter fun m => m.rule = .newline).getLast? <;> rfl
    · rw [if_neg newline, List.filter_cons_of_neg (by simpa using newline)]

end Cursor

section Boundary

variable {source filename : Text} {before : List Match} {offset : Nat}

theorem IsBoundary.newlinesUpTo_eq (h : IsBoundary source before offset) :
    newlinesUpTo source offset = before.filter fun m => m.rule = .newline := by
  rw [← h.matches_before, List.filter_filter, newlinesUpTo]
  simp

theorem IsBoundary.line_eq (h : IsBoundary source before offset) :
    (Cursor.start.pastAll before).line = 1 + (newlinesUpTo source offset).length := by
  rw [Cursor.pastAll_line, h.newlinesUpTo_eq]
  rfl

theorem IsBoundary.columnStart_eq (h : IsBoundary source before offset) :
    (Cursor.start.pastAll before).columnStart = lineStart source offset := by
  rw [Cursor.pastAll_columnStart, lineStart, h.newlinesUpTo_eq]
  cases (before.filter fun m => m.rule = .newline).getLast? <;> rfl

end Boundary

theorem Match.Leads.count_newline {m : Match} {rest : Text} (h : m.Leads rest) :
    m.lexeme.count '\n' =
      (if m.rule = .newline then 1 else 0) +
        (if m.rule = .comment ∨ m.rule = .string then m.lexeme.count '\n' else 0) := by
  by_cases newline : m.rule = .newline
  · simp [newline, h.lexeme_of_newline newline]
  · by_cases hides : m.rule = .comment ∨ m.rule = .string
    · simp [newline, hides]
    · rw [not_or] at hides
      have absent := h.newline_not_mem newline hides.1 hides.2
      simp [newline, hides, List.count_eq_zero.2 absent]

theorem count_newline_covered {ms : List Match} (leads : ∀ m ∈ ms, ∃ rest, m.Leads rest) :
    (covered ms).count '\n' =
      (ms.filter fun m => m.rule = .newline).length +
        (covered (ms.filter fun m => m.rule = .comment ∨ m.rule = .string)).count '\n' := by
  induction ms with
  | nil => rfl
  | cons m ms ih =>
    obtain ⟨rest, first⟩ := leads m List.mem_cons_self
    have others := ih fun m' mem => leads m' (List.mem_cons_of_mem m mem)
    rw [covered_cons, List.count_append, others, first.count_newline]
    by_cases newline : m.rule = .newline
    · simp [newline]
      omega
    · by_cases hides : m.rule = .comment ∨ m.rule = .string
      · simp [newline, hides]
        omega
      · simp [newline, hides]

/-- The newlines before a boundary are its lines and the newlines that are hidden. -/
theorem IsBoundary.count_newline {source : Text} {before : List Match} {offset : Nat}
    (h : IsBoundary source before offset) :
    (source.take offset).count '\n' =
      (newlinesUpTo source offset).length + hiddenNewlines source offset := by
  have hidden : (before.filter fun m => m.rule = .comment ∨ m.rule = .string) =
      (scan source).filter fun m => (m.rule = .comment ∨ m.rule = .string) ∧ m.stop ≤ offset := by
    rw [← h.matches_before, List.filter_filter]
    simp
  have leads : ∀ m ∈ before, ∃ rest, m.Leads rest := by
    intro m mem
    rw [← h.matches_before] at mem
    exact (scans_scan source).leads_of_mem (List.mem_of_mem_filter mem)
  rw [← h.covers, count_newline_covered leads, hidden, h.newlinesUpTo_eq, hiddenNewlines]

theorem lineStart_le (source : Text) (offset : Nat) : lineStart source offset ≤ offset := by
  unfold lineStart
  cases last : (newlinesUpTo source offset).getLast? with
  | none => exact Nat.zero_le _
  | some m =>
    have mem := List.mem_of_getLast? last
    simp only [newlinesUpTo, List.mem_filter, decide_eq_true_eq] at mem
    exact mem.2.2

theorem newlinesUpTo_mono (source : Text) {offset offset' : Nat} (le : offset ≤ offset') :
    (newlinesUpTo source offset).length < (newlinesUpTo source offset').length ∨
      newlinesUpTo source offset = newlinesUpTo source offset' := by
  -- with no more lines up to the later offset the newline matches are the same ones
  have sublist : (newlinesUpTo source offset).Sublist (newlinesUpTo source offset') := by
    apply List.monotone_filter_right
    intro m mem
    simp only [decide_eq_true_eq] at mem ⊢
    exact ⟨mem.1, by omega⟩
  rcases Nat.lt_or_eq_of_le sublist.length_le with less | same
  · exact .inl less
  · exact .inr (sublist.eq_of_length same)

def placeOf (source filename : Text) (offset : Nat) : Location :=
  ⟨filename, 1 + (newlinesUpTo source offset).length, offset - lineStart source offset + 1, offset⟩

theorem placeOf_precedes {source filename : Text} {offset offset' : Nat} (less : offset < offset') :
    (placeOf source filename offset).Precedes (placeOf source filename offset') := by
  rcases newlinesUpTo_mono source (Nat.le_of_lt less) with earlier | same
  · left
    simp only [placeOf]
    omega
  · right
    have start : lineStart source offset = lineStart source offset' := by rw [lineStart, same]; rfl
    refine ⟨?_, ?_⟩
    · simp only [placeOf, same]
    · simp only [placeOf, start]
      omega

theorem IsBoundary.locate_eq {source : Text} {before : List Match} {offset : Nat}
    (h : IsBoundary source before offset) (filename : Text) :
    (Cursor.start.pastAll before).locate filename offset = placeOf source filename offset := by
  rw [Cursor.locate, h.line_eq, h.columnStart_eq]
  simp [placeOf]

/-- Every token of a source stands at a boundary between its matches. -/
theorem exists_boundary_of_mem_stream {source filename : Text} {token : Token}
    (h : token ∈ Cursor.start.stream filename source.length (scan source)) :
    ∃ before offset, IsBoundary source before offset ∧
      token.location = placeOf source filename offset := by
  rcases Cursor.mem_stream h with ⟨before, m, after, split, made⟩ | rfl
  · have boundary := isBoundary_offset split
    obtain ⟨category, -, rfl⟩ := Option.map_eq_some_iff.1 made
    exact ⟨before, m.offset, boundary, boundary.locate_eq filename⟩
  · have boundary := isBoundary_length source
    exact ⟨scan source, source.length, boundary, boundary.locate_eq filename⟩

/-- Every token stands on the line after the newline matches that end at or before its offset, in
the column that counts from the last of them. In the text alone these are the newlines before the
offset that no comment or string hides. Reading order is strict, and the end-of-file token is the
last. -/
theorem token_positions (source filename : Text) :
    ∃ tokens, tokenize source filename = .ok tokens ∧
      (∀ token ∈ tokens, ∃ offset : Nat, token.location.offset = offset ∧ offset ≤ source.length ∧
        token.location.line = 1 + (newlinesUpTo source offset).length ∧
        token.location.column = offset - lineStart source offset + 1 ∧
        token.location.line =
          1 + ((source.take offset).count '\n' : Int) - hiddenNewlines source offset ∧
        1 ≤ token.location.column) ∧
      tokens.Pairwise (fun a b => a.location.Precedes b.location) ∧
      ∃ (others : List Token) (last : Token), tokens = others ++ [last] ∧
        last.category = .endOfFile ∧ last.location.offset = source.length ∧
        ∀ token ∈ others, token.category ≠ .endOfFile ∧ token.location.Precedes last.location := by
  have ordered : (Cursor.start.stream filename source.length (scan source)).Pairwise
      fun a b => a.location.Precedes b.location := by
    have offsets : (Cursor.start.stream filename source.length (scan source)).Pairwise
        fun a b => a.location.offset < b.location.offset := by
      simpa using Cursor.start.stream_pairwise_offset (scans_scan source)
    -- line and column are functions of the offset, so it is enough to compare the offsets
    apply offsets.imp_of_mem
    intro a b mem mem' less
    obtain ⟨-, offset, -, place⟩ := exists_boundary_of_mem_stream mem
    obtain ⟨-, offset', -, place'⟩ := exists_boundary_of_mem_stream mem'
    rw [place, place'] at less ⊢
    exact placeOf_precedes (Int.ofNat_lt.1 less)
  refine ⟨_, tokenize_eq source filename, ?_, ordered, ?_⟩
  · intro token mem
    obtain ⟨before, offset, boundary, place⟩ := exists_boundary_of_mem_stream mem
    have start := lineStart_le source offset
    have newlines := boundary.count_newline
    refine ⟨offset, ?_⟩
    rw [place]
    refine ⟨rfl, boundary.inside, rfl, rfl, ?_, ?_⟩
    · simp only [placeOf]
      omega
    · simp only [placeOf]
      omega
  · obtain ⟨others, whole, not_end⟩ :=
      Cursor.stream_eq_append filename source.length Cursor.start (scan source)
    rw [whole] at ordered ⊢
    refine ⟨others, _, rfl, rfl, rfl, ?_⟩
    intro token mem
    exact ⟨not_end token mem, (List.pairwise_append.1 ordered).2.2 token mem _ List.mem_cons_self⟩

end PriorityLexer
