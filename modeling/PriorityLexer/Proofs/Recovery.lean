import PriorityLexer.Proofs.Loosening
import PriorityLexer.Proofs.Lossless
import PriorityLexer.Proofs.Positions
import PriorityLexer.Report

namespace PriorityLexer

def illegalOffsets (tokens : List Token) : List Int :=
  (tokens.filter Token.isIllegal).map fun token => token.location.offset

/-- The text with a space in place of each character at one of the offsets. -/
def spacedAt (offsets : List Int) (text : Text) : Text :=
  text.mapIdx fun i c => if (i : Int) ∈ offsets then ' ' else c

/-- An illegal character turns into a space, and any other match stays as it is. -/
def Match.spaced (m : Match) : Match :=
  if m.rule = .other then ⟨.whiteSpace, [' '], m.offset⟩ else m

namespace Match

variable {m : Match} {rest : Text}

theorem spaced_of_other (h : m.rule = .other) : m.spaced = ⟨.whiteSpace, [' '], m.offset⟩ :=
  if_pos h

theorem spaced_of_not_other (h : m.rule ≠ .other) : m.spaced = m := if_neg h

theorem spaced_offset (m : Match) : m.spaced.offset = m.offset := by
  unfold spaced
  split <;> rfl

theorem Leads.spaced_stop (h : m.Leads rest) : m.spaced.stop = m.stop := by
  by_cases other : m.rule = .other
  · obtain ⟨c, lexeme⟩ := h.exists_lexeme_of_other other
    rw [spaced_of_other other, stop, stop, lexeme]
    rfl
  · rw [spaced_of_not_other other]

theorem Leads.head_of_lineComment (h : m.Leads rest) (comment : m.rule = .comment)
    (slashes : ['/', '/'] <+: m.lexeme) {c : Char} (head : rest.head? = some c) : c = '\n' := by
  obtain ⟨rule, mem, name, taken⟩ := h.exists_rule
  obtain ⟨body, lexeme⟩ := slashes
  have table : ∀ rule ∈ rules, rule.name = .comment →
      rule.pattern = .lineComment ∨ rule.pattern = .blockComment := by decide
  rw [← lexeme] at taken
  rcases table rule mem (name.trans comment) with line | block
  · rw [line] at taken
    exact (Pattern.length?_lineComment_append_iff.1 taken).2 c head
  · rw [block, Pattern.length?_blockComment_eq_some_iff] at taken
    obtain ⟨left, k, eq, -⟩ := taken
    cases eq

end Match

theorem candidates_space :
    candidates ' ' = [(⟨.whiteSpace, .blank⟩, 40), (⟨.other, .anything⟩, 41)] := by
  decide

theorem leads_space (offset : Nat) (rest : Text) :
    Match.Leads ⟨.whiteSpace, [' '], offset⟩ rest := by
  refine ⟨⟨40, ⟨.whiteSpace, .blank⟩, 1⟩, ?_, rfl, rfl⟩
  rw [List.singleton_append, headHit?_cons, candidates_space]
  rfl

section Spaced

variable {offset : Nat} {text : Text} {ms : List Match}

theorem Scans.loosened_spaced (h : Scans offset text ms) :
    Loosened text (covered (ms.map Match.spaced)) := by
  induction h with
  | nil => exact .stop []
  | @cons m rest ms leads scans ih =>
    rw [List.map_cons, covered_cons]
    by_cases other : m.rule = .other
    · obtain ⟨c, lexeme⟩ := leads.exists_lexeme_of_other other
      rw [Match.spaced_of_other other, lexeme]
      exact .gap (by decide) (List.suffix_cons c rest) ih
    · rw [Match.spaced_of_not_other other]
      exact ih.append_left m.lexeme

theorem Scans.head_spaced (h : Scans offset text ms)
    (newline : ∀ c, text.head? = some c → c = '\n') {c : Char}
    (head : (covered (ms.map Match.spaced)).head? = some c) : c = '\n' := by
  cases h with
  | nil => cases head
  | @cons m rest ms leads scans =>
    obtain ⟨first, lexeme, eq⟩ := List.exists_cons_of_ne_nil leads.lexeme_ne_nil
    obtain rfl : first = '\n' := newline first (by rw [eq]; rfl)
    have rule : m.rule = .newline := leads.of_head_newline (by rw [eq]; rfl)
    have kept : m.rule ≠ .other := by
      rw [rule]
      decide
    rw [List.map_cons, covered_cons, Match.spaced_of_not_other kept, eq] at head
    exact (Option.some.inj head).symm

/-- With the spaces the text is cut at the same places, and a space is a match of its own. -/
theorem Scans.spaced (h : Scans offset text ms) :
    Scans offset (covered (ms.map Match.spaced)) (ms.map Match.spaced) := by
  induction h with
  | nil offset => exact .nil offset
  | @cons m rest ms leads scans ih =>
    have led : m.spaced.Leads (covered (ms.map Match.spaced)) := by
      by_cases other : m.rule = .other
      · rw [Match.spaced_of_other other]
        exact leads_space _ _
      · rw [Match.spaced_of_not_other other]
        apply leads.loosened scans.loosened_spaced
        -- a line comment would take in a space behind it, but there is a newline
        intro comment slashes c head
        exact scans.head_spaced (fun c => leads.head_of_lineComment comment slashes) head
    rw [← leads.spaced_stop] at ih
    have whole := Scans.cons led ih
    rwa [Match.spaced_offset] at whole

/-- From an offset on, the listed offsets are those where illegal characters among the matches
begin. -/
def Lists (offsets : List Int) (offset : Nat) (ms : List Match) : Prop :=
  ∀ i : Nat, offset ≤ i → ((i : Int) ∈ offsets ↔ ∃ m ∈ ms, m.rule = .other ∧ m.offset = i)

theorem Lists.tail {offsets : List Int} {m : Match} (h : Lists offsets m.offset (m :: ms))
    (positive : 0 < m.lexeme.length) : Lists offsets m.stop ms := by
  intro i behind
  unfold Match.stop at behind
  rw [h i (by omega)]
  constructor
  · rintro ⟨m', mem, other, rfl⟩
    rcases List.mem_cons.1 mem with rfl | mem
    · omega
    · exact ⟨m', mem, other, rfl⟩
  · rintro ⟨m', mem, other, rfl⟩
    exact ⟨m', List.mem_cons_of_mem m mem, other, rfl⟩

theorem Lists.mem_iff {offsets : List Int} {m : Match} {rest : Text}
    (h : Lists offsets m.offset (m :: ms)) (scans : Scans m.stop rest ms) {i : Nat}
    (inside : i < m.lexeme.length) :
    ((m.offset + i : Nat) : Int) ∈ offsets ↔ m.rule = .other ∧ i = 0 := by
  rw [h _ (Nat.le_add_right _ _)]
  constructor
  · rintro ⟨m', mem, other, place⟩
    rcases List.mem_cons.1 mem with rfl | mem
    · exact ⟨other, by omega⟩
    · have bounds := (scans.bounds mem).1
      unfold Match.stop at bounds
      omega
  · rintro ⟨other, rfl⟩
    exact ⟨m, List.mem_cons_self, other, rfl⟩

theorem Lists.mapIdx_lexeme {offsets : List Int} {m : Match} {rest : Text}
    (h : Lists offsets m.offset (m :: ms)) (leads : m.Leads rest) (scans : Scans m.stop rest ms) :
    (m.lexeme.mapIdx fun i c => if ((m.offset + i : Nat) : Int) ∈ offsets then ' ' else c) =
      m.spaced.lexeme := by
  by_cases other : m.rule = .other
  · have listed := (h.mem_iff scans (List.length_pos_of_ne_nil leads.lexeme_ne_nil)).2 ⟨other, rfl⟩
    obtain ⟨c, lexeme⟩ := leads.exists_lexeme_of_other other
    rw [Match.spaced_of_other other, lexeme, List.mapIdx_singleton, if_pos listed]
  · rw [Match.spaced_of_not_other other]
    apply List.ext_getElem List.length_mapIdx
    intro i _ inside
    rw [List.getElem_mapIdx, if_neg]
    rw [h.mem_iff scans inside]
    exact fun both => other both.1

theorem Scans.spacedAt_eq (h : Scans offset text ms) {offsets : List Int}
    (lists : Lists offsets offset ms) :
    (text.mapIdx fun i c => if ((offset + i : Nat) : Int) ∈ offsets then ' ' else c) =
      covered (ms.map Match.spaced) := by
  induction h with
  | nil => rfl
  | @cons m rest ms leads scans ih =>
    have further := ih (lists.tail (List.length_pos_of_ne_nil leads.lexeme_ne_nil))
    rw [List.mapIdx_append, lists.mapIdx_lexeme leads scans, List.map_cons, covered_cons, ← further]
    simp only [Match.stop, Nat.add_assoc, Nat.add_comm m.lexeme.length]

end Spaced

namespace Cursor

variable {cursor cursor' : Cursor}

theorem token?_isIllegal {filename : Text} {m : Match} {token : Token}
    (made : cursor.token? filename m = some token) :
    token.isIllegal = true ↔ m.rule = .other := by
  obtain ⟨category, found, rfl⟩ := Option.map_eq_some_iff.1 made
  rw [← RuleName.tokenCategory?_eq_illegalChar_iff m.rule m.lexeme, found]
  simp [Token.isIllegal]

theorem illegalOffsets_stream (filename : Text) (size : Nat) (cursor : Cursor) (ms : List Match) :
    illegalOffsets (cursor.stream filename size ms) =
      (ms.filter fun m => m.rule = .other).map fun m => (m.offset : Int) := by
  induction ms generalizing cursor with
  | nil => rfl
  | cons m ms ih =>
    have further := ih (cursor.past m)
    unfold illegalOffsets at further ⊢
    rw [stream, List.filter_append, List.map_append, further]
    by_cases other : m.rule = .other
    · simp [token?, other, RuleName.tokenCategory?, Token.isIllegal, locate]
    · have legal : (cursor.token? filename m).toList.filter Token.isIllegal = [] := by
        apply List.filter_eq_nil_iff.2
        intro token mem
        rwa [token?_isIllegal (Option.mem_toList.1 mem)]
      simp [legal, other]

theorem past_spaced (m : Match) (line : cursor'.line = cursor.line)
    (columnStart : cursor'.columnStart = cursor.columnStart) :
    (cursor'.past m.spaced).line = (cursor.past m).line ∧
      (cursor'.past m.spaced).columnStart = (cursor.past m).columnStart := by
  by_cases other : m.rule = .other
  · simp [Match.spaced_of_other other, past_line, past_columnStart, other, line, columnStart]
  · simp [Match.spaced_of_not_other other, past_line, past_columnStart, line, columnStart]

/-- With spaces for the illegal characters the stream is left with the other tokens, each at its
place. -/
theorem stream_spaced (filename : Text) (size : Nat) (ms : List Match)
    (line : cursor'.line = cursor.line) (columnStart : cursor'.columnStart = cursor.columnStart) :
    cursor'.stream filename size (ms.map Match.spaced) =
      (cursor.stream filename size ms).filter fun token => !token.isIllegal := by
  induction ms generalizing cursor cursor' with
  | nil =>
    simp [stream, locate, line, columnStart, Token.isIllegal]
  | cons m ms ih =>
    have moved := past_spaced m line columnStart
    have first : (cursor'.token? filename m.spaced).toList =
        (cursor.token? filename m).toList.filter fun token => !token.isIllegal := by
      by_cases other : m.rule = .other
      · rw [Match.spaced_of_other other]
        simp [token?, other, RuleName.tokenCategory?, Token.isIllegal]
      · have same : cursor'.token? filename m = cursor.token? filename m := by
          simp only [token?, locate, line, columnStart]
        rw [Match.spaced_of_not_other other, same]
        apply Eq.symm
        apply List.filter_eq_self.2
        intro token mem
        have legal := token?_isIllegal (Option.mem_toList.1 mem)
        simpa [other] using legal
    rw [List.map_cons, stream, stream, List.filter_append, first, ih moved.1 moved.2]

end Cursor

theorem illegalErrors_of_legal {tokens : List Token} (legal : ∀ token ∈ tokens, ¬token.isIllegal) :
    illegalErrors tokens = .ok [] := by
  rw [illegalErrors, List.filter_eq_nil_iff.2 legal]
  rfl

theorem tokenizeText_of_legal {source filename : Text} {tokens : List Token}
    (read : tokenize source filename = .ok tokens) (legal : ∀ token ∈ tokens, ¬token.isIllegal)
    (strict : Bool) : tokenizeText source filename strict = .ok tokens := by
  rw [tokenizeText, read]
  cases strict with
  | false => rfl
  | true =>
    simp only [illegalErrors_of_legal legal]
    rfl

theorem spacedAt_illegalOffsets (source filename : Text) (size : Nat) :
    spacedAt (illegalOffsets (Cursor.start.stream filename size (scan source))) source =
      covered ((scan source).map Match.spaced) := by
  have lists : Lists (illegalOffsets (Cursor.start.stream filename size (scan source))) 0
      (scan source) := by
    intro i _
    rw [Cursor.illegalOffsets_stream]
    simp only [List.mem_map, List.mem_filter, decide_eq_true_eq, Int.natCast_inj, and_assoc]
  rw [← (scans_scan source).spacedAt_eq lists]
  simp only [spacedAt, Nat.zero_add]

theorem getElem?_of_slice {source : Text} {start stop : Nat} {c : Char}
    (slice : [c] = (source.take stop).drop start) : source[start]? = some c := by
  have front := congrArg (fun text : Text => text[0]?) slice
  simp only [List.getElem?_drop, List.getElem?_take, Nat.add_zero] at front
  split at front
  · exact front.symm
  · cases front

theorem exists_char_of_isIllegal {source filename : Text} {size : Nat} {token : Token}
    (mem : token ∈ Cursor.start.stream filename size (scan source))
    (illegal : token.isIllegal = true) :
    ∃ (offset : Nat) (c : Char),
      token.location.offset = offset ∧ token.lexeme = some [c] ∧ source[offset]? = some c := by
  rcases Cursor.mem_stream mem with ⟨before, m, after, split, made⟩ | rfl
  · have m_mem : m ∈ scan source := by simp [split]
    obtain ⟨rest, leads⟩ := (scans_scan source).leads_of_mem m_mem
    obtain ⟨c, lexeme⟩ :=
      leads.exists_lexeme_of_other ((Cursor.token?_isIllegal made).1 illegal)
    have slice := (slice_of_mem_scan m_mem).2
    rw [lexeme] at slice
    obtain ⟨category, -, rfl⟩ := Option.map_eq_some_iff.1 made
    exact ⟨m.offset, c, rfl, congrArg some lexeme, getElem?_of_slice slice⟩
  · cases illegal

/-- With spaces in place of its illegal characters, which are single ones, a source has exactly the
tokens that were legal, with the same lexemes at the same places, and a strict reading accepts
it. -/
theorem tokenize_spacedAt (source filename : Text) :
    ∃ tokens, tokenize source filename = .ok tokens ∧
      (∀ token ∈ tokens, token.isIllegal = true → ∃ (offset : Nat) (c : Char),
        token.location.offset = offset ∧ token.lexeme = some [c] ∧ source[offset]? = some c) ∧
      tokenize (spacedAt (illegalOffsets tokens) source) filename =
        .ok (tokens.filter fun token => !token.isIllegal) ∧
      tokenizeText (spacedAt (illegalOffsets tokens) source) filename true =
        .ok (tokens.filter fun token => !token.isIllegal) := by
  have spaced := spacedAt_illegalOffsets source filename source.length
  have length_eq : (covered ((scan source).map Match.spaced)).length = source.length := by
    rw [← spaced, spacedAt, List.length_mapIdx]
  have read : tokenize (covered ((scan source).map Match.spaced)) filename =
      .ok ((Cursor.start.stream filename source.length (scan source)).filter
        fun token => !token.isIllegal) := by
    rw [tokenize_eq, length_eq, scan, ← (scans_scan source).spaced.eq_scanFrom,
      Cursor.stream_spaced filename _ _ rfl rfl]
  refine ⟨_, tokenize_eq source filename, fun _ => exists_char_of_isIllegal, ?_⟩
  rw [spaced]
  refine ⟨read, tokenizeText_of_legal read ?_ true⟩
  intro token mem
  simpa using (List.mem_filter.1 mem).2

end PriorityLexer
