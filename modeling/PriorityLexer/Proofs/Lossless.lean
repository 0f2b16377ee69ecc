import PriorityLexer.Proofs.Gaps

namespace PriorityLexer

/-- The run of the scanning loop from a position of the source on. It stops only behind the source,
and a position where no rule applies has no run. -/
inductive LoopRun (source : Text) : Nat → List Match → Prop
  | stop {position : Nat} (behind : source.length ≤ position) : LoopRun source position []
  | step {position : Nat} {hit : Hit} {ms : List Match} (inside : position < source.length)
      (taken : matchAt source position = .ok hit) (further : LoopRun source hit.extent ms) :
      LoopRun source position
        (⟨hit.rule.name, (source.take hit.extent).drop position, position⟩ :: ms)

/-- The loop has no choice. -/
theorem LoopRun.unique {source : Text} {position : Nat} {ms ms' : List Match}
    (h : LoopRun source position ms) (h' : LoopRun source position ms') : ms = ms' := by
  induction h generalizing ms' with
  | stop behind =>
    cases h' with
    | stop => rfl
    | step inside => omega
  | step inside taken further ih =>
    cases h' with
    | stop behind => omega
    | step inside' taken' further' =>
      rw [taken, Except.ok.injEq] at taken'
      subst taken'
      rw [ih further']

section Slice

variable {source : Text} {m : Match} {rest : Text}

theorem Match.Leads.matchAt_offset (leads : m.Leads rest)
    (within : source.drop m.offset = m.lexeme ++ rest) :
    ∃ hit, matchAt source m.offset = .ok hit ∧ hit.rule.name = m.rule ∧ hit.extent = m.stop := by
  obtain ⟨hit, taken, name, extent⟩ := leads
  rw [matchAt_eq, Int.toNat_natCast, within, taken]
  refine ⟨_, rfl, name, ?_⟩
  rw [Match.stop, ← extent]

theorem Match.slice_eq (within : source.drop m.offset = m.lexeme ++ rest) :
    (source.take m.stop).drop m.offset = m.lexeme := by
  rw [Match.stop, List.drop_take, within, Nat.add_sub_cancel_left, List.take_left]

theorem Match.drop_stop (within : source.drop m.offset = m.lexeme ++ rest) :
    source.drop m.stop = rest := by
  rw [Match.stop, ← List.drop_drop, within, List.drop_left]

end Slice

/-- The loop yields the matches into which the rest of the source is cut. -/
theorem Scans.loopRun {source : Text} {offset : Nat} {text : Text} {ms : List Match}
    (h : Scans offset text ms) (within : source.drop offset = text) : LoopRun source offset ms := by
  induction h with
  | nil offset => exact .stop (List.drop_eq_nil_iff.1 within)
  | @cons m rest ms leads scans ih =>
    obtain ⟨hit, taken, name, extent⟩ := leads.matchAt_offset within
    have inside : m.offset < source.length := by
      have positive := List.length_pos_of_ne_nil leads.lexeme_ne_nil
      have fits := congrArg List.length within
      rw [List.length_drop, List.length_append] at fits
      omega
    have further : LoopRun source hit.extent ms := extent ▸ ih (Match.drop_stop within)
    have run := LoopRun.step inside taken further
    rwa [name, extent, Match.slice_eq within] at run

theorem loopRun_scan (source : Text) : LoopRun source 0 (scan source) :=
  (scans_scan source).loopRun List.drop_zero

theorem Scans.boundaries {offset : Nat} {text : Text} {ms : List Match} (h : Scans offset text ms) :
    ms.map Match.offset ++ [offset + text.length] = offset :: ms.map Match.stop := by
  induction h with
  | nil offset => rfl
  | @cons m rest ms leads scans ih =>
    rw [Match.stop, Nat.add_assoc, ← List.length_append] at ih
    rw [List.map_cons, List.cons_append, ih]
    rfl

theorem exists_rest_of_mem_scan {source : Text} {m : Match} (mem : m ∈ scan source) :
    ∃ rest, source.drop m.offset = m.lexeme ++ rest ∧ m.Leads rest := by
  obtain ⟨before, after, split⟩ := List.append_of_mem mem
  have scans := scans_scan source
  rw [split] at scans
  have start := scans.offset_eq
  obtain ⟨rest, whole, further⟩ := scans.of_append
  obtain ⟨-, left, rfl, leads, -⟩ := further.of_cons
  refine ⟨left, ?_, leads⟩
  rw [start, Nat.zero_add, whole, List.drop_left]

theorem slice_of_mem_scan {source : Text} {m : Match} (mem : m ∈ scan source) :
    m.lexeme ≠ [] ∧ m.lexeme = (source.take m.stop).drop m.offset := by
  obtain ⟨rest, within, leads⟩ := exists_rest_of_mem_scan mem
  exact ⟨leads.lexeme_ne_nil, (Match.slice_eq within).symm⟩

theorem filterMap_tokenCategory? {α : Type} (shape : Match → α) (ms : List Match) :
    (ms.filterMap fun m => (m.rule.tokenCategory? m.lexeme).map fun _ => shape m) =
      (ms.filter fun m => !m.rule.isSkipped).map shape := by
  induction ms with
  | nil => rfl
  | cons m ms ih =>
    have made := RuleName.tokenCategory?_isSome m.rule m.lexeme
    rw [List.filterMap_cons, List.filter_cons, ← made, ih]
    cases m.rule.tokenCategory? m.lexeme <;> rfl

namespace Cursor

theorem tokens_slices (filename : Text) (cursor : Cursor) (ms : List Match) :
    (cursor.tokens filename ms).map (fun token => (token.lexeme, token.location.offset)) =
      (ms.filter fun m => !m.rule.isSkipped).map fun m => (some m.lexeme, (m.offset : Int)) := by
  rw [tokens_map fun _ lexeme offset => (lexeme, offset)]
  exact filterMap_tokenCategory? (fun m => (some m.lexeme, (m.offset : Int))) ms

theorem stream_slices (filename : Text) (size : Nat) (cursor : Cursor) (ms : List Match) :
    ((cursor.stream filename size ms).filter fun token => !token.isEndOfFile).map
        (fun token => (token.lexeme, token.location.offset)) =
      (ms.filter fun m => !m.rule.isSkipped).map fun m => (some m.lexeme, (m.offset : Int)) := by
  have others : (cursor.tokens filename ms).filter (fun token => !token.isEndOfFile) =
      cursor.tokens filename ms := by
    apply List.filter_eq_self.2
    intro token mem
    simpa [Token.isEndOfFile] using category_ne_endOfFile_of_mem_tokens mem
  rw [stream_eq, List.filter_append, others, ← tokens_slices filename cursor ms]
  simp [Token.isEndOfFile]

end Cursor

/-- The scanning loop comes to its end on every source and yields the scan. The matches are
consecutive slices that make up the source, and none is empty. The tokens before the end-of-file
token are the matches that are not skipped, so the source is given back by the tokens and the gaps
between them, which hold nothing but newlines, blanks and comments. -/
theorem scan_loses_nothing (source filename : Text) :
    (∀ ms, LoopRun source 0 ms ↔ ms = scan source) ∧
    (∀ m ∈ scan source, m.lexeme ≠ [] ∧ m.lexeme = (source.take m.stop).drop m.offset) ∧
    (scan source).map Match.offset ++ [source.length] = 0 :: (scan source).map Match.stop ∧
    covered (scan source) = source ∧
    ∃ tokens, tokenize source filename = .ok tokens ∧
      (tokens.filter fun token => !token.isEndOfFile).map
          (fun token => (token.lexeme, token.location.offset)) =
        ((scan source).filter fun m => !m.rule.isSkipped).map
          (fun m => (some m.lexeme, (m.offset : Int))) ∧
      weave (gapsFrom source 0 tokens) tokens = source ∧
      ∀ gap ∈ gapsFrom source 0 tokens, ∃ passed, gap = covered passed ∧
        ∀ m ∈ passed, m ∈ scan source ∧ m.rule.isSkipped = true := by
  have scans := scans_scan source
  have gaps_eq : gapsFrom source 0 (Cursor.start.stream filename source.length (scan source)) =
      leadingGap (scan source) :: (tokenGaps (scan source)).map Prod.snd :=
    gapsFrom_stream scans List.drop_zero (Nat.le_refl 0) (Nat.zero_le _)
  refine ⟨?_, fun m mem => slice_of_mem_scan mem, ?_, scans.covered_eq, _,
    tokenize_eq source filename, ?_, ?_, ?_⟩
  · intro ms
    constructor
    · intro run
      exact run.unique (loopRun_scan source)
    · rintro rfl
      exact loopRun_scan source
  · simpa only [Nat.zero_add] using scans.boundaries
  · exact Cursor.stream_slices filename source.length Cursor.start (scan source)
  · rw [gaps_eq, weave_stream _ _ _ _ _ (by simp), rejoined_self, ← covered_eq_joined,
      scans.covered_eq]
  · intro gap mem
    rw [gaps_eq] at mem
    exact exists_skipped_of_mem_gaps mem

end PriorityLexer
