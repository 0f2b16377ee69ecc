import PriorityLexer.Proofs.Lossless

namespace PriorityLexer

theorem exists_matchAt {source : Text} {position : Nat} (inside : position < source.length) :
    ∃ hit, matchAt source position = .ok hit := by
  have rest_ne_nil : source.drop position ≠ [] := by
    intro empty
    rw [List.drop_eq_nil_iff] at empty
    omega
  obtain ⟨hit, taken⟩ := exists_headHit? rest_ne_nil
  rw [matchAt_eq, Int.toNat_natCast, taken]
  exact ⟨_, rfl⟩

theorem Lexer.exists_classifyNamed (lexer : Lexer) (rule : RuleName) (lexeme : Text)
    (offset : Int) :
    ∃ token?, (lexer.classifyNamed rule.text lexeme offset).1 = .ok token? := by
  unfold classifyNamed
  rw [RuleName.ofText?_text]
  simp only [classify, Cursor.classify_eq]
  exact ⟨_, rfl⟩

theorem Scans.length_le {offset : Nat} {text : Text} {ms : List Match} (h : Scans offset text ms) :
    ms.length ≤ text.length := by
  induction h with
  | nil => exact Nat.le_refl 0
  | cons leads scans ih =>
    have positive := List.length_pos_of_ne_nil leads.lexeme_ne_nil
    rw [List.length_cons, List.length_append]
    omega

namespace Cursor

theorem length_stream_le (filename : Text) (size : Nat) (cursor : Cursor) (ms : List Match) :
    (cursor.stream filename size ms).length ≤ ms.length + 1 := by
  induction ms generalizing cursor with
  | nil => exact Nat.le_refl 1
  | cons m ms ih =>
    have further := ih (cursor.past m)
    have single := Option.length_toList_le (o := cursor.token? filename m)
    rw [stream, List.length_append, List.length_cons]
    omega

theorem exists_lexeme_of_mem_stream {filename : Text} {size : Nat} {cursor : Cursor}
    {ms : List Match} {token : Token} (mem : token ∈ cursor.stream filename size ms)
    (not_end : token.category ≠ .endOfFile) : ∃ m ∈ ms, token.lexeme = some m.lexeme := by
  rcases mem_stream mem with ⟨before, m, after, rfl, made⟩ | rfl
  · obtain ⟨category, -, rfl⟩ := Option.map_eq_some_iff.1 made
    exact ⟨m, List.mem_append_right before List.mem_cons_self, rfl⟩
  · exact absurd rfl not_end

end Cursor

/-- No source makes the lexer fail. A rule applies at every position inside of the source, so the
scanning loop comes to the end, and whatever a lexer has done before, it can classify each match by
the name of its rule. The tokens are at most one more than the characters: the last one marks the
end of the source and has no lexeme, and all others have a lexeme that is not empty. -/
theorem tokenize_never_fails (source filename : Text) :
    (∀ position : Nat, position < source.length → ∃ hit, matchAt source position = .ok hit) ∧
    LoopRun source 0 (scan source) ∧
    (∀ m ∈ scan source, ∀ lexer : Lexer,
      ∃ token?, (lexer.classifyNamed m.rule.text m.lexeme m.offset).1 = .ok token?) ∧
    ∃ (others : List Token) (last : Token), tokenize source filename = .ok (others ++ [last]) ∧
      (others ++ [last]).length ≤ source.length + 1 ∧
      last.category = .endOfFile ∧ last.lexeme = none ∧ last.location.offset = source.length ∧
      ∀ token ∈ others, token.category ≠ .endOfFile ∧
        ∃ lexeme, token.lexeme = some lexeme ∧ lexeme ≠ [] := by
  refine ⟨fun _ inside => exists_matchAt inside, loopRun_scan source,
    fun m _ lexer => lexer.exists_classifyNamed m.rule m.lexeme m.offset, ?_⟩
  obtain ⟨others, whole, not_end⟩ :=
    Cursor.stream_eq_append filename source.length Cursor.start (scan source)
  refine ⟨others, _, whole ▸ tokenize_eq source filename, ?_, rfl, rfl, rfl, ?_⟩
  · have matches_le := (scans_scan source).length_le
    have tokens_le := Cursor.length_stream_le filename source.length Cursor.start (scan source)
    rw [whole] at tokens_le
    omega
  · intro token mem
    have mem_stream : token ∈ Cursor.start.stream filename source.length (scan source) :=
      whole ▸ List.mem_append_left _ mem
    obtain ⟨m, m_mem, shows⟩ :=
      Cursor.exists_lexeme_of_mem_stream mem_stream (not_end token mem)
    exact ⟨not_end token mem, m.lexeme, shows, (slice_of_mem_scan m_mem).1⟩

end PriorityLexer
