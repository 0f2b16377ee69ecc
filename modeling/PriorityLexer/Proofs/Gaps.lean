import PriorityLexer.Proofs.TokenStream

namespace PriorityLexer

/-- The lexemes of the tokens, each behind its gap. The end-of-file token has no lexeme, so the last
gap ends the text. -/
def weave : List Text → List Token → Text
  | gap :: gaps, token :: tokens => gap ++ token.lexeme.getD [] ++ weave gaps tokens
  | _, _ => []

/-- The stretches of the source before each of the tokens, where the first one begins at `start`. -/
def gapsFrom (source : Text) : Nat → List Token → List Text
  | _, [] => []
  | start, token :: tokens =>
    (source.take token.location.offset.toNat).drop start ::
      gapsFrom source (token.location.offset.toNat + (token.lexeme.getD []).length) tokens

def leadingGap : List Match → Text
  | [] => []
  | m :: ms => if m.rule.isSkipped then m.lexeme ++ leadingGap ms else []

/-- The matches that make tokens, each with the skipped text behind it. -/
def tokenGaps : List Match → List (Match × Text)
  | [] => []
  | m :: ms => if m.rule.isSkipped then tokenGaps ms else (m, leadingGap ms) :: tokenGaps ms

def joined (pairs : List (Match × Text)) : Text := pairs.flatMap fun (m, gap) => m.lexeme ++ gap

def rejoined (pairs : List (Match × Text)) (gaps : List Text) : Text :=
  joined ((pairs.map Prod.fst).zip gaps)

theorem rejoined_self (pairs : List (Match × Text)) :
    rejoined pairs (pairs.map Prod.snd) = joined pairs := by
  have whole : (pairs.map Prod.fst).zip (pairs.map Prod.snd) = pairs :=
    (List.zip_of_prod rfl rfl).symm
  rw [rejoined, whole]

section OneMatch

variable {m : Match} (ms : List Match)

theorem leadingGap_of_isSkipped (h : m.rule.isSkipped = true) :
    leadingGap (m :: ms) = m.lexeme ++ leadingGap ms := by
  rw [leadingGap, if_pos h]

theorem leadingGap_of_not_isSkipped (h : m.rule.isSkipped = false) : leadingGap (m :: ms) = [] := by
  rw [leadingGap, h, if_neg Bool.false_ne_true]

theorem tokenGaps_of_isSkipped (h : m.rule.isSkipped = true) :
    tokenGaps (m :: ms) = tokenGaps ms := by
  rw [tokenGaps, if_pos h]

theorem tokenGaps_of_not_isSkipped (h : m.rule.isSkipped = false) :
    tokenGaps (m :: ms) = (m, leadingGap ms) :: tokenGaps ms := by
  rw [tokenGaps, h, if_neg Bool.false_ne_true]

end OneMatch

theorem covered_eq_joined (ms : List Match) :
    covered ms = leadingGap ms ++ joined (tokenGaps ms) := by
  induction ms with
  | nil => rfl
  | cons m ms ih =>
    rw [covered_cons, ih]
    cases skipped : m.rule.isSkipped with
    | true =>
      rw [leadingGap_of_isSkipped ms skipped, tokenGaps_of_isSkipped ms skipped, List.append_assoc]
    | false =>
      rw [leadingGap_of_not_isSkipped ms skipped, tokenGaps_of_not_isSkipped ms skipped]
      simp [joined]

theorem leadingGap_eq (ms : List Match) :
    leadingGap ms = covered (ms.takeWhile fun m => m.rule.isSkipped) := by
  induction ms with
  | nil => rfl
  | cons m ms ih =>
    cases skipped : m.rule.isSkipped with
    | true =>
      rw [leadingGap_of_isSkipped ms skipped, List.takeWhile_cons, if_pos skipped, covered_cons, ih]
    | false =>
      rw [leadingGap_of_not_isSkipped ms skipped, List.takeWhile_cons, skipped]
      rfl

theorem exists_split_of_mem_tokenGaps {ms : List Match} {m : Match} {gap : Text}
    (mem : (m, gap) ∈ tokenGaps ms) :
    ∃ before after, ms = before ++ m :: after ∧ gap = leadingGap after := by
  induction ms with
  | nil => cases mem
  | cons first ms ih =>
    cases skipped : first.rule.isSkipped with
    | true =>
      rw [tokenGaps_of_isSkipped ms skipped] at mem
      obtain ⟨before, after, rfl, eq⟩ := ih mem
      exact ⟨first :: before, after, rfl, eq⟩
    | false =>
      rw [tokenGaps_of_not_isSkipped ms skipped] at mem
      rcases List.mem_cons.1 mem with same | further
      · cases same
        exact ⟨[], ms, rfl, rfl⟩
      · obtain ⟨before, after, rfl, eq⟩ := ih further
        exact ⟨first :: before, after, rfl, eq⟩

theorem exists_skipped_of_leadingGap (ms : List Match) :
    ∃ passed, leadingGap ms = covered passed ∧ ∀ m ∈ passed, m ∈ ms ∧ m.rule.isSkipped = true := by
  refine ⟨_, leadingGap_eq ms, ?_⟩
  intro m mem
  constructor
  · exact (List.takeWhile_prefix _).subset mem
  · exact List.all_eq_true.1 List.all_takeWhile m mem

theorem exists_skipped_of_mem_gaps {gap : Text} {ms : List Match}
    (mem : gap ∈ leadingGap ms :: (tokenGaps ms).map Prod.snd) :
    ∃ passed, gap = covered passed ∧ ∀ m ∈ passed, m ∈ ms ∧ m.rule.isSkipped = true := by
  rcases List.mem_cons.1 mem with rfl | behind
  · exact exists_skipped_of_leadingGap ms
  · obtain ⟨⟨m, gap⟩, pair_mem, rfl⟩ := List.mem_map.1 behind
    obtain ⟨before, after, rfl, rfl⟩ := exists_split_of_mem_tokenGaps pair_mem
    obtain ⟨passed, eq, skips⟩ := exists_skipped_of_leadingGap after
    refine ⟨passed, eq, ?_⟩
    intro m' inside
    obtain ⟨mem_after, skipped⟩ := skips m' inside
    exact ⟨List.mem_append_right before (List.mem_cons_of_mem m mem_after), skipped⟩

section Stream

variable {filename source : Text}

/-- The gaps between the tokens are the skipped stretches between the matches. -/
theorem gapsFrom_stream {cursor : Cursor} {start offset : Nat} {text : Text} {ms : List Match}
    (scans : Scans offset text ms) (within : source.drop offset = text) (le : start ≤ offset)
    (inside : offset ≤ source.length) :
    gapsFrom source start (cursor.stream filename source.length ms) =
      ((source.take offset).drop start ++ leadingGap ms) :: (tokenGaps ms).map Prod.snd := by
  induction scans generalizing cursor start with
  | nil offset =>
    have last : offset = source.length := by
      have left := congrArg List.length within
      simp only [List.length_drop, List.length_nil] at left
      omega
    subst last
    simp [Cursor.stream, gapsFrom, Cursor.locate, leadingGap, tokenGaps]
  | @cons m rest ms leads scans ih =>
    have fits := congrArg List.length within
    simp only [List.length_drop, List.length_append] at fits
    have within' : source.drop m.stop = rest := by
      rw [Match.stop, ← List.drop_drop, within, List.drop_left]
    have longer : source.take m.stop = source.take m.offset ++ m.lexeme := by
      rw [Match.stop, List.take_add, within, List.take_left]
    have inside' : m.stop ≤ source.length := by unfold Match.stop; omega
    have after : m.offset ≤ m.stop := Nat.le_add_right _ _
    rw [Cursor.stream]
    cases skipped : m.rule.isSkipped with
    | true =>
      -- the gap that began at `start` goes on behind the match
      rw [Cursor.token?_of_isSkipped filename skipped, Option.toList_none, List.nil_append,
        leadingGap_of_isSkipped ms skipped, tokenGaps_of_isSkipped ms skipped,
        ih within' (by omega) inside', longer, List.drop_append_of_le_length (by simp; omega),
        List.append_assoc]
    | false =>
      obtain ⟨category, made⟩ := Cursor.exists_token?_of_not_isSkipped filename skipped cursor
      rw [made, Option.toList_some, List.singleton_append, gapsFrom,
        leadingGap_of_not_isSkipped ms skipped, tokenGaps_of_not_isSkipped ms skipped]
      simp only [Cursor.locate, Int.toNat_natCast, Option.getD_some]
      rw [← Match.stop, ih within' (Nat.le_refl _) inside']
      simp

/-- Weaving new gaps into the tokens keeps the lexemes of the matches. -/
theorem weave_stream (cursor : Cursor) (size : Nat) (ms : List Match) (gap : Text)
    (gaps : List Text) (length_eq : gaps.length = (tokenGaps ms).length) :
    weave (gap :: gaps) (cursor.stream filename size ms) =
      gap ++ rejoined (tokenGaps ms) gaps := by
  induction ms generalizing cursor gap gaps with
  | nil => simp [Cursor.stream, weave, rejoined, joined, tokenGaps]
  | cons m ms ih =>
    rw [Cursor.stream]
    cases skipped : m.rule.isSkipped with
    | true =>
      rw [tokenGaps_of_isSkipped ms skipped] at length_eq ⊢
      rw [Cursor.token?_of_isSkipped filename skipped, Option.toList_none, List.nil_append,
        ih _ gap gaps length_eq]
    | false =>
      obtain ⟨category, made⟩ := Cursor.exists_token?_of_not_isSkipped filename skipped cursor
      rw [tokenGaps_of_not_isSkipped ms skipped] at length_eq ⊢
      cases gaps with
      | nil => cases length_eq
      | cons next gaps =>
        rw [made, Option.toList_some, List.singleton_append, weave,
          ih _ next gaps (Nat.succ_inj.1 length_eq)]
        simp [rejoined, joined]

end Stream

end PriorityLexer
