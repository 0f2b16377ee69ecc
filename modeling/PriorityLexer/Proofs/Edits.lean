import PriorityLexer.Proofs.Lookahead

namespace PriorityLexer

theorem Scans.stop_getLast {before after : List Match} {last : Match} {offset : Nat} {text : Text}
    (h : Scans offset text (before ++ after)) (is_last : before.getLast? = some last) :
    last.stop = offset + (covered before).length := by
  obtain ⟨earlier, rfl⟩ := List.getLast?_eq_some_iff.1 is_last
  rw [List.append_assoc, List.singleton_append] at h
  have start := h.offset_eq
  simp only [Match.stop, start, covered_append, covered_cons, covered_nil, List.append_nil,
    List.length_append]
  omega

/-- The text that matches cover is left in front of an edit that they keep apart from. -/
theorem exists_kept {front rest : Text} {before after : List Match}
    (split : scan (front ++ rest) = before ++ after)
    (apart : ∀ last, before.getLast? = some last → last.stop + 2 ≤ front.length) :
    ∃ kept, front = covered before ++ kept ∧ (before ≠ [] → 2 ≤ kept.length) := by
  have scans : Scans 0 (front ++ rest) (before ++ after) := split ▸ scans_scan _
  have enough : before ≠ [] → (covered before).length + 2 ≤ front.length := by
    intro some_match
    have stop := scans.stop_getLast (List.getLast?_eq_some_getLast some_match)
    have within := apart _ (List.getLast?_eq_some_getLast some_match)
    omega
  have inside : (covered before).length ≤ front.length := by
    by_cases empty : before = []
    · simp [empty]
    · have := enough empty
      omega
  obtain ⟨left, whole, -⟩ := scans.of_append
  obtain ⟨kept, rfl⟩ := List.prefix_of_prefix_length_le ⟨left, whole.symm⟩
    (List.prefix_append front rest) inside
  refine ⟨kept, rfl, ?_⟩
  intro some_match
  have := enough some_match
  rw [List.length_append] at this
  omega

/-- Matches that are not open and keep apart from an edit are matches of the edited text. -/
theorem prefix_scan_of_apart {front rest : Text} {before after : List Match}
    (split : scan (front ++ rest) = before ++ after)
    (closed : ∀ m ∈ before, ¬ m.IsOpen ((front ++ rest).drop m.stop))
    (apart : ∀ last, before.getLast? = some last → last.stop + 2 ≤ front.length) (rest' : Text) :
    before <+: scan (front ++ rest') := by
  have scans : Scans 0 (front ++ rest) (before ++ after) := split ▸ scans_scan _
  obtain ⟨kept, rfl, two⟩ := exists_kept split apart
  rw [List.append_assoc] at scans closed ⊢
  have same : before ≠ [] → ahead (kept ++ rest) = ahead (kept ++ rest') := by
    intro some_match
    rw [ahead_append_of_two_le (two some_match), ahead_append_of_two_le (two some_match)]
  have edited := scans.exchange List.drop_zero closed same (scans_scanFrom _ _)
  exact ⟨_, edited.eq_scanFrom⟩

/-- Two continuations of a text have the matches in common that end at least two characters before
its end, as far as none of them is open, and the tokens of these matches at the same places. -/
theorem edits_do_not_reach_back (front rest rest' filename : Text) (count : Nat)
    (closed : ∀ m ∈ (scan (front ++ rest)).take count,
      ¬ m.IsOpen ((front ++ rest).drop m.stop))
    (apart : ∀ last, ((scan (front ++ rest)).take count).getLast? = some last →
      last.stop + 2 ≤ front.length) :
    (scan (front ++ rest)).take count <+: scan (front ++ rest') ∧
      ∃ tokens further further',
        tokenize (front ++ rest) filename = .ok (tokens ++ further) ∧
        tokenize (front ++ rest') filename = .ok (tokens ++ further') ∧
        tokens.map (fun token => (token.lexeme, token.location.offset)) =
          (((scan (front ++ rest)).take count).filter fun m => !m.rule.isSkipped).map
            fun m => (some m.lexeme, (m.offset : Int)) := by
  have split := (List.take_append_drop count (scan (front ++ rest))).symm
  obtain ⟨after', split'⟩ := prefix_scan_of_apart split closed apart rest'
  exact ⟨⟨after', split'⟩, _, _, _, tokenize_of_append split filename,
    tokenize_of_append split'.symm filename, Cursor.tokens_slices filename Cursor.start _⟩

/-- The digit in front of which the edit begins is the second character that the string is kept
apart from, and the quote put in behind it does not lengthen the string. -/
theorem edits_do_not_reach_back_to_string :
    (∀ m ∈ (scan ("'\\\\'0b".toList ++ "1".toList)).take 1,
      ¬ m.IsOpen (("'\\\\'0b".toList ++ "1".toList).drop m.stop)) ∧
    (∀ last, ((scan ("'\\\\'0b".toList ++ "1".toList)).take 1).getLast? = some last →
      last.stop + 2 ≤ "'\\\\'0b".toList.length) ∧
    [⟨.string, "'\\\\'".toList, 0⟩] <+: scan ("'\\\\'0b".toList ++ "'".toList) := by
  have first : (scan ("'\\\\'0b".toList ++ "1".toList)).take 1 =
      [⟨.string, "'\\\\'".toList, 0⟩] := by decide +kernel
  have closed : ∀ m ∈ (scan ("'\\\\'0b".toList ++ "1".toList)).take 1,
      ¬ m.IsOpen (("'\\\\'0b".toList ++ "1".toList).drop m.stop) := by decide +kernel
  have apart : ∀ last, ((scan ("'\\\\'0b".toList ++ "1".toList)).take 1).getLast? = some last →
      last.stop + 2 ≤ "'\\\\'0b".toList.length := by
    intro last is_last
    rw [first] at is_last
    obtain rfl := Option.some.inj is_last
    decide
  have kept := (edits_do_not_reach_back "'\\\\'0b".toList "1".toList "'".toList [] 1 closed apart).1
  rw [first] at kept
  exact ⟨closed, apart, kept⟩

/-- One character is too little to keep apart: a digit behind the letter lengthens the zero. -/
example : (scan "0bx".toList).head? = some ⟨.intLiteral, ['0'], 0⟩ ∧
    (scan "0b1".toList).head? = some ⟨.base2, "0b1".toList, 0⟩ := by decide +kernel

end PriorityLexer
