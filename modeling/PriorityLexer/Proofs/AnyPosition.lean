import PriorityLexer.Proofs.FirstHit

namespace PriorityLexer

/-- Where a match of the rule ends if an empty one counts like any other. -/
def Rule.openEndAt? (rule : Rule) (source : Text) (position : Int) : Option Nat :=
  let start := min position.toNat source.length
  (rule.pattern.length? (source.drop start)).map (start + ·)

section Position

variable {source : Text} {position : Int}

theorem Rule.endAt?_eq_openEndAt? (rule : Rule) (source : Text) (position : Int) :
    rule.endAt? source position = rule.openEndAt? source position := by
  have same_rest : source.drop (min position.toNat source.length) = source.drop position.toNat := by
    rw [List.drop_eq_drop_iff]
    omega
  rw [Rule.endAt?_eq]
  simp only [Rule.openEndAt?, same_rest]
  cases taken : rule.pattern.length? (source.drop position.toNat) with
  | none => rfl
  | some n =>
    -- something is left to take, so the position has not been moved
    have bounds := Pattern.length?_bounds taken
    rw [List.length_drop] at bounds
    rw [Nat.min_eq_left (by omega)]

theorem matchAt_of_outside (outside : source.length ≤ position.toNat) :
    matchAt source position = .error (.noRule position) := by
  have nothing : headHit? rules [] = none := rfl
  rw [matchAt_eq, List.drop_eq_nil_of_le outside, nothing]

/-- What applies at a position inside of the source depends on its nearest place there, and the match
takes something of the source from there on. -/
theorem exists_matchAt_of_inside (inside : position.toNat < source.length) :
    ∃ hit, matchAt source position = .ok hit ∧ matchAt source position.toNat = .ok hit ∧
      position.toNat < hit.extent ∧ hit.extent ≤ source.length := by
  have rest_ne_nil : source.drop position.toNat ≠ [] := by
    rw [ne_eq, List.drop_eq_nil_iff]
    omega
  obtain ⟨hit, taken⟩ := exists_headHit? rest_ne_nil
  have bounds := headHit?_bounds taken
  rw [List.length_drop] at bounds
  refine ⟨{ hit with extent := position.toNat + hit.extent }, ?_, ?_, ?_, ?_⟩
  · rw [matchAt_eq, taken]
  · rw [matchAt_eq, Int.toNat_natCast, taken]
  · show position.toNat < position.toNat + hit.extent
    omega
  · show position.toNat + hit.extent ≤ source.length
    omega

end Position

/-- No rule applies exactly at and behind the end of the source. At any other position the first rule
that applies is the one at the position, moved to the beginning if it lies before it, and its match
ends behind that place and inside of the source. No rule has an empty match anywhere, so its matches
end where they would if empty ones counted. Any position that fits in a word can be asked for. -/
theorem matchAt_any_position (source : Text) (position : Int) :
    (matchAt source position = .error (.noRule position) ↔
      (source.length : Int) ≤ max position 0) ∧
    (max position 0 < source.length →
      ∃ hit, matchAt source position = .ok hit ∧ matchAt source (max position 0) = .ok hit ∧
        max position 0 < hit.extent ∧ hit.extent ≤ source.length) ∧
    (∀ rule ∈ rules, (∀ text, rule.pattern.length? text ≠ some 0) ∧
      rule.endAt? source position = rule.openEndAt? source position) ∧
    (fitsWord position = true → queryMatch source position = matchAt source position) := by
  have moved : max position 0 = position.toNat := by omega
  rw [moved, Int.ofNat_le, Int.ofNat_lt]
  refine ⟨⟨?_, matchAt_of_outside⟩, ?_, ?_, ?_⟩
  · intro failed
    by_contra inside
    obtain ⟨hit, taken, -⟩ := exists_matchAt_of_inside (Nat.not_le.1 inside)
    rw [taken] at failed
    cases failed
  · intro inside
    obtain ⟨hit, taken, taken', behind, within⟩ := exists_matchAt_of_inside inside
    exact ⟨hit, taken, taken', Int.ofNat_lt.2 behind, within⟩
  · intro rule _
    refine ⟨?_, rule.endAt?_eq_openEndAt? source position⟩
    intro text empty
    exact absurd (Pattern.length?_bounds empty).1 (Nat.lt_irrefl 0)
  · intro fits
    rw [queryMatch, if_pos fits]

/-- A position before the source is its beginning. -/
example : matchAt "ab".toList (-5) = .ok ⟨39, ⟨.identifier, .letters⟩, 2⟩ := by decide

end PriorityLexer
