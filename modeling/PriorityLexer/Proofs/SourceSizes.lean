import PriorityLexer.Dump
import PriorityLexer.Host
import PriorityLexer.Proofs.Positions
import PriorityLexer.Proofs.Utf8

namespace PriorityLexer

theorem Text.length_unifyNewlines_le (text : Text) : (unifyNewlines text).length ≤ text.length := by
  fun_induction unifyNewlines text with
  | case1 => exact Nat.le_refl _
  | case2 rest ih => simp only [List.length_cons]; omega
  | case3 rest _ ih => simp only [List.length_cons]; omega
  | case4 c rest _ _ ih => simp only [List.length_cons]; omega

theorem Text.Utf8.length_le_length_encode (text : Text) : text.length ≤ (encode text).length := by
  induction text with
  | nil => exact Nat.le_refl _
  | cons c text ih =>
    have positive : 0 < (String.utf8EncodeChar c).length := by
      rw [String.length_utf8EncodeChar]
      exact c.utf8Size_pos
    rw [encode_cons, List.length_append, List.length_cons]
    omega

theorem Text.isWritable_iff (n : Int) : isWritable n = true ↔ n.natAbs < 10 ^ digitLimit := by
  rw [isWritable, decide_eq_true_iff, decimal,
    Nat.length_toDigits_le_iff (by decide) (by decide : 0 < digitLimit)]

theorem Text.isWritable_of_le_maxSize {n : Int} (le : n.natAbs ≤ maxSize + 1) :
    isWritable n = true := by
  have few : maxSize + 1 < 10 ^ 19 := by decide
  have limit : 10 ^ 19 ≤ 10 ^ digitLimit := Nat.pow_le_pow_right (by decide) (by decide)
  exact (isWritable_iff n).2 (by omega)

section Dump

variable {source filename : Text} {tokens : List Token}

/-- Lines and columns go at most one past the length of the source. -/
theorem Dump.isWritable_of_mem_tokenize (read : tokenize source filename = .ok tokens)
    (fits : source.length ≤ maxSize) {token : Token} (mem : token ∈ tokens) :
    isWritable token = true := by
  rw [tokenize_eq, Except.ok.injEq] at read
  rw [← read] at mem
  obtain ⟨before, offset, boundary, place⟩ := exists_boundary_of_mem_stream mem
  have inside := boundary.inside
  have start := lineStart_le source offset
  have newlines := boundary.count_newline
  have count := List.count_le_length (a := '\n') (l := source.take offset)
  rw [List.length_take] at count
  rw [isWritable, place, Bool.and_eq_true]
  constructor <;> apply Text.isWritable_of_le_maxSize <;> simp only [placeOf] <;> omega

theorem Dump.print_of_tokenize (asJson : Bool) (read : tokenize source filename = .ok tokens)
    (fits : source.length ≤ maxSize) : print asJson tokens = .ok (render asJson tokens) :=
  if_pos (List.all_eq_true.2 fun _ mem => isWritable_of_mem_tokenize read fits mem)

end Dump

end PriorityLexer
