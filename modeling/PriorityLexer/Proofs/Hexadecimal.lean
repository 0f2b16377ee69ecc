import Mathlib.Algebra.Group.Nat.Defs
import PriorityLexer.Text.Written

namespace PriorityLexer.Text

def hexDigit? (c : Char) : Option Nat :=
  if '0' ≤ c ∧ c ≤ '9' then some (c.toNat - '0'.toNat)
  else if 'a' ≤ c ∧ c ≤ 'f' then some (c.toNat - 'a'.toNat + 10)
  else if 'A' ≤ c ∧ c ≤ 'F' then some (c.toNat - 'A'.toNat + 10)
  else none

/-- The number that the digits behind some others lead to. -/
def hexNumberFrom? (n : Nat) (digits : Text) : Option Nat :=
  digits.foldlM (fun n c => (hexDigit? c).map (16 * n + ·)) n

def hexNumber? (digits : Text) : Option Nat := hexNumberFrom? 0 digits

theorem hexDigit?_digitChar {d : Nat} (h : d < 16) : hexDigit? d.digitChar = some d := by
  have each : ∀ d < 16, hexDigit? d.digitChar = some d := by decide
  exact each d h

theorem hexNumberFrom?_append (n : Nat) (a b : Text) :
    hexNumberFrom? n (a ++ b) = (hexNumberFrom? n a).bind fun m => hexNumberFrom? m b :=
  List.foldlM_append

theorem hexNumberFrom?_digitChar (n : Nat) {d : Nat} (h : d < 16) :
    hexNumberFrom? n [d.digitChar] = some (16 * n + d) := by
  simp [hexNumberFrom?, hexDigit?_digitChar h]

theorem hexNumberFrom?_zeros (k : Nat) : hexNumberFrom? 0 (List.replicate k '0') = some 0 := by
  induction k with
  | zero => rfl
  | succ k ih =>
    have first : hexNumberFrom? 0 ['0'] = some 0 := by decide
    rw [List.replicate_succ, ← List.singleton_append, hexNumberFrom?_append, first,
      Option.bind_some, ih]

theorem hexNumber?_toDigits (n : Nat) : hexNumber? (Nat.toDigits 16 n) = some n := by
  induction n using Nat.strongRecOn with
  | ind n ih =>
    rw [Nat.toDigits_eq_if (by decide)]
    by_cases small : n < 16
    · rw [if_pos small, hexNumber?, hexNumberFrom?_digitChar 0 small, Nat.mul_zero, Nat.zero_add]
    · have front := ih (n / 16) (by omega)
      rw [hexNumber?] at front ⊢
      rw [if_neg small, hexNumberFrom?_append, front, Option.bind_some,
        hexNumberFrom?_digitChar _ (Nat.mod_lt n (by decide)), Nat.div_add_mod]

theorem hexadecimal_eq (width n : Nat) :
    hexadecimal width n =
      List.replicate (width - (Nat.toDigits 16 n).length) '0' ++ Nat.toDigits 16 n := rfl

theorem hexNumber?_hexadecimal (width n : Nat) : hexNumber? (hexadecimal width n) = some n := by
  rw [hexadecimal_eq, hexNumber?, hexNumberFrom?_append, hexNumberFrom?_zeros, Option.bind_some]
  exact hexNumber?_toDigits n

theorem length_hexadecimal {width n : Nat} (positive : 0 < width) (fits : n < 16 ^ width) :
    (hexadecimal width n).length = width := by
  have le := (Nat.length_toDigits_le_iff (b := 16) (by decide) positive).2 fits
  rw [hexadecimal_eq, List.length_append, List.length_replicate]
  omega

theorem exists_digit_of_mem_toDigits {n : Nat} {c : Char} (h : c ∈ Nat.toDigits 16 n) :
    ∃ d < 16, c = d.digitChar := by
  induction n using Nat.strongRecOn with
  | ind n ih =>
    rw [Nat.toDigits_eq_if (by decide)] at h
    by_cases small : n < 16
    · rw [if_pos small, List.mem_singleton] at h
      exact ⟨n, small, h⟩
    · rw [if_neg small, List.mem_append, List.mem_singleton] at h
      rcases h with front | last
      · exact ih (n / 16) (by omega) front
      · exact ⟨n % 16, Nat.mod_lt n (by decide), last⟩

theorem exists_digit_of_mem_hexadecimal {width n : Nat} {c : Char}
    (h : c ∈ hexadecimal width n) : ∃ d < 16, c = d.digitChar := by
  rw [hexadecimal_eq, List.mem_append] at h
  rcases h with filled | digit
  · exact ⟨0, by decide, List.eq_of_mem_replicate filled⟩
  · exact exists_digit_of_mem_toDigits digit

end PriorityLexer.Text
