import PriorityLexer.Proofs.Backtracking
import PriorityLexer.Proofs.StringEnds

namespace PriorityLexer

namespace Regex

def backslash : Regex := one (· == '\\')

def quoteMark (quote : Char) : Regex := one (· == quote)

/-- A backslash with the character it escapes, or one character other than the quote. -/
def plainItem (quote : Char) : Regex :=
  either (chain backslash (one (· != '\n'))) (one (· != quote))

def plainString (quote : Char) : Regex :=
  chain (quoteMark quote) (chain (star (plainItem quote)) (quoteMark quote))

def backslashPair : Regex := chain backslash backslash

/-- An even run of backslashes, from its second half on. -/
def pairsToRunEnd : Regex := chain (star backslashPair) (notAhead backslash)

def evenRun : Regex := chain backslashPair pairsToRunEnd

/-- An odd run of backslashes, with the quote it escapes if one follows. -/
def oddRun (quote : Char) : Regex :=
  chain backslash (chain pairsToRunEnd (optional (quoteMark quote)))

def runItem (quote : Char) : Regex :=
  either (one fun c => c != quote && c != '\\') (either evenRun (oddRun quote))

def runString (quote : Char) : Regex :=
  chain (quoteMark quote) (chain (star (runItem quote)) (quoteMark quote))

end Regex

/-- What a string leaves of the text behind its opening quote. -/
def closingRest (quote : Char) (text : Text) : Option Text :=
  (Pattern.closing? quote false text).map text.drop

section ClosingRest

variable {quote c : Char} {rest : Text}

theorem closingRest_eq_none_iff {text : Text} : closingRest quote text = none ↔ quote ∉ text := by
  rw [closingRest, Option.map_eq_none_iff, Pattern.closing?_eq_none_iff]

@[simp] theorem closingRest_nil : closingRest quote [] = none := rfl

@[simp] theorem closingRest_quote : closingRest quote (quote :: rest) = some rest := by
  simp [closingRest, Pattern.closing?]

theorem closingRest_cons (not_quote : c ≠ quote) (not_backslash : c ≠ '\\') :
    closingRest quote (c :: rest) = closingRest quote rest := by
  have flag : (c == '\\' && !false) = false := by simp [not_backslash]
  simp only [closingRest, Pattern.closing?, not_quote, false_and, if_false, flag]
  cases Pattern.closing? quote false rest <;> simp

@[simp] theorem closingRest_backslash (not_backslash : quote ≠ '\\') :
    closingRest quote ['\\'] = none := by
  rw [closingRest_eq_none_iff]
  simpa using not_backslash

theorem closingRest_escaped_quote (not_backslash : quote ≠ '\\') :
    closingRest quote ('\\' :: quote :: rest) = (closingRest quote rest).or (some rest) := by
  have flag : (quote == '\\' && !true) = false := by simp
  simp only [closingRest, Pattern.closing?, Ne.symm not_backslash, false_and, if_false, flag,
    Bool.not_false, Bool.and_true, beq_self_eq_true, Bool.true_eq_false, and_false, if_true]
  cases Pattern.closing? quote false rest <;> simp

theorem closingRest_escaped (not_backslash : quote ≠ '\\') (not_quote : c ≠ quote) :
    closingRest quote ('\\' :: c :: rest) = closingRest quote rest := by
  have flag : (c == '\\' && !true) = false := by simp
  simp only [closingRest, Pattern.closing?, Ne.symm not_backslash, not_quote, false_and, if_false,
    flag, Bool.not_false, Bool.and_true, beq_self_eq_true]
  cases Pattern.closing? quote false rest <;> simp

end ClosingRest

namespace Regex

variable {quote : Char}

/-- What follows an opening quote: a repetition of the item and a closing quote. -/
def body (item : Regex) (quote : Char) : Regex := chain (star item) (quoteMark quote)

theorem quoteMark_paths_cons (c : Char) (rest : Text) :
    (quoteMark quote).paths (c :: rest) = if c = quote then [rest] else [] := by
  simp [quoteMark, paths]

theorem body_paths {item : Regex} (consuming : item.consumes = true) (text : Text) :
    (body item quote).paths text =
      (item.paths text).flatMap (body item quote).paths ++ (quoteMark quote).paths text :=
  star_chain_paths consuming _ text

theorem length?_string {item : Regex}
    (first : ∀ text, ((body item quote).paths text).head? = closingRest quote text) (text : Text) :
    (chain (quoteMark quote) (body item quote)).length? text =
      (Pattern.quoted quote).length? text := by
  cases text with
  | nil => rfl
  | cons c rest =>
    by_cases opens : c = quote
    · subst opens
      have paths_eq : (chain (quoteMark c) (body item c)).paths (c :: rest) =
          (body item c).paths rest := by simp [paths, quoteMark]
      rw [length?, paths_eq, first, closingRest]
      cases further : Pattern.closing? c false rest with
      | none => simp [Pattern.length?, further]
      | some n =>
        have bounds := Pattern.closing?_bounds further
        simp [Pattern.length?, further]
        omega
    · simp [length?, paths, quoteMark, opens, Pattern.length?, Ne.symm opens]

theorem paths_nil_of_consumes {pattern : Regex} (consuming : pattern.consumes = true) :
    pattern.paths [] = [] := by
  apply List.eq_nil_iff_forall_not_mem.2
  intro rest mem
  exact Nat.not_lt_zero _ (length_lt_of_mem_paths consuming mem)

theorem body_paths_nil {item : Regex} (consuming : item.consumes = true) :
    (body item quote).paths [] = [] := by
  rw [body_paths consuming, paths_nil_of_consumes consuming]
  rfl

theorem plainItem_paths_cons {c : Char} {rest : Text} (not_backslash : c ≠ '\\') :
    (plainItem quote).paths (c :: rest) = if c = quote then [] else [rest] := by
  simp [plainItem, backslash, paths, not_backslash]

theorem plainItem_paths_backslash {c : Char} {rest : Text} (not_backslash : quote ≠ '\\') :
    (plainItem quote).paths ('\\' :: c :: rest) =
      (if c = '\n' then [] else [rest]) ++ [c :: rest] := by
  simp [plainItem, backslash, paths, Ne.symm not_backslash]

theorem plainItem_paths_last_backslash (not_backslash : quote ≠ '\\') :
    (plainItem quote).paths ['\\'] = [[]] := by
  simp [plainItem, backslash, paths, Ne.symm not_backslash]

/-- The first path of the plain pattern. However the backslashes behind the last quote are paired
up, no path over that quote succeeds, so its escape is the last choice to be taken back. -/
theorem plain_first_path (not_backslash : quote ≠ '\\') (not_newline : quote ≠ '\n') (text : Text) :
    ((body (plainItem quote) quote).paths text).head? = closingRest quote text := by
  induction hn : text.length using Nat.strong_induction_on generalizing text with
  | _ n ih =>
    have shorter : ∀ next : Text, next.length < text.length →
        ((body (plainItem quote) quote).paths next).head? = closingRest quote next :=
      fun next less => ih next.length (hn ▸ less) next rfl
    cases text with
    | nil => rw [body_paths_nil rfl, closingRest_nil, List.head?_nil]
    | cons c rest =>
      have ih_rest := shorter rest (by simp)
      rw [body_paths rfl, quoteMark_paths_cons]
      by_cases slash : c = '\\'
      · subst slash
        rw [if_neg (Ne.symm not_backslash), List.append_nil]
        cases rest with
        | nil =>
          rw [plainItem_paths_last_backslash not_backslash, List.flatMap_singleton,
            body_paths_nil rfl, closingRest_backslash not_backslash, List.head?_nil]
        | cons d rest =>
          have ih_next := shorter rest (by simp only [List.length_cons]; omega)
          -- the paths that escape `d` come first, then those that take the backslash by itself
          rw [plainItem_paths_backslash not_backslash, List.flatMap_append, List.flatMap_singleton,
            List.head?_append, ih_rest]
          by_cases newline : d = '\n'
          · subst newline
            rw [closingRest_escaped not_backslash (Ne.symm not_newline),
              closingRest_cons (Ne.symm not_newline) (by decide)]
            simp
          · rw [if_neg newline, List.flatMap_singleton, ih_next]
            by_cases same : d = quote
            · subst same
              rw [closingRest_escaped_quote not_backslash, closingRest_quote]
            · rw [closingRest_escaped not_backslash same]
              cases further : closingRest quote rest with
              | some left => rfl
              | none =>
                -- without a quote behind `d` the other paths fail too
                have absent := closingRest_eq_none_iff.1 further
                rw [Option.none_or, closingRest_eq_none_iff]
                simp [absent, Ne.symm same]
      · rw [plainItem_paths_cons slash]
        by_cases same : c = quote
        · subst same
          simp
        · rw [if_neg same, if_neg same, List.flatMap_singleton, List.append_nil, ih_rest,
            closingRest_cons same slash]

section Runs

variable {c : Char} {rest : Text}

theorem pairsToRunEnd_paths (text : Text) :
    pairsToRunEnd.paths text =
      (backslashPair.paths text).flatMap pairsToRunEnd.paths ++ (notAhead backslash).paths text :=
  star_chain_paths rfl _ text

theorem pairsToRunEnd_paths_pair :
    pairsToRunEnd.paths ('\\' :: '\\' :: rest) = pairsToRunEnd.paths rest := by
  rw [pairsToRunEnd_paths]
  simp [backslashPair, backslash, paths]

/-- A single backslash can neither be taken in a pair nor left for what follows. -/
theorem pairsToRunEnd_paths_single (ends : rest.head? ≠ some '\\') :
    pairsToRunEnd.paths ('\\' :: rest) = [] := by
  rw [pairsToRunEnd_paths]
  cases rest with
  | nil => simp [backslashPair, backslash, paths]
  | cons d rest =>
    have not_backslash : d ≠ '\\' := by simpa using ends
    simp [backslashPair, backslash, paths, not_backslash]

theorem pairsToRunEnd_paths_end (ends : rest.head? ≠ some '\\') :
    pairsToRunEnd.paths rest = [rest] := by
  rw [pairsToRunEnd_paths]
  cases rest with
  | nil => simp [backslashPair, backslash, paths]
  | cons d rest =>
    have not_backslash : d ≠ '\\' := by simpa using ends
    simp [backslashPair, backslash, paths, not_backslash]

theorem runItem_paths_cons (not_backslash : c ≠ '\\') :
    (runItem quote).paths (c :: rest) = if c = quote then [] else [rest] := by
  simp [runItem, evenRun, oddRun, backslashPair, backslash, paths, not_backslash]

theorem runItem_paths_backslash :
    (runItem quote).paths ('\\' :: rest) =
      evenRun.paths ('\\' :: rest) ++
        (pairsToRunEnd.paths rest).flatMap (optional (quoteMark quote)).paths := by
  simp [runItem, oddRun, backslash, paths]

theorem evenRun_paths_pair :
    evenRun.paths ('\\' :: '\\' :: rest) = pairsToRunEnd.paths rest := by
  simp [evenRun, backslashPair, backslash, paths]

theorem evenRun_paths_single (ends : rest.head? ≠ some '\\') :
    evenRun.paths ('\\' :: rest) = [] := by
  cases rest with
  | nil => simp [evenRun, backslashPair, backslash, paths]
  | cons d rest =>
    have not_backslash : d ≠ '\\' := by simpa using ends
    simp [evenRun, backslashPair, backslash, paths, not_backslash]

theorem runItem_paths_longer :
    (runItem quote).paths ('\\' :: '\\' :: '\\' :: rest) =
      (runItem quote).paths ('\\' :: rest) := by
  rw [runItem_paths_backslash, runItem_paths_backslash, evenRun_paths_pair,
    pairsToRunEnd_paths_pair]
  congr 1
  by_cases ends : rest.head? = some '\\'
  · obtain ⟨rest, rfl⟩ := List.head?_eq_some_iff.1 ends
    rw [pairsToRunEnd_paths_pair, evenRun_paths_pair]
  · rw [pairsToRunEnd_paths_single ends, evenRun_paths_single ends]

theorem runItem_paths_two (ends : rest.head? ≠ some '\\') :
    (runItem quote).paths ('\\' :: '\\' :: rest) = [rest] := by
  rw [runItem_paths_backslash, evenRun_paths_pair, pairsToRunEnd_paths_end ends,
    pairsToRunEnd_paths_single ends]
  rfl

theorem runItem_paths_one (ends : rest.head? ≠ some '\\') :
    (runItem quote).paths ('\\' :: rest) = (quoteMark quote).paths rest ++ [rest] := by
  rw [runItem_paths_backslash, evenRun_paths_single ends, pairsToRunEnd_paths_end ends,
    List.flatMap_singleton]
  rfl

end Runs

/-- The first path of the pattern that takes runs of backslashes whole. -/
theorem run_first_path (not_backslash : quote ≠ '\\') (text : Text) :
    ((body (runItem quote) quote).paths text).head? = closingRest quote text := by
  induction hn : text.length using Nat.strong_induction_on generalizing text with
  | _ n ih =>
    have shorter : ∀ next : Text, next.length < text.length →
        ((body (runItem quote) quote).paths next).head? = closingRest quote next :=
      fun next less => ih next.length (hn ▸ less) next rfl
    cases text with
    | nil => rw [body_paths_nil rfl, closingRest_nil, List.head?_nil]
    | cons c rest =>
      rw [body_paths rfl, quoteMark_paths_cons]
      by_cases slash : c = '\\'
      · subst slash
        rw [if_neg (Ne.symm not_backslash), List.append_nil]
        -- the run has one backslash, or two, or its first two make no difference
        by_cases single : rest.head? ≠ some '\\'
        · rw [runItem_paths_one single, List.flatMap_append, List.flatMap_singleton,
            List.head?_append, shorter rest (by simp)]
          cases rest with
          | nil => rw [closingRest_nil, closingRest_backslash not_backslash]; rfl
          | cons d rest =>
            have next_not_backslash : d ≠ '\\' := by simpa using single
            rw [quoteMark_paths_cons]
            by_cases same : d = quote
            · subst same
              have ih_next := shorter rest (by simp only [List.length_cons]; omega)
              rw [if_pos rfl, List.flatMap_singleton, ih_next, closingRest_quote,
                closingRest_escaped_quote not_backslash]
            · rw [if_neg same, closingRest_escaped not_backslash same,
                closingRest_cons same next_not_backslash]
              rfl
        · obtain ⟨rest, rfl⟩ := List.head?_eq_some_iff.1 (not_not.1 single)
          rw [closingRest_escaped not_backslash (Ne.symm not_backslash)]
          by_cases double : rest.head? ≠ some '\\'
          · rw [runItem_paths_two double, List.flatMap_singleton,
              shorter rest (by simp only [List.length_cons]; omega)]
          · obtain ⟨rest, rfl⟩ := List.head?_eq_some_iff.1 (not_not.1 double)
            have two_less := shorter ('\\' :: rest) (by simp)
            rw [body_paths rfl, quoteMark_paths_cons, if_neg (Ne.symm not_backslash),
              List.append_nil] at two_less
            rw [runItem_paths_longer, two_less]
      · rw [runItem_paths_cons slash]
        by_cases same : c = quote
        · subst same
          simp
        · rw [if_neg same, if_neg same, List.flatMap_singleton, List.append_nil,
            shorter rest (by simp), closingRest_cons same slash]

end Regex

theorem Regex.endAt?_eq {pattern : Regex} (consuming : pattern.consumes = true) (source : Text)
    (position : Int) :
    pattern.endAt? source position =
      (pattern.length? (source.drop position.toNat)).map (position.toNat + ·) := by
  unfold endAt?
  by_cases inside : position.toNat ≤ source.length
  · simp only [Nat.min_eq_left inside]
  · have outside : source.length ≤ position.toNat := by omega
    simp [Nat.min_eq_right outside, List.drop_eq_nil_of_le outside, length?,
      paths_nil_of_consumes consuming]

/-- Taking runs of backslashes whole changes no result: at every position the string rule, the
pattern that takes runs whole and the plain pattern all end at the same place or all do not
match. -/
theorem string_patterns_agree (source : Text) (position : Int) (quote : Char)
    (isQuote : quote = '"' ∨ quote = '\'') :
    (stringRule quote).endAt? source position = (Regex.plainString quote).endAt? source position ∧
    (Regex.runString quote).endAt? source position =
      (Regex.plainString quote).endAt? source position := by
  have not_backslash : quote ≠ '\\' := by rcases isQuote with rfl | rfl <;> decide
  have not_newline : quote ≠ '\n' := by rcases isQuote with rfl | rfl <;> decide
  have plain := Regex.length?_string (Regex.plain_first_path not_backslash not_newline)
  have run := Regex.length?_string (Regex.run_first_path not_backslash)
  have rule : (stringRule quote).endAt? source position =
      (Regex.plainString quote).endAt? source position := by
    rw [Rule.endAt?_eq, Regex.endAt?_eq rfl]
    exact congrArg _ (plain _).symm
  refine ⟨rule, ?_⟩
  rw [Regex.endAt?_eq rfl, Regex.endAt?_eq rfl]
  exact congrArg _ ((run _).trans (plain _).symm)

/-- The plain pattern has to take back the escape of the only later quote. -/
theorem string_patterns_agree_on_escaped_quote :
    (Regex.plainString '"').endAt? "\"a\\\\\\\"b\\\n'".toList 0 = some 6 ∧
      (Regex.runString '"').endAt? "\"a\\\\\\\"b\\\n'".toList 0 = some 6 := by
  have agree := string_patterns_agree "\"a\\\\\\\"b\\\n'".toList 0 '"' (.inl rfl)
  have ends : (stringRule '"').endAt? "\"a\\\\\\\"b\\\n'".toList 0 = some 6 := by decide
  exact ⟨agree.1.symm.trans ends, agree.2.trans (agree.1.symm.trans ends)⟩

end PriorityLexer
