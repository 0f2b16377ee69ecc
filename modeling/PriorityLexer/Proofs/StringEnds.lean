import PriorityLexer.Proofs.FirstHit

namespace PriorityLexer

/-- Of the places in `occurs`, the first that is not escaped; the last one if all are escaped. -/
def Closing (occurs escaped : Nat → Prop) (k : Nat) : Prop :=
  occurs k ∧
    ((¬ escaped k ∧ ∀ j, occurs j → j < k → escaped j) ∨
      ((∀ j, occurs j → escaped j) ∧ ∀ j, occurs j → j ≤ k))

section Closing

variable {occurs escaped : Nat → Prop} {k k' : Nat}

theorem Closing.unique (h : Closing occurs escaped k) (h' : Closing occurs escaped k') :
    k = k' := by
  obtain ⟨occurs_k, ⟨free, earlier⟩ | ⟨all, last⟩⟩ := h
  · obtain ⟨occurs_k', ⟨free', earlier'⟩ | ⟨all', -⟩⟩ := h'
    · rcases Nat.lt_trichotomy k k' with before | same | behind
      · exact absurd (earlier' k occurs_k before) free
      · exact same
      · exact absurd (earlier k' occurs_k' behind) free'
    · exact absurd (all' k occurs_k) free
  · obtain ⟨occurs_k', ⟨free', -⟩ | ⟨-, last'⟩⟩ := h'
    · exact absurd (all k' occurs_k') free'
    · exact Nat.le_antisymm (last' k occurs_k) (last k' occurs_k')

theorem Closing.escaped_of_lt {j : Nat} (h : Closing occurs escaped k) (occurs_j : occurs j)
    (before : j < k) : escaped j := by
  obtain ⟨-, ⟨-, earlier⟩ | ⟨all, -⟩⟩ := h
  · exact earlier j occurs_j before
  · exact all j occurs_j

/-- A closing place that is escaped is the last one. -/
theorem Closing.le_of_escaped {j : Nat} (h : Closing occurs escaped k) (escaped_k : escaped k)
    (occurs_j : occurs j) : j ≤ k := by
  obtain ⟨-, ⟨free, -⟩ | ⟨-, last⟩⟩ := h
  · exact absurd escaped_k free
  · exact last j occurs_j

theorem Closing.shift {occurs' escaped' : Nat → Prop} (start : Nat)
    (h : Closing occurs escaped k)
    (occurs_iff : ∀ j, occurs' j ↔ ∃ i, j = start + i ∧ occurs i)
    (escaped_iff : ∀ i, escaped' (start + i) ↔ escaped i) :
    Closing occurs' escaped' (start + k) := by
  obtain ⟨occurs_k, ⟨free, earlier⟩ | ⟨all, last⟩⟩ := h
  · refine ⟨(occurs_iff _).2 ⟨k, rfl, occurs_k⟩, .inl ⟨by rwa [escaped_iff], ?_⟩⟩
    intro j occurs_j before
    obtain ⟨i, rfl, occurs_i⟩ := (occurs_iff j).1 occurs_j
    exact (escaped_iff i).2 (earlier i occurs_i (by omega))
  · refine ⟨(occurs_iff _).2 ⟨k, rfl, occurs_k⟩, .inr ⟨?_, ?_⟩⟩
    · intro j occurs_j
      obtain ⟨i, rfl, occurs_i⟩ := (occurs_iff j).1 occurs_j
      exact (escaped_iff i).2 (all i occurs_i)
    · intro j occurs_j
      obtain ⟨i, rfl, occurs_i⟩ := (occurs_iff j).1 occurs_j
      have := last i occurs_i
      omega

end Closing

def backslashRun (text : Text) : Nat := (text.reverse.takeWhile fun c => c == '\\').length

theorem backslashRun_concat (text : Text) (c : Char) :
    backslashRun (text ++ [c]) = if c = '\\' then backslashRun text + 1 else 0 := by
  unfold backslashRun
  rw [List.reverse_append, List.reverse_singleton, List.singleton_append, List.takeWhile_cons]
  by_cases h : c = '\\' <;> simp [h]

/-- The flag that the search for the closing quote carries along. -/
def escapesNext (passed : Text) : Bool := backslashRun passed % 2 == 1

theorem escapesNext_nil : escapesNext [] = false := rfl

theorem escapesNext_concat (passed : Text) (c : Char) :
    escapesNext (passed ++ [c]) = (c == '\\' && !escapesNext passed) := by
  unfold escapesNext
  rw [backslashRun_concat]
  by_cases h : c = '\\'
  · rcases Nat.mod_two_eq_zero_or_one (backslashRun passed) with even | odd
    · have : (backslashRun passed + 1) % 2 = 1 := by omega
      simp [h, even, this]
    · have : (backslashRun passed + 1) % 2 = 0 := by omega
      simp [h, odd, this]
  · simp [h]

/-- The closing quote in a text that stands behind `passed`. -/
def ClosesIn (quote : Char) (passed text : Text) : Nat → Prop :=
  Closing (fun j => text[j]? = some quote)
    (fun j => backslashRun (passed ++ text.take j) % 2 = 1)

theorem ClosesIn.head {quote : Char} {passed rest : Text} (free : escapesNext passed = false) :
    ClosesIn quote passed (quote :: rest) 0 := by
  refine ⟨rfl, .inl ⟨?_, fun _ _ before => absurd before (Nat.not_lt_zero _)⟩⟩
  simpa [escapesNext] using free

/-- The quote in front closes the string although it is escaped, because no other follows. -/
theorem ClosesIn.head_of_last {quote : Char} {passed rest : Text}
    (escaped : escapesNext passed = true) (last : quote ∉ rest) :
    ClosesIn quote passed (quote :: rest) 0 := by
  have only : ∀ j, (quote :: rest)[j]? = some quote → j = 0 := by
    intro j occurs
    cases j with
    | zero => rfl
    | succ j =>
      rw [List.getElem?_cons_succ] at occurs
      exact absurd (List.mem_of_getElem? occurs) last
  refine ⟨rfl, .inr ⟨?_, fun j occurs => Nat.le_of_eq (only j occurs)⟩⟩
  intro j occurs
  rw [only j occurs]
  simpa [escapesNext] using escaped

/-- A closing quote further on stays the closing quote if the character in front is not a quote that
closes the string itself. -/
theorem ClosesIn.cons {quote c : Char} {passed rest : Text} {k : Nat}
    (h : ClosesIn quote (passed ++ [c]) rest k) (skips : c = quote → escapesNext passed = true) :
    ClosesIn quote passed (c :: rest) (k + 1) := by
  have later : ∀ j, backslashRun (passed ++ (c :: rest).take (j + 1)) =
      backslashRun (passed ++ [c] ++ rest.take j) := by simp
  have first : (c :: rest)[0]? = some quote →
      backslashRun (passed ++ (c :: rest).take 0) % 2 = 1 := by
    intro occurs
    have := skips (by simpa using occurs)
    simpa [escapesNext] using this
  obtain ⟨occurs_k, ⟨free, earlier⟩ | ⟨all, last⟩⟩ := h
  · refine ⟨occurs_k, .inl ⟨by simpa only [later] using free, ?_⟩⟩
    intro j occurs before
    cases j with
    | zero => exact first occurs
    | succ j => simpa only [later] using earlier j occurs (by omega)
  · refine ⟨occurs_k, .inr ⟨?_, ?_⟩⟩
    · intro j occurs
      cases j with
      | zero => exact first occurs
      | succ j => simpa only [later] using all j occurs
    · intro j occurs
      cases j with
      | zero => exact Nat.zero_le _
      | succ j => exact Nat.succ_le_succ (last j occurs)

theorem Pattern.closing?_eq_none_iff {quote : Char} {escaped : Bool} {text : Text} :
    closing? quote escaped text = none ↔ quote ∉ text := by
  induction text generalizing escaped with
  | nil => simp [closing?]
  | cons c rest ih =>
    unfold closing?
    by_cases close : c = quote ∧ escaped = false
    · simp [close]
    · rw [if_neg close, List.mem_cons, not_or]
      cases further : closing? quote (c == '\\' && !escaped) rest with
      | some n =>
        have mem : quote ∈ rest := by
          by_contra absent
          rw [ih.2 absent] at further
          cases further
        simp [mem]
      | none =>
        have absent := ih.1 further
        simp [absent, eq_comm]

theorem Pattern.closing?_closesIn {quote : Char} {passed text : Text} {n : Nat}
    (h : closing? quote (escapesNext passed) text = some n) :
    ∃ k, n = k + 1 ∧ ClosesIn quote passed text k := by
  induction text generalizing passed n with
  | nil => cases h
  | cons c rest ih =>
    unfold closing? at h
    by_cases close : c = quote ∧ escapesNext passed = false
    · rw [if_pos close, Option.some.injEq] at h
      obtain ⟨rfl, free⟩ := close
      exact ⟨0, h.symm, .head free⟩
    · -- the flag goes on as the parity of the backslashes up to this character
      rw [if_neg close, ← escapesNext_concat] at h
      have skips : c = quote → escapesNext passed = true := by
        intro same
        cases flag : escapesNext passed with
        | true => rfl
        | false => exact absurd ⟨same, flag⟩ close
      split at h
      · rename_i m further
        obtain ⟨k, rfl, closes⟩ := ih further
        exact ⟨k + 1, (Option.some.inj h).symm, closes.cons skips⟩
      · -- no quote follows, so a quote in front closes the string even if it is escaped
        rename_i absent
        have last := closing?_eq_none_iff.1 absent
        split at h
        · rename_i same
          subst same
          exact ⟨0, (Option.some.inj h).symm, .head_of_last (skips rfl) last⟩
        · cases h

def stringRule (quote : Char) : Rule := ⟨.string, .quoted quote⟩

def catchAll : Rule := ⟨.other, .anything⟩

/-- A later place of the quote that opens at `pos`. -/
def Recurs (source : Text) (pos : Nat) (quote : Char) (k : Nat) : Prop :=
  pos < k ∧ source[k]? = some quote

/-- The run of backslashes right before `k`, as far as it lies behind `pos`, is odd. -/
def IsEscaped (source : Text) (pos k : Nat) : Prop :=
  backslashRun ((source.take k).drop (pos + 1)) % 2 = 1

section Opened

variable {source : Text} {pos : Nat} {quote : Char}

theorem drop_of_opens (opens : source[pos]? = some quote) :
    source.drop pos = quote :: source.drop (pos + 1) := by
  obtain ⟨inside, eq⟩ := List.getElem?_eq_some_iff.1 opens
  rw [List.drop_eq_getElem_cons inside, eq]

theorem recurs_iff_mem_drop :
    (∃ k, Recurs source pos quote k) ↔ quote ∈ source.drop (pos + 1) := by
  simp only [List.mem_iff_getElem?, List.getElem?_drop]
  constructor
  · rintro ⟨k, behind, occurs⟩
    exact ⟨k - (pos + 1), by rwa [show pos + 1 + (k - (pos + 1)) = k by omega]⟩
  · rintro ⟨i, occurs⟩
    exact ⟨pos + 1 + i, by omega, occurs⟩

theorem stringRule_endAt? (opens : source[pos]? = some quote) :
    (stringRule quote).endAt? source pos =
      (Pattern.closing? quote false (source.drop (pos + 1))).map (pos + 1 + ·) := by
  rw [Rule.endAt?_eq, Int.toNat_natCast, drop_of_opens opens]
  cases further : Pattern.closing? quote false (source.drop (pos + 1)) with
  | none => simp [stringRule, Pattern.length?, further]
  | some n =>
    simp only [stringRule, Pattern.length?, List.isPrefixOf_cons_cons_self,
      List.isPrefixOf_nil_left, if_true, List.drop_succ_cons, List.drop_zero, further,
      Option.map_some]
    congr 1
    omega

theorem stringRule_endAt?_closing (opens : source[pos]? = some quote) {stop : Nat}
    (h : (stringRule quote).endAt? source pos = some stop) :
    ∃ k, stop = k + 1 ∧ Closing (Recurs source pos quote) (IsEscaped source pos) k := by
  rw [stringRule_endAt? opens] at h
  obtain ⟨n, further, rfl⟩ := Option.map_eq_some_iff.1 h
  obtain ⟨k, rfl, closes⟩ := Pattern.closing?_closesIn (escapesNext_nil ▸ further)
  refine ⟨pos + 1 + k, rfl, closes.shift (pos + 1) ?_ ?_⟩
  · intro j
    simp only [List.getElem?_drop, Recurs]
    constructor
    · rintro ⟨behind, occurs⟩
      have same : pos + 1 + (j - (pos + 1)) = j := by omega
      exact ⟨j - (pos + 1), same.symm, by rwa [same]⟩
    · rintro ⟨i, rfl, occurs⟩
      exact ⟨by omega, occurs⟩
  · intro i
    simp [IsEscaped, List.drop_take]

theorem stringRule_endAt?_eq_none_iff (opens : source[pos]? = some quote) :
    (stringRule quote).endAt? source pos = none ↔ ¬ ∃ k, Recurs source pos quote k := by
  rw [stringRule_endAt? opens, Option.map_eq_none_iff, Pattern.closing?_eq_none_iff,
    recurs_iff_mem_drop]

theorem candidates_quote (isQuote : quote = '"' ∨ quote = '\'') :
    candidates quote =
      [(stringRule quote, rules.idxOf (stringRule quote)), (catchAll, rules.idxOf catchAll)] := by
  rcases isQuote with rfl | rfl <;> decide

theorem matchAt_quote (isQuote : quote = '"' ∨ quote = '\'') (opens : source[pos]? = some quote) :
    matchAt source pos =
      match (stringRule quote).endAt? source pos with
      | some stop => .ok ⟨rules.idxOf (stringRule quote), stringRule quote, stop⟩
      | none => .ok ⟨rules.idxOf catchAll, catchAll, pos + 1⟩ := by
  rw [matchAt_eq, Rule.endAt?_eq, Int.toNat_natCast, drop_of_opens opens, headHit?_cons,
    candidates_quote isQuote]
  have anything : catchAll.pattern.length? (quote :: source.drop (pos + 1)) = some 1 := rfl
  cases taken : (stringRule quote).pattern.length? (quote :: source.drop (pos + 1)) with
  | none => simp [taken, anything]
  | some n => simp [taken]

end Opened

/-- A string reaches up to its first later quote that is not escaped, or to the last later quote if
all are escaped, whatever else stands inside. Without a later quote there is no string. -/
theorem string_reaches_closing_quote (source : Text) (pos : Nat) (quote : Char)
    (isQuote : quote = '"' ∨ quote = '\'') (opens : source[pos]? = some quote) :
    ((∃ stop, (stringRule quote).endAt? source pos = some stop) ↔ quote ∈ source.drop (pos + 1)) ∧
    (∀ stop, (stringRule quote).endAt? source pos = some stop ↔
      ∃ k, stop = k + 1 ∧ Closing (Recurs source pos quote) (IsEscaped source pos) k) ∧
    (∀ k, Closing (Recurs source pos quote) (IsEscaped source pos) k →
      matchAt source pos = .ok ⟨rules.idxOf (stringRule quote), stringRule quote, k + 1⟩) ∧
    (quote ∉ source.drop (pos + 1) →
      matchAt source pos = .ok ⟨rules.idxOf catchAll, catchAll, pos + 1⟩) := by
  have absent_iff := stringRule_endAt?_eq_none_iff opens
  rw [recurs_iff_mem_drop] at absent_iff
  have reaches : ∀ k, Closing (Recurs source pos quote) (IsEscaped source pos) k →
      (stringRule quote).endAt? source pos = some (k + 1) := by
    intro k closes
    cases reached : (stringRule quote).endAt? source pos with
    | none => exact absurd ⟨k, closes.1⟩ ((stringRule_endAt?_eq_none_iff opens).1 reached)
    | some stop =>
      obtain ⟨k', rfl, closes'⟩ := stringRule_endAt?_closing opens reached
      rw [closes.unique closes']
  refine ⟨?_, ?_, ?_, ?_⟩
  · rw [← Option.ne_none_iff_exists', ne_eq, absent_iff, not_not]
  · intro stop
    constructor
    · exact stringRule_endAt?_closing opens
    · rintro ⟨k, rfl, closes⟩
      exact reaches k closes
  · intro k closes
    rw [matchAt_quote isQuote opens, reaches k closes]
  · intro absent
    rw [matchAt_quote isQuote opens, absent_iff.2 absent]

/-- Both quotes behind the opening one are escaped, so the later one closes the string. -/
theorem string_reaches_last_escaped_quote :
    "\"a\\\"b\\\\\\\"c'".toList[0]? = some '"' ∧
      matchAt "\"a\\\"b\\\\\\\"c'".toList 0 = .ok ⟨37, stringRule '"', 9⟩ := by
  have ends := string_reaches_closing_quote "\"a\\\"b\\\\\\\"c'".toList 0 '"' (.inl rfl) rfl
  obtain ⟨k, stop, closes⟩ := (ends.2.1 9).1 (by decide)
  obtain rfl : k = 8 := by omega
  exact ⟨rfl, ends.2.2.1 8 closes⟩

end PriorityLexer
