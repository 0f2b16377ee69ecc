import Mathlib.Data.List.Basic
import PriorityLexer.Scan

namespace PriorityLexer

theorem mem_of_lookup_eq_some {α β : Type} [BEq α] [LawfulBEq α] {table : List (α × β)} {key : α}
    {value : β} (found : table.lookup key = some value) : (key, value) ∈ table := by
  obtain ⟨before, after, split, -⟩ := List.lookup_eq_some_iff.1 found
  rw [split]
  exact List.mem_append_right before List.mem_cons_self

section Table

variable {table : List Rule} {extent? extent?' : Rule → Option Nat} {hit : Hit}

theorem firstHit?_eq_none_iff :
    firstHit? table extent? = none ↔ ∀ rule ∈ table, extent? rule = none := by
  simp only [firstHit?, List.findSome?_eq_none_iff, Option.map_eq_none_iff]
  constructor
  · intro none_of_mem rule mem
    obtain ⟨index, at_index⟩ := List.mem_iff_getElem?.1 mem
    exact none_of_mem (rule, index) (List.mem_zipIdx_iff_getElem?.2 at_index)
  · intro none_of_mem entry mem
    exact none_of_mem entry.1 (List.fst_mem_of_mem_zipIdx mem)

theorem firstHit?_none_before (h : firstHit? table extent? = some hit) {index : Nat} {rule : Rule}
    (at_index : table[index]? = some rule) (before : index < hit.index) : extent? rule = none := by
  obtain ⟨passed, ⟨first, found⟩, left, split, applies, misses⟩ := List.findSome?_eq_some_iff.1 h
  obtain ⟨extent, -, rfl⟩ := Option.map_eq_some_iff.1 applies
  have entry : table.zipIdx[passed.length]? = some (first, found) := by simp [split]
  -- the entries passed over are exactly those with a smaller index
  have found_eq : found = passed.length := by
    simp only [List.getElem?_zipIdx, Option.map_eq_some_iff, Prod.mk.injEq] at entry
    obtain ⟨_, _, _, eq⟩ := entry
    omega
  have earlier : table.zipIdx[index]? = some (rule, index) := by
    simp [List.getElem?_zipIdx, at_index]
  rw [split, List.getElem?_append_left (by simp only at before; omega)] at earlier
  exact Option.map_eq_none_iff.1 (misses _ (List.mem_of_getElem? earlier))

theorem firstHit?_eq_some_iff :
    firstHit? table extent? = some hit ↔
      table[hit.index]? = some hit.rule ∧ extent? hit.rule = some hit.extent ∧
        ∀ index rule, table[index]? = some rule → index < hit.index → extent? rule = none := by
  constructor
  · intro h
    exact ⟨(firstHit?_eq_some h).1, (firstHit?_eq_some h).2,
      fun _ _ at_index before => firstHit?_none_before h at_index before⟩
  · rintro ⟨at_index, applies, misses⟩
    cases first : firstHit? table extent? with
    | none =>
      have missed := firstHit?_eq_none_iff.1 first _ (List.mem_of_getElem? at_index)
      rw [missed] at applies
      cases applies
    | some other =>
      obtain ⟨other_at, other_applies⟩ := firstHit?_eq_some first
      -- the first entry found is `hit`, as one of the two would be a miss before the other
      rcases Nat.lt_trichotomy other.index hit.index with before | same | behind
      · rw [misses _ _ other_at before] at other_applies
        cases other_applies
      · rw [same, at_index, Option.some.injEq] at other_at
        rw [← other_at, applies, Option.some.injEq] at other_applies
        congr 1
        cases hit
        cases other
        simp_all
      · rw [firstHit?_none_before first at_index behind] at applies
        cases applies

/-- A hit stays the first one where no miss turns into a match and its own match stays the same. -/
theorem firstHit?_of_misses (h : firstHit? table extent? = some hit)
    (misses : ∀ rule ∈ table, extent? rule = none → extent?' rule = none)
    (applies : extent?' hit.rule = some hit.extent) : firstHit? table extent?' = some hit := by
  refine firstHit?_eq_some_iff.2 ⟨(firstHit?_eq_some h).1, applies, ?_⟩
  intro index rule at_index before
  exact misses rule (List.mem_of_getElem? at_index) (firstHit?_none_before h at_index before)

end Table

theorem headHit?_rule_mem {table : List Rule} {text : Text} {hit : Hit}
    (h : headHit? table text = some hit) : hit.rule ∈ table :=
  List.mem_of_getElem? (firstHit?_eq_some h).1

theorem headHit?_cons_isSome (first : Char) (rest : Text) :
    ∃ hit, headHit? rules (first :: rest) = some hit := by
  apply Option.ne_none_iff_exists'.1
  intro missed
  have last := firstHit?_eq_none_iff.1 missed ⟨.other, .anything⟩ (by decide)
  cases last

theorem exists_headHit? {text : Text} (h : text ≠ []) : ∃ hit, headHit? rules text = some hit := by
  obtain ⟨first, rest, rfl⟩ := List.exists_cons_of_ne_nil h
  exact headHit?_cons_isSome first rest

theorem Pattern.length?_nil (pattern : Pattern) : pattern.length? [] = none := by
  apply Option.eq_none_iff_forall_ne_some.2
  intro n taken
  have bounds := Pattern.length?_bounds taken
  simp only [List.length_nil] at bounds
  omega

/-- A rule looks only at what begins at the position, and the position it is compared with to find
empty matches is never an end, because there are none. -/
theorem Rule.endAt?_eq (rule : Rule) (source : Text) (position : Int) :
    rule.endAt? source position =
      (rule.pattern.length? (source.drop position.toNat)).map (position.toNat + ·) := by
  unfold Rule.endAt?
  by_cases inside : position.toNat ≤ source.length
  · simp only [Nat.min_eq_left inside]
    cases taken : rule.pattern.length? (source.drop position.toNat) with
    | none => rfl
    | some n =>
      have bounds := Pattern.length?_bounds taken
      have moved : ¬ ((position.toNat + n : Nat) : Int) = position := by omega
      simp only [if_neg moved, Option.map_some]
  · have outside : source.length ≤ position.toNat := by omega
    simp [Nat.min_eq_right outside, List.drop_eq_nil_of_le outside, Pattern.length?_nil]

theorem matchAt_eq (source : Text) (position : Int) :
    matchAt source position =
      match headHit? rules (source.drop position.toNat) with
      | some hit => .ok { hit with extent := position.toNat + hit.extent }
      | none => .error (.noRule position) := by
  have shifted : (firstHit? rules fun rule => rule.endAt? source position) =
      (headHit? rules (source.drop position.toNat)).map
        fun hit => { hit with extent := position.toNat + hit.extent } := by
    simp only [Rule.endAt?_eq, firstHit?, headHit?, List.map_findSome?]
    congr 1
    funext entry
    simp [Function.comp_def]
  rw [matchAt, shifted]
  cases headHit? rules (source.drop position.toNat) <;> rfl

theorem exists_headHit?_of_matchAt {source : Text} {position : Int} {hit : Hit}
    (taken : matchAt source position = .ok hit) :
    ∃ first, headHit? rules (source.drop position.toNat) = some first ∧
      hit.index = first.index ∧ hit.rule = first.rule := by
  rw [matchAt_eq] at taken
  cases found : headHit? rules (source.drop position.toNat) with
  | none =>
    rw [found] at taken
    cases taken
  | some first =>
    rw [found] at taken
    cases taken
    exact ⟨first, rfl, rfl, rfl⟩

/-- The characters a match of the pattern can begin with. -/
def Pattern.startsWith : Pattern → Char → Bool
  | literal first _, c => c == first
  | lineComment, c => c == '/'
  | blockComment, c => c == '/'
  | radixNumeral _, c => c == '0'
  | digits, c => Text.isDecimalDigit c
  | quoted quote, c => c == quote
  | letters, c => c.isAlpha
  | blank, c => Text.isBlank c
  | anything, _ => true

theorem Pattern.run?_cons_eq_none {member : Char → Bool} {c : Char} (h : member c = false)
    (rest : Text) : run? member (c :: rest) = none := by
  simp [run?, h]

theorem Pattern.length?_cons_eq_none {pattern : Pattern} {c : Char}
    (h : pattern.startsWith c = false) (rest : Text) : pattern.length? (c :: rest) = none := by
  cases pattern with
  | literal | lineComment | blockComment | quoted =>
    simp only [startsWith, beq_eq_false_iff_ne] at h
    simp [length?, Ne.symm h]
  | radixNumeral =>
    simp only [startsWith, beq_eq_false_iff_ne] at h
    simp [length?, Ne.symm h]
  | digits => exact run?_cons_eq_none h rest
  | letters => exact run?_cons_eq_none h rest
  | blank =>
    simp only [startsWith] at h
    simp [length?, h]
  | anything => cases h

theorem Pattern.startsWith_of_length? {pattern : Pattern} {c : Char} {rest : Text} {n : Nat}
    (h : pattern.length? (c :: rest) = some n) : pattern.startsWith c = true := by
  by_contra other
  rw [length?_cons_eq_none (Bool.eq_false_iff.2 other)] at h
  cases h

/-- The entries of the table that a text beginning with `c` can match. -/
def candidates (c : Char) : List (Rule × Nat) :=
  rules.zipIdx.filter fun entry => entry.1.pattern.startsWith c

/-- Only the candidates for the first character have to be tried. -/
theorem headHit?_cons (c : Char) (rest : Text) :
    headHit? rules (c :: rest) =
      (candidates c).findSome? fun entry =>
        (entry.1.pattern.length? (c :: rest)).map fun extent => ⟨entry.2, entry.1, extent⟩ := by
  unfold headHit? firstHit? candidates
  induction rules.zipIdx with
  | nil => rfl
  | cons entry entries ih =>
    cases starts : entry.1.pattern.startsWith c with
    | true => simp [starts, List.findSome?_cons, ih]
    | false =>
      have missed := Pattern.length?_cons_eq_none starts rest
      simp [starts, missed, ih]

end PriorityLexer
