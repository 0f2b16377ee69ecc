import PriorityLexer.Proofs.TokenStream

namespace PriorityLexer

/-- The places in the table of the rules that are never taken. -/
def deadRules : List Nat := [3, 6, 8, 12, 13, 14, 28]

def deadCategories : List Category := [
  .equal, .greaterEqual, .lessEqual, .shiftLeft, .shiftRight, .unsignedShiftRight, .bracketClose,
  .trueKeyword]

def withoutRules (dead : List Nat) (table : List Rule) : List Rule :=
  (table.zipIdx.filter fun entry => entry.2 ∉ dead).map Prod.fst

def liveRules : List Rule := withoutRules deadRules rules

/-- All tokens of a source for a lexer that goes by another table. -/
def tokenizeBy (table : List Rule) (source filename : Text) : Except Fault (List Token) :=
  ({ Lexer.ofSource source filename with pending := scanFrom table 0 source }).remaining.1

/-- The rule that is taken and the extent of its match, wherever in the table the rule stands. -/
def Hit.outcome (hit : Hit) : Rule × Nat := (hit.rule, hit.extent)

section Table

variable {table table' : List Rule} {extent? : Rule → Option Nat}

theorem firstHit?_outcome (table : List Rule) (extent? : Rule → Option Nat) :
    (firstHit? table extent?).map Hit.outcome =
      table.findSome? fun rule => (extent? rule).map (Prod.mk rule) := by
  have front : table = table.zipIdx.map Prod.fst := (List.zipIdx_map_fst 0 table).symm
  conv_rhs => rw [front, List.findSome?_map]
  rw [firstHit?, List.map_findSome?]
  congr 1
  funext entry
  simp [Function.comp_def, Hit.outcome]

/-- Rules that are never the first hit can be left out. -/
theorem firstHit?_withoutRules {dead : List Nat}
    (live : ∀ hit, firstHit? table extent? = some hit → hit.index ∉ dead) :
    (firstHit? (withoutRules dead table) extent?).map Hit.outcome =
      (firstHit? table extent?).map Hit.outcome := by
  cases taken : firstHit? table extent? with
  | none =>
    have missed := firstHit?_eq_none_iff.1 taken
    rw [Option.map_none, Option.map_eq_none_iff, firstHit?_eq_none_iff]
    intro rule mem
    obtain ⟨entry, kept, rfl⟩ := List.mem_map.1 mem
    exact missed entry.1 (List.fst_mem_of_mem_zipIdx (List.mem_of_mem_filter kept))
  | some hit =>
    obtain ⟨passed, ⟨rule, index⟩, left, split, applies, misses⟩ :=
      List.findSome?_eq_some_iff.1 taken
    obtain ⟨extent, reached, rfl⟩ := Option.map_eq_some_iff.1 applies
    have alive : index ∉ dead := live _ taken
    rw [firstHit?_outcome, withoutRules, split, List.filter_append,
      List.filter_cons_of_pos (by simpa using alive), List.map_append, List.findSome?_append,
      List.findSome?_eq_none_iff.2 ?_, Option.none_or, List.map_cons, List.findSome?_cons, reached]
    · rfl
    · intro rule' mem
      obtain ⟨entry, kept, rfl⟩ := List.mem_map.1 mem
      have missed := misses entry (List.mem_of_mem_filter kept)
      rw [Option.map_eq_none_iff] at missed ⊢
      exact missed

theorem scanFrom_congr
    (same : ∀ text, (headHit? table text).map Hit.outcome =
      (headHit? table' text).map Hit.outcome) (offset : Nat) (text : Text) :
    scanFrom table offset text = scanFrom table' offset text := by
  -- by length, because both scans go on with what the first match leaves of the text
  induction hn : text.length using Nat.strongRecOn generalizing offset text with
  | ind n ih =>
    cases text with
    | nil => rw [scanFrom_nil, scanFrom_nil]
    | cons first rest =>
      have here := same (first :: rest)
      cases taken : headHit? table (first :: rest) with
      | none =>
        rw [taken, Option.map_none, eq_comm, Option.map_eq_none_iff] at here
        rw [scanFrom, scanFrom, taken, here]
      | some hit =>
        rw [taken, Option.map_some, eq_comm, Option.map_eq_some_iff] at here
        obtain ⟨hit', taken', outcome⟩ := here
        obtain ⟨rule, extent⟩ := Prod.mk.inj outcome
        have bounds := headHit?_bounds taken
        rw [scanFrom_of_hit taken, scanFrom_of_hit taken', rule, extent]
        congr 1
        exact ih _ (by rw [List.length_drop]; omega) _ _ rfl

end Table

namespace Pattern

/-- Whatever begins with the word of the other pattern begins with the word of this one. -/
def shadows : Pattern → Pattern → Bool
  | literal first rest, literal first' rest' => (first :: rest).isPrefixOf (first' :: rest')
  | _, _ => false

theorem exists_length?_of_shadows {pattern other : Pattern} (shadows : pattern.shadows other = true)
    {text : Text} {n : Nat} (h : other.length? text = some n) :
    ∃ k, pattern.length? text = some k := by
  cases pattern with
  | literal first rest =>
    cases other with
    | literal first' rest' =>
      simp only [length?, Option.ite_none_right_eq_some, List.isPrefixOf_iff_prefix] at h
      have leads : first :: rest <+: text := (List.isPrefixOf_iff_prefix.1 shadows).trans h.1
      exact ⟨rest.length + 1, if_pos (List.isPrefixOf_iff_prefix.2 leads)⟩
    | lineComment | blockComment | radixNumeral | digits | quoted | letters | blank | anything =>
      cases shadows
  | lineComment | blockComment | radixNumeral | digits | quoted | letters | blank | anything =>
    cases shadows

end Pattern

/-- In front of every dead rule there is one that takes its word or a part of it. -/
theorem exists_shadow : ∀ index ∈ deadRules, ∃ earlier ∈ (rules.take index).zipIdx,
    rules[index]?.any (fun rule => earlier.1.pattern.shadows rule.pattern) = true := by
  decide

theorem index_not_mem_deadRules {text : Text} {hit : Hit} (taken : headHit? rules text = some hit) :
    hit.index ∉ deadRules := by
  intro dead
  obtain ⟨⟨earlier, index⟩, mem, shadow⟩ := exists_shadow hit.index dead
  obtain ⟨at_index, applies⟩ := firstHit?_eq_some taken
  rw [at_index, Option.any_some] at shadow
  obtain ⟨k, also⟩ := Pattern.exists_length?_of_shadows shadow applies
  have at_earlier := List.mem_zipIdx_iff_getElem?.1 mem
  rw [List.getElem?_take, Option.ite_none_right_eq_some] at at_earlier
  rw [firstHit?_none_before taken at_earlier.2 at_earlier.1] at also
  cases also

theorem matchAt_index_not_mem_deadRules {source : Text} {position : Int} {hit : Hit}
    (h : matchAt source position = .ok hit) : hit.index ∉ deadRules := by
  obtain ⟨first, taken, index, -⟩ := exists_headHit?_of_matchAt h
  rw [index]
  exact index_not_mem_deadRules taken

theorem headHit?_liveRules (text : Text) :
    (headHit? liveRules text).map Hit.outcome = (headHit? rules text).map Hit.outcome :=
  firstHit?_withoutRules fun _ taken => index_not_mem_deadRules taken

theorem scanFrom_liveRules (offset : Nat) (text : Text) :
    scanFrom liveRules offset text = scanFrom rules offset text :=
  scanFrom_congr headHit?_liveRules offset text

theorem tokenizeBy_rules (source filename : Text) :
    tokenizeBy rules source filename = tokenize source filename := rfl

/-- A word of each rule that is not dead, and the reserved words of different categories. -/
def samples : List Text := [
  "=".toList, "/**/".toList, "//".toList, "!=".toList, ">".toList, "<".toList, "|".toList,
  "^".toList, "&".toList, "**".toList, "*".toList, "-".toList, "+".toList, "/".toList, "%".toList,
  "!".toList, "~".toList, "0b1".toList, "0o7".toList, "0xF".toList, "#f".toList, "0".toList,
  "\n".toList, "(".toList, ")".toList, "\x7b".toList, "\x7d".toList, ":".toList, ";".toList,
  ",".toList, "\"\"".toList, "''".toList, "a".toList, " ".toList, "#".toList, "break".toList,
  "else".toList, "return".toList, "case".toList, "false".toList, "if".toList]

theorem exists_sample_of_rule : ∀ index < rules.length, index ∉ deadRules →
    ∃ text ∈ samples, (headHit? rules text).map Hit.index = some index := by
  decide +kernel

def categories (source : Text) : List Category :=
  ((scan source).filterMap fun m => m.rule.tokenCategory? m.lexeme) ++ [.endOfFile]

theorem exists_sample_of_category : ∀ category ∈ Category.all, category ∉ deadCategories →
    ∃ text ∈ samples, category ∈ categories text := by
  decide +kernel

theorem Match.Leads.exists_liveRule {m : Match} {rest : Text} (h : m.Leads rest) :
    ∃ rule ∈ liveRules, rule.name = m.rule := by
  obtain ⟨hit, taken, name, -⟩ := h
  refine ⟨hit.rule, List.mem_map.2 ⟨(hit.rule, hit.index), ?_, rfl⟩, name⟩
  rw [List.mem_filter, List.mem_zipIdx_iff_getElem?]
  exact ⟨(firstHit?_eq_some taken).1, decide_eq_true (index_not_mem_deadRules taken)⟩

theorem category_not_mem_deadCategories {rule : Rule} (live : rule ∈ liveRules) {lexeme : Text}
    {category : Category} (made : rule.name.tokenCategory? lexeme = some category) :
    category ∉ deadCategories := by
  intro dead
  have unreserved : ∀ category ∈ deadCategories, category ≠ .identifier ∧
      ∀ entry ∈ keywords, entry.2 ≠ category := by decide
  have unused : ∀ rule ∈ liveRules, ∀ category ∈ deadCategories,
      rule.name.category? ≠ some category := by decide
  rcases RuleName.of_tokenCategory? made with ⟨-, rfl⟩ | ⟨-, rfl⟩ | ⟨-, rfl⟩ | fixed
  · exact RuleName.wordCategory_ne (unreserved _ dead).1 (unreserved _ dead).2 lexeme rfl
  · exact absurd dead (by decide)
  · exact absurd dead (by decide)
  · exact unused rule live category dead fixed

theorem not_mem_deadCategories_of_mem_categories {source : Text} {category : Category}
    (mem : category ∈ categories source) : category ∉ deadCategories := by
  rcases List.mem_append.1 mem with made | last
  · obtain ⟨m, m_mem, made⟩ := List.mem_filterMap.1 made
    obtain ⟨rest, leads⟩ := (scans_scan source).leads_of_mem m_mem
    obtain ⟨rule, live, name⟩ := leads.exists_liveRule
    exact category_not_mem_deadCategories live (name ▸ made)
  · rw [List.mem_singleton.1 last]
    decide

theorem categories_of_tokenize {source filename : Text} {tokens : List Token}
    (read : tokenize source filename = .ok tokens) :
    tokens.map Token.category = categories source := by
  rw [tokenize_eq, Except.ok.injEq] at read
  rw [← read, Cursor.stream_map fun category _ _ => category, categories]
  simp only [Option.map_id']

/-- The seven dead rules are never taken, whatever the source and the position. Without them the
table takes the same rule with the same extent everywhere, so scans and tokens stay as they are.
Each other rule is taken in some source. No token has one of the eight dead categories, and each
other category is that of a token of some source. -/
theorem dead_rules_are_never_taken :
    (∀ (source : Text) (position : Int) (hit : Hit), matchAt source position = .ok hit →
      hit.index ∉ deadRules) ∧
    (∀ text : Text, (headHit? liveRules text).map Hit.outcome =
      (headHit? rules text).map Hit.outcome) ∧
    (∀ source : Text, scanFrom liveRules 0 source = scan source) ∧
    (∀ source filename : Text, tokenizeBy liveRules source filename = tokenize source filename) ∧
    (∀ index < rules.length, index ∉ deadRules →
      ∃ (source : Text) (hit : Hit), matchAt source 0 = .ok hit ∧ hit.index = index) ∧
    (∀ source filename : Text, ∃ tokens, tokenize source filename = .ok tokens ∧
      ∀ token ∈ tokens, token.category ∉ deadCategories) ∧
    ∀ category : Category, category ∉ deadCategories →
      ∃ source : Text, ∀ filename : Text, ∃ tokens, tokenize source filename = .ok tokens ∧
        ∃ token ∈ tokens, token.category = category := by
  refine ⟨fun _ _ _ => matchAt_index_not_mem_deadRules, headHit?_liveRules,
    scanFrom_liveRules 0, ?_, ?_, ?_, ?_⟩
  · intro source filename
    rw [tokenizeBy, scanFrom_liveRules]
    exact tokenizeBy_rules source filename
  · intro index inside live
    obtain ⟨source, -, found⟩ := exists_sample_of_rule index inside live
    obtain ⟨hit, taken, rfl⟩ := Option.map_eq_some_iff.1 found
    refine ⟨source, { hit with extent := 0 + hit.extent }, ?_, rfl⟩
    rw [matchAt_eq, Int.toNat_zero, List.drop_zero, taken]
  · intro source filename
    have read := tokenize_eq source filename
    refine ⟨_, read, ?_⟩
    intro token mem
    have listed : token.category ∈ categories source := by
      rw [← categories_of_tokenize read]
      exact List.mem_map_of_mem mem
    exact not_mem_deadCategories_of_mem_categories listed
  · intro category live
    obtain ⟨source, -, found⟩ := exists_sample_of_category category category.mem_all live
    refine ⟨source, ?_⟩
    intro filename
    have read := tokenize_eq source filename
    rw [← categories_of_tokenize read] at found
    exact ⟨_, read, List.mem_map.1 found⟩

example : deadRules.filterMap (fun index => rules[index]?.map Rule.name) =
    [.equal, .greatEq, .lessEq, .shiftLeft, .shiftRight, .unsignedShiftRight, .less] := by decide

end PriorityLexer
