import PriorityLexer.Proofs.Gaps
import PriorityLexer.Proofs.Loosening

namespace PriorityLexer

/-- The new gaps are blanks, and between two tokens that were apart there is at least one. -/
structure Relays (gaps gaps' : List Text) : Prop where
  length_eq : gaps'.length = gaps.length
  blank : ∀ gap ∈ gaps', ∀ c ∈ gap, c = '\n' ∨ Text.isBlank c = true
  apart : ∀ i, 0 < i → i + 1 < gaps.length → gaps'[i]? = some [] → gaps[i]? = some []

/-- Patterns that a text with a blank in front can match. -/
def Pattern.startsBlank : Pattern → Bool
  | literal first _ => Text.isBlank first
  | quoted quote => Text.isBlank quote
  | blank => true
  | anything => true
  | _ => false

theorem Pattern.startsBlank_of_startsWith {pattern : Pattern} {c : Char}
    (starts : pattern.startsWith c = true) (is_blank : Text.isBlank c = true) :
    pattern.startsBlank = true := by
  cases pattern with
  | literal | quoted =>
    simp only [startsWith, beq_iff_eq] at starts
    exact starts ▸ is_blank
  | lineComment | blockComment | radixNumeral =>
    simp only [startsWith, beq_iff_eq] at starts
    exact absurd (starts ▸ is_blank) (by decide)
  | digits =>
    rw [Text.not_isBlank_of_isDecimalDigit starts] at is_blank
    cases is_blank
  | letters =>
    rw [Text.not_isBlank_of_isAlpha starts] at is_blank
    cases is_blank
  | blank => rfl
  | anything => rfl

theorem Match.exists_leads_of_isBlank {c : Char} (is_blank : Text.isBlank c = true) (offset : Nat)
    (rest : Text) :
    ∃ m : Match, m.lexeme = [c] ∧ m.offset = offset ∧ m.rule.isSkipped = true ∧ m.Leads rest := by
  obtain ⟨hit, taken⟩ := headHit?_cons_isSome c rest
  obtain ⟨at_index, applies⟩ := firstHit?_eq_some taken
  have front : hit.rule.pattern.startsBlank = true :=
    Pattern.startsBlank_of_startsWith (Pattern.startsWith_of_length? applies) is_blank
  -- the rule for blanks applies, so the last rule of the table is not reached
  have reached : hit.index ≤ 40 := by
    by_contra beyond
    have missed : Pattern.blank.length? (c :: rest) = none :=
      firstHit?_none_before taken (rfl : rules[40]? = some ⟨.whiteSpace, .blank⟩) (by omega)
    simp [Pattern.length?, is_blank] at missed
  have mem : hit.rule ∈ rules.take 41 := by
    apply List.mem_of_getElem? (i := hit.index)
    rw [List.getElem?_take_of_lt (by omega), at_index]
  have table : ∀ rule ∈ rules.take 41, rule.pattern.startsBlank = true →
      rule = ⟨.newline, .literal '\n' []⟩ ∨ rule = ⟨.whiteSpace, .blank⟩ := by decide
  have alone : hit.rule.name.isSkipped = true ∧ hit.extent = 1 := by
    rcases table hit.rule mem front with eq | eq
    · rw [eq] at applies ⊢
      exact ⟨rfl, (Pattern.length?_literal_eq_some_iff.1 applies).2⟩
    · rw [eq] at applies ⊢
      exact ⟨rfl, (Pattern.length?_blank_eq_some_iff.1 applies).2⟩
  exact ⟨⟨hit.rule.name, [c], offset⟩, rfl, rfl, alone.1, hit, taken, rfl, alone.2⟩

/-- Each match makes a token and is what the table takes off the front of the text of the pairs. -/
def Headed : List (Match × Text) → Prop
  | [] => True
  | (m, gap) :: pairs =>
    m.rule.isSkipped = false ∧ m.Leads (gap ++ joined pairs) ∧ Headed pairs

theorem Scans.headed_tokenGaps {offset : Nat} {text : Text} {ms : List Match}
    (h : Scans offset text ms) : Headed (tokenGaps ms) := by
  induction h with
  | nil => trivial
  | @cons m rest ms leads scans ih =>
    cases skipped : m.rule.isSkipped with
    | true =>
      rw [tokenGaps_of_isSkipped ms skipped]
      exact ih
    | false =>
      rw [tokenGaps_of_not_isSkipped ms skipped]
      refine ⟨skipped, ?_, ih⟩
      rw [← covered_eq_joined, scans.covered_eq]
      exact leads

/-- Gaps of blanks for the pairs. Only the last pair can lose the gap that it had. -/
inductive Respaced : List (Match × Text) → List Text → Prop
  | nil : Respaced [] []
  | cons {m : Match} {gap gap' : Text} {pairs : List (Match × Text)} {gaps : List Text}
      (blank : ∀ c ∈ gap', Text.isBlank c = true) (apart : pairs ≠ [] → gap' = [] → gap = [])
      (h : Respaced pairs gaps) : Respaced ((m, gap) :: pairs) (gap' :: gaps)

theorem Relays.isBlank {gaps gaps' : List Text} (h : Relays gaps gaps') {gap : Text}
    (mem : gap ∈ gaps') : ∀ c ∈ gap, Text.isBlank c = true := by
  intro c inside
  rcases h.blank gap mem c inside with rfl | is_blank
  · exact Text.isBlank_newline
  · exact is_blank

theorem Relays.respaced {gap gap' : Text} {pairs : List (Match × Text)} {gaps : List Text}
    (h : Relays (gap :: pairs.map Prod.snd) (gap' :: gaps)) : Respaced pairs gaps := by
  induction pairs generalizing gap gap' gaps with
  | nil =>
    obtain rfl : gaps = [] := List.length_eq_zero_iff.1 (Nat.succ_inj.1 h.length_eq)
    exact .nil
  | cons pair pairs ih =>
    obtain ⟨m, next⟩ := pair
    cases gaps with
    | nil => exact absurd h.length_eq (by simp)
    | cons next' gaps =>
      have next_blank : ∀ c ∈ next', Text.isBlank c = true := h.isBlank (by simp)
      have next_apart : pairs ≠ [] → next' = [] → next = [] := by
        intro more empty
        have positive := List.length_pos_of_ne_nil more
        have kept := h.apart 1 (by decide) (by simp; omega) (by simp [empty])
        simpa using kept
      apply Respaced.cons next_blank next_apart
      have further : Relays (next :: pairs.map Prod.snd) (next' :: gaps) := by
        constructor
        · exact Nat.succ_inj.1 h.length_eq
        · exact fun gap mem => h.blank gap (List.mem_cons_of_mem _ mem)
        · intro i positive inside empty
          exact h.apart (i + 1) (by omega) (Nat.succ_lt_succ inside) empty
      exact ih further

/-- A gap can be exchanged when the text behind it has been loosened. -/
theorem Loosened.exchange {pairs : List (Match × Text)} {gap gap' : Text} {gaps : List Text}
    (blank : ∀ c ∈ gap', Text.isBlank c = true) (apart : pairs ≠ [] → gap' = [] → gap = [])
    (h : Loosened (joined pairs) (rejoined pairs gaps)) :
    Loosened (gap ++ joined pairs) (gap' ++ rejoined pairs gaps) := by
  by_cases last : pairs = []
  · subst last
    show Loosened (gap ++ []) (gap' ++ [])
    rw [List.append_nil gap']
    exact .of_blanks blank
  · -- the old gap is left out behind the first new blank, and without one there was none
    apply Loosened.blanks blank (List.suffix_append gap (joined pairs)) h
    intro empty
    rw [apart last empty, List.nil_append]

theorem Respaced.loosened {pairs : List (Match × Text)} {gaps : List Text}
    (h : Respaced pairs gaps) : Loosened (joined pairs) (rejoined pairs gaps) := by
  induction h with
  | nil => exact .stop []
  | @cons m gap gap' pairs gaps blank apart h ih =>
    show Loosened ((m.lexeme ++ gap) ++ joined pairs) ((m.lexeme ++ gap') ++ rejoined pairs gaps)
    rw [List.append_assoc, List.append_assoc]
    apply Loosened.append_left
    exact ih.exchange blank apart

/-- What a token shows apart from its place. -/
def Token.content (token : Token) : Category × Option Text := (token.category, token.lexeme)

/-- The content of the token that a match makes, if it makes one. -/
def Match.content? (m : Match) : Option (Category × Option Text) :=
  (m.rule.tokenCategory? m.lexeme).map fun category => (category, some m.lexeme)

theorem Match.content?_of_isSkipped {m : Match} (h : m.rule.isSkipped = true) :
    m.content? = none := by
  rw [content?, RuleName.tokenCategory?_of_isSkipped h, Option.map_none]

theorem stream_content (filename : Text) (size : Nat) (cursor : Cursor) (ms : List Match) :
    (cursor.stream filename size ms).map Token.content =
      ms.filterMap Match.content? ++ [(.endOfFile, none)] :=
  Cursor.stream_map (fun category lexeme _ => (category, lexeme)) filename size cursor ms

theorem filterMap_tokenGaps (ms : List Match) :
    ((tokenGaps ms).map Prod.fst).filterMap Match.content? = ms.filterMap Match.content? := by
  induction ms with
  | nil => rfl
  | cons m ms ih =>
    cases skipped : m.rule.isSkipped with
    | true =>
      rw [tokenGaps_of_isSkipped ms skipped, ih, List.filterMap_cons,
        Match.content?_of_isSkipped skipped]
    | false =>
      rw [tokenGaps_of_not_isSkipped ms skipped, List.map_cons, List.filterMap_cons,
        List.filterMap_cons, ih]

theorem Scans.exists_behind_blanks {front rest : Text} {contents : List (Category × Option Text)}
    (blank : ∀ c ∈ front, Text.isBlank c = true)
    (scanned : ∀ offset, ∃ ms, Scans offset rest ms ∧ ms.filterMap Match.content? = contents)
    (offset : Nat) :
    ∃ ms, Scans offset (front ++ rest) ms ∧ ms.filterMap Match.content? = contents := by
  induction front generalizing offset with
  | nil => exact scanned offset
  | cons c front ih =>
    obtain ⟨m, lexeme, rfl, skipped, leads⟩ :=
      Match.exists_leads_of_isBlank (blank c List.mem_cons_self) offset (front ++ rest)
    obtain ⟨ms, scans, made⟩ := ih (fun c mem => blank c (List.mem_cons_of_mem _ mem)) m.stop
    refine ⟨m :: ms, ?_, ?_⟩
    · have whole := Scans.cons leads scans
      rwa [lexeme] at whole
    · rw [List.filterMap_cons, Match.content?_of_isSkipped skipped]
      exact made

/-- With new gaps the text is scanned into the same contents, wherever it begins. -/
theorem Respaced.exists_scans {pairs : List (Match × Text)} {gaps : List Text}
    (h : Respaced pairs gaps) (headed : Headed pairs) (offset : Nat) :
    ∃ ms, Scans offset (rejoined pairs gaps) ms ∧
      ms.filterMap Match.content? = (pairs.map Prod.fst).filterMap Match.content? := by
  induction h generalizing offset with
  | nil => exact ⟨[], .nil offset, rfl⟩
  | @cons m gap gap' pairs gaps blank apart h ih =>
    obtain ⟨made, leads, headed⟩ := headed
    have loose : Loosened (gap ++ joined pairs) (gap' ++ rejoined pairs gaps) :=
      h.loosened.exchange blank apart
    have kept : m.Leads (gap' ++ rejoined pairs gaps) := by
      apply leads.loosened loose
      -- a line comment would take in the new blanks, but it makes no token
      intro comment
      rw [comment] at made
      cases made
    obtain ⟨ms, scans, contents⟩ := Scans.exists_behind_blanks blank (ih headed)
      (offset + m.lexeme.length)
    refine ⟨⟨m.rule, m.lexeme, offset⟩ :: ms, ?_, ?_⟩
    · have moved : Match.Leads ⟨m.rule, m.lexeme, offset⟩ (gap' ++ rejoined pairs gaps) := kept
      have whole := Scans.cons moved scans
      rwa [← List.append_assoc] at whole
    · rw [List.filterMap_cons, List.map_cons, List.filterMap_cons, contents]
      rfl

/-- Layout never changes the tokens. Their lexemes with the gaps between them are the source, the
gaps hold nothing but newlines, blanks and comments, and any other gaps of blanks, as long as two
tokens that were apart stay apart, make a source with the same categories and lexemes. -/
theorem tokenize_relaid (source filename : Text) :
    ∃ tokens, tokenize source filename = .ok tokens ∧
      weave (gapsFrom source 0 tokens) tokens = source ∧
      (∀ gap ∈ gapsFrom source 0 tokens, ∃ passed, gap = covered passed ∧
        ∀ m ∈ passed, m ∈ scan source ∧ m.rule.isSkipped = true) ∧
      ∀ gaps filename', Relays (gapsFrom source 0 tokens) gaps →
        ∃ tokens', tokenize (weave gaps tokens) filename' = .ok tokens' ∧
          tokens'.map Token.content = tokens.map Token.content := by
  have scans := scans_scan source
  have headed := scans.headed_tokenGaps
  have gaps_eq : gapsFrom source 0 (Cursor.start.stream filename source.length (scan source)) =
      leadingGap (scan source) :: (tokenGaps (scan source)).map Prod.snd :=
    gapsFrom_stream scans List.drop_zero (Nat.le_refl 0) (Nat.zero_le _)
  refine ⟨_, tokenize_eq source filename, ?_, ?_, ?_⟩
  · rw [gaps_eq, weave_stream _ _ _ _ _ (by simp), rejoined_self, ← covered_eq_joined,
      scans.covered_eq]
  · intro gap mem
    rw [gaps_eq] at mem
    exact exists_skipped_of_mem_gaps mem
  · intro gaps filename' relays
    rw [gaps_eq] at relays
    cases gaps with
    | nil => exact absurd relays.length_eq (by simp)
    | cons front gaps =>
      have length_eq : gaps.length = (tokenGaps (scan source)).length := by
        simpa using relays.length_eq
      have front_blank : ∀ c ∈ front, Text.isBlank c = true := relays.isBlank List.mem_cons_self
      obtain ⟨ms, rescanned, contents⟩ :=
        Scans.exists_behind_blanks front_blank (relays.respaced.exists_scans headed) 0
      rw [weave_stream _ _ _ _ _ length_eq, tokenize_eq]
      refine ⟨_, rfl, ?_⟩
      rw [stream_content, stream_content, scan, ← rescanned.eq_scanFrom, contents,
        filterMap_tokenGaps]

/-- A comment with a quote in it can go, and a comment that is not closed stays open. -/
theorem tokenize_relaid_without_comment :
    ∃ tokens tokens', tokenize "0b /*\"*/#f'/*".toList [] = .ok tokens ∧
      Relays (gapsFrom "0b /*\"*/#f'/*".toList 0 tokens)
        ["\n".toList, [], "\t".toList, " ".toList, "\n ".toList, [], " ".toList] ∧
      tokenize "\n0b\t#f '\n /* ".toList [] = .ok tokens' ∧
      tokens'.map Token.content = tokens.map Token.content := by
  obtain ⟨tokens, read, -, -, relaid⟩ := tokenize_relaid "0b /*\"*/#f'/*".toList []
  have tokens_eq : tokens =
      [⟨.intLiteral, some ['0'], ⟨[], 1, 1, 0⟩⟩, ⟨.identifier, some ['b'], ⟨[], 1, 2, 1⟩⟩,
        ⟨.falseLiteral, some ['#', 'f'], ⟨[], 1, 9, 8⟩⟩,
        ⟨.illegalChar, some ['\''], ⟨[], 1, 11, 10⟩⟩, ⟨.division, some ['/'], ⟨[], 1, 12, 11⟩⟩,
        ⟨.mul, some ['*'], ⟨[], 1, 13, 12⟩⟩, ⟨.endOfFile, none, ⟨[], 1, 14, 13⟩⟩] :=
    Except.ok.inj (read.symm.trans (by decide +kernel))
  have relays : Relays (gapsFrom "0b /*\"*/#f'/*".toList 0 tokens)
      ["\n".toList, [], "\t".toList, " ".toList, "\n ".toList, [], " ".toList] := by
    subst tokens_eq
    have apart : ∀ i < 6, 0 < i →
        ["\n".toList, [], "\t".toList, " ".toList, "\n ".toList, [], " ".toList][i]? = some [] →
        [[], [], " /*\"*/".toList, [], [], [], []][i]? = some [] := by decide
    have tab : Text.isBlank '\t' = true := by decide
    have space : Text.isBlank ' ' = true := by decide
    refine ⟨rfl, by simp [tab, space], ?_⟩
    intro i positive inside
    exact apart i (Nat.lt_of_succ_lt_succ inside) positive
  obtain ⟨tokens', read', same⟩ := relaid _ [] relays
  subst tokens_eq
  exact ⟨_, tokens', read, relays, read', same⟩

end PriorityLexer
