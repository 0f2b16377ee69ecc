import PriorityLexer.Dump
import PriorityLexer.Proofs.Continuation
import PriorityLexer.Proofs.TokenStream

namespace PriorityLexer

/-- What a dump shows of a token. -/
def Token.shown (token : Token) : Category × Option Text × Int × Int :=
  (token.category, token.lexeme, token.location.line, token.location.column)

/-- The lexeme of a token of the category, as it can be read where `rest` follows. -/
inductive Readable (rest : Text) : Category → Option Text → Prop
  | string {quote : Char} {body : Text} {k : Nat} (isQuote : quote = '"' ∨ quote = '\'')
      (length_eq : body.length = k + 1) (closes : ClosesIn quote [] (body ++ rest) k) :
      Readable rest .string (some (quote :: body))
  | single (c : Char) : Readable rest .illegalChar (some [c])
  | unquoted {category : Category} {lexeme : Text} (not_string : category ≠ .string)
      (not_illegal : category ≠ .illegalChar) (not_end : category ≠ .endOfFile)
      (absent : '"' ∉ lexeme) : Readable rest category (some lexeme)
  | endOfFile : Readable rest .endOfFile none

/-- The tokens can be read from the text one after the other. -/
inductive ReadFrom : Text → List Token → Prop
  | nil (text : Text) : ReadFrom text []
  | cons (gap : Text) (token : Token) {rest : Text} {tokens : List Token}
      (readable : Readable rest token.category token.lexeme) (further : ReadFrom rest tokens) :
      ReadFrom (gap ++ (token.lexeme.getD [] ++ rest)) (token :: tokens)

theorem ReadFrom.behind {text : Text} {tokens : List Token} (h : ReadFrom text tokens)
    (front : Text) : ReadFrom (front ++ text) tokens := by
  cases h with
  | nil => exact .nil _
  | cons gap token readable further =>
    rw [← List.append_assoc]
    exact .cons (front ++ gap) token readable further

section Strings

variable {quote : Char} {body more rest rest' : Text} {k : Nat}

/-- A string that goes on where another one ends shows that the other one ends with an escaped
quote, the last one of its source. -/
theorem ClosesIn.not_mem_of_longer (closes : ClosesIn quote [] (body ++ rest) k)
    (length_eq : body.length = k + 1) {k' : Nat}
    (closes' : ClosesIn quote [] (body ++ rest') k') (longer : k < k') : quote ∉ rest := by
  have same : (body ++ rest').take k = (body ++ rest).take k := by
    rw [List.take_append_of_le_length (by omega), List.take_append_of_le_length (by omega)]
  have occurs : (body ++ rest')[k]? = some quote := by
    have own : (body ++ rest)[k]? = some quote := closes.1
    rwa [List.getElem?_append_left (by omega)] at own ⊢
  have escaped := closes'.escaped_of_lt occurs longer
  rw [same] at escaped
  intro mem
  obtain ⟨i, at_i⟩ := List.mem_iff_getElem?.1 mem
  have later : (body ++ rest)[body.length + i]? = some quote := by
    rwa [List.getElem?_append_right (by omega), Nat.add_sub_cancel_left]
  have := closes.le_of_escaped escaped later
  omega

theorem ClosesIn.getLast?_eq (closes : ClosesIn quote [] (body ++ rest) k)
    (length_eq : body.length = k + 1) : body.getLast? = some quote := by
  have own : (body ++ rest)[k]? = some quote := closes.1
  rwa [List.getElem?_append_left (by omega), ← Nat.add_sub_cancel k 1, ← length_eq,
    ← List.getLast?_eq_getElem?] at own

theorem ClosesIn.le_of_quote_behind {k' : Nat} (closes : ClosesIn quote [] (body ++ rest) k)
    (length_eq : body.length = k + 1)
    (closes' : ClosesIn quote [] (body ++ quote :: rest') k') (not_backslash : quote ≠ '\\') :
    k' ≤ k + 1 := by
  by_contra beyond
  have occurs : (body ++ quote :: rest')[k + 1]? = some quote := by
    rw [List.getElem?_append_right (by omega), length_eq, Nat.sub_self]
    rfl
  have escaped := closes'.escaped_of_lt occurs (by omega)
  obtain ⟨front, rfl⟩ := List.getLast?_eq_some_iff.1 (closes.getLast?_eq length_eq)
  rw [← length_eq, List.take_left, List.nil_append, backslashRun_concat,
    if_neg not_backslash] at escaped
  cases escaped

/-- Where the dump of one string ends, that of another one with the same beginning cannot go on. -/
theorem ClosesIn.eq_nil_of_dump_eq {k' : Nat} {tail tail' : Text}
    (isQuote : quote = '"' ∨ quote = '\'')
    (closes : ClosesIn quote [] (body ++ rest) k) (length_eq : body.length = k + 1)
    (closes' : ClosesIn quote [] (body ++ more ++ rest') k')
    (length_eq' : (body ++ more).length = k' + 1)
    (same : '"' :: ',' :: tail = more ++ '"' :: ',' :: tail')
    (later : '\'' ∈ tail → '\'' ∈ rest) : more = [] := by
  by_contra longer
  obtain ⟨c, more, rfl⟩ := List.exists_cons_of_ne_nil longer
  obtain ⟨rfl, behind⟩ := List.cons.inj same
  have ends := closes'.getLast?_eq length_eq'
  rw [List.length_append, List.length_cons] at length_eq'
  rw [List.append_assoc] at closes'
  have last := closes.not_mem_of_longer length_eq closes' (by omega)
  rcases isQuote with rfl | rfl
  · -- the double quote of the dump would close the longer string too early
    have early := closes.le_of_quote_behind length_eq closes' (by decide)
    obtain rfl : more = [] := List.length_eq_zero_iff.1 (by omega)
    cases behind
  · -- the single quote that closes the longer string is still to come in the dump of the shorter
    rw [List.getLast?_append_of_ne_nil _ longer] at ends
    apply last
    apply later
    have mem : '\'' ∈ ',' :: tail := by
      rw [behind]
      apply List.mem_append_left
      simpa using List.mem_of_getLast? ends
    simpa using mem

end Strings

theorem delimited_inj {α : Type} {a : α} {word word' rest rest' : List α}
    (h : word ++ a :: rest = word' ++ a :: rest') (absent : a ∉ word) (absent' : a ∉ word') :
    word = word' ∧ rest = rest' := by
  rcases List.append_eq_append_iff.1 h with ⟨more, rfl, eq⟩ | ⟨more, rfl, eq⟩
  · cases more with
    | nil => exact ⟨(List.append_nil word).symm, (List.cons.inj eq).2⟩
    | cons b more =>
      obtain ⟨rfl, -⟩ := List.cons.inj eq
      exact absurd (List.mem_append_right word List.mem_cons_self) absent'
  · cases more with
    | nil => exact ⟨List.append_nil word', (List.cons.inj eq).2.symm⟩
    | cons b more =>
      obtain ⟨rfl, -⟩ := List.cons.inj eq
      exact absurd (List.mem_append_right word' List.mem_cons_self) absent

/-- A lexeme is determined by its category and the dump from the lexeme on. -/
theorem Readable.lexeme_eq {category : Category} {lexeme lexeme' : Option Text}
    {rest rest' tail tail' : Text} (h : Readable rest category lexeme)
    (h' : Readable rest' category lexeme')
    (same : lexeme.getD [] ++ '"' :: ',' :: tail = lexeme'.getD [] ++ '"' :: ',' :: tail')
    (later : '\'' ∈ tail → '\'' ∈ rest) (later' : '\'' ∈ tail' → '\'' ∈ rest') :
    lexeme = lexeme' := by
  cases h with
  | string isQuote length_eq closes =>
    cases h' with
    | string isQuote' length_eq' closes' =>
      obtain ⟨rfl, bodies⟩ := List.cons.inj same
      rcases List.append_eq_append_iff.1 bodies with ⟨more, rfl, eq⟩ | ⟨more, rfl, eq⟩
      · obtain rfl := closes.eq_nil_of_dump_eq isQuote length_eq closes' length_eq' eq later
        rw [List.append_nil]
      · obtain rfl := closes'.eq_nil_of_dump_eq isQuote length_eq' closes length_eq eq later'
        rw [List.append_nil]
    | unquoted not_string => exact absurd rfl not_string
  | single c =>
    cases h' with
    | single c' => rw [(List.cons.inj same).1]
    | unquoted _ not_illegal => exact absurd rfl not_illegal
  | unquoted not_string not_illegal not_end absent =>
    cases h' with
    | string => exact absurd rfl not_string
    | single => exact absurd rfl not_illegal
    | unquoted _ _ _ absent' => exact congrArg some (delimited_inj same absent absent').1
    | endOfFile => exact absurd rfl not_end
  | endOfFile =>
    cases h' with
    | unquoted _ _ not_end => exact absurd rfl not_end
    | endOfFile => rfl

theorem Pattern.exists_closesIn_of_length? {quote : Char} {lexeme rest : Text}
    (h : (quoted quote).length? (lexeme ++ rest) = some lexeme.length) :
    ∃ body k, lexeme = quote :: body ∧ body.length = k + 1 ∧
      ClosesIn quote [] (body ++ rest) k := by
  obtain ⟨left, n, opens, closing, length⟩ := length?_quoted_eq_some_iff.1 h
  obtain ⟨body, lexeme, rfl⟩ := exists_body_of_append opens (by omega)
  obtain ⟨k, rfl, closes⟩ := closing?_closesIn (escapesNext_nil ▸ closing)
  rw [lexeme, List.length_cons, Nat.add_right_cancel_iff] at length
  exact ⟨body, k, lexeme, length, closes⟩

theorem Match.Leads.exists_closesIn {m : Match} {rest : Text} (h : m.Leads rest)
    (string : m.rule = .string) :
    ∃ quote body k, (quote = '"' ∨ quote = '\'') ∧ m.lexeme = quote :: body ∧
      body.length = k + 1 ∧ ClosesIn quote [] (body ++ rest) k := by
  obtain ⟨rule, mem, name, taken⟩ := h.exists_rule
  have table : ∀ rule ∈ rules, rule.name = .string →
      rule = stringRule '"' ∨ rule = stringRule '\'' := by decide
  have quoted : ∃ quote, (quote = '"' ∨ quote = '\'') ∧ rule = stringRule quote := by
    rcases table rule mem (name.trans string) with double | single
    · exact ⟨'"', .inl rfl, double⟩
    · exact ⟨'\'', .inr rfl, single⟩
  obtain ⟨quote, isQuote, rfl⟩ := quoted
  obtain ⟨body, k, lexeme, length, closes⟩ := Pattern.exists_closesIn_of_length? taken
  exact ⟨quote, body, k, isQuote, lexeme, length, closes⟩

theorem Match.Leads.quote_not_mem {m : Match} {rest : Text} (h : m.Leads rest)
    (not_comment : m.rule ≠ .comment) (not_string : m.rule ≠ .string)
    (not_other : m.rule ≠ .other) : '"' ∉ m.lexeme := by
  intro mem
  obtain ⟨rule, rule_mem, name, taken⟩ := h.exists_rule
  have takes := Pattern.takes_of_mem taken (by rwa [List.take_left])
  have table : ∀ rule ∈ rules, rule.pattern.takes '"' = true →
      rule.name = .comment ∨ rule.name = .string ∨ rule.name = .other := by decide
  rcases table rule rule_mem takes with comment | string | other
  · exact not_comment (name.symm.trans comment)
  · exact not_string (name.symm.trans string)
  · exact not_other (name.symm.trans other)

theorem Match.Leads.readable {m : Match} {rest : Text} (h : m.Leads rest) {category : Category}
    (made : m.rule.tokenCategory? m.lexeme = some category) :
    Readable rest category (some m.lexeme) := by
  have string_iff := RuleName.tokenCategory?_eq_string_iff m.rule m.lexeme
  have other_iff := RuleName.tokenCategory?_eq_illegalChar_iff m.rule m.lexeme
  rw [made, Option.some.injEq] at string_iff other_iff
  by_cases string : m.rule = .string
  · obtain ⟨quote, body, k, isQuote, lexeme, length_eq, closes⟩ := h.exists_closesIn string
    rw [string_iff.2 string, lexeme]
    exact .string isQuote length_eq closes
  by_cases other : m.rule = .other
  · obtain ⟨c, lexeme⟩ := h.exists_lexeme_of_other other
    rw [other_iff.2 other, lexeme]
    exact .single c
  have not_end : category ≠ .endOfFile := by
    rintro rfl
    exact RuleName.tokenCategory?_ne_endOfFile m.rule m.lexeme made
  have not_comment : m.rule ≠ .comment := by
    intro comment
    rw [comment] at made
    cases made
  exact .unquoted (mt string_iff.1 string) (mt other_iff.1 other) not_end
    (h.quote_not_mem not_comment string other)

theorem Scans.readFrom_stream {offset : Nat} {text : Text} {ms : List Match}
    (h : Scans offset text ms) (filename : Text) (size : Nat) (cursor : Cursor) :
    ReadFrom text (cursor.stream filename size ms) := by
  induction h generalizing cursor with
  | nil => exact .cons [] ⟨.endOfFile, none, _⟩ .endOfFile (.nil [])
  | @cons m rest ms leads scans ih =>
    rw [Cursor.stream]
    cases made : m.rule.tokenCategory? m.lexeme with
    | none =>
      rw [Cursor.token?, made]
      exact (ih (cursor.past m)).behind m.lexeme
    | some category =>
      rw [Cursor.token?, made]
      exact .cons [] ⟨category, some m.lexeme, _⟩ (leads.readable made) (ih (cursor.past m))

section Lines

variable {location location' : Location} {further further' : Text}

/-- What a dump shows behind the lexeme of a token at the location. -/
def Dump.placed (location : Location) (further : Text) : Text :=
  " @(".toList ++ (Text.signedDecimal location.line ++ ',' ::
    ' ' :: (Text.signedDecimal location.column ++ ')' :: ("\x7d\n".toList ++ further)))

theorem Dump.numbered_cons (index : Nat) (token : Token) (tokens : List Token) :
    Dump.numbered index (token :: tokens) =
      "[".toList ++ (Text.decimal index ++ ("] \x7b".toList ++ (token.category.name ++ ',' ::
        (" \"".toList ++ (token.lexeme.getD [] ++ '"' :: ',' ::
          placed token.location (Dump.numbered (index + 1) tokens)))))) := by
  show "[".toList ++ Text.decimal index ++ "] ".toList ++ token.text ++ "\n".toList ++
    Dump.numbered (index + 1) tokens = _
  delta Token.text
  simp only [List.append_assoc]
  rfl

theorem Dump.placed_inj (h : placed location further = placed location' further') :
    location.line = location'.line ∧ location.column = location'.column ∧ further = further' := by
  have no_comma := Text.not_mem_signedDecimal (by decide : Char.isDigit ',' = false) (by decide)
  have no_bracket := Text.not_mem_signedDecimal (by decide : Char.isDigit ')' = false) (by decide)
  obtain ⟨line_eq, columns⟩ :=
    delimited_inj (List.append_cancel_left h) (no_comma _) (no_comma _)
  obtain ⟨column_eq, behind⟩ :=
    delimited_inj (List.cons.inj columns).2 (no_bracket _) (no_bracket _)
  exact ⟨Text.signedDecimal_injective line_eq, Text.signedDecimal_injective column_eq,
    List.append_cancel_left behind⟩

theorem Dump.single_mem_of_mem_placed (mem : '\'' ∈ placed location further) : '\'' ∈ further := by
  have absent := Text.not_mem_signedDecimal (by decide : Char.isDigit '\'' = false) (by decide)
  simpa [placed, absent] using mem

theorem ReadFrom.single_mem_of_mem_numbered {text : Text} {tokens : List Token}
    (h : ReadFrom text tokens) {index : Nat} (mem : '\'' ∈ Dump.numbered index tokens) :
    '\'' ∈ text := by
  induction h generalizing index with
  | nil => cases mem
  | @cons gap token rest tokens readable further ih =>
    have absent : '\'' ∉ Text.decimal index :=
      fun mem => absurd (Text.isDigit_of_mem_decimal mem) (by decide)
    have absent' : '\'' ∉ token.category.name :=
      fun mem => absurd (token.category.isUpper_or_of_mem_name mem) (by decide)
    have shown : '\'' ∈ token.lexeme.getD [] ∨
        '\'' ∈ Dump.placed token.location (Dump.numbered (index + 1) tokens) := by
      simpa [Dump.numbered_cons, absent, absent'] using mem
    apply List.mem_append_right gap
    rcases shown with own | behind
    · exact List.mem_append_left rest own
    · exact List.mem_append_right _ (ih (Dump.single_mem_of_mem_placed behind))

variable {token token' : Token} {tokens tokens' : List Token} {index : Nat}

/-- The first line of a dump, which need not be the text up to its first newline. -/
theorem Readable.numbered_cons_inj {rest rest' : Text}
    (readable : Readable rest token.category token.lexeme)
    (readable' : Readable rest' token'.category token'.lexeme)
    (later : ReadFrom rest tokens) (later' : ReadFrom rest' tokens')
    (same : Dump.numbered index (token :: tokens) = Dump.numbered index (token' :: tokens')) :
    token.shown = token'.shown ∧
      Dump.numbered (index + 1) tokens = Dump.numbered (index + 1) tokens' := by
  rw [Dump.numbered_cons, Dump.numbered_cons] at same
  have names := List.append_cancel_left (List.append_cancel_left (List.append_cancel_left same))
  obtain ⟨name_eq, behind⟩ :=
    delimited_inj names token.category.comma_not_mem_name token'.category.comma_not_mem_name
  have category_eq := Category.name_injective name_eq
  have lexemes := List.append_cancel_left behind
  rw [← category_eq] at readable'
  have lexeme_eq := readable.lexeme_eq readable' lexemes
    (fun mem => later.single_mem_of_mem_numbered (Dump.single_mem_of_mem_placed mem))
    (fun mem => later'.single_mem_of_mem_numbered (Dump.single_mem_of_mem_placed mem))
  rw [lexeme_eq] at lexemes
  have places := List.append_cancel_left lexemes
  obtain ⟨line_eq, column_eq, further_eq⟩ :=
    Dump.placed_inj (List.cons.inj (List.cons.inj places).2).2
  refine ⟨?_, further_eq⟩
  rw [Token.shown, Token.shown, category_eq, lexeme_eq, line_eq, column_eq]

theorem ReadFrom.shown_eq {text text' : Text} (h : ReadFrom text tokens)
    (h' : ReadFrom text' tokens')
    (same : Dump.numbered index tokens = Dump.numbered index tokens') :
    tokens.map Token.shown = tokens'.map Token.shown := by
  induction h generalizing text' tokens' index with
  | nil =>
    cases h' with
    | nil => rfl
    | cons =>
      rw [Dump.numbered_cons] at same
      cases same
  | cons gap token readable further ih =>
    cases h' with
    | nil =>
      rw [Dump.numbered_cons] at same
      cases same
    | cons gap' token' readable' further' =>
      obtain ⟨first, others⟩ := readable.numbered_cons_inj readable' further further' same
      rw [List.map_cons, List.map_cons, first, ih further' others]

theorem Dump.numbered_eq_of_shown (same : tokens.map Token.shown = tokens'.map Token.shown) :
    Dump.numbered index tokens = Dump.numbered index tokens' := by
  induction tokens generalizing tokens' index with
  | nil =>
    rw [List.map_nil, eq_comm, List.map_eq_nil_iff] at same
    rw [same]
  | cons token tokens ih =>
    obtain ⟨token', tokens', rfl, first, others⟩ := List.map_eq_cons_iff.1 same.symm
    obtain ⟨category_eq, lexeme_eq, line_eq, column_eq⟩ :
        token'.category = token.category ∧ token'.lexeme = token.lexeme ∧
          token'.location.line = token.location.line ∧
          token'.location.column = token.location.column := by
      simpa [Token.shown] using first
    rw [numbered_cons, numbered_cons, placed, placed, category_eq, lexeme_eq, line_eq, column_eq,
      ih others.symm]

end Lines

/-- Two sources have the same plain dump exactly if their tokens agree one by one in all that it
shows of them. -/
theorem plain_dump_eq_iff (source source' filename filename' : Text) :
    ∃ tokens tokens', tokenize source filename = .ok tokens ∧
      tokenize source' filename' = .ok tokens' ∧
      (Dump.render false tokens = Dump.render false tokens' ↔
        tokens.map Token.shown = tokens'.map Token.shown) := by
  refine ⟨_, _, tokenize_eq source filename, tokenize_eq source' filename', ?_, ?_⟩
  · intro same
    have read := (scans_scan source).readFrom_stream filename source.length .start
    have read' := (scans_scan source').readFrom_stream filename' source'.length .start
    exact read.shown_eq read' same
  · exact Dump.numbered_eq_of_shown

/-- Tokens that no source has can share a dump: here the lexeme of the one token holds a line. -/
example :
    let quote : Token := ⟨.string, some "'".toList, ⟨[], 1, 1, 0⟩⟩
    let forged : Token :=
      ⟨.string, some "'\", @(1, 1)\x7d\n[1] \x7bSTRING, \"'".toList, ⟨[], 1, 1, 0⟩⟩
    Dump.plain [forged] = Dump.plain [quote, quote] := by
  decide

end PriorityLexer
