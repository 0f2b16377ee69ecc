import PriorityLexer.Proofs.JsonReader
import PriorityLexer.Proofs.PlainDump
import PriorityLexer.Proofs.SourceSizes

namespace PriorityLexer

namespace Text

def isAscii (text : Text) : Bool := text.all fun c => c.toNat < 0x80

theorem isAscii_append (a b : Text) : isAscii (a ++ b) = (isAscii a && isAscii b) :=
  List.all_append

theorem isAscii_signedDecimal (n : Int) : isAscii (signedDecimal n) = true := by
  apply List.all_eq_true.2
  intro c mem
  rcases isDigit_or_of_mem_signedDecimal mem with digit | rfl
  · simp only [Char.isDigit, Bool.and_eq_true, decide_eq_true_eq] at digit
    exact decide_eq_true (Nat.lt_of_le_of_lt digit.2 (by decide))
  · rfl

theorem isAscii_unitEscape (unit : Nat) : isAscii (JsonString.unitEscape unit) = true := by
  have digits : isAscii (hexadecimal 4 unit) = true := by
    apply List.all_eq_true.2
    intro c mem
    obtain ⟨d, small, rfl⟩ := exists_digit_of_mem_hexadecimal mem
    have each : ∀ d < 16, decide (d.digitChar.toNat < 0x80) = true := by decide
    exact each d small
  rw [JsonString.unitEscape, isAscii_append, digits]
  rfl

theorem isAscii_escaped (c : Char) : isAscii (JsonString.escaped c) = true := by
  unfold JsonString.escaped
  split_ifs with quote backslash newline return_ tab feed back plain
  any_goals rfl
  · have low : c.toNat < 0x80 := Nat.lt_of_le_of_lt plain.2 (by decide)
    simp [isAscii, low]
  · unfold JsonString.codeEscape
    split
    · exact isAscii_unitEscape _
    · rw [isAscii_append, isAscii_unitEscape, isAscii_unitEscape]
      rfl

theorem isAscii_encode (text : Text) : isAscii (JsonString.encode text) = true := by
  have body : isAscii (text.flatMap JsonString.escaped) = true := by
    rw [isAscii, List.all_flatMap, List.all_eq_true]
    exact fun c _ => isAscii_escaped c
  rw [JsonString.encode, ← List.singleton_append, isAscii_append, isAscii_append, body]
  rfl

end Text

namespace Token

def json (token : Token) : Json :=
  .object [
    ("category".toList, .string token.category.name),
    ("lexeme".toList, token.lexeme.elim .null .string),
    ("line".toList, .number token.location.line 0),
    ("column".toList, .number token.location.column 0)]

/-- Some token of which a dump shows this. -/
def ofShown : Category × Option Text × Int × Int → Token
  | (category, lexeme, line, column) => ⟨category, lexeme, ⟨[], line, column, 0⟩⟩

theorem json_ofShown_injective : Function.Injective fun shown => (ofShown shown).json := by
  rintro ⟨category, lexeme, line, column⟩ ⟨category', lexeme', line', column'⟩ same
  simp only [json, ofShown, Json.object.injEq, List.cons.injEq, Prod.mk.injEq, Json.string.injEq,
    Json.number.injEq, true_and, and_true] at same
  obtain ⟨names, lexemes, rfl, rfl⟩ := same
  have lexeme_eq : lexeme = lexeme' := by
    cases lexeme <;> cases lexeme' <;> cases lexemes <;> rfl
  rw [Category.name_injective names, lexeme_eq]

theorem map_json_eq_iff {tokens tokens' : List Token} :
    tokens.map json = tokens'.map json ↔ tokens.map shown = tokens'.map shown := by
  -- the object depends on what is shown alone, so the lists can be compared in one go
  have through : json = (fun shown => (ofShown shown).json) ∘ shown := rfl
  rw [through, ← List.map_map, ← List.map_map]
  exact (List.map_injective_iff.2 json_ofShown_injective).eq_iff

end Token

namespace Dump

open Json

section Pieces

variable {α : Type} {text value : Text} {symbols : List Symbol}

theorem spellsApart_intercalate {make : α → Text} {spelled : α → List Symbol} {items : List α}
    (each : ∀ item ∈ items, SpellsApart (make item) (spelled item)) :
    SpellsApart (",\n".toList.intercalate (items.map make))
      ([.comma].intercalate (items.map spelled)) := by
  have separator : Spells ",\n".toList [.comma] := fun _ => rfl
  induction items with
  | nil =>
    intro before c _
    rw [List.map_nil, List.map_nil, List.intercalate_nil, List.intercalate_nil, List.append_nil]
    exact Reader.run_singleton _ c
  | cons first items ih =>
    have head := each first List.mem_cons_self
    cases items with
    | nil => simpa using head
    | cons next items =>
      have tail := ih fun item mem => each item (.tail first mem)
      rw [List.map_cons, List.map_cons] at tail ⊢
      rw [List.map_cons, List.map_cons, List.intercalate_cons_cons, List.intercalate_cons_cons,
        List.append_assoc, List.append_assoc]
      exact head.append_apart rfl (separator.append_apart tail)

theorem spellsApart_jsonMember (name : String) (h : SpellsApart value symbols) :
    SpellsApart (jsonMember name value) (.string name.toList :: .colon :: symbols) := by
  have indent : Spells "    ".toList [] := by
    intro before
    rw [List.append_nil]
    rfl
  have colon : Spells ": ".toList [.colon] := fun _ => rfl
  exact ((indent.append (spells_encode name.toList)).append colon).append_apart h

theorem spellsApart_jsonLexeme (lexeme : Option Text) :
    SpellsApart (jsonLexeme lexeme) (lexeme.elim .null .string : Json).symbols := by
  cases lexeme with
  | none => exact spellsApart_null
  | some lexeme => exact (spells_encode lexeme).apart

end Pieces

/-- The members of the object of a token: their names, what is written of their values, and the
values. -/
def jsonFields (token : Token) : List (String × Text × Json) := [
  ("category", Text.JsonString.encode token.category.name, .string token.category.name),
  ("lexeme", jsonLexeme token.lexeme, token.lexeme.elim .null .string),
  ("line", Text.signedDecimal token.location.line, .number token.location.line 0),
  ("column", Text.signedDecimal token.location.column, .number token.location.column 0)]

theorem spellsApart_of_mem_jsonFields {token : Token} {field : String × Text × Json}
    (mem : field ∈ jsonFields token) : SpellsApart field.2.1 field.2.2.symbols := by
  simp only [jsonFields, List.mem_cons, List.not_mem_nil, or_false] at mem
  rcases mem with rfl | rfl | rfl | rfl
  · exact (spells_encode _).apart
  · exact spellsApart_jsonLexeme _
  · exact spellsApart_signedDecimal _
  · exact spellsApart_signedDecimal _

theorem jsonObject_eq (token : Token) :
    jsonObject token =
      "  \x7b\n".toList ++ ",\n".toList.intercalate
        ((jsonFields token).map fun field => jsonMember field.1 field.2.1) ++
          '\n' :: "  \x7d".toList := rfl

theorem json_eq_object (token : Token) :
    token.json =
      .object ((jsonFields token).map fun field => (field.1.toList, field.2.2)) := rfl

theorem spells_jsonObject (token : Token) : Spells (jsonObject token) token.json.symbols := by
  have each : ∀ field ∈ jsonFields token,
      SpellsApart (jsonMember field.1 field.2.1) (memberSymbols (field.1.toList, field.2.2)) :=
    fun field mem => spellsApart_jsonMember field.1 (spellsApart_of_mem_jsonFields mem)
  have opens : Spells "  \x7b\n".toList [.openObject] := fun _ => rfl
  have closes : Spells ('\n' :: "  \x7d".toList) [.closeObject] := fun _ => rfl
  -- the last member ends with a numeral, which the newline behind it cuts off
  rw [jsonObject_eq, json_eq_object, symbols_object, List.map_map]
  exact (opens.append_apart (spellsApart_intercalate each)).append rfl closes

theorem json_cons (token : Token) (tokens : List Token) :
    json (token :: tokens) =
      "[\n".toList ++ ",\n".toList.intercalate ((token :: tokens).map jsonObject) ++
        '\n' :: "]\n".toList := by
  show "[\n".toList ++ ",\n".toList.intercalate ((token :: tokens).map jsonObject) ++
    "\n]".toList ++ "\n".toList = _
  rw [List.append_assoc]
  rfl

/-- The text of a dump is read as the array of the objects. -/
theorem spells_json (tokens : List Token) :
    Spells (json tokens) (Json.array (tokens.map Token.json)).symbols := by
  rw [symbols_array, List.map_map]
  cases tokens with
  | nil =>
    have opens : Spells "[".toList [.openArray] := fun _ => rfl
    have closes : Spells "]\n".toList [.closeArray] := fun _ => rfl
    exact opens.append closes
  | cons token tokens =>
    have each : ∀ item ∈ token :: tokens,
        SpellsApart (jsonObject item) ((Json.symbols ∘ Token.json) item) :=
      fun item _ => (spells_jsonObject item).apart
    have opens : Spells "[\n".toList [.openArray] := fun _ => rfl
    have closes : Spells ('\n' :: "]\n".toList) [.closeArray] := fun _ => rfl
    rw [json_cons]
    exact (opens.append_apart (spellsApart_intercalate each)).append rfl closes

theorem json_map_ofShown (tokens : List Token) :
    json ((tokens.map Token.shown).map Token.ofShown) = json tokens := by
  have each : (jsonObject ∘ Token.ofShown) ∘ Token.shown = jsonObject := rfl
  cases tokens with
  | nil => rfl
  | cons token tokens =>
    rw [List.map_cons, List.map_cons, json_cons, json_cons, ← List.map_cons, ← List.map_cons,
      List.map_map, List.map_map, each]

theorem json_eq_iff {tokens tokens' : List Token} :
    json tokens = json tokens' ↔ tokens.map Token.shown = tokens'.map Token.shown := by
  constructor
  · intro same
    have back := read?_of_spells (spells_json tokens)
    rw [same, read?_of_spells (spells_json tokens'), Option.some.injEq, Json.array.injEq] at back
    exact Token.map_json_eq_iff.1 back.symm
  · intro same
    rw [← json_map_ofShown tokens, same, json_map_ofShown]

theorem isAscii_intercalate {items : List Text} (each : ∀ item ∈ items, Text.isAscii item = true) :
    Text.isAscii (",\n".toList.intercalate items) = true := by
  induction items with
  | nil => rfl
  | cons first items ih =>
    have head := each first List.mem_cons_self
    cases items with
    | nil => simpa using head
    | cons next items =>
      have tail := ih fun item mem => each item (.tail first mem)
      rw [List.intercalate_cons_cons, Text.isAscii_append, Text.isAscii_append, head, tail]
      rfl

theorem isAscii_of_mem_jsonFields {token : Token} {field : String × Text × Json}
    (mem : field ∈ jsonFields token) : Text.isAscii field.2.1 = true := by
  have lexeme : Text.isAscii (jsonLexeme token.lexeme) = true := by
    cases token.lexeme with
    | none => rfl
    | some lexeme => exact Text.isAscii_encode lexeme
  simp only [jsonFields, List.mem_cons, List.not_mem_nil, or_false] at mem
  rcases mem with rfl | rfl | rfl | rfl
  · exact Text.isAscii_encode _
  · exact lexeme
  · exact Text.isAscii_signedDecimal _
  · exact Text.isAscii_signedDecimal _

theorem isAscii_jsonObject (token : Token) : Text.isAscii (jsonObject token) = true := by
  have each : ∀ item ∈ (jsonFields token).map fun field => jsonMember field.1 field.2.1,
      Text.isAscii item = true := by
    rw [List.forall_mem_map]
    intro field mem
    show Text.isAscii ("    ".toList ++ Text.JsonString.encode field.1.toList ++ ": ".toList ++
      field.2.1) = true
    rw [Text.isAscii_append, Text.isAscii_append, Text.isAscii_append, Text.isAscii_encode,
      isAscii_of_mem_jsonFields mem]
    rfl
  rw [jsonObject_eq, Text.isAscii_append, Text.isAscii_append, isAscii_intercalate each]
  rfl

theorem isAscii_json (tokens : List Token) : Text.isAscii (json tokens) = true := by
  have each : ∀ item ∈ tokens.map jsonObject, Text.isAscii item = true :=
    List.forall_mem_map.2 fun token _ => isAscii_jsonObject token
  cases tokens with
  | nil => rfl
  | cons token tokens =>
    rw [json_cons, Text.isAscii_append, Text.isAscii_append, isAscii_intercalate each]
    rfl

theorem isWritable_iff (token : Token) :
    isWritable token = true ↔ token.location.line.natAbs < 10 ^ Text.digitLimit ∧
      token.location.column.natAbs < 10 ^ Text.digitLimit := by
  rw [isWritable, Bool.and_eq_true, Text.isWritable_iff, Text.isWritable_iff]

theorem print_eq_ok_iff {asJson : Bool} {tokens : List Token} {text : Text} :
    print asJson tokens = .ok text ↔
      tokens.all isWritable = true ∧ render asJson tokens = text := by
  unfold print
  split
  · rename_i writable
    simp [writable]
  · rename_i unwritable
    simp [unwritable]

theorem all_isWritable_congr {tokens tokens' : List Token}
    (same : tokens.map Token.shown = tokens'.map Token.shown) :
    tokens.all isWritable = tokens'.all isWritable := by
  have through : isWritable = (fun shown => isWritable (Token.ofShown shown)) ∘ Token.shown := rfl
  rw [through, ← List.all_map, ← List.all_map, same]

end Dump

/-- Tokens can be dumped as JSON exactly if their lines and columns do not have too many digits.
Such a dump has only ASCII characters and reads back as an array with an object for each token. So
the lists of tokens with this dump are those that agree with it one by one in all that a dump shows
of them. -/
theorem json_dump_reads_back (tokens : List Token) :
    ((∃ text, Dump.print true tokens = .ok text) ↔
      ∀ token ∈ tokens, token.location.line.natAbs < 10 ^ Text.digitLimit ∧
        token.location.column.natAbs < 10 ^ Text.digitLimit) ∧
    ∀ text, Dump.print true tokens = .ok text →
      (∀ c ∈ text, c.toNat < 0x80) ∧
      Json.read? text = some (.array (tokens.map Token.json)) ∧
      ∀ tokens', Dump.print true tokens' = .ok text ↔
        tokens'.map Token.shown = tokens.map Token.shown := by
  refine ⟨?_, ?_⟩
  · simp only [Dump.print_eq_ok_iff, exists_and_left, exists_eq', and_true, List.all_eq_true,
      Dump.isWritable_iff]
  · intro text printed
    obtain ⟨writable, rfl⟩ := Dump.print_eq_ok_iff.1 printed
    have ascii := List.all_eq_true.1 (Dump.isAscii_json tokens)
    refine ⟨fun c mem => of_decide_eq_true (ascii c mem),
      Json.read?_of_spells (Dump.spells_json tokens), ?_⟩
    intro tokens'
    rw [Dump.print_eq_ok_iff]
    constructor
    · rintro ⟨-, same⟩
      exact Dump.json_eq_iff.1 same
    · intro same
      exact ⟨(Dump.all_isWritable_congr same).trans writable, Dump.json_eq_iff.2 same⟩

/-- A line with one digit too many stops a dump. -/
theorem json_dump_refuses_long_line :
    let token : Token :=
      ⟨.identifier, some ['a'], ⟨"p.bc".toList, (10 ^ Text.digitLimit : Nat), 1, 0⟩⟩
    Dump.print true [token] = .error .unwritableNumber ∧
      ¬∃ text, Dump.print true [token] = .ok text := by
  intro token
  have long : ¬Dump.isWritable token = true := by
    rw [Dump.isWritable_iff]
    rintro ⟨less, -⟩
    have line : token.location.line.natAbs = 10 ^ Text.digitLimit := Int.natAbs_natCast _
    exact Nat.lt_irrefl _ (line ▸ less)
  have stopped : Dump.print true [token] = .error .unwritableNumber :=
    if_neg fun all => long (List.all_eq_true.1 all token List.mem_cons_self)
  refine ⟨stopped, ?_⟩
  rintro ⟨text, printed⟩
  rw [stopped] at printed
  cases printed

end PriorityLexer
