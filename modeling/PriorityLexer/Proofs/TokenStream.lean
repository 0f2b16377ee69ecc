import PriorityLexer.Lexer
import PriorityLexer.Proofs.Partition

namespace PriorityLexer

namespace RuleName

/-- The matches of these rules make no token. -/
def isSkipped : RuleName → Bool
  | newline => true
  | whiteSpace => true
  | comment => true
  | _ => false

/-- The category of the token that a match of the rule makes, if it makes one. -/
def tokenCategory? (rule : RuleName) (lexeme : Text) : Option Category :=
  match rule with
  | newline => none
  | whiteSpace => none
  | comment => none
  | identifier => some (wordCategory lexeme)
  | string => some .string
  | other => some .illegalChar
  | rule => rule.category?

theorem tokenCategory?_isSome (rule : RuleName) (lexeme : Text) :
    (rule.tokenCategory? lexeme).isSome = !rule.isSkipped := by
  cases rule <;> rfl

theorem tokenCategory?_of_isSkipped {rule : RuleName} (h : rule.isSkipped = true)
    (lexeme : Text) : rule.tokenCategory? lexeme = none := by
  have made := tokenCategory?_isSome rule lexeme
  rwa [h, Bool.not_true, Option.isSome_eq_false_iff, Option.isNone_iff_eq_none] at made

/-- A word makes a token whose category depends on it. All others have the category of their
rule. -/
theorem of_tokenCategory? {rule : RuleName} {lexeme : Text} {category : Category}
    (made : rule.tokenCategory? lexeme = some category) :
    rule = .identifier ∧ wordCategory lexeme = category ∨ rule = .string ∧ category = .string ∨
      rule = .other ∧ category = .illegalChar ∨ rule.category? = some category := by
  cases rule with
  | identifier => exact .inl ⟨rfl, Option.some.inj made⟩
  | string => exact .inr (.inl ⟨rfl, (Option.some.inj made).symm⟩)
  | other => exact .inr (.inr (.inl ⟨rfl, (Option.some.inj made).symm⟩))
  | _ => exact .inr (.inr (.inr made))

theorem wordCategory_ne {category : Category} (not_identifier : category ≠ .identifier)
    (unreserved : ∀ entry ∈ keywords, entry.2 ≠ category) (word : Text) :
    wordCategory word ≠ category := by
  unfold wordCategory keyword?
  cases found : keywords.lookup word with
  | none => exact not_identifier.symm
  | some reserved => exact unreserved (word, reserved) (mem_of_lookup_eq_some found)

theorem tokenCategory?_ne_endOfFile (rule : RuleName) (lexeme : Text) :
    rule.tokenCategory? lexeme ≠ some .endOfFile := by
  have word := wordCategory_ne (by decide : Category.endOfFile ≠ .identifier) (by decide) lexeme
  cases rule with
  | identifier => exact fun same => word (Option.some.inj same)
  | _ => exact fun same => by cases same

theorem tokenCategory?_eq_illegalChar_iff (rule : RuleName) (lexeme : Text) :
    rule.tokenCategory? lexeme = some .illegalChar ↔ rule = .other := by
  have word := wordCategory_ne (by decide : Category.illegalChar ≠ .identifier) (by decide) lexeme
  cases rule with
  | identifier => simpa [tokenCategory?] using word
  | _ => simp [tokenCategory?, category?]

theorem tokenCategory?_eq_string_iff (rule : RuleName) (lexeme : Text) :
    rule.tokenCategory? lexeme = some .string ↔ rule = .string := by
  have word := wordCategory_ne (by decide : Category.string ≠ .identifier) (by decide) lexeme
  cases rule with
  | identifier => simpa [tokenCategory?] using word
  | _ => simp [tokenCategory?, category?]

end RuleName

namespace Cursor

def classified (cursor : Cursor) (rule : RuleName) (lexeme : Text) (offset : Int) : Cursor :=
  match rule with
  | .newline => { cursor with line := cursor.line + 1, columnStart := offset + lexeme.length }
  | .other => { cursor with illegalCount := cursor.illegalCount + 1 }
  | _ => cursor

theorem classify_eq (cursor : Cursor) (filename : Text) (rule : RuleName) (lexeme : Text)
    (offset : Int) :
    cursor.classify filename rule lexeme offset =
      .ok ((rule.tokenCategory? lexeme).map fun category =>
          ⟨category, some lexeme, cursor.locate filename offset⟩,
        cursor.classified rule lexeme offset) := by
  cases rule <;> rfl

def token? (cursor : Cursor) (filename : Text) (m : Match) : Option Token :=
  (m.rule.tokenCategory? m.lexeme).map fun category =>
    ⟨category, some m.lexeme, cursor.locate filename m.offset⟩

def past (cursor : Cursor) (m : Match) : Cursor :=
  { cursor.classified m.rule m.lexeme m.offset with pos := m.stop }

def pastAll (cursor : Cursor) (ms : List Match) : Cursor := ms.foldl past cursor

@[simp] theorem pastAll_nil (cursor : Cursor) : cursor.pastAll [] = cursor := rfl

@[simp] theorem pastAll_cons (cursor : Cursor) (m : Match) (ms : List Match) :
    cursor.pastAll (m :: ms) = (cursor.past m).pastAll ms := rfl

/-- The tokens of the matches from the cursor on, and the end-of-file token of a source of that
size. -/
def stream (filename : Text) (size : Nat) : Cursor → List Match → List Token
  | cursor, [] => [⟨.endOfFile, none, cursor.locate filename size⟩]
  | cursor, m :: ms => (cursor.token? filename m).toList ++ stream filename size (cursor.past m) ms

end Cursor

namespace Lexer

def past (lexer : Lexer) (m : Match) (rest : List Match) : Lexer :=
  { lexer with
    pending := rest
    cursor := lexer.cursor.past m
    tokenCount := lexer.tokenCount + (lexer.cursor.token? lexer.filename m).toList.length
    journal :=
      (if m.rule = .other then
        [Event.illegalCharacter m.lexeme (lexer.cursor.locate lexer.filename m.offset)]
      else []) ++ lexer.journal }

theorem consume_eq (lexer : Lexer) (m : Match) (rest : List Match) :
    lexer.consume m rest =
      (.ok (lexer.cursor.token? lexer.filename m), lexer.past m rest) := by
  simp only [consume, classify, Cursor.classify_eq]
  rfl

theorem readTokens_cons (lexer : Lexer) (m : Match) (ms : List Match) :
    lexer.readTokens (m :: ms) =
      (((lexer.past m ms).readTokens ms).1.map
          ((lexer.cursor.token? lexer.filename m).toList ++ ·),
        ((lexer.past m ms).readTokens ms).2) := by
  rw [readTokens, consume_eq]
  dsimp only
  rcases (lexer.past m ms).readTokens ms with ⟨_ | tokens, later⟩ <;> rfl

/-- Reading on gives the tokens of the matches in order and comes to the end. -/
theorem readTokens_eq (lexer : Lexer) (ms : List Match) :
    ∃ later, lexer.readTokens ms =
        (.ok (lexer.cursor.stream lexer.filename lexer.size ms), later) ∧
      later.stage = .ended := by
  induction ms generalizing lexer with
  | nil => exact ⟨lexer.finished, rfl, rfl⟩
  | cons m ms ih =>
    -- the others are read by the lexer that the first match leaves behind
    obtain ⟨later, others, ended⟩ := ih (lexer.past m ms)
    refine ⟨later, ?_, ended⟩
    rw [readTokens_cons, others]
    rfl

end Lexer

/-- The tokens of a source are those of the matches of its scan. -/
theorem tokenize_eq (source filename : Text) :
    tokenize source filename =
      .ok (Cursor.start.stream filename source.length (scan source)) := by
  obtain ⟨later, read, -⟩ :=
    (Lexer.ofSource source filename).started.readTokens_eq (scan source)
  exact congrArg Prod.fst read

namespace Cursor

variable {filename : Text} {size : Nat}

theorem token?_of_isSkipped {m : Match} (filename : Text) (h : m.rule.isSkipped = true)
    (cursor : Cursor) :
    cursor.token? filename m = none := by
  rw [token?, RuleName.tokenCategory?_of_isSkipped h, Option.map_none]

theorem exists_token?_of_not_isSkipped {m : Match} (filename : Text)
    (h : m.rule.isSkipped = false) (cursor : Cursor) :
    ∃ category, cursor.token? filename m =
      some ⟨category, some m.lexeme, cursor.locate filename m.offset⟩ := by
  have made := RuleName.tokenCategory?_isSome m.rule m.lexeme
  rw [h, Bool.not_false] at made
  obtain ⟨category, made⟩ := Option.isSome_iff_exists.1 made
  exact ⟨category, by rw [token?, made, Option.map_some]⟩

/-- A token of the stream comes from a match, seen from the cursor behind the matches before it, or
it is the end-of-file token. -/
theorem mem_stream {cursor : Cursor} {ms : List Match} {token : Token}
    (h : token ∈ cursor.stream filename size ms) :
    (∃ before m after, ms = before ++ m :: after ∧
      (cursor.pastAll before).token? filename m = some token) ∨
    token = ⟨.endOfFile, none, (cursor.pastAll ms).locate filename size⟩ := by
  induction ms generalizing cursor with
  | nil => exact .inr (List.mem_singleton.1 h)
  | cons m ms ih =>
    rcases List.mem_append.1 h with own | further
    · exact .inl ⟨[], m, ms, rfl, Option.mem_toList.1 own⟩
    · rcases ih further with ⟨before, m', after, rfl, made⟩ | last
      · exact .inl ⟨m :: before, m', after, rfl, made⟩
      · exact .inr last

def tokens (filename : Text) : Cursor → List Match → List Token
  | _, [] => []
  | cursor, m :: ms => (cursor.token? filename m).toList ++ tokens filename (cursor.past m) ms

theorem stream_append (filename : Text) (size : Nat) (cursor : Cursor) (ms ms' : List Match) :
    cursor.stream filename size (ms ++ ms') =
      cursor.tokens filename ms ++ (cursor.pastAll ms).stream filename size ms' := by
  induction ms generalizing cursor with
  | nil => rfl
  | cons m ms ih => rw [List.cons_append, stream, ih, tokens, pastAll_cons, List.append_assoc]

theorem stream_eq (filename : Text) (size : Nat) (cursor : Cursor) (ms : List Match) :
    cursor.stream filename size ms =
      cursor.tokens filename ms ++
        [⟨.endOfFile, none, (cursor.pastAll ms).locate filename size⟩] := by
  have whole := stream_append filename size cursor ms []
  rwa [List.append_nil, stream] at whole

theorem category_ne_endOfFile_of_mem_tokens {cursor : Cursor} {ms : List Match} {token : Token}
    (mem : token ∈ cursor.tokens filename ms) : token.category ≠ .endOfFile := by
  induction ms generalizing cursor with
  | nil => cases mem
  | cons m ms ih =>
    rcases List.mem_append.1 mem with own | further
    · obtain ⟨category, made, rfl⟩ := Option.map_eq_some_iff.1 (Option.mem_toList.1 own)
      rintro rfl
      exact RuleName.tokenCategory?_ne_endOfFile m.rule m.lexeme made
    · exact ih further

theorem stream_eq_append (filename : Text) (size : Nat) (cursor : Cursor) (ms : List Match) :
    ∃ tokens, cursor.stream filename size ms =
        tokens ++ [⟨.endOfFile, none, (cursor.pastAll ms).locate filename size⟩] ∧
      ∀ token ∈ tokens, token.category ≠ .endOfFile :=
  ⟨_, stream_eq filename size cursor ms, fun _ => category_ne_endOfFile_of_mem_tokens⟩

theorem tokens_map {α : Type} (shape : Category → Option Text → Int → α) (filename : Text)
    (cursor : Cursor) (ms : List Match) :
    (cursor.tokens filename ms).map
        (fun token => shape token.category token.lexeme token.location.offset) =
      ms.filterMap (fun m => (m.rule.tokenCategory? m.lexeme).map
        fun category => shape category (some m.lexeme) m.offset) := by
  induction ms generalizing cursor with
  | nil => rfl
  | cons m ms ih =>
    rw [tokens, List.map_append, ih, List.filterMap_cons]
    cases made : m.rule.tokenCategory? m.lexeme with
    | none => simp [token?, made]
    | some category => simp [token?, made, locate]

theorem stream_map {α : Type} (shape : Category → Option Text → Int → α) (filename : Text)
    (size : Nat) (cursor : Cursor) (ms : List Match) :
    (cursor.stream filename size ms).map
        (fun token => shape token.category token.lexeme token.location.offset) =
      ms.filterMap (fun m => (m.rule.tokenCategory? m.lexeme).map
        fun category => shape category (some m.lexeme) m.offset) ++
      [shape .endOfFile none size] := by
  rw [stream_eq, List.map_append, tokens_map]
  rfl

theorem stream_pairwise_offset {cursor : Cursor} {offset : Nat} {text : Text} {ms : List Match}
    (scans : Scans offset text ms) :
    (cursor.stream filename (offset + text.length) ms).Pairwise
      fun a b => a.location.offset < b.location.offset := by
  have offsets := stream_map (fun _ _ place => place) filename (offset + text.length) cursor ms
  rw [← List.pairwise_map (f := fun token : Token => token.location.offset), offsets]
  refine List.pairwise_append.2 ⟨?_, List.pairwise_singleton _ _, ?_⟩
  · refine List.pairwise_filterMap.2 (scans.pairwise_offset.imp ?_)
    intro m m' before place made place' made'
    obtain ⟨-, -, rfl⟩ := Option.map_eq_some_iff.1 made
    obtain ⟨-, -, rfl⟩ := Option.map_eq_some_iff.1 made'
    omega
  · intro place mem last last_mem
    obtain ⟨m, m_mem, made⟩ := List.mem_filterMap.1 mem
    obtain ⟨-, -, rfl⟩ := Option.map_eq_some_iff.1 made
    have bounds := scans.bounds m_mem
    rw [List.mem_singleton.1 last_mem]
    omega

end Cursor

theorem tokenize_of_append {source : Text} {before after : List Match}
    (split : scan source = before ++ after) (filename : Text) :
    tokenize source filename =
      .ok (Cursor.start.tokens filename before ++
        (Cursor.start.pastAll before).stream filename source.length after) := by
  rw [tokenize_eq, split, Cursor.stream_append]

end PriorityLexer
