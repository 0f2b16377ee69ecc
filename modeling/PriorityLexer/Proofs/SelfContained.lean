import PriorityLexer.Proofs.Loosening
import PriorityLexer.Proofs.Positions

namespace PriorityLexer

theorem Match.Leads.alone {m : Match} {rest : Text} (h : m.Leads rest) : m.Leads [] := by
  apply h.loosened (.stop rest)
  intro _ _ c front
  cases front

theorem Match.Leads.scan_lexeme {m : Match} {rest : Text} (h : m.Leads rest) :
    scan m.lexeme = [⟨m.rule, m.lexeme, 0⟩] := by
  have leads : Match.Leads ⟨m.rule, m.lexeme, 0⟩ [] := h.alone
  have whole := Scans.cons leads (.nil _)
  rw [List.append_nil] at whole
  exact whole.eq_scanFrom.symm

theorem scan_lexeme_of_mem {source : Text} {m : Match} (mem : m ∈ scan source) :
    scan m.lexeme = [⟨m.rule, m.lexeme, 0⟩] := by
  obtain ⟨rest, leads⟩ := (scans_scan source).leads_of_mem mem
  exact leads.scan_lexeme

structure Token.IsOf (token : Token) (source : Text) (m : Match) : Prop where
  mem : m ∈ scan source
  made : m.rule.tokenCategory? m.lexeme = some token.category
  lexeme : token.lexeme = some m.lexeme
  offset : token.location.offset = m.offset

theorem exists_isOf_or_of_mem_stream {source filename : Text} {token : Token}
    (mem : token ∈ Cursor.start.stream filename source.length (scan source)) :
    (∃ m, token.IsOf source m) ∨ token.lexeme = none ∧ token.category = .endOfFile := by
  rcases Cursor.mem_stream mem with ⟨before, m, after, split, made⟩ | rfl
  · obtain ⟨category, found, rfl⟩ := Option.map_eq_some_iff.1 made
    exact .inl ⟨m, by simp [split], found, rfl, rfl⟩
  · exact .inr ⟨rfl, rfl⟩

theorem exists_match_of_mem_stream {source filename : Text} {token : Token}
    (mem : token ∈ Cursor.start.stream filename source.length (scan source)) :
    (∃ m ∈ scan source, token.lexeme = some m.lexeme ∧
      m.rule.tokenCategory? m.lexeme = some token.category) ∨
    token.lexeme = none ∧ token.category = .endOfFile := by
  rcases exists_isOf_or_of_mem_stream mem with ⟨m, made⟩ | is_end
  · exact .inl ⟨m, made.mem, made.lexeme, made.made⟩
  · exact .inr is_end

/-- The lexeme of a match that makes a token is read as that one token. -/
theorem tokenize_lexeme {source : Text} {m : Match} (mem : m ∈ scan source) {category : Category}
    (made : m.rule.tokenCategory? m.lexeme = some category) (filename : Text) :
    tokenize m.lexeme filename =
      .ok [⟨category, some m.lexeme, ⟨filename, 1, 1, 0⟩⟩,
        ⟨.endOfFile, none, ⟨filename, 1, m.lexeme.length + 1, m.lexeme.length⟩⟩] := by
  have not_newline : m.rule ≠ .newline := by
    intro newline
    rw [newline] at made
    cases made
  have line := Cursor.start.past_line ⟨m.rule, m.lexeme, 0⟩
  have columnStart := Cursor.start.past_columnStart ⟨m.rule, m.lexeme, 0⟩
  rw [if_neg not_newline] at line columnStart
  rw [tokenize_eq, scan_lexeme_of_mem mem]
  simp only [Cursor.stream, Cursor.token?, made, Cursor.locate, line, columnStart]
  simp [Cursor.start]

/-- The category of the tokens that show the lexeme. -/
def lexemeCategory? : Option Text → Option Category
  | none => some .endOfFile
  | some lexeme => (scan lexeme).head?.bind fun m => m.rule.tokenCategory? lexeme

theorem lexemeCategory?_of_mem_stream {source filename : Text} {token : Token}
    (mem : token ∈ Cursor.start.stream filename source.length (scan source)) :
    lexemeCategory? token.lexeme = some token.category := by
  rcases exists_match_of_mem_stream mem with ⟨m, m_mem, lexeme, made⟩ | ⟨lexeme, is_end⟩
  · rw [lexeme, lexemeCategory?, scan_lexeme_of_mem m_mem]
    exact made
  · rw [lexeme, is_end]
    rfl

/-- Every lexeme scanned by itself is one match of the same rule, and the lexeme of a token is read
as that token alone. Two tokens with the same lexeme have the same category, whatever the sources
they come from. -/
theorem lexemes_are_self_contained (source source' filename filename' : Text) :
    (∀ m ∈ scan source, scan m.lexeme = [⟨m.rule, m.lexeme, 0⟩]) ∧
    ∃ tokens tokens', tokenize source filename = .ok tokens ∧
      tokenize source' filename' = .ok tokens' ∧
      (∀ token ∈ tokens, token.category ≠ .endOfFile → ∃ lexeme, token.lexeme = some lexeme ∧
        tokenize lexeme filename =
          .ok [⟨token.category, some lexeme, ⟨filename, 1, 1, 0⟩⟩,
            ⟨.endOfFile, none, ⟨filename, 1, lexeme.length + 1, lexeme.length⟩⟩]) ∧
      ∀ token ∈ tokens, ∀ token' ∈ tokens', token.lexeme = token'.lexeme →
        token.category = token'.category := by
  refine ⟨fun m mem => scan_lexeme_of_mem mem, _, _, tokenize_eq source filename,
    tokenize_eq source' filename', ?_, ?_⟩
  · intro token mem not_end
    rcases exists_match_of_mem_stream mem with ⟨m, m_mem, lexeme, made⟩ | ⟨-, is_end⟩
    · exact ⟨m.lexeme, lexeme, tokenize_lexeme m_mem made filename⟩
    · exact absurd is_end not_end
  · intro token mem token' mem' same
    apply Option.some.inj
    rw [← lexemeCategory?_of_mem_stream mem, ← lexemeCategory?_of_mem_stream mem', same]

end PriorityLexer
