import PriorityLexer.Proofs.Continuation

namespace PriorityLexer

/-- The second text is the first one loosened. -/
inductive Loosened : Text → Text → Prop
  | stop (text : Text) : Loosened text []
  | keep (c : Char) {text loose : Text} (h : Loosened text loose) :
      Loosened (c :: text) (c :: loose)
  | gap {c : Char} {text later loose : Text} (blank : Text.isBlank c = true)
      (suffix : later <:+ text) (h : Loosened later loose) : Loosened text (c :: loose)

namespace Loosened

variable {c : Char} {text loose rest rest' : Text}

theorem head (h : Loosened text (c :: loose)) (solid : Text.isBlank c = false) :
    ∃ rest, text = c :: rest ∧ Loosened rest loose := by
  cases h with
  | keep _ h => exact ⟨_, rfl, h⟩
  | gap blank => exact absurd blank (by simp [solid])

theorem head?_eq (h : Loosened text loose) (front : loose.head? = some c)
    (solid : Text.isBlank c = false) : text.head? = some c := by
  obtain ⟨loose, rfl⟩ := List.head?_eq_some_iff.1 front
  obtain ⟨rest, rfl, -⟩ := h.head solid
  rfl

theorem append_left (lexeme : Text) (h : Loosened rest rest') :
    Loosened (lexeme ++ rest) (lexeme ++ rest') := by
  induction lexeme with
  | nil => exact h
  | cons c lexeme ih => exact .keep c ih

theorem blanks {blank : Text} (isBlank : ∀ c ∈ blank, Text.isBlank c = true)
    (suffix : rest <:+ text) (h : Loosened rest loose) (used : blank = [] → rest = text) :
    Loosened text (blank ++ loose) := by
  induction blank generalizing text with
  | nil => exact used rfl ▸ h
  | cons c blank ih =>
    apply Loosened.gap (isBlank c List.mem_cons_self) suffix
    exact ih (fun c mem => isBlank c (List.mem_cons_of_mem _ mem)) (List.suffix_refl rest)
      fun _ => rfl

theorem of_blanks {blank : Text} (isBlank : ∀ c ∈ blank, Text.isBlank c = true) :
    Loosened text blank := by
  induction blank with
  | nil => exact .stop text
  | cons c blank ih =>
    apply Loosened.gap (isBlank c List.mem_cons_self) (List.suffix_refl text)
    exact ih fun c mem => isBlank c (List.mem_cons_of_mem _ mem)

theorem mem_of_mem (h : Loosened text loose) (mem : c ∈ loose) (solid : Text.isBlank c = false) :
    c ∈ text := by
  induction h with
  | stop => cases mem
  | keep d h ih =>
    rcases List.mem_cons.1 mem with rfl | mem
    · exact List.mem_cons_self
    · exact List.mem_cons_of_mem _ (ih mem)
  | gap blank suffix h ih =>
    rcases List.mem_cons.1 mem with rfl | mem
    · exact absurd blank (by simp [solid])
    · exact suffix.subset (ih mem)

theorem of_append {word : Text} (solid : ∀ c ∈ word, Text.isBlank c = false)
    (h : Loosened text (word ++ loose)) : ∃ rest, text = word ++ rest ∧ Loosened rest loose := by
  induction word generalizing text with
  | nil => exact ⟨text, rfl, h⟩
  | cons c word ih =>
    obtain ⟨rest, rfl, further⟩ := h.head (solid c List.mem_cons_self)
    obtain ⟨rest, rfl, left⟩ := ih (fun c mem => solid c (List.mem_cons_of_mem _ mem)) further
    exact ⟨rest, rfl, left⟩

theorem infix_of_infix {word : Text} (solid : ∀ c ∈ word, Text.isBlank c = false)
    (h : Loosened text loose) (within : word <:+: loose) : word <:+: text := by
  induction h with
  | stop text =>
    rw [List.infix_nil.1 within]
    exact List.nil_infix
  | @keep c text loose h ih =>
    rcases List.infix_cons_iff.1 within with ⟨rest, front⟩ | further
    · have whole : Loosened (c :: text) (word ++ rest) := front ▸ .keep c h
      obtain ⟨rest, text_eq, -⟩ := whole.of_append solid
      exact ⟨[], rest, text_eq.symm⟩
    · exact List.infix_cons (ih further)
  | @gap c text later loose blank suffix h ih =>
    rcases List.infix_cons_iff.1 within with ⟨rest, front⟩ | further
    · cases word with
      | nil => exact List.nil_infix
      | cons d word =>
        obtain rfl : d = c := (List.cons.inj front).1
        exact absurd blank (by simp [solid d List.mem_cons_self])
    · exact (ih further).trans suffix.isInfix

end Loosened

namespace Pattern

variable {text rest rest' body : Text} {n : Nat}

theorem commentEnd?_eq_none_iff : commentEnd? text = none ↔ ¬ ['*', '/'] <:+: text := by
  induction text with
  | nil => simp [commentEnd?]
  | cons c rest ih =>
    have front : ['*', '/'] <+: c :: rest ↔ c = '*' ∧ rest.head? = some '/' := by
      cases rest <;> simp [List.cons_prefix_cons, eq_comm (a := '*'), eq_comm (a := '/')]
    rw [commentEnd?, List.infix_cons_iff, front]
    by_cases closes : c = '*' ∧ rest.head? = some '/'
    · simp [closes]
    · rw [if_neg closes, Option.map_eq_none_iff, ih]
      simp [closes]

theorem exists_run?_of_loosened {member : Char → Bool}
    (solid : ∀ c, member c = true → Text.isBlank c = false) (loose : Loosened rest rest')
    (h : run? member rest' = some n) : ∃ k, run? member rest = some k := by
  obtain ⟨c, front, is_member⟩ := exists_run?_iff.1 ⟨n, h⟩
  exact exists_run?_iff.2 ⟨c, loose.head?_eq front (solid c is_member), is_member⟩

theorem exists_commentEnd?_of_loosened (loose : Loosened rest rest')
    (h : commentEnd? rest' = some n) : ∃ k, commentEnd? rest = some k := by
  apply Option.ne_none_iff_exists'.1
  intro unclosed
  rw [commentEnd?_eq_none_iff] at unclosed
  have star : Text.isBlank '*' = false := by decide
  have slash : Text.isBlank '/' = false := by decide
  have closed : ['*', '/'] <:+: rest' := by
    by_contra absent
    rw [commentEnd?_eq_none_iff.2 absent] at h
    cases h
  exact unclosed (loose.infix_of_infix (by simp [star, slash]) closed)

theorem exists_closing?_of_loosened {quote : Char} {escaped : Bool}
    (solid : Text.isBlank quote = false) (loose : Loosened rest rest')
    (h : closing? quote escaped rest' = some n) : ∃ k, closing? quote escaped rest = some k := by
  apply Option.ne_none_iff_exists'.1
  intro absent
  rw [closing?_eq_none_iff] at absent
  have occurs : quote ∈ rest' := by
    by_contra missing
    rw [closing?_eq_none_iff.2 missing] at h
    cases h
  exact absent (loose.mem_of_mem occurs solid)

/-- What the pattern asks for behind its first character is not blank. -/
def isSolid : Pattern → Bool
  | literal _ rest => rest.all fun c => !Text.isBlank c
  | quoted quote => !Text.isBlank quote
  | _ => true

/-- A pattern that matches in front of a loosened text matched before. -/
theorem exists_length?_of_loosened {pattern : Pattern} (solid : pattern.isSolid = true) {c : Char}
    (loose : Loosened rest rest') (h : pattern.length? (c :: rest') = some n) :
    ∃ k, pattern.length? (c :: rest) = some k := by
  cases pattern with
  | literal first word =>
    obtain ⟨⟨left, eq⟩, -⟩ := length?_literal_eq_some_iff.1 h
    obtain ⟨rfl, rfl⟩ := List.cons.inj eq
    simp only [isSolid, List.all_eq_true, Bool.not_eq_true'] at solid
    obtain ⟨left, rfl, -⟩ := loose.of_append solid
    exact ⟨_, length?_literal_eq_some_iff.2 ⟨⟨left, rfl⟩, rfl⟩⟩
  | lineComment =>
    obtain ⟨left, eq, -⟩ := length?_lineComment_eq_some_iff.1 h
    obtain ⟨rfl, rfl⟩ := List.cons.inj eq
    obtain ⟨left, rfl, -⟩ := loose.head (by decide)
    exact ⟨_, length?_lineComment_eq_some_iff.2 ⟨left, rfl, rfl⟩⟩
  | blockComment =>
    obtain ⟨left, k, eq, ends, -⟩ := length?_blockComment_eq_some_iff.1 h
    obtain ⟨rfl, rfl⟩ := List.cons.inj eq
    obtain ⟨before, rfl, further⟩ := loose.head (by decide)
    obtain ⟨k', ends'⟩ := exists_commentEnd?_of_loosened further ends
    exact ⟨_, length?_blockComment_eq_some_iff.2 ⟨before, k', rfl, ends', rfl⟩⟩
  | radixNumeral radix =>
    obtain ⟨letter, left, k, isLetter, eq, digits, -⟩ := length?_radixNumeral_eq_some_iff.1 h
    obtain ⟨rfl, rfl⟩ := List.cons.inj eq
    have letter_solid : Text.isBlank letter = false := by
      rcases isLetter with rfl | rfl <;> cases radix <;> decide
    obtain ⟨before, rfl, further⟩ := loose.head letter_solid
    obtain ⟨k', digits'⟩ :=
      exists_run?_of_loosened (fun c => Radix.not_isBlank_of_isDigit) further digits
    exact ⟨_, length?_radixNumeral_eq_some_iff.2 ⟨letter, before, k', isLetter, rfl, digits', rfl⟩⟩
  | digits =>
    exact exists_run?_of_loosened (fun c => Text.not_isBlank_of_isDecimalDigit) (.keep c loose) h
  | quoted quote =>
    obtain ⟨left, k, eq, closes, -⟩ := length?_quoted_eq_some_iff.1 h
    obtain ⟨rfl, rfl⟩ := List.cons.inj eq
    simp only [isSolid, Bool.not_eq_true'] at solid
    obtain ⟨k', closes'⟩ := exists_closing?_of_loosened solid loose closes
    exact ⟨_, length?_quoted_eq_some_iff.2 ⟨rest, k', rfl, closes', rfl⟩⟩
  | letters =>
    exact exists_run?_of_loosened (fun c => Text.not_isBlank_of_isAlpha) (.keep c loose) h
  | blank => exact ⟨n, length?_blank_eq_some_iff.2 (length?_blank_eq_some_iff.1 h)⟩
  | anything => exact ⟨1, rfl⟩

/-- A match stays as it is when what follows it is loosened. Only a line comment takes in the blanks
that are put behind it, unless the line ends first. -/
theorem length?_loosened {pattern : Pattern} {lexeme : Text} (solid : pattern.isSolid = true)
    (loose : Loosened rest rest')
    (lineEnd : pattern = .lineComment → ∀ c, rest'.head? = some c → c = '\n')
    (h : pattern.length? (lexeme ++ rest) = some lexeme.length) :
    pattern.length? (lexeme ++ rest') = some lexeme.length := by
  apply length?_append h (fun c visible front => loose.head?_eq front visible) lineEnd
  rintro quote body rfl - closes
  simp only [isSolid, Bool.not_eq_true'] at solid
  rw [← escapesNext_nil] at closes ⊢
  exact closing?_append closes fun _ absent mem => absent (loose.mem_of_mem mem solid)

end Pattern

theorem isSolid_of_mem_rules {rule : Rule} (mem : rule ∈ rules) : rule.pattern.isSolid = true := by
  have table : ∀ rule ∈ rules, rule.pattern.isSolid = true := by decide
  exact table rule mem

/-- The first match of a text stays the first match when what follows it is loosened. -/
theorem Match.Leads.loosened {m : Match} {rest rest' : Text} (h : m.Leads rest)
    (loose : Loosened rest rest')
    (lineEnd : m.rule = .comment → ['/', '/'] <+: m.lexeme → ∀ c, rest'.head? = some c → c = '\n') :
    m.Leads rest' := by
  obtain ⟨c, lexeme, eq⟩ := List.exists_cons_of_ne_nil h.lexeme_ne_nil
  obtain ⟨hit, taken, name, extent⟩ := h
  have mem := headHit?_rule_mem taken
  have applies : hit.rule.pattern.length? (m.lexeme ++ rest) = some m.lexeme.length :=
    extent ▸ (firstHit?_eq_some taken).2
  have comments : ∀ rule ∈ rules, rule.pattern = .lineComment → rule.name = .comment := by decide
  -- a rule that missed still misses, and the rule that took the lexeme takes it again
  refine ⟨hit, firstHit?_of_misses taken ?_ ?_, name, extent⟩
  · intro rule rule_mem miss
    apply Option.eq_none_iff_forall_ne_some.2
    intro n found
    rw [eq, List.cons_append] at miss found
    obtain ⟨k, before⟩ := Pattern.exists_length?_of_loosened (isSolid_of_mem_rules rule_mem)
      (loose.append_left lexeme) found
    rw [miss] at before
    cases before
  · rw [extent]
    apply Pattern.length?_loosened (isSolid_of_mem_rules mem) loose _ applies
    intro is_line
    rw [is_line] at applies
    obtain ⟨body, comment, -⟩ := Pattern.length?_lineComment_append_self_iff.1 applies
    exact lineEnd (name ▸ comments hit.rule mem is_line) ⟨body, comment.symm⟩

end PriorityLexer
