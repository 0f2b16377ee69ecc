import Mathlib.Data.List.Forall2
import PriorityLexer.Proofs.IllegalReports
import PriorityLexer.Proofs.OneStream

namespace PriorityLexer

/-- The same token on a line lower down. The column is free, since the line may begin elsewhere. -/
structure Token.LowerBy (lines : Nat) (token quiet : Token) : Prop where
  category_eq : token.category = quiet.category
  lexeme_eq : token.lexeme = quiet.lexeme
  filename_eq : token.location.filename = quiet.location.filename
  offset_eq : token.location.offset = quiet.location.offset
  line_eq : token.location.line = quiet.location.line + lines

/-- Replies that hand out the same tokens on lower lines, or no tokens. -/
inductive Reply.LowerBy (lines : Nat) : Reply → Reply → Prop
  | token {token quiet : Token} :
    token.LowerBy lines quiet → LowerBy lines (.token token) (.token quiet)
  | tokens {tokens quiet : List Token} :
    List.Forall₂ (Token.LowerBy lines) tokens quiet → LowerBy lines (.tokens tokens) (.tokens quiet)
  | stream : LowerBy lines .stream .stream
  | state : LowerBy lines .state .state

/-- Both fail with the same fault, or both succeed with related results. -/
inductive Alike {α β : Type} (related : α → β → Prop) : Except Fault α → Except Fault β → Prop
  | error (fault : Fault) : Alike related (.error fault) (.error fault)
  | ok {a : α} {b : β} : related a b → Alike related (.ok a) (.ok b)

theorem Alike.map {α β γ δ : Type} {related : α → β → Prop} {related' : γ → δ → Prop}
    {result : Except Fault α} {quiet : Except Fault β} (h : Alike related result quiet)
    {f : α → γ} {g : β → δ} (mapped : ∀ a b, related a b → related' (f a) (g b)) :
    Alike related' (result.map f) (quiet.map g) := by
  cases h with
  | error fault => exact .error fault
  | ok both => exact .ok (mapped _ _ both)

namespace Cursor

variable {cursor quiet : Cursor} {lines : Nat}

theorem locate_lowerBy (line_eq : cursor.line = quiet.line + lines) (category : Category)
    (lexeme : Option Text) (filename : Text) (offset : Int) :
    Token.LowerBy lines ⟨category, lexeme, cursor.locate filename offset⟩
      ⟨category, lexeme, quiet.locate filename offset⟩ := by
  refine ⟨rfl, rfl, rfl, rfl, ?_⟩
  simp only [locate, line_eq, Int.natCast_add]

theorem token?_lowerBy (line_eq : cursor.line = quiet.line + lines) (filename : Text) (m : Match) :
    Option.Rel (Token.LowerBy lines) (cursor.token? filename m) (quiet.token? filename m) := by
  unfold token?
  cases m.rule.tokenCategory? m.lexeme with
  | none => exact .none
  | some category => exact .some (locate_lowerBy line_eq category _ filename m.offset)

theorem classified_pos (cursor : Cursor) (rule : RuleName) (lexeme : Text) (offset : Int) :
    (cursor.classified rule lexeme offset).pos = cursor.pos := by
  cases rule <;> rfl

theorem classified_line (cursor : Cursor) (rule : RuleName) (lexeme : Text) (offset : Int) :
    (cursor.classified rule lexeme offset).line =
      cursor.line + if rule = .newline then 1 else 0 := by
  cases rule <;> rfl

theorem classified_illegalCount (cursor : Cursor) (rule : RuleName) (lexeme : Text)
    (offset : Int) :
    (cursor.classified rule lexeme offset).illegalCount =
      cursor.illegalCount + if rule = .other then 1 else 0 := by
  cases rule <;> rfl

end Cursor

namespace Lexer

/-- The lexer stands where the quiet one stands and has the same matches before it. It has counted
more lines and more illegal characters. -/
structure AheadOf (lexer quiet : Lexer) (lines illegal : Nat) : Prop where
  filename_eq : lexer.filename = quiet.filename
  size_eq : lexer.size = quiet.size
  pending_eq : lexer.pending = quiet.pending
  stage_eq : lexer.stage = quiet.stage
  pos_eq : lexer.cursor.pos = quiet.cursor.pos
  line_eq : lexer.cursor.line = quiet.cursor.line + lines
  illegalCount_eq : lexer.cursor.illegalCount = quiet.cursor.illegalCount + illegal

theorem AheadOf.refl (lexer : Lexer) : lexer.AheadOf lexer 0 0 :=
  ⟨rfl, rfl, rfl, rfl, rfl, rfl, rfl⟩

/-- Both readings end alike, and the lexer behind the one is as far ahead as before. -/
structure Tallies {α : Type} (related : α → α → Prop) (lines illegal : Nat)
    (read quiet : Except Fault α × Lexer) : Prop where
  result : Alike related read.1 quiet.1
  state : read.2.AheadOf quiet.2 lines illegal

theorem Tallies.map {α β : Type} {related : α → α → Prop} {related' : β → β → Prop}
    {lines illegal : Nat} {read quiet : Except Fault α × Lexer}
    (h : Tallies related lines illegal read quiet) {f g : α → β}
    (mapped : ∀ a b, related a b → related' (f a) (g b)) :
    Tallies related' lines illegal (read.1.map f, read.2) (quiet.1.map g, quiet.2) :=
  ⟨h.result.map mapped, h.state⟩

variable {lexer quiet : Lexer} {lines illegal : Nat}

theorem AheadOf.past (h : lexer.AheadOf quiet lines illegal) (m : Match) (rest : List Match) :
    (lexer.past m rest).AheadOf (quiet.past m rest) lines illegal where
  filename_eq := h.filename_eq
  size_eq := h.size_eq
  pending_eq := rfl
  stage_eq := h.stage_eq
  pos_eq := rfl
  line_eq := by
    show (lexer.cursor.past m).line = (quiet.cursor.past m).line + lines
    rw [Cursor.past_line, Cursor.past_line, h.line_eq]
    split <;> omega
  illegalCount_eq := by
    show (lexer.cursor.past m).illegalCount = (quiet.cursor.past m).illegalCount + illegal
    rw [Cursor.past_illegalCount, Cursor.past_illegalCount, h.illegalCount_eq]
    split <;> omega

theorem AheadOf.finished (h : lexer.AheadOf quiet lines illegal) :
    lexer.finished.AheadOf quiet.finished lines illegal :=
  ⟨h.filename_eq, h.size_eq, rfl, rfl, h.pos_eq, h.line_eq, h.illegalCount_eq⟩

theorem AheadOf.started (h : lexer.AheadOf quiet lines illegal) :
    lexer.started.AheadOf quiet.started lines illegal := by
  unfold Lexer.started
  rw [h.stage_eq]
  cases stage : quiet.stage with
  | untouched | taken =>
    exact ⟨h.filename_eq, h.size_eq, h.pending_eq, rfl, h.pos_eq, h.line_eq, h.illegalCount_eq⟩
  | reading | ended => exact h

theorem AheadOf.endToken (h : lexer.AheadOf quiet lines illegal) :
    lexer.endToken.LowerBy lines quiet.endToken := by
  unfold Lexer.endToken
  rw [h.filename_eq, h.size_eq]
  exact Cursor.locate_lowerBy h.line_eq .endOfFile none quiet.filename quiet.size

theorem AheadOf.token? (h : lexer.AheadOf quiet lines illegal) (m : Match) :
    Option.Rel (Token.LowerBy lines) (lexer.cursor.token? lexer.filename m)
      (quiet.cursor.token? quiet.filename m) :=
  h.filename_eq ▸ Cursor.token?_lowerBy h.line_eq quiet.filename m

theorem AheadOf.readToken (h : lexer.AheadOf quiet lines illegal) (ms : List Match) :
    Tallies (Token.LowerBy lines) lines illegal (lexer.readToken ms) (quiet.readToken ms) := by
  induction ms generalizing lexer quiet with
  | nil => exact ⟨.ok h.endToken, h.finished⟩
  | cons m ms ih =>
    have behind := h.past m ms
    have made := h.token? m
    rw [Lexer.readToken, Lexer.readToken, consume_eq, consume_eq]
    generalize lexer.cursor.token? lexer.filename m = token? at made ⊢
    generalize quiet.cursor.token? quiet.filename m = quiet? at made ⊢
    cases made with
    | none => exact ih behind
    | some lower => exact ⟨.ok lower, behind⟩

theorem AheadOf.readTokens (h : lexer.AheadOf quiet lines illegal) (ms : List Match) :
    Tallies (List.Forall₂ (Token.LowerBy lines)) lines illegal (lexer.readTokens ms)
      (quiet.readTokens ms) := by
  induction ms generalizing lexer quiet with
  | nil => exact ⟨.ok (.cons h.endToken .nil), h.finished⟩
  | cons m ms ih =>
    have made := h.token? m
    rw [readTokens_cons, readTokens_cons]
    apply (ih (h.past m ms)).map
    intro tokens quiet_tokens lower
    generalize lexer.cursor.token? lexer.filename m = token? at made ⊢
    generalize quiet.cursor.token? quiet.filename m = quiet? at made ⊢
    cases made with
    | none => exact lower
    | some first => exact .cons first lower

theorem AheadOf.next (h : lexer.AheadOf quiet lines illegal) :
    Tallies (Token.LowerBy lines) lines illegal lexer.next quiet.next := by
  unfold Lexer.next
  rw [h.stage_eq, h.pending_eq]
  split
  · exact ⟨.error .streamEnded, h⟩
  · exact h.started.readToken quiet.pending

theorem AheadOf.remaining (h : lexer.AheadOf quiet lines illegal) :
    Tallies (List.Forall₂ (Token.LowerBy lines)) lines illegal lexer.remaining
      quiet.remaining := by
  unfold Lexer.remaining
  rw [h.stage_eq, h.pending_eq]
  split
  · exact ⟨.ok .nil, h⟩
  · exact h.started.readTokens quiet.pending

theorem AheadOf.takeStream (h : lexer.AheadOf quiet lines illegal) :
    Tallies Eq lines illegal lexer.takeStream quiet.takeStream := by
  unfold Lexer.takeStream
  rw [h.stage_eq]
  split
  · exact ⟨.ok rfl, ⟨h.filename_eq, h.size_eq, h.pending_eq, rfl, h.pos_eq, h.line_eq,
      h.illegalCount_eq⟩⟩
  · exact ⟨.error .streamTaken, h⟩

theorem AheadOf.pull (h : lexer.AheadOf quiet lines illegal) (count : Nat) :
    Tallies (List.Forall₂ (Token.LowerBy lines)) lines illegal (lexer.pull count)
      (quiet.pull count) := by
  induction count generalizing lexer quiet with
  | zero => exact ⟨.ok .nil, h⟩
  | succ count ih =>
    obtain ⟨result, state⟩ := h.next
    rcases read : lexer.next with ⟨first, later⟩
    rcases quiet_read : quiet.next with ⟨quiet_first, quiet_later⟩
    rw [read, quiet_read] at result state
    cases result with
    | error fault =>
      rw [pull_of_next_error read, pull_of_next_error quiet_read]
      exact ⟨.error fault, state⟩
    | ok lower =>
      rw [pull_of_next_ok read, pull_of_next_ok quiet_read]
      exact (ih state).map fun tokens quiet_tokens others => .cons lower others

/-- One step that reads: the replies are alike, and the lexer is as far ahead as before. -/
theorem AheadOf.perform (h : lexer.AheadOf quiet lines illegal) {step : Step}
    (reads : step.interferes = false) :
    Tallies (Reply.LowerBy lines) lines illegal (lexer.perform step) (quiet.perform step) := by
  cases step with
  | next => exact h.next.map fun _ _ => .token
  | remaining => exact h.remaining.map fun _ _ => .tokens
  | takeStream => exact h.takeStream.map fun _ _ _ => .stream
  | pull count => exact (h.pull count).map fun _ _ => .tokens
  | classify rule lexeme offset => cases reads
  | inspect => exact ⟨.ok .state, h⟩

end Lexer

namespace RuleName

theorem text_injective {rule rule' : RuleName} (same : rule.text = rule'.text) : rule = rule' := by
  have known := ofText?_text rule
  rw [same, ofText?_text] at known
  exact (Option.some.inj known).symm

theorem eq_text_of_ofText? {name : Text} {rule : RuleName} (known : ofText? name = some rule) :
    name = rule.text := by
  unfold ofText? at known
  have found := List.find?_some known
  exact (beq_iff_eq.1 found).symm

end RuleName

namespace Step

def classifies (rule : RuleName) : Step → Bool
  | classify name _ _ => name == rule.text
  | _ => false

theorem classifies_text (rule rule' : RuleName) (lexeme : Text) (offset : Int) :
    (classify rule'.text lexeme offset).classifies rule = decide (rule' = rule) := by
  by_cases same : rule' = rule
  · simp [classifies, same]
  · simp [classifies, same, mt RuleName.text_injective same]

theorem classifies_of_unknown {name : Text} (unknown : RuleName.ofText? name = none)
    (rule : RuleName) (lexeme : Text) (offset : Int) :
    (classify name lexeme offset).classifies rule = false := by
  have different : name ≠ rule.text := by
    rintro rfl
    rw [RuleName.ofText?_text] at unknown
    cases unknown
  simp [classifies, different]

theorem classifies_of_reads {step : Step} (reads : step.interferes = false) (rule : RuleName) :
    step.classifies rule = false := by
  cases step with
  | classify name lexeme offset => cases reads
  | _ => rfl

end Step

namespace Lexer

variable {lexer quiet : Lexer} {lines illegal : Nat}

theorem perform_classify_of_unknown {name : Text} (unknown : RuleName.ofText? name = none)
    (lexer : Lexer) (lexeme : Text) (offset : Int) :
    lexer.perform (.classify name lexeme offset) = (.error (.unknownRule name), lexer) := by
  rw [perform, classifyNamed, unknown]
  rfl

theorem perform_classify_text (lexer : Lexer) (rule : RuleName) (lexeme : Text) (offset : Int) :
    ∃ journal, (lexer.perform (.classify rule.text lexeme offset)).2 =
      { lexer with cursor := lexer.cursor.classified rule lexeme offset, journal := journal } := by
  rw [perform, classifyNamed, RuleName.ofText?_text]
  dsimp only
  rw [classify, Cursor.classify_eq]
  exact ⟨_, rfl⟩

/-- One step that disturbs the lexer takes it as much further ahead as the step counts. -/
theorem AheadOf.classify (h : lexer.AheadOf quiet lines illegal) (name lexeme : Text)
    (offset : Int) :
    (lexer.perform (.classify name lexeme offset)).2.AheadOf quiet
      (lines + if (Step.classify name lexeme offset).classifies .newline then 1 else 0)
      (illegal + if (Step.classify name lexeme offset).classifies .other then 1 else 0) := by
  cases known : RuleName.ofText? name with
  | none =>
    rw [perform_classify_of_unknown known, Step.classifies_of_unknown known,
      Step.classifies_of_unknown known]
    exact h
  | some rule =>
    obtain rfl := RuleName.eq_text_of_ofText? known
    obtain ⟨journal, later⟩ := lexer.perform_classify_text rule lexeme offset
    rw [later, Step.classifies_text, Step.classifies_text]
    refine ⟨h.filename_eq, h.size_eq, h.pending_eq, h.stage_eq, ?_, ?_, ?_⟩
    · exact (Cursor.classified_pos _ _ _ _).trans h.pos_eq
    · refine (Cursor.classified_line _ _ _ _).trans ?_
      rw [h.line_eq, Nat.add_assoc]
      simp only [decide_eq_true_eq]
    · refine (Cursor.classified_illegalCount _ _ _ _).trans ?_
      rw [h.illegalCount_eq, Nat.add_assoc]
      simp only [decide_eq_true_eq]

/-- A run of steps, with and without the disturbing ones. -/
theorem AheadOf.after (h : lexer.AheadOf quiet lines illegal) (steps : List Step) :
    (lexer.after steps).AheadOf (quiet.after (steps.filter fun step => !step.interferes))
      (lines + steps.countP (Step.classifies .newline))
      (illegal + steps.countP (Step.classifies .other)) := by
  induction steps generalizing lexer quiet lines illegal with
  | nil => exact h
  | cons step steps ih =>
    rw [List.countP_cons, List.countP_cons, Nat.add_comm (steps.countP _),
      Nat.add_comm (steps.countP _), ← Nat.add_assoc, ← Nat.add_assoc]
    cases interferes : step.interferes with
    | false =>
      rw [List.filter_cons_of_pos (by simp [interferes]), Step.classifies_of_reads interferes,
        Step.classifies_of_reads interferes]
      exact ih (h.perform interferes).state
    | true =>
      rw [List.filter_cons_of_neg (by simp [interferes])]
      cases step with
      | classify name lexeme offset => exact ih (h.classify name lexeme offset)
      | _ => cases interferes

end Lexer

/-- Whatever has been classified on the side, a lexer stands where it would stand without it and
hands out the same tokens. Each newline that was classified puts them one line lower, each illegal
character is counted, and a name that no rule has changes nothing. -/
theorem disturbance_moves_lines_only (source filename : Text) (earlier : List Step) :
    let lexer := (Lexer.ofSource source filename).after earlier
    let quiet := (Lexer.ofSource source filename).after
      (earlier.filter fun step => !step.interferes)
    lexer.cursor.pos = quiet.cursor.pos ∧
      lexer.cursor.illegalCount =
        quiet.cursor.illegalCount + earlier.countP (Step.classifies .other) ∧
      (∀ step, step.interferes = false →
        Alike (Reply.LowerBy (earlier.countP (Step.classifies .newline))) (lexer.perform step).1
          (quiet.perform step).1) ∧
      ∀ name lexeme offset, RuleName.ofText? name = none →
        lexer.perform (.classify name lexeme offset) = (.error (.unknownRule name), lexer) := by
  intro lexer quiet
  have ahead : lexer.AheadOf quiet (0 + earlier.countP (Step.classifies .newline))
      (0 + earlier.countP (Step.classifies .other)) :=
    (Lexer.AheadOf.refl (Lexer.ofSource source filename)).after earlier
  rw [Nat.zero_add, Nat.zero_add] at ahead
  refine ⟨ahead.pos_eq, ahead.illegalCount_eq, ?_, ?_⟩
  · intro step reads
    exact (ahead.perform reads).result
  · intro name lexeme offset unknown
    exact lexer.perform_classify_of_unknown unknown lexeme offset

/-- A newline far off the source and an illegal character that is not there are classified behind
the first token. -/
theorem disturbance_moves_lines_only_once :
    let earlier : List Step := [.next, .classify "Newline".toList "xy".toList (-7),
      .classify "Other".toList ['#'] 99, .classify "Semicolon".toList [';'] 1]
    let lexer := (Lexer.ofSource "a\n#".toList ['f']).after earlier
    let quiet := (Lexer.ofSource "a\n#".toList ['f']).after [.next]
    Step.interferes (.pull 2) = false ∧ RuleName.ofText? "Semicolon".toList = none ∧
      lexer.cursor.pos = quiet.cursor.pos ∧
      lexer.cursor.illegalCount = quiet.cursor.illegalCount + 1 ∧
      Alike (Reply.LowerBy 1) (lexer.perform (.pull 2)).1 (quiet.perform (.pull 2)).1 ∧
      (lexer.perform (.pull 2)).1 =
        .ok (.tokens [⟨.illegalChar, some ['#'], ⟨['f'], 3, 1, 2⟩⟩,
          ⟨.endOfFile, none, ⟨['f'], 3, 2, 3⟩⟩]) ∧
      lexer.perform (.classify "Semicolon".toList [';'] 1) =
        (.error (.unknownRule "Semicolon".toList), lexer) := by
  intro earlier lexer quiet
  have unknown : RuleName.ofText? "Semicolon".toList = none := by decide
  obtain ⟨pos, illegal, alike, fails⟩ :=
    disturbance_moves_lines_only "a\n#".toList ['f'] earlier
  exact ⟨rfl, unknown, pos, illegal, alike (.pull 2) rfl, by decide +kernel,
    fails "Semicolon".toList [';'] 1 unknown⟩

end PriorityLexer
