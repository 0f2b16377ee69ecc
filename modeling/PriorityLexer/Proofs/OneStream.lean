import Mathlib.Data.List.Induction
import PriorityLexer.Proofs.TokenStream
import PriorityLexer.Session

namespace PriorityLexer

theorem Cursor.exists_stream_eq_cons (filename : Text) (size : Nat) (cursor : Cursor)
    (ms : List Match) : ∃ token rest, cursor.stream filename size ms = token :: rest := by
  obtain ⟨tokens, whole, -⟩ := cursor.stream_eq_append filename size ms
  rw [whole]
  cases tokens with
  | nil => exact ⟨_, _, rfl⟩
  | cons token tokens => exact ⟨_, _, rfl⟩

namespace Lexer

/-- The tokens that the lexer has not handed out yet. -/
def remainder (lexer : Lexer) : List Token :=
  if lexer.stage = .ended then []
  else lexer.cursor.stream lexer.filename lexer.size lexer.pending

theorem remainder_of_ended {lexer : Lexer} (ended : lexer.stage = .ended) :
    lexer.remainder = [] :=
  if_pos ended

theorem remainder_of_not_ended {lexer : Lexer} (open_ : lexer.stage ≠ .ended) :
    lexer.remainder = lexer.cursor.stream lexer.filename lexer.size lexer.pending :=
  if_neg open_

theorem remainder_eq_nil_iff {lexer : Lexer} : lexer.remainder = [] ↔ lexer.stage = .ended := by
  by_cases ended : lexer.stage = .ended
  · simp [remainder_of_ended ended, ended]
  · obtain ⟨token, rest, whole⟩ :=
      Cursor.exists_stream_eq_cons lexer.filename lexer.size lexer.cursor lexer.pending
    rw [remainder_of_not_ended ended, whole]
    simp [ended]

section Started

variable (lexer : Lexer)

theorem started_stream (ms : List Match) :
    lexer.started.cursor.stream lexer.started.filename lexer.started.size ms =
      lexer.cursor.stream lexer.filename lexer.size ms := by
  unfold started
  split <;> rfl

theorem started_stage (open_ : lexer.stage ≠ .ended) : lexer.started.stage = .reading := by
  unfold started
  cases stage : lexer.stage with
  | untouched => rfl
  | taken => rfl
  | reading => exact stage
  | ended => exact absurd stage open_

end Started

theorem readToken_eq (lexer : Lexer) (ms : List Match) (reading : lexer.stage = .reading) :
    ∃ token later, lexer.readToken ms = (.ok token, later) ∧
      lexer.cursor.stream lexer.filename lexer.size ms = token :: later.remainder ∧
      later.stage ≠ .untouched := by
  induction ms generalizing lexer with
  | nil =>
    refine ⟨lexer.endToken, lexer.finished, rfl, ?_, ?_⟩
    · rw [remainder_of_ended rfl]
      rfl
    · intro untouched
      cases untouched
  | cons m ms ih =>
    rw [readToken, consume_eq, Cursor.stream]
    cases made : lexer.cursor.token? lexer.filename m with
    | none => exact ih (lexer.past m ms) reading
    | some token =>
      have stage : (lexer.past m ms).stage = .reading := reading
      refine ⟨token, lexer.past m ms, rfl, ?_, ?_⟩
      · rw [remainder_of_not_ended (by rw [stage]; decide)]
        rfl
      · rw [stage]
        decide

theorem next_of_remainder_nil {lexer : Lexer} (empty : lexer.remainder = []) :
    lexer.next = (.error .streamEnded, lexer) :=
  if_pos (remainder_eq_nil_iff.1 empty)

theorem next_of_remainder_cons {lexer : Lexer} {token : Token} {rest : List Token}
    (left : lexer.remainder = token :: rest) :
    ∃ later, lexer.next = (.ok token, later) ∧ later.remainder = rest ∧
      later.stage ≠ .untouched := by
  have open_ : lexer.stage ≠ .ended := by
    intro ended
    rw [remainder_of_ended ended] at left
    cases left
  obtain ⟨token', later, read, whole, touched⟩ :=
    lexer.started.readToken_eq lexer.pending (lexer.started_stage open_)
  rw [started_stream, ← remainder_of_not_ended open_, left, List.cons.injEq] at whole
  obtain ⟨rfl, rfl⟩ := whole
  exact ⟨later, by rw [next, if_neg open_, read], rfl, touched⟩

theorem next_eq (lexer : Lexer) :
    ∃ later,
      lexer.next =
        (match lexer.remainder.head? with
          | some token => .ok token
          | none => .error .streamEnded, later) ∧
      later.remainder = lexer.remainder.tail ∧ later.stage ≠ .untouched := by
  cases left : lexer.remainder with
  | nil =>
    have ended := remainder_eq_nil_iff.1 left
    exact ⟨lexer, next_of_remainder_nil left, left, by rw [ended]; decide⟩
  | cons token rest => exact next_of_remainder_cons left

section Pull

variable {lexer later : Lexer} {token : Token} {fault : Fault}

theorem pull_of_next_error (read : lexer.next = (.error fault, later)) (count : Nat) :
    lexer.pull (count + 1) = (.error fault, later) := by
  rw [pull, read]

theorem pull_of_next_ok (read : lexer.next = (.ok token, later)) (count : Nat) :
    lexer.pull (count + 1) = ((later.pull count).1.map (token :: ·), (later.pull count).2) := by
  rw [pull, read]
  dsimp only
  rcases later.pull count with ⟨_ | tokens, last⟩ <;> rfl

end Pull

theorem pull_eq (lexer : Lexer) (count : Nat) :
    ∃ later,
      lexer.pull count =
        (if count ≤ lexer.remainder.length then .ok (lexer.remainder.take count)
          else .error .streamEnded, later) ∧
      later.remainder = lexer.remainder.drop count ∧
      (lexer.stage ≠ .untouched → later.stage ≠ .untouched) := by
  induction count generalizing lexer with
  | zero => exact ⟨lexer, by simp [pull], rfl, id⟩
  | succ count ih =>
    cases left : lexer.remainder with
    | nil =>
      refine ⟨lexer, ?_, by simp [left], id⟩
      rw [pull_of_next_error (next_of_remainder_nil left)]
      rfl
    | cons token rest =>
      obtain ⟨after, read, remainder, touched⟩ := next_of_remainder_cons left
      obtain ⟨later, pulled, behind, kept⟩ := ih after
      refine ⟨later, ?_, by rw [behind, remainder]; rfl, fun _ => kept touched⟩
      rw [remainder] at pulled
      rw [pull_of_next_ok read, pulled]
      by_cases enough : count ≤ rest.length
      · simp [enough, Except.map]
      · simp [enough, Except.map]

theorem remaining_eq (lexer : Lexer) :
    ∃ later, lexer.remaining = (.ok lexer.remainder, later) ∧ later.remainder = [] ∧
      later.stage ≠ .untouched := by
  by_cases ended : lexer.stage = .ended
  · refine ⟨lexer, ?_, remainder_of_ended ended, by rw [ended]; decide⟩
    rw [remaining, if_pos ended, remainder_of_ended ended]
  · obtain ⟨later, read, stage⟩ := lexer.started.readTokens_eq lexer.pending
    rw [started_stream, ← remainder_of_not_ended ended] at read
    refine ⟨later, ?_, remainder_of_ended stage, ?_⟩
    · rw [remaining, if_neg ended, read]
    · rw [stage]
      decide

theorem takeStream_eq (lexer : Lexer) :
    ∃ later,
      lexer.takeStream =
        (if lexer.stage = .untouched then .ok () else .error .streamTaken, later) ∧
      later.remainder = lexer.remainder ∧ later.cursor = lexer.cursor ∧
      later.stage ≠ .untouched := by
  by_cases untouched : lexer.stage = .untouched
  · refine ⟨{ lexer with stage := .taken }, ?_, ?_, rfl, by simp⟩
    · rw [takeStream, if_pos untouched, if_pos untouched]
    · simp [remainder, untouched]
  · refine ⟨lexer, ?_, rfl, rfl, untouched⟩
    rw [takeStream, if_neg untouched, if_neg untouched]

end Lexer

namespace Step

/-- The step lets the lexer classify a match that it has not come to. -/
def interferes : Step → Bool
  | classify _ _ _ => true
  | _ => false

/-- The step asks the lexer for its stream or for tokens of it. A pull asks the stream itself. -/
def opens : Step → Bool
  | next => true
  | remaining => true
  | takeStream => true
  | _ => false

/-- The position in a stream of some size behind the step. -/
def advance (size position : Nat) : Step → Nat
  | next => min (position + 1) size
  | remaining => size
  | pull count => min (position + count) size
  | _ => position

/-- The position in a stream of some size behind some steps from its beginning on. -/
def position (size : Nat) (steps : List Step) : Nat := steps.foldl (advance size) 0

/-- What a stream of tokens that some steps were made on replies to another step. -/
def reply (full : List Token) (earlier : List Step) (step : Step) : Except Fault Reply :=
  let start := position full.length earlier
  match step with
  | next =>
    match full[start]? with
    | some token => .ok (.token token)
    | none => .error .streamEnded
  | remaining => .ok (.tokens (full.drop start))
  | pull count =>
    if start + count ≤ full.length then .ok (.tokens ((full.drop start).take count))
    else .error .streamEnded
  | takeStream => if earlier.any opens then .error .streamTaken else .ok .stream
  | classify _ _ _ => .ok .state
  | inspect => .ok .state

def pulls : Step → Bool
  | pull _ => true
  | _ => false

/-- Every pull comes behind a step that opens the stream. -/
def pullsOpened (opened : Bool) : List Step → Bool
  | [] => true
  | step :: steps => (opened || !step.pulls) && pullsOpened (opened || step.opens) steps

theorem pullsOpened_append (opened : Bool) (before after : List Step) :
    pullsOpened opened (before ++ after) =
      (pullsOpened opened before && pullsOpened (opened || before.any opens) after) := by
  induction before generalizing opened with
  | nil => simp [pullsOpened]
  | cons step before ih => simp [pullsOpened, ih, Bool.or_assoc, Bool.and_assoc]

theorem position_concat (size : Nat) (steps : List Step) (step : Step) :
    position size (steps ++ [step]) = step.advance size (position size steps) := by
  simp [position]

theorem position_le (size : Nat) (steps : List Step) : position size steps ≤ size := by
  induction steps using List.reverseRecOn with
  | nil => exact Nat.zero_le size
  | append_singleton steps step ih =>
    rw [position_concat]
    cases step <;> simp only [advance] <;> omega

theorem position_le_concat (size : Nat) (steps : List Step) (step : Step) :
    position size steps ≤ position size (steps ++ [step]) := by
  have le := position_le size steps
  rw [position_concat]
  cases step <;> simp only [advance] <;> omega

end Step

namespace Lexer

/-- The lexer that some steps leave behind. -/
def after (lexer : Lexer) (steps : List Step) : Lexer :=
  steps.foldl (fun lexer step => (lexer.perform step).2) lexer

/-- The lexer stands in its stream where the steps made before have led. -/
structure Follows (lexer : Lexer) (full : List Token) (earlier : List Step) : Prop where
  remainder_eq : lexer.remainder = full.drop (Step.position full.length earlier)
  untouched_iff : lexer.stage = .untouched ↔ earlier.any Step.opens = false

variable {lexer : Lexer} {full : List Token} {earlier : List Step}

theorem Follows.touched (follows : lexer.Follows full earlier)
    (opened : earlier.any Step.opens = true) : lexer.stage ≠ .untouched := by
  intro untouched
  rw [follows.untouched_iff.1 untouched] at opened
  cases opened

theorem follows_of_opened {later : Lexer} {step : Step}
    (remainder_eq : later.remainder =
      full.drop (step.advance full.length (Step.position full.length earlier)))
    (touched : later.stage ≠ .untouched)
    (opened : earlier.any Step.opens = true ∨ step.opens = true) :
    later.Follows full (earlier ++ [step]) := by
  constructor
  · rw [Step.position_concat, remainder_eq]
  · rw [List.any_append]
    rcases opened with before | now
    · simp [touched, before]
    · simp [touched, now]

/-- A step takes off the remainder what the position in the stream says. -/
theorem perform_remainder {start : Nat} (left : lexer.remainder = full.drop start) {step : Step}
    (quiet : step.interferes = false) :
    (lexer.perform step).2.remainder = full.drop (step.advance full.length start) := by
  have clipped : ∀ n, full.drop (min n full.length) = full.drop n := by
    intro n
    rw [List.drop_eq_drop_iff]
    omega
  cases step with
  | next =>
    obtain ⟨later, read, remainder, -⟩ := lexer.next_eq
    rw [Lexer.perform, read, Step.advance, clipped]
    show later.remainder = full.drop (start + 1)
    rw [remainder, left, List.tail_drop]
  | remaining =>
    obtain ⟨later, read, remainder, -⟩ := lexer.remaining_eq
    rw [Lexer.perform, read, Step.advance, List.drop_length]
    exact remainder
  | takeStream =>
    obtain ⟨later, given, remainder, -⟩ := lexer.takeStream_eq
    rw [Lexer.perform, given]
    exact remainder.trans left
  | pull count =>
    obtain ⟨later, pulled, remainder, -⟩ := lexer.pull_eq count
    rw [Lexer.perform, pulled, Step.advance, clipped]
    show later.remainder = full.drop (start + count)
    rw [remainder, left, List.drop_drop]
  | classify rule lexeme offset => cases quiet
  | inspect => exact left

/-- One step: the reply is that of the stream, and the lexer still stands where the steps lead. -/
theorem Follows.perform (follows : lexer.Follows full earlier) {step : Step}
    (quiet : step.interferes = false)
    (opened : step.pulls = true → earlier.any Step.opens = true) :
    (lexer.perform step).1 = step.reply full earlier ∧
      (lexer.perform step).2.Follows full (earlier ++ [step]) := by
  have behind := perform_remainder follows.remainder_eq quiet
  cases step with
  | next =>
    obtain ⟨later, read, -, touched⟩ := lexer.next_eq
    rw [Lexer.perform, read] at behind ⊢
    refine ⟨?_, follows_of_opened behind touched (.inr rfl)⟩
    rw [follows.remainder_eq, List.head?_drop]
    simp only [Step.reply]
    cases full[Step.position full.length earlier]? <;> rfl
  | remaining =>
    obtain ⟨later, read, -, touched⟩ := lexer.remaining_eq
    rw [Lexer.perform, read] at behind ⊢
    refine ⟨?_, follows_of_opened behind touched (.inr rfl)⟩
    rw [follows.remainder_eq]
    rfl
  | takeStream =>
    obtain ⟨later, given, -, -, touched⟩ := lexer.takeStream_eq
    rw [Lexer.perform, given] at behind ⊢
    refine ⟨?_, follows_of_opened behind touched (.inr rfl)⟩
    simp only [follows.untouched_iff, Step.reply]
    cases earlier.any Step.opens <;> rfl
  | pull count =>
    have used := opened rfl
    have le := Step.position_le full.length earlier
    obtain ⟨later, pulled, -, touched⟩ := lexer.pull_eq count
    rw [follows.remainder_eq, List.length_drop] at pulled
    rw [Lexer.perform, pulled] at behind ⊢
    refine ⟨?_, follows_of_opened behind (touched (follows.touched used)) (.inl used)⟩
    have enough_iff : count ≤ full.length - Step.position full.length earlier ↔
        Step.position full.length earlier + count ≤ full.length := by omega
    simp only [Step.reply, enough_iff]
    split <;> rfl
  | classify rule lexeme offset => cases quiet
  | inspect =>
    show _ ∧ lexer.Follows full (earlier ++ [.inspect])
    refine ⟨rfl, ?_, ?_⟩
    · rw [Step.position_concat]
      exact behind
    · rw [List.any_append]
      simpa [Step.opens] using follows.untouched_iff

/-- A run of steps: the lexer still stands where all of them lead. -/
theorem Follows.after (follows : lexer.Follows full earlier) {steps : List Step}
    (quiet : ∀ step ∈ steps, step.interferes = false)
    (opened : Step.pullsOpened (earlier.any Step.opens) steps = true) :
    (lexer.after steps).Follows full (earlier ++ steps) := by
  induction steps generalizing lexer earlier with
  | nil => simpa [Lexer.after] using follows
  | cons step steps ih =>
    rw [Step.pullsOpened, Bool.and_eq_true] at opened
    have first := follows.perform (quiet step List.mem_cons_self) (by
      intro pulls
      simpa [pulls] using opened.1)
    have further := ih first.2 (fun later mem => quiet later (List.mem_cons_of_mem step mem)) (by
      simpa using opened.2)
    rw [List.append_assoc, List.singleton_append] at further
    exact further

theorem follows_ofSource {source filename : Text} (read : tokenize source filename = .ok full) :
    (ofSource source filename).Follows full [] := by
  constructor
  · rw [tokenize_eq, Except.ok.injEq] at read
    rw [← read]
    rfl
  · simp [ofSource]

def results (lexer : Lexer) : List Step → List (Except Fault Reply × Cursor)
  | [] => []
  | step :: steps =>
    ((lexer.perform step).1, (lexer.perform step).2.cursor) :: (lexer.perform step).2.results steps

theorem length_results (lexer : Lexer) (steps : List Step) :
    (lexer.results steps).length = steps.length := by
  induction steps generalizing lexer with
  | nil => rfl
  | cons step steps ih => rw [results, List.length_cons, ih, List.length_cons]

/-- The reply to a step comes from the lexer that the steps before it leave behind. -/
theorem results_reply (lexer : Lexer) (before : List Step) (step : Step) (later : List Step) :
    ((lexer.results (before ++ step :: later)).map Prod.fst)[before.length]? =
      some ((lexer.after before).perform step).1 := by
  induction before generalizing lexer with
  | nil => rfl
  | cons first before ih => exact ih (lexer.perform first).2

theorem results_state (lexer : Lexer) (before later : List Step) :
    (lexer.cursor :: (lexer.results (before ++ later)).map Prod.snd)[before.length]? =
      some (lexer.after before).cursor := by
  induction before generalizing lexer with
  | nil => rfl
  | cons first before ih => exact ih (lexer.perform first).2

theorem after_concat (lexer : Lexer) (before : List Step) (step : Step) :
    lexer.after (before ++ [step]) = ((lexer.after before).perform step).2 := by
  simp [after]

end Lexer

/-- The results of some steps are those of one stream of tokens. Every reply is given by the
position that the earlier steps lead to, which never goes back nor beyond the end. Giving out the
stream moves neither the position nor the cursor. -/
structure ShowOneStream (full : List Token) (steps : List Step)
    (results : List (Except Fault Reply × Cursor)) : Prop where
  length_eq : results.length = steps.length
  reply_eq : ∀ before step later, steps = before ++ step :: later →
    (results.map Prod.fst)[before.length]? = some (step.reply full before)
  forward : ∀ before step later, steps = before ++ step :: later →
    Step.position full.length before ≤ Step.position full.length (before ++ [step]) ∧
      Step.position full.length (before ++ [step]) ≤ full.length
  unmoved : ∀ before later, steps = before ++ .takeStream :: later →
    Step.position full.length (before ++ [.takeStream]) = Step.position full.length before ∧
      ∃ state, (Cursor.start :: results.map Prod.snd)[before.length]? = some state ∧
        (Cursor.start :: results.map Prod.snd)[before.length + 1]? = some state

theorem Lexer.results_showOneStream {source filename : Text} {full : List Token}
    (read : tokenize source filename = .ok full) {steps : List Step}
    (quiet : ∀ step ∈ steps, step.interferes = false)
    (opened : Step.pullsOpened false steps = true) :
    ShowOneStream full steps ((ofSource source filename).results steps) where
  length_eq := length_results _ steps
  reply_eq := by
    rintro before step later rfl
    rw [Step.pullsOpened_append, Bool.and_eq_true, Step.pullsOpened, Bool.and_eq_true] at opened
    have follows := (follows_ofSource read).after
      (fun step mem => quiet step (List.mem_append_left _ mem)) opened.1
    have last := follows.perform (quiet step (by simp)) (by
      intro pulls
      simpa [pulls] using opened.2.1)
    rw [results_reply, last.1]
    rfl
  forward := by
    intro before step later _
    exact ⟨Step.position_le_concat _ before step, Step.position_le _ _⟩
  unmoved := by
    rintro before later rfl
    refine ⟨Step.position_concat _ before .takeStream, ?_⟩
    have state := (ofSource source filename).results_state before (.takeStream :: later)
    have state' := (ofSource source filename).results_state (before ++ [.takeStream]) later
    rw [after_concat, List.append_assoc, List.length_append] at state'
    obtain ⟨later, given, -, cursor, -⟩ := ((ofSource source filename).after before).takeStream_eq
    refine ⟨_, state, state'.trans ?_⟩
    rw [Lexer.perform, given]
    exact congrArg some cursor

end PriorityLexer
