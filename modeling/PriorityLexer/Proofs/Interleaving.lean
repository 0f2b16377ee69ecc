import PriorityLexer.Proofs.OneStream

namespace PriorityLexer

namespace Session

def stepsOf (index : Nat) (steps : List (Nat × Step)) : List Step :=
  (steps.filter fun entry => entry.1 = index).map Prod.snd

/-- Of the results of some steps, those of the steps for one lexer. -/
def resultsOf {α : Type} (index : Nat) (steps : List (Nat × Step)) (results : List α) : List α :=
  ((steps.zip results).filter fun entry => entry.1.1 = index).map Prod.snd

variable {lexers : List Lexer} {steps : List (Nat × Step)}

theorem run_cons {index : Nat} {lexer : Lexer} (at_index : lexers[index]? = some lexer)
    (step : Step) (steps : List (Nat × Step)) :
    run lexers ((index, step) :: steps) =
      ((lexer.perform step).1, (lexer.perform step).2.cursor) ::
        run (lexers.set index (lexer.perform step).2) steps := by
  rw [run, at_index]

theorem length_run (present : ∀ entry ∈ steps, entry.1 < lexers.length) :
    (run lexers steps).length = steps.length := by
  induction steps generalizing lexers with
  | nil => rfl
  | cons entry steps ih =>
    obtain ⟨index, step⟩ := entry
    have here : index < lexers.length := present (index, step) List.mem_cons_self
    rw [run_cons (List.getElem?_eq_getElem here), List.length_cons, List.length_cons, ih]
    intro entry mem
    rw [List.length_set]
    exact present entry (List.mem_cons_of_mem _ mem)

/-- The results for one lexer are those of its own steps. The others do not interfere. -/
theorem resultsOf_run (present : ∀ entry ∈ steps, entry.1 < lexers.length) {index : Nat}
    {lexer : Lexer} (at_index : lexers[index]? = some lexer) :
    resultsOf index steps (run lexers steps) = lexer.results (stepsOf index steps) := by
  induction steps generalizing lexers lexer with
  | nil => rfl
  | cons entry steps ih =>
    obtain ⟨other, step⟩ := entry
    have here : other < lexers.length := present (other, step) List.mem_cons_self
    have later : ∀ lexer : Lexer, ∀ entry ∈ steps, entry.1 < (lexers.set other lexer).length := by
      intro lexer entry mem
      rw [List.length_set]
      exact present entry (List.mem_cons_of_mem _ mem)
    by_cases own : other = index
    · subst own
      have further := ih (later (lexer.perform step).2) (List.getElem?_set_self here)
      rw [run_cons at_index]
      simp only [resultsOf, stepsOf] at further
      simp [resultsOf, stepsOf, Lexer.results, further]
    · have further := ih (later (lexers[other].perform step).2)
        ((List.getElem?_set_ne own).trans at_index)
      rw [run_cons (List.getElem?_eq_getElem here)]
      simp only [resultsOf, stepsOf] at further
      simp [resultsOf, stepsOf, own, further]

theorem run_singleton (lexer : Lexer) (steps : List Step) :
    run [lexer] (steps.map fun step => (0, step)) = lexer.results steps := by
  induction steps generalizing lexer with
  | nil => rfl
  | cons step steps ih =>
    rw [List.map_cons, run_cons rfl, List.set_cons_zero, ih]
    rfl

theorem mem_of_mem_stepsOf {index : Nat} {step : Step} (mem : step ∈ stepsOf index steps) :
    (index, step) ∈ steps := by
  unfold stepsOf at mem
  simpa using mem

end Session

/-- In a session each lexer hands out the tokens of its source once and in order. Whatever the other
lexers do in between, the results for it are those of a session of its own, and they show one
stream. -/
theorem session_hands_out_once (sources : List (Text × Text)) (steps : List (Nat × Step))
    (present : ∀ entry ∈ steps, entry.1 < sources.length)
    (quiet : ∀ entry ∈ steps, entry.2.interferes = false)
    (index : Nat) (source filename : Text) (at_index : sources[index]? = some (source, filename))
    (opened : Step.pullsOpened false (Session.stepsOf index steps) = true) :
    ∃ full results, tokenize source filename = .ok full ∧
      Session.run (sources.map fun entry => .ofSource entry.1 entry.2) steps = results ∧
      results.length = steps.length ∧
      Session.resultsOf index steps results =
        Session.run [.ofSource source filename]
          ((Session.stepsOf index steps).map fun step => (0, step)) ∧
      ShowOneStream full (Session.stepsOf index steps)
        (Session.resultsOf index steps results) := by
  have present' : ∀ entry ∈ steps, entry.1 <
      (sources.map fun entry => Lexer.ofSource entry.1 entry.2).length := by
    intro entry mem
    rw [List.length_map]
    exact present entry mem
  have at_index' : (sources.map fun entry => Lexer.ofSource entry.1 entry.2)[index]? =
      some (Lexer.ofSource source filename) := by
    rw [List.getElem?_map, at_index]
    rfl
  have own := Session.resultsOf_run present' at_index'
  refine ⟨_, _, tokenize_eq source filename, rfl, Session.length_run present', ?_, ?_⟩
  · rw [own, Session.run_singleton]
  · rw [own]
    apply Lexer.results_showOneStream (tokenize_eq source filename) _ opened
    intro step mem
    exact quiet (index, step) (Session.mem_of_mem_stepsOf mem)

/-- The stream of the second lexer is given out once, read by pulls and by single tokens, and comes
to its end in the middle of a pull, while the first lexer is read in between. -/
theorem session_hands_out_once_in_turns :
    let sources := [("a 'b".toList, ['x']), ("0b1 c".toList, ['y'])]
    let steps := [(0, .next), (1, .takeStream), (0, .takeStream), (1, .pull 1), (0, .remaining),
      (1, .next), (1, .pull 2), (1, .remaining)]
    (∀ entry ∈ steps, entry.1 < sources.length) ∧
      (∀ entry ∈ steps, entry.2.interferes = false) ∧
      sources[1]? = some ("0b1 c".toList, ['y']) ∧
      Step.pullsOpened false (Session.stepsOf 1 steps) = true ∧
      ∃ full results, tokenize "0b1 c".toList ['y'] = .ok full ∧
        Session.run (sources.map fun entry => .ofSource entry.1 entry.2) steps = results ∧
        full.length = 3 ∧
        ((Session.resultsOf 1 steps results).map Prod.fst)[2]? =
          some (.ok (.token ⟨.identifier, some ['c'], ⟨['y'], 1, 5, 4⟩⟩)) ∧
        ((Session.resultsOf 1 steps results).map Prod.fst)[3]? = some (.error .streamEnded) := by
  intro sources steps
  have present : ∀ entry ∈ steps, entry.1 < sources.length := by decide
  have quiet : ∀ entry ∈ steps, entry.2.interferes = false := by decide
  have opened : Step.pullsOpened false (Session.stepsOf 1 steps) = true := by decide
  obtain ⟨full, results, read, ran, -, -, shows⟩ :=
    session_hands_out_once sources steps present quiet 1 "0b1 c".toList ['y'] rfl opened
  have full_eq : full =
      [⟨.binaryLiteral, some "0b1".toList, ⟨['y'], 1, 1, 0⟩⟩,
        ⟨.identifier, some ['c'], ⟨['y'], 1, 5, 4⟩⟩, ⟨.endOfFile, none, ⟨['y'], 1, 6, 5⟩⟩] :=
    Except.ok.inj (read.symm.trans (by decide +kernel))
  have second := shows.reply_eq [.takeStream, .pull 1] .next [.pull 2, .remaining] rfl
  have third := shows.reply_eq [.takeStream, .pull 1, .next] (.pull 2) [.remaining] rfl
  subst full_eq
  exact ⟨present, quiet, rfl, opened, _, results, read, ran, rfl, second, third⟩

end PriorityLexer
