import PriorityLexer.Proofs.FirstHit

namespace PriorityLexer

/-- The match is what the table takes off the front where its lexeme is followed by `rest`. -/
def Match.Leads (m : Match) (rest : Text) : Prop :=
  ∃ hit, headHit? rules (m.lexeme ++ rest) = some hit ∧ hit.rule.name = m.rule ∧
    hit.extent = m.lexeme.length

/-- The matches into which a text that begins at an offset is cut. -/
inductive Scans : Nat → Text → List Match → Prop
  | nil (offset : Nat) : Scans offset [] []
  | cons {m : Match} {rest : Text} {ms : List Match} (leads : m.Leads rest)
      (scans : Scans m.stop rest ms) : Scans m.offset (m.lexeme ++ rest) (m :: ms)

theorem Match.Leads.lexeme_ne_nil {m : Match} {rest : Text} (h : m.Leads rest) : m.lexeme ≠ [] := by
  obtain ⟨hit, taken, -, extent⟩ := h
  have bounds := headHit?_bounds taken
  intro empty
  rw [extent, empty, List.length_nil] at bounds
  omega

theorem scans_scanFrom (offset : Nat) (text : Text) :
    Scans offset text (scanFrom rules offset text) := by
  -- by length, because the scan goes on with what the first match leaves of the text
  induction hn : text.length using Nat.strongRecOn generalizing offset text with
  | ind n ih =>
    by_cases empty : text = []
    · subst empty
      rw [scanFrom_nil]
      exact .nil offset
    · obtain ⟨hit, taken⟩ := exists_headHit? empty
      have bounds := headHit?_bounds taken
      have length_eq : (text.take hit.extent).length = hit.extent := List.length_take_of_le bounds.2
      have further := ih (text.drop hit.extent).length (by rw [List.length_drop]; omega)
        (offset + hit.extent) (text.drop hit.extent) rfl
      rw [scanFrom_of_hit taken]
      have leads :
          Match.Leads ⟨hit.rule.name, text.take hit.extent, offset⟩ (text.drop hit.extent) :=
        ⟨hit, by rwa [List.take_append_drop], rfl, length_eq.symm⟩
      have behind : Scans (Match.stop ⟨hit.rule.name, text.take hit.extent, offset⟩)
          (text.drop hit.extent) (scanFrom rules (offset + hit.extent) (text.drop hit.extent)) := by
        simpa only [Match.stop, length_eq] using further
      have whole := Scans.cons leads behind
      rwa [List.take_append_drop] at whole

theorem Scans.eq_scanFrom {offset : Nat} {text : Text} {ms : List Match}
    (h : Scans offset text ms) :
    ms = scanFrom rules offset text := by
  induction h with
  | nil offset => rw [scanFrom_nil]
  | @cons m rest ms leads scans ih =>
    obtain ⟨hit, taken, name, extent⟩ := leads
    rw [scanFrom_of_hit taken, name, extent, List.take_left, List.drop_left, ih]
    rfl

theorem scans_scan (source : Text) : Scans 0 source (scan source) := scans_scanFrom 0 source

theorem Scans.of_cons {m : Match} {ms : List Match} {offset : Nat} {text : Text}
    (h : Scans offset text (m :: ms)) :
    m.offset = offset ∧ ∃ rest, text = m.lexeme ++ rest ∧ m.Leads rest ∧ Scans m.stop rest ms := by
  cases h with
  | cons leads scans => exact ⟨rfl, _, rfl, leads, scans⟩

/-- The text that the matches cover. -/
def covered (ms : List Match) : Text := ms.flatMap Match.lexeme

@[simp] theorem covered_nil : covered [] = [] := rfl

@[simp] theorem covered_cons (m : Match) (ms : List Match) :
    covered (m :: ms) = m.lexeme ++ covered ms := rfl

@[simp] theorem covered_append (ms ms' : List Match) :
    covered (ms ++ ms') = covered ms ++ covered ms' := List.flatMap_append

theorem Scans.covered_eq {offset : Nat} {text : Text} {ms : List Match} (h : Scans offset text ms) :
    covered ms = text := by
  induction h with
  | nil => rfl
  | cons leads scans ih => rw [covered_cons, ih]

theorem Scans.of_append {before after : List Match} {offset : Nat} {text : Text}
    (h : Scans offset text (before ++ after)) :
    ∃ rest, text = covered before ++ rest ∧
      Scans (offset + (covered before).length) rest after := by
  induction before generalizing offset text with
  | nil => exact ⟨text, rfl, h⟩
  | cons m before ih =>
    obtain ⟨rfl, rest, rfl, -, scans⟩ := h.of_cons
    obtain ⟨left, rfl, further⟩ := ih scans
    refine ⟨left, by simp, ?_⟩
    simpa [Match.stop, Nat.add_assoc] using further

theorem Scans.leads_of_mem {offset : Nat} {text : Text} {ms : List Match} (h : Scans offset text ms)
    {m : Match} (mem : m ∈ ms) : ∃ rest, m.Leads rest := by
  obtain ⟨before, after, rfl⟩ := List.append_of_mem mem
  obtain ⟨text, -, scans⟩ := h.of_append
  obtain ⟨-, rest, -, leads, -⟩ := scans.of_cons
  exact ⟨rest, leads⟩

theorem Scans.offset_eq {before after : List Match} {m : Match} {offset : Nat} {text : Text}
    (h : Scans offset text (before ++ m :: after)) :
    m.offset = offset + (covered before).length := by
  obtain ⟨rest, -, scans⟩ := h.of_append
  exact scans.of_cons.1

theorem Scans.bounds {offset : Nat} {text : Text} {ms : List Match} (h : Scans offset text ms)
    {m : Match} (mem : m ∈ ms) :
    offset ≤ m.offset ∧ m.offset < m.stop ∧ m.stop ≤ offset + text.length := by
  obtain ⟨before, after, rfl⟩ := List.append_of_mem mem
  have start := h.offset_eq
  obtain ⟨rest, leads⟩ := h.leads_of_mem mem
  have positive := List.length_pos_of_ne_nil leads.lexeme_ne_nil
  have whole := congrArg List.length h.covered_eq
  simp only [covered_append, covered_cons, List.length_append] at whole
  unfold Match.stop
  omega

theorem Scans.pairwise_offset {offset : Nat} {text : Text} {ms : List Match}
    (h : Scans offset text ms) : ms.Pairwise fun m m' => m.offset < m'.offset := by
  induction h with
  | nil => exact .nil
  | @cons m rest ms leads scans ih =>
    refine List.pairwise_cons.2 ⟨?_, ih⟩
    intro m' mem
    have positive := List.length_pos_of_ne_nil leads.lexeme_ne_nil
    have behind := (scans.bounds mem).1
    unfold Match.stop at behind
    omega

theorem Scans.stop_le_of_before {before after : List Match} {m m' : Match} {offset : Nat}
    {text : Text} (h : Scans offset text (before ++ m :: after)) (mem : m' ∈ before) :
    m'.stop ≤ m.offset := by
  have start := h.offset_eq
  obtain ⟨earlier, later, rfl⟩ := List.append_of_mem mem
  rw [List.append_assoc, List.cons_append] at h
  have start' := h.offset_eq
  simp only [covered_append, covered_cons, List.length_append] at start
  unfold Match.stop
  omega

theorem Scans.offset_lt_of_after {before after : List Match} {m m' : Match} {offset : Nat}
    {text : Text} (h : Scans offset text (before ++ m :: after)) (mem : m' ∈ after) :
    m.offset < m'.offset := by
  obtain ⟨rest, -, scans⟩ := h.of_append
  obtain ⟨-, left, -, leads, further⟩ := scans.of_cons
  have positive := List.length_pos_of_ne_nil leads.lexeme_ne_nil
  have behind := (further.bounds mem).1
  unfold Match.stop at behind
  omega

theorem Scans.filter_stop_le {before after : List Match} {m : Match} {offset : Nat} {text : Text}
    (h : Scans offset text (before ++ m :: after)) :
    (before ++ m :: after).filter (fun m' => m'.stop ≤ m.offset) = before := by
  have own := (h.bounds (List.mem_append_right before List.mem_cons_self)).2.1
  rw [List.filter_append, List.filter_cons_of_neg (by simp only [decide_eq_true_eq]; omega),
    List.filter_eq_self.2 fun m' mem => decide_eq_true (h.stop_le_of_before mem),
    List.filter_eq_nil_iff.2 ?_, List.append_nil]
  -- a match behind `m` ends behind the beginning of `m`, because it begins there already
  intro m' mem
  have behind := h.offset_lt_of_after mem
  have positive := (h.bounds (List.mem_append_right before (List.mem_cons_of_mem m mem))).2.1
  simp only [decide_eq_true_eq]
  omega

end PriorityLexer
