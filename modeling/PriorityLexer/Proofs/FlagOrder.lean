import Mathlib.Data.List.Forall2
import Mathlib.Data.List.Perm.Basic
import Mathlib.Data.List.Nodup
import Mathlib.Data.List.TakeWhile
import PriorityLexer.Proofs.CommandLine

namespace PriorityLexer.Cli

open RawText (ofString)

/-- The flags of a scan under their long names. -/
def switches : List (RawText × Flag) :=
  [(ofString "--json", .json), (ofString "--strict", .strict), (ofString "--verbose", .verbose)]

/-- The ways to write a flag of a scan: its long name, a beginning of that name which goes beyond
the dashes and begins no other flag, and for one of the flags a letter, any number of times. -/
inductive Spells : RawText → Flag → Prop
  | name {name : RawText} {flag : Flag} (known : (name, flag) ∈ switches) : Spells name flag
  | shortened {beginning name : RawText} {flag : Flag} (known : (name, flag) ∈ switches)
      (begins : beginning <+: name) (longer : 2 < beginning.length)
      (alone : ∀ spelling ∈ spellings, beginning <+: spelling.1 → spelling.2 = flag) :
      Spells beginning flag
  | letters (count : Nat) : Spells (.char '-' :: List.replicate (count + 1) (.char 'v')) .verbose

theorem ofArgument_of_mem_spellings (dialect : Dialect) :
    ∀ spelling ∈ spellings, Word.ofArgument dialect spelling.1 = .ok (.flags [spelling.2]) := by
  cases dialect <;> decide

theorem mem_spellings_of_mem_switches : ∀ switch ∈ switches, switch ∈ spellings := by decide

theorem splitValue_of_not_mem {argument : RawText} (bare : .char '=' ∉ argument) :
    splitValue argument = (argument, none) := by
  have whole : argument.dropWhile (fun point => point != .char '=') = [] := by
    rw [List.dropWhile_eq_nil_iff]
    intro point mem
    simpa using fun same : point = .char '=' => bare (same ▸ mem)
  rw [splitValue, whole]

section Shortened

variable {beginning name : RawText} {flag : Flag}

theorem spelling_eq_of_flag_eq : ∀ spelling ∈ spellings, ∀ spelling' ∈ spellings,
    ofString "--" <+: spelling.1 → ofString "--" <+: spelling'.1 → spelling.2 = spelling'.2 →
      spelling = spelling' := by
  decide

theorem filter_spellings (known : (name, flag) ∈ spellings) (begins : beginning <+: name)
    (dashes : ofString "--" <+: beginning)
    (alone : ∀ spelling ∈ spellings, beginning <+: spelling.1 → spelling.2 = flag) :
    spellings.filter (fun spelling => beginning.isPrefixOf spelling.1) = [(name, flag)] := by
  have meant : ∀ spelling ∈ spellings,
      beginning.isPrefixOf spelling.1 = (spelling == (name, flag)) := by
    intro spelling mem
    rw [Bool.eq_iff_iff, List.isPrefixOf_iff_prefix, beq_iff_eq]
    constructor
    · intro other
      exact spelling_eq_of_flag_eq spelling mem (name, flag) known (dashes.trans other)
        (dashes.trans begins) (alone spelling mem other)
    · rintro rfl
      exact begins
  have once : spellings.count (name, flag) = 1 := List.count_eq_one_of_mem (by decide) known
  rw [List.filter_congr meant, List.filter_beq, once]
  rfl

theorem ofArgument_shortened (dialect : Dialect) (known : (name, flag) ∈ switches)
    (begins : beginning <+: name) (longer : 2 < beginning.length)
    (alone : ∀ spelling ∈ spellings, beginning <+: spelling.1 → spelling.2 = flag) :
    Word.ofArgument dialect beginning = .ok (.flags [flag]) := by
  have names : ∀ switch ∈ switches, ofString "--" <+: switch.1 ∧ .char '=' ∉ switch.1 := by
    decide
  obtain ⟨name_dashes, name_bare⟩ := names _ known
  have dashes : ofString "--" <+: beginning :=
    List.prefix_of_prefix_length_le name_dashes begins longer.le
  have bare : .char '=' ∉ beginning := fun mem => name_bare (begins.subset mem)
  -- A beginning that is a whole spelling is told before any shortening is tried.
  cases found : flag? beginning with
  | some flag' =>
    have mem : (beginning, flag') ∈ spellings := mem_of_lookup_eq_some found
    rw [ofArgument_of_mem_spellings dialect _ mem, alone _ mem (List.prefix_refl _)]
  | none =>
    have flagged : ¬(beginning.head? ≠ some (.char '-') ∨ beginning = ofString "-") := by
      obtain ⟨rest, rfl⟩ := dashes
      simp [ofString, RawText.ofText]
    rw [Word.ofArgument, if_neg flagged, splitValue_of_not_mem bare]
    simp only [found]
    rw [if_pos (List.isPrefixOf_iff_prefix.2 dashes), Word.ofShortened,
      filter_spellings (mem_spellings_of_mem_switches _ known) begins dashes alone]
    rfl

end Shortened

theorem ofLetters_replicate (dialect : Dialect) (count : Nat) :
    Word.ofLetters dialect .verbose (List.replicate count (.char 'v')) =
      .flags (List.replicate (count + 1) .verbose) := by
  induction count with
  | zero => rfl
  | succ count ih =>
    have known : flag? [.char '-', .char 'v'] = some .verbose := rfl
    have noValue : ¬(dialect = .late ∧
        (List.replicate count (CodePoint.char 'v')).head? = some (.char '=')) := by
      cases count <;> simp [List.replicate_succ]
    rw [List.replicate_succ, Word.ofLetters, known]
    simp only [if_neg noValue, ih]
    rfl

theorem ofArgument_letters (dialect : Dialect) (count : Nat) :
    Word.ofArgument dialect (.char '-' :: List.replicate (count + 1) (.char 'v')) =
      .ok (.flags (List.replicate (count + 1) .verbose)) := by
  cases count with
  | zero => rfl
  | succ count =>
    let argument : RawText := .char '-' :: List.replicate (count + 2) (.char 'v')
    have bare : .char '=' ∉ argument := by simp [argument]
    have unknown : flag? argument = none := rfl
    have first : flag? (argument.take 2) = some .verbose := rfl
    have others : argument.drop 2 = List.replicate (count + 1) (.char 'v') := rfl
    show Word.ofArgument dialect argument = _
    rw [Word.ofArgument, if_neg (by simp [argument, ofString, RawText.ofText]), unknown,
      splitValue_of_not_mem bare]
    simp only [unknown, first, others]
    rw [if_neg (by simp [argument, ofString, RawText.ofText, List.replicate_succ]),
      ofLetters_replicate]

namespace Spells

variable {word : RawText} {flag : Flag}

theorem exists_ofArgument (dialect : Dialect) (spells : Spells word flag) :
    ∃ count, Word.ofArgument dialect word = .ok (.flags (List.replicate (count + 1) flag)) := by
  cases spells with
  | name known =>
    exact ⟨0, ofArgument_of_mem_spellings dialect _ (mem_spellings_of_mem_switches _ known)⟩
  | shortened known begins longer alone =>
    exact ⟨0, ofArgument_shortened dialect known begins longer alone⟩
  | letters count => exact ⟨count, ofArgument_letters dialect count⟩

theorem ne_help_and_ne_version (spells : Spells word flag) : flag ≠ .help ∧ flag ≠ .version := by
  have table : ∀ switch ∈ switches, switch.2 ≠ .help ∧ switch.2 ≠ .version := by decide
  cases spells with
  | name known => exact table _ known
  | shortened known => exact table _ known
  | letters => decide

end Spells

namespace Reading

def gain (reading : Reading) (flags : List Flag) : Reading :=
  { reading with
    json := reading.json || decide (.json ∈ flags)
    strict := reading.strict || decide (.strict ∈ flags)
    verbose := reading.verbose || decide (.verbose ∈ flags) }

theorem gain_nil (reading : Reading) : reading.gain [] = reading := by
  simp [gain]

theorem gain_gain (reading : Reading) (flags others : List Flag) :
    (reading.gain flags).gain others = reading.gain (flags ++ others) := by
  simp [gain, Bool.or_assoc]

/-- Neither the order of the flags counts nor how often each of them occurs. -/
theorem gain_congr (reading : Reading) {flags others : List Flag}
    (same : ∀ flag, flag ∈ flags ↔ flag ∈ others) : reading.gain flags = reading.gain others := by
  simp only [gain, same]

theorem act_eq_gain (reading : Reading) {flags : List Flag}
    (goOn : ∀ flag ∈ flags, flag ≠ .help ∧ flag ≠ .version) :
    reading.act flags = .ok (reading.gain flags) := by
  induction flags generalizing reading with
  | nil => rw [act, gain_nil]
  | cons flag flags ih =>
    have others (reading : Reading) :=
      ih reading fun flag mem => goOn flag (List.mem_cons_of_mem _ mem)
    cases flag with
    | json => simp [act, others, gain]
    | strict => simp [act, others, gain]
    | verbose => simp [act, others, gain]
    | help => exact absurd rfl (goOn .help List.mem_cons_self).1
    | version => exact absurd rfl (goOn .version List.mem_cons_self).2

/-- Words that spell flags are read as these flags. Whether the file is the last word is left open,
since it takes at least one flag to change that. -/
theorem ComesTo.of_spells {dialect : Dialect} {words : List RawText} {flags : List Flag}
    (spells : List.Forall₂ Spells words flags) {reading : Reading} {rest : List RawText}
    {command : Command}
    (h : ∀ last, ComesTo dialect { reading.gain flags with fileIsLast := last } rest command) :
    reading.ComesTo dialect (words ++ rest) command := by
  induction spells generalizing reading with
  | nil =>
    have further := h reading.fileIsLast
    rw [gain_nil] at further
    exact further
  | @cons word flag words flags first _ ih =>
    obtain ⟨count, told⟩ := first.exists_ofArgument dialect
    have goOn : ∀ flag' ∈ List.replicate (count + 1) flag, flag' ≠ .help ∧ flag' ≠ .version := by
      intro flag' mem
      rw [List.eq_of_mem_replicate mem]
      exact first.ne_help_and_ne_version
    have once : ∀ flag', flag' ∈ List.replicate (count + 1) flag ↔ flag' ∈ [flag] := by simp
    have acts := act_eq_gain { reading with fileIsLast := false } goOn
    rw [gain_congr _ once] at acts
    refine ComesTo.cons_flags (ih fun last => ?_) told acts
    rw [gain_gain]
    exact h last

end Reading

/-- The arguments are a file and a spelling of each of the flags, in any order. -/
structure Arranges (file : RawText) (flags : List Flag) (arguments : List RawText) : Prop where
  operand : file = standardInput ∨ file.head? ≠ some (.char '-')
  exists_perm : ∃ words, List.Forall₂ Spells words flags ∧ arguments.Perm (file :: words)

namespace Arranges

variable {file : RawText} {flags : List Flag} {arguments : List RawText}

theorem exists_split (arranges : Arranges file flags arguments) :
    ∃ before after flagsBefore flagsAfter, arguments = before ++ file :: after ∧
      List.Forall₂ Spells before flagsBefore ∧ List.Forall₂ Spells after flagsAfter ∧
      ∀ flag, flag ∈ flagsBefore ++ flagsAfter ↔ flag ∈ flags := by
  obtain ⟨words, spells, perm⟩ := arranges.exists_perm
  obtain ⟨before, after, rfl⟩ := List.append_of_mem (perm.mem_iff.2 List.mem_cons_self)
  have around : (before ++ after).Perm words := (List.perm_middle.symm.trans perm).cons_inv
  obtain ⟨flags', spells', perm'⟩ := List.perm_comp_forall₂ around spells
  refine ⟨before, after, flags'.take before.length, flags'.drop before.length, rfl, ?_, ?_, ?_⟩
  · simpa using List.forall₂_take before.length spells'
  · simpa using List.forall₂_drop before.length spells'
  · intro flag
    rw [List.take_append_drop, perm'.mem_iff]

theorem parse_eq (dialect : Dialect) (arranges : Arranges file flags arguments) :
    parse dialect arguments = .ok (.scan
      ⟨file, decide (.json ∈ flags), decide (.strict ∈ flags), decide (.verbose ∈ flags)⟩) := by
  obtain ⟨before, after, flagsBefore, flagsAfter, rfl, spellsBefore, spellsAfter, same⟩ :=
    arranges.exists_split
  have operand : Word.ofArgument dialect file = .ok (.operand file) := if_pos arranges.operand.symm
  have gathered : (Reading.start.gain flagsBefore).gain flagsAfter = Reading.start.gain flags := by
    rw [Reading.gain_gain, Reading.gain_congr _ same]
  apply Reading.ComesTo.parse_eq
  apply Reading.ComesTo.of_spells spellsBefore
  intro _
  refine Reading.ComesTo.cons_operand ?_ operand
  rw [← List.append_nil after]
  apply Reading.ComesTo.of_spells spellsAfter
  intro last
  refine ⟨[], rfl, ?_⟩
  show Reading.finish { (Reading.start.gain flagsBefore).gain flagsAfter with
    file? := some file, fileIsLast := last } = _
  rw [gathered]
  rfl

end Arranges

/-- A command line of one file and flags in any order asks to scan the file with the flags that
occur. So its run depends on nothing but the file, which flags occur, and what there is to be read:
it stays the same if the arguments are put in another order, or if a flag is repeated or spelled in
another way. -/
theorem flags_may_come_anywhere {file : RawText} {flags : List Flag} {arguments : List RawText}
    (arranges : Arranges file flags arguments) (dialect : Dialect) :
    parse dialect arguments = .ok (.scan
      ⟨file, decide (.json ∈ flags), decide (.strict ∈ flags), decide (.verbose ∈ flags)⟩) ∧
    ∀ flags' arguments', Arranges file flags' arguments' →
      (∀ flag, flag ∈ flags ↔ flag ∈ flags') →
        ∀ stamp host, run dialect stamp host arguments = run dialect stamp host arguments' := by
  refine ⟨arranges.parse_eq dialect, ?_⟩
  intro flags' arguments' arranges' same stamp host
  have parsed : parse dialect arguments = parse dialect arguments' := by
    rw [arranges.parse_eq, arranges'.parse_eq]
    simp only [same]
  rw [run, run, parsed]

/-- Two flags behind the file in their shortest forms, and the same flags around it, one of them
three times. -/
theorem flags_may_come_anywhere_around_file :
    let file := ofString "p.bc"
    let brief := [file, ofString "--j", ofString "-v"]
    let lengthy := [ofString "-vv", ofString "--json", file, ofString "--verb"]
    Arranges file [.json, .verbose] brief ∧
    Arranges file [.verbose, .json, .verbose] lengthy ∧
    parse .late brief = .ok (.scan ⟨file, true, false, true⟩) ∧
    run .late [] twoFiles brief = run .late [] twoFiles lengthy := by
  intro file brief lengthy
  have operand : file = standardInput ∨ file.head? ≠ some (.char '-') := by decide
  have j : Spells (ofString "--j") .json :=
    .shortened List.mem_cons_self (by decide) (by decide) (by decide)
  have verb : Spells (ofString "--verb") .verbose :=
    .shortened (by decide : (ofString "--verbose", Flag.verbose) ∈ switches) (by decide)
      (by decide) (by decide)
  have briefly : Arranges file [.json, .verbose] brief :=
    ⟨operand, [ofString "--j", ofString "-v"], .cons j (.cons (.letters 0) .nil), .refl _⟩
  have at_length : Arranges file [.verbose, .json, .verbose] lengthy :=
    ⟨operand, [ofString "-vv", ofString "--json", ofString "--verb"],
      .cons (.letters 1) (.cons (.name (by decide)) (.cons verb .nil)), by decide⟩
  obtain ⟨parsed, same_run⟩ := flags_may_come_anywhere briefly .late
  exact ⟨briefly, at_length, parsed, same_run _ _ at_length (by simp [or_comm]) _ _⟩

end PriorityLexer.Cli
