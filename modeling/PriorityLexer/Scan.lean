import PriorityLexer.Fault
import PriorityLexer.Rule

namespace PriorityLexer

/-- A slice of the source and the rule that took it. -/
structure Match where
  rule : RuleName
  lexeme : Text
  offset : Nat
deriving DecidableEq, Repr

def Match.stop (m : Match) : Nat := m.offset + m.lexeme.length

/-- The first rule that applies to the head of the text, with the length of its match. -/
def headHit? (table : List Rule) (text : Text) : Option Hit :=
  firstHit? table fun rule => rule.pattern.length? text

/-- The first rule that applies at a position of the source, with the end of its match. -/
def matchAt (source : Text) (position : Int) : Except Fault Hit :=
  match firstHit? rules fun rule => rule.endAt? source position with
  | some hit => .ok hit
  | none => .error (.noRule position)

/-- Positions that come from outside are signed words of 64 bits. -/
def fitsWord (position : Int) : Bool :=
  -0x8000000000000000 ≤ position && position < 0x8000000000000000

def queryMatch (source : Text) (position : Int) : Except Fault Hit :=
  if fitsWord position then matchAt source position else .error (.positionOverflow position)

/-- Where a match of each rule, tried alone at a position given from outside, ends. -/
def queryRules (source : Text) (position : Int) : Except Fault (List (RuleName × Option Nat)) :=
  if fitsWord position then .ok (rules.map fun rule => (rule.name, rule.endAt? source position))
  else .error (.positionOverflow position)

/-- The matches of a text that begins at `offset`, up to a point where no rule applies. -/
def scanFrom (table : List Rule) (offset : Nat) (text : Text) : List Match :=
  match text with
  | [] => []
  | first :: rest =>
    match headHit? table (first :: rest) with
    | none => []
    | some hit =>
      ⟨hit.rule.name, (first :: rest).take hit.extent, offset⟩ ::
        scanFrom table (offset + hit.extent) (rest.drop (hit.extent - 1))
termination_by text.length
decreasing_by simp only [List.length_drop, List.length_cons]; omega

def scan (source : Text) : List Match := scanFrom rules 0 source

theorem headHit?_bounds {table : List Rule} {text : Text} {hit : Hit}
    (h : headHit? table text = some hit) : 0 < hit.extent ∧ hit.extent ≤ text.length :=
  Pattern.length?_bounds (firstHit?_eq_some h).2

@[simp] theorem scanFrom_nil (table : List Rule) (offset : Nat) : scanFrom table offset [] = [] := by
  rw [scanFrom]

theorem scanFrom_of_hit {table : List Rule} {offset : Nat} {text : Text} {hit : Hit}
    (h : headHit? table text = some hit) :
    scanFrom table offset text =
      ⟨hit.rule.name, text.take hit.extent, offset⟩ ::
        scanFrom table (offset + hit.extent) (text.drop hit.extent) := by
  have bounds := headHit?_bounds h
  obtain ⟨extent, eq⟩ := Nat.exists_eq_succ_of_ne_zero (Nat.ne_of_gt bounds.1)
  cases text with
  | nil => simp only [List.length_nil] at bounds; omega
  | cons first rest =>
    rw [scanFrom, h]
    simp [eq]

end PriorityLexer
