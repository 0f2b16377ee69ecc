import PriorityLexer.Category
import PriorityLexer.Pattern

namespace PriorityLexer

inductive RuleName where
  | assign
  | comment
  | equal
  | notEqual
  | great
  | greatEq
  | less
  | lessEq
  | bitOr
  | bitXor
  | bitAnd
  | shiftLeft
  | shiftRight
  | unsignedShiftRight
  | power
  | mul
  | neg
  | plus
  | division
  | modulus
  | base2
  | base8
  | base16
  | falseLiteral
  | intLiteral
  | newline
  | parLeft
  | parRight
  | bracketLeft
  | colon
  | semiColon
  | comma
  | string
  | identifier
  | whiteSpace
  | other
deriving DecidableEq, Repr

namespace RuleName

def all : List RuleName := [
  .assign, .comment, .equal, .notEqual, .great, .greatEq, .less, .lessEq, .bitOr, .bitXor, .bitAnd,
  .shiftLeft, .shiftRight, .unsignedShiftRight, .power, .mul, .neg, .plus, .division, .modulus,
  .base2, .base8, .base16, .falseLiteral, .intLiteral, .newline, .parLeft, .parRight, .bracketLeft,
  .colon, .semiColon, .comma, .string, .identifier, .whiteSpace, .other]

def text : RuleName → Text
  | .assign => "Assign".toList
  | .comment => "Comment".toList
  | .equal => "Equal".toList
  | .notEqual => "NotEqual".toList
  | .great => "Great".toList
  | .greatEq => "GreatEq".toList
  | .less => "Less".toList
  | .lessEq => "LessEq".toList
  | .bitOr => "BitOr".toList
  | .bitXor => "BitXor".toList
  | .bitAnd => "BitAnd".toList
  | .shiftLeft => "ShiftLeft".toList
  | .shiftRight => "ShiftRight".toList
  | .unsignedShiftRight => "UnsignedShiftRight".toList
  | .power => "Power".toList
  | .mul => "Mul".toList
  | .neg => "Neg".toList
  | .plus => "Plus".toList
  | .division => "Division".toList
  | .modulus => "Modulus".toList
  | .base2 => "Base2".toList
  | .base8 => "Base8".toList
  | .base16 => "Base16".toList
  | .falseLiteral => "False".toList
  | .intLiteral => "IntLiteral".toList
  | .newline => "Newline".toList
  | .parLeft => "ParLeft".toList
  | .parRight => "ParRight".toList
  | .bracketLeft => "BracketLeft".toList
  | .colon => "Colon".toList
  | .semiColon => "SemiColon".toList
  | .comma => "Comma".toList
  | .string => "String".toList
  | .identifier => "Identifier".toList
  | .whiteSpace => "WhiteSpace".toList
  | .other => "Other".toList

def ofText? (text : Text) : Option RuleName := all.find? fun name => name.text == text

/-- The category of the tokens of a rule, for the rules whose tokens all have the same one and need
no further treatment. -/
def category? : RuleName → Option Category
  | .assign => some .assign
  | .equal => some .equal
  | .notEqual => some .notEqual
  | .great => some .greater
  | .greatEq => some .greaterEqual
  | .less => some .less
  | .lessEq => some .lessEqual
  | .bitOr => some .bitOr
  | .bitXor => some .bitXor
  | .bitAnd => some .bitAnd
  | .shiftLeft => some .shiftLeft
  | .shiftRight => some .shiftRight
  | .unsignedShiftRight => some .unsignedShiftRight
  | .power => some .power
  | .mul => some .mul
  | .neg => some .neg
  | .plus => some .plus
  | .division => some .division
  | .modulus => some .modulus
  | .base2 => some .binaryLiteral
  | .base8 => some .octalLiteral
  | .base16 => some .hexLiteral
  | .falseLiteral => some .falseLiteral
  | .intLiteral => some .intLiteral
  | .parLeft => some .parenthesisOpen
  | .parRight => some .parenthesisClose
  | .bracketLeft => some .bracketOpen
  | .colon => some .colon
  | .semiColon => some .semiColon
  | .comma => some .comma
  | _ => none

theorem mem_all (name : RuleName) : name ∈ all := by
  cases name <;> decide

theorem ofText?_text (name : RuleName) : ofText? name.text = some name := by
  cases name <;> decide

end RuleName

structure Rule where
  name : RuleName
  pattern : Pattern
deriving DecidableEq, Repr

def rules : List Rule := [
  ⟨.assign, .literal '=' []⟩,
  ⟨.comment, .blockComment⟩,
  ⟨.comment, .lineComment⟩,
  ⟨.equal, .literal '=' ['=']⟩,
  ⟨.notEqual, .literal '!' ['=']⟩,
  ⟨.great, .literal '>' []⟩,
  ⟨.greatEq, .literal '>' ['=']⟩,
  ⟨.less, .literal '<' []⟩,
  ⟨.lessEq, .literal '<' ['=']⟩,
  ⟨.bitOr, .literal '|' []⟩,
  ⟨.bitXor, .literal '^' []⟩,
  ⟨.bitAnd, .literal '&' []⟩,
  ⟨.shiftLeft, .literal '<' ['<']⟩,
  ⟨.shiftRight, .literal '>' ['>']⟩,
  ⟨.unsignedShiftRight, .literal '>' ['>', '>']⟩,
  ⟨.power, .literal '*' ['*']⟩,
  ⟨.mul, .literal '*' []⟩,
  ⟨.neg, .literal '-' []⟩,
  ⟨.plus, .literal '+' []⟩,
  ⟨.division, .literal '/' []⟩,
  ⟨.modulus, .literal '%' []⟩,
  ⟨.modulus, .literal '!' []⟩,
  ⟨.modulus, .literal '~' []⟩,
  ⟨.base2, .radixNumeral .binary⟩,
  ⟨.base8, .radixNumeral .octal⟩,
  ⟨.base16, .radixNumeral .hexadecimal⟩,
  ⟨.falseLiteral, .literal '#' ['f']⟩,
  ⟨.intLiteral, .digits⟩,
  ⟨.less, .literal '<' []⟩,
  ⟨.newline, .literal '\n' []⟩,
  ⟨.parLeft, .literal '(' []⟩,
  ⟨.parRight, .literal ')' []⟩,
  ⟨.bracketLeft, .literal '\x7b' []⟩,
  ⟨.parRight, .literal '\x7d' []⟩,
  ⟨.colon, .literal ':' []⟩,
  ⟨.semiColon, .literal ';' []⟩,
  ⟨.comma, .literal ',' []⟩,
  ⟨.string, .quoted '"'⟩,
  ⟨.string, .quoted '\''⟩,
  ⟨.identifier, .letters⟩,
  ⟨.whiteSpace, .blank⟩,
  ⟨.other, .anything⟩]

namespace Rule

/-- Where a match of the rule at `pos` ends. A position outside the source is moved to its nearer
end, and a match that ends at the position asked for counts as none. -/
def endAt? (rule : Rule) (source : Text) (pos : Int) : Option Nat :=
  let start := min pos.toNat source.length
  match rule.pattern.length? (source.drop start) with
  | some length => if ((start + length : Nat) : Int) = pos then none else some (start + length)
  | none => none

end Rule

/-- A rule that applies, its index in the table, and how far its match extends: the length or the
end, whichever was asked for. -/
structure Hit where
  index : Nat
  rule : Rule
  extent : Nat
deriving DecidableEq, Repr

/-- The first rule of the table for which `extent?` has an answer. -/
def firstHit? (table : List Rule) (extent? : Rule → Option Nat) : Option Hit :=
  table.zipIdx.findSome? fun (rule, index) => (extent? rule).map fun extent => ⟨index, rule, extent⟩

theorem firstHit?_eq_some {table : List Rule} {extent? : Rule → Option Nat} {hit : Hit}
    (h : firstHit? table extent? = some hit) :
    table[hit.index]? = some hit.rule ∧ extent? hit.rule = some hit.extent := by
  obtain ⟨⟨rule, index⟩, mem, applies⟩ := List.exists_of_findSome?_eq_some h
  obtain ⟨extent, reached, rfl⟩ := Option.map_eq_some_iff.1 applies
  exact ⟨List.mem_zipIdx_iff_getElem?.1 mem, reached⟩

end PriorityLexer
