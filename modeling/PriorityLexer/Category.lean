import PriorityLexer.Text

namespace PriorityLexer

inductive Category where
  | assign
  | equal
  | notEqual
  | greater
  | greaterEqual
  | less
  | lessEqual
  | shiftLeft
  | shiftRight
  | unsignedShiftRight
  | bitOr
  | bitXor
  | bitAnd
  | power
  | mul
  | neg
  | plus
  | division
  | modulus
  | falseLiteral
  | intLiteral
  | binaryLiteral
  | octalLiteral
  | hexLiteral
  | string
  | parenthesisOpen
  | parenthesisClose
  | bracketOpen
  | bracketClose
  | colon
  | semiColon
  | comma
  | identifier
  | boolKeyword
  | endKeyword
  | ifKeyword
  | intKeyword
  | printKeyword
  | thenKeyword
  | trueKeyword
  | illegalChar
  | endOfFile
deriving DecidableEq, Repr

namespace Category

def all : List Category := [
  .assign, .equal, .notEqual, .greater, .greaterEqual, .less, .lessEqual, .shiftLeft, .shiftRight,
  .unsignedShiftRight, .bitOr, .bitXor, .bitAnd, .power, .mul, .neg, .plus, .division, .modulus,
  .falseLiteral, .intLiteral, .binaryLiteral, .octalLiteral, .hexLiteral, .string, .parenthesisOpen,
  .parenthesisClose, .bracketOpen, .bracketClose, .colon, .semiColon, .comma, .identifier,
  .boolKeyword, .endKeyword, .ifKeyword, .intKeyword, .printKeyword, .thenKeyword, .trueKeyword,
  .illegalChar, .endOfFile]

def name : Category → Text
  | .assign => "ASSIGN".toList
  | .equal => "EQUAL".toList
  | .notEqual => "NOT_EQUAL".toList
  | .greater => "GREATER".toList
  | .greaterEqual => "GREATER_EQUAL".toList
  | .less => "LESS".toList
  | .lessEqual => "LESS_EQUAL".toList
  | .shiftLeft => "SHIFT_LEFT".toList
  | .shiftRight => "SHIFT_RIGHT".toList
  | .unsignedShiftRight => "UNSIGNED_SHIFT_RIGHT".toList
  | .bitOr => "BIT_OR".toList
  | .bitXor => "BIT_XOR".toList
  | .bitAnd => "BIT_AND".toList
  | .power => "POWER".toList
  | .mul => "MUL".toList
  | .neg => "NEG".toList
  | .plus => "PLUS".toList
  | .division => "DIVISION".toList
  | .modulus => "MODULUS".toList
  | .falseLiteral => "FALSE".toList
  | .intLiteral => "INT_LITERAL".toList
  | .binaryLiteral => "BINARY_LITERAL".toList
  | .octalLiteral => "OCTAL_LITERAL".toList
  | .hexLiteral => "HEX_LITERAL".toList
  | .string => "STRING".toList
  | .parenthesisOpen => "PARENTHESIS_OPEN".toList
  | .parenthesisClose => "PARENTHESIS_CLOSE".toList
  | .bracketOpen => "BRACKET_OPEN".toList
  | .bracketClose => "BRACKET_CLOSE".toList
  | .colon => "COLON".toList
  | .semiColon => "SEMI_COLON".toList
  | .comma => "COMMA".toList
  | .identifier => "IDENTIFIER".toList
  | .boolKeyword => "BOOL".toList
  | .endKeyword => "END".toList
  | .ifKeyword => "IF".toList
  | .intKeyword => "INT".toList
  | .printKeyword => "PRINT".toList
  | .thenKeyword => "THEN".toList
  | .trueKeyword => "TRUE".toList
  | .illegalChar => "ILLEGAL_CHAR".toList
  | .endOfFile => "EOF".toList

def number (category : Category) : Nat := all.idxOf category + 1

def ofName? (name : Text) : Option Category := all.find? fun category => category.name == name

def isLiteral (category : Category) : Bool :=
  [falseLiteral, intLiteral, binaryLiteral, octalLiteral, hexLiteral, string].contains category

theorem mem_all (category : Category) : category ∈ all := by
  cases category <;> decide

theorem ofName?_name (category : Category) : ofName? category.name = some category := by
  cases category <;> decide

theorem name_injective {category category' : Category}
    (h : category.name = category'.name) : category = category' := by
  apply Option.some.inj
  rw [← ofName?_name category, h, ofName?_name]

theorem isUpper_or_of_mem_name (category : Category) {c : Char} (h : c ∈ category.name) :
    c.isUpper = true ∨ c = '_' := by
  have upper : category.name.all (fun c => c.isUpper || c == '_') = true := by
    cases category <;> decide
  simpa using List.all_eq_true.1 upper c h

theorem comma_not_mem_name (category : Category) : ',' ∉ category.name :=
  fun mem => absurd (category.isUpper_or_of_mem_name mem) (by decide)

end Category

/-- The reserved words. They are told from other words only once a whole word has been read. -/
def keywords : List (Text × Category) := [
  ("break".toList, .boolKeyword),
  ("else".toList, .endKeyword),
  ("return".toList, .ifKeyword),
  ("case".toList, .intKeyword),
  ("false".toList, .printKeyword),
  ("switch".toList, .thenKeyword),
  ("continue".toList, .thenKeyword),
  ("for".toList, .thenKeyword),
  ("true".toList, .thenKeyword),
  ("default".toList, .thenKeyword),
  ("if".toList, .thenKeyword),
  ("do".toList, .thenKeyword),
  ("in".toList, .thenKeyword),
  ("var".toList, .thenKeyword)]

def keyword? (word : Text) : Option Category := keywords.lookup word

def wordCategory (word : Text) : Category := (keyword? word).getD .identifier

end PriorityLexer
