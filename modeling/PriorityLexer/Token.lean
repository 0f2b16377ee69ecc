import PriorityLexer.Category
import PriorityLexer.Text.Written

namespace PriorityLexer

/-- Lines and columns count from one, offsets from zero. -/
structure Location where
  filename : Text
  line : Int
  column : Int
  offset : Int
deriving DecidableEq, Repr

def Location.text (location : Location) : Text :=
  location.filename ++ ":".toList ++ Text.signedDecimal location.line ++
    ":".toList ++ Text.signedDecimal location.column

structure Token where
  category : Category
  lexeme : Option Text
  location : Location
deriving DecidableEq, Repr

namespace Token

/-- A token on one line of its own, with the lexeme as it stands in the source. -/
def text (token : Token) : Text :=
  "\x7b".toList ++ token.category.name ++ ", \"".toList ++ token.lexeme.getD [] ++
    "\", @(".toList ++ Text.signedDecimal token.location.line ++ ", ".toList ++
    Text.signedDecimal token.location.column ++ ")\x7d".toList

/-- The token has the spelling of a reserved word and that word's category. -/
def isKeyword (token : Token) : Bool :=
  match token.lexeme.bind keyword? with
  | some category => token.category == category
  | none => false

def isLiteral (token : Token) : Bool := token.category.isLiteral

def isIllegal (token : Token) : Bool := token.category == .illegalChar

def isEndOfFile (token : Token) : Bool := token.category == .endOfFile

end Token

end PriorityLexer
