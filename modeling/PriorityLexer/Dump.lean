import PriorityLexer.Fault

namespace PriorityLexer.Dump

/-- Every token behind its index, which counts from `index`. -/
def numbered (index : Nat) : List Token → Text
  | [] => []
  | token :: tokens =>
    "[".toList ++ Text.decimal index ++ "] ".toList ++ token.text ++ "\n".toList ++
      numbered (index + 1) tokens

def plain (tokens : List Token) : Text := numbered 0 tokens

def jsonLexeme : Option Text → Text
  | some lexeme => Text.JsonString.encode lexeme
  | none => "null".toList

def jsonMember (name : String) (value : Text) : Text :=
  "    ".toList ++ Text.JsonString.encode name.toList ++ ": ".toList ++ value

def jsonObject (token : Token) : Text :=
  "  \x7b\n".toList ++
    ",\n".toList.intercalate [
      jsonMember "category" (Text.JsonString.encode token.category.name),
      jsonMember "lexeme" (jsonLexeme token.lexeme),
      jsonMember "line" (Text.signedDecimal token.location.line),
      jsonMember "column" (Text.signedDecimal token.location.column)] ++
    "\n  \x7d".toList

def jsonArray : List Token → Text
  | [] => "[]".toList
  | tokens => "[\n".toList ++ ",\n".toList.intercalate (tokens.map jsonObject) ++ "\n]".toList

def json (tokens : List Token) : Text := jsonArray tokens ++ "\n".toList

def render (asJson : Bool) (tokens : List Token) : Text :=
  if asJson then json tokens else plain tokens

def isWritable (token : Token) : Bool :=
  Text.isWritable token.location.line && Text.isWritable token.location.column

/-- Writes a dump, unless it holds a number that cannot be written. -/
def print (asJson : Bool) (tokens : List Token) : Except Fault Text :=
  if tokens.all isWritable then .ok (render asJson tokens) else .error .unwritableNumber

end PriorityLexer.Dump
