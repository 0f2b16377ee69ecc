import PriorityLexer.Lexer

namespace PriorityLexer

/-- What an illegal lexeme looks like, and what to do about it if it is a quote. A lexeme that is
not printable is shown by its code point, for which it has to be one character. -/
def illegalHelp (lexeme : Text) : Except Fault (Text × Option (List Text)) :=
  if lexeme = ['"'] ∨ lexeme = ['\''] then
    .ok ("This looks like the start of an unterminated string literal.".toList,
      some ["Add a closing ".toList ++ lexeme ++ " quote".toList,
        "Check for a stray quote character".toList])
  else if Text.isPrintable lexeme then
    .ok ("The character '".toList ++ lexeme ++ "' is not valid in Buttercup source code.".toList,
      none)
  else
    match lexeme with
    | [c] =>
      .ok ("Non-printable character (Unicode: U+".toList ++ Text.upperHexadecimal 4 c.toNat ++
        ") is not allowed.".toList, none)
    | _ => .error (.notOneCharacter lexeme.length)

def illegalError (token : Token) : Except Fault LexicalError :=
  if token.isIllegal then
    match token.lexeme with
    | none => .error .noLexeme
    | some lexeme =>
      (illegalHelp lexeme).map fun (help, suggestions) =>
        LexicalError.ofParts ("Illegal character: ".toList ++ Text.quoted lexeme) token.location
          (some token) (some "L001".toList) (some help) suggestions
  else .error (.notIllegal token)

/-- One error for each illegal token, in order, or the first failure to make one. -/
def illegalErrors (tokens : List Token) : Except Fault (List LexicalError) :=
  (tokens.filter Token.isIllegal).mapM illegalError

/-- All tokens of a source. A strict reading fails with the error of the first illegal one. -/
def tokenizeText (source filename : Text) (strict : Bool) : Except Fault (List Token) :=
  match tokenize source filename with
  | .error fault => .error fault
  | .ok tokens =>
    if strict then
      match illegalErrors tokens with
      | .error fault => .error fault
      | .ok [] => .ok tokens
      | .ok (error :: _) => .error (.lexical error)
    else .ok tokens

end PriorityLexer
