import PriorityLexer.RawText
import PriorityLexer.Text.Upper
import PriorityLexer.Token

namespace PriorityLexer

structure Diagnostic where
  message : Text
  location : Location
  severity : Text
  code : Option Text
  help : Option Text
  suggestions : Option (List Text)
deriving DecidableEq, Repr

/-- The lines of a diagnostic. An empty help text or list of suggestions is left out. -/
def Diagnostic.text (diagnostic : Diagnostic) : Text :=
  let help :=
    match diagnostic.help with
    | none | some [] => []
    | some help => "  help: ".toList ++ help ++ "\n".toList
  let suggestions :=
    match diagnostic.suggestions with
    | none | some [] => []
    | some suggestions =>
      "  suggestions:\n".toList ++
        suggestions.flatMap fun suggestion => "    - ".toList ++ suggestion ++ "\n".toList
  Text.upper diagnostic.severity ++ ": ".toList ++ diagnostic.message ++ "\n".toList ++
    "  --> ".toList ++ diagnostic.location.text ++ "\n".toList ++ help ++ suggestions

structure LexicalError where
  diagnostic : Diagnostic
  token : Option Token
deriving DecidableEq, Repr

namespace LexicalError

/-- A lexical error is a diagnostic of the severity `error`. -/
def ofParts (message : Text) (location : Location) (token : Option Token) (code help : Option Text)
    (suggestions : Option (List Text)) : LexicalError where
  diagnostic := ⟨message, location, "error".toList, code, help, suggestions⟩
  token := token

def text (error : LexicalError) : Text := error.diagnostic.text

end LexicalError

def codeMeaning? (code : Text) : Option Text :=
  if code = "L001".toList then some "Illegal character".toList else none

structure SystemError where
  number : Nat
  reason : Text
deriving DecidableEq, Repr

/-- Everything an operation of the library can refuse to do, by its cause. -/
inductive Fault where
  /-- No rule applies at the position. -/
  | noRule (position : Int)
  /-- A position that is asked about has to fit in a signed word of 64 bits. -/
  | positionOverflow (position : Int)
  /-- A rule name that has no category. -/
  | unknownRule (name : Text)
  | unknownCategory (name : Text)
  /-- A lexer gives out its stream of tokens once. -/
  | streamTaken
  /-- The end-of-file token has been handed out already. -/
  | streamEnded
  /-- A report on an illegal character was asked for a token that is none. -/
  | notIllegal (token : Token)
  /-- A report on an illegal character needs a lexeme to show. -/
  | noLexeme
  /-- A lexeme that is not printable has to be a single character. -/
  | notOneCharacter (length : Nat)
  | lexical (error : LexicalError)
  /-- A dump holds a number of too many digits. -/
  | unwritableNumber
  /-- The path is no file name. -/
  | unencodable (error : EncodeError)
  /-- A path with a null character names nothing. -/
  | nullInPath
  /-- The system fails to open a path, or to read what has been opened, which has no path. -/
  | system (error : SystemError) (path? : Option RawText)
  | undecodable (error : Text.Utf8.DecodeError)
deriving DecidableEq, Repr

def Fault.message : Fault → Text
  | .noRule position => "no rule matches at offset ".toList ++ Text.signedDecimal position
  | .positionOverflow _ => "Python int too large to convert to C ssize_t".toList
  | .unknownRule name => Text.quoted name
  | .unknownCategory name => Text.quoted name
  | .streamTaken => "Lexer has already been consumed; create a new Lexer to rescan".toList
  | .streamEnded => []
  | .notIllegal token => "not an illegal character token: ".toList ++ token.text
  | .noLexeme => "'NoneType' object has no attribute 'isprintable'".toList
  | .notOneCharacter length =>
    "ord() expected a character, but string of length ".toList ++ Text.decimal length ++
      " found".toList
  | .lexical error => error.text
  | .unwritableNumber =>
    "Exceeds the limit (".toList ++ Text.decimal Text.digitLimit ++
      " digits) for integer string conversion; ".toList ++
      "use sys.set_int_max_str_digits() to increase the limit".toList
  | .unencodable error => error.message
  | .nullInPath => "embedded null byte".toList
  | .system error path? =>
    "[Errno ".toList ++ Text.decimal error.number ++ "] ".toList ++ error.reason ++
      path?.elim [] fun path => ": ".toList ++ path.quoted
  | .undecodable error => error.message

end PriorityLexer
