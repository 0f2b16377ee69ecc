import PriorityLexer.Lexer

namespace PriorityLexer

inductive Step where
  | next
  | remaining
  | takeStream
  | pull (count : Nat)
  | classify (rule lexeme : Text) (offset : Int)
  | inspect
deriving DecidableEq, Repr

inductive Reply where
  | token (token : Token)
  | tokens (tokens : List Token)
  | stream
  /-- The classified match makes no token. -/
  | skipped
  | state
deriving DecidableEq, Repr

def Lexer.perform (lexer : Lexer) : Step → Except Fault Reply × Lexer
  | .next =>
    let (result, lexer) := lexer.next
    (result.map .token, lexer)
  | .remaining =>
    let (result, lexer) := lexer.remaining
    (result.map .tokens, lexer)
  | .takeStream =>
    let (result, lexer) := lexer.takeStream
    (result.map fun _ => .stream, lexer)
  | .pull count =>
    let (result, lexer) := lexer.pull count
    (result.map .tokens, lexer)
  | .classify rule lexeme offset =>
    let (result, lexer) := lexer.classifyNamed rule lexeme offset
    (result.map fun token? => token?.elim .skipped .token, lexer)
  | .inspect => (.ok .state, lexer)

/-- One reply and the cursor after it for each step. A step for a lexer that is not there is passed
over. -/
def Session.run (lexers : List Lexer) : List (Nat × Step) → List (Except Fault Reply × Cursor)
  | [] => []
  | (index, step) :: steps =>
    match lexers[index]? with
    | none => run lexers steps
    | some lexer =>
      let (reply, lexer) := lexer.perform step
      (reply, lexer.cursor) :: run (lexers.set index lexer) steps

end PriorityLexer
