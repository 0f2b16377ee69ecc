import PriorityLexer.Scan

namespace PriorityLexer

/-- The column of an offset is its distance from `columnStart`, counted from one. -/
structure Cursor where
  pos : Nat
  line : Nat
  columnStart : Int
  illegalCount : Nat
deriving DecidableEq, Repr

namespace Cursor

def start : Cursor := ⟨0, 1, 0, 0⟩

def locate (cursor : Cursor) (filename : Text) (offset : Int) : Location :=
  ⟨filename, cursor.line, offset - cursor.columnStart + 1, offset⟩

/-- The token that a match makes, if it makes one, and the cursor after it. -/
def classify (cursor : Cursor) (filename : Text) (rule : RuleName) (lexeme : Text) (offset : Int) :
    Except Fault (Option Token × Cursor) :=
  let token (category : Category) : Option Token :=
    some ⟨category, some lexeme, cursor.locate filename offset⟩
  match rule with
  | .newline =>
    .ok (none, { cursor with line := cursor.line + 1, columnStart := offset + lexeme.length })
  | .whiteSpace | .comment => .ok (none, cursor)
  | .identifier => .ok (token (wordCategory lexeme), cursor)
  | .string => .ok (token .string, cursor)
  | .other => .ok (token .illegalChar, { cursor with illegalCount := cursor.illegalCount + 1 })
  | rule =>
    match rule.category? with
    | some category => .ok (token category, cursor)
    | none => .error (.unknownRule rule.text)

end Cursor

/-- What a lexer keeps in its journal. -/
inductive Event where
  | started (filename : Text) (size : Nat)
  | illegalCharacter (lexeme : Text) (location : Location)
  | finished (filename : Text) (tokens illegal lines : Nat)
deriving DecidableEq, Repr

def Event.message : Event → Text
  | .started filename size =>
    "Scanning ".toList ++ filename ++ " (".toList ++ Text.decimal size ++ " chars)".toList
  | .illegalCharacter lexeme location =>
    "Illegal character ".toList ++ Text.quoted lexeme ++ " at ".toList ++ location.text
  | .finished filename tokens illegal lines =>
    "Finished ".toList ++ filename ++ ": ".toList ++ Text.decimal tokens ++ " tokens, ".toList ++
      Text.decimal illegal ++ " illegal, ".toList ++ Text.decimal lines ++ " lines".toList

/-- The name under which the events of a lexer are logged. -/
def Event.channel : Text := "buttercup.lexer.lexer".toList

inductive Stage where
  /-- Nobody has asked for the stream. -/
  | untouched
  /-- The stream has been given out but not read. -/
  | taken
  | reading
  /-- The end-of-file token has been handed out. -/
  | ended
deriving DecidableEq, Repr

structure Lexer where
  filename : Text
  size : Nat
  pending : List Match
  cursor : Cursor
  stage : Stage
  /-- How many tokens have been handed out, not counting the one for the end of the file. -/
  tokenCount : Nat
  /-- What has happened so far, newest first. -/
  journal : List Event
deriving DecidableEq, Repr

namespace Lexer

def ofSource (source filename : Text) : Lexer where
  filename := filename
  size := source.length
  pending := scan source
  cursor := .start
  stage := .untouched
  tokenCount := 0
  journal := []

def events (lexer : Lexer) : List Event := lexer.journal.reverse

/-- Classifies a match at the cursor and notes it down if it is an illegal character. The match need
not come from the source. -/
def classify (lexer : Lexer) (rule : RuleName) (lexeme : Text) (offset : Int) :
    Except Fault (Option Token) × Lexer :=
  match lexer.cursor.classify lexer.filename rule lexeme offset with
  | .error fault => (.error fault, lexer)
  | .ok (token?, cursor) =>
    let noted :=
      if rule = .other then
        [Event.illegalCharacter lexeme (lexer.cursor.locate lexer.filename offset)]
      else []
    (.ok token?, { lexer with cursor := cursor, journal := noted ++ lexer.journal })

def classifyNamed (lexer : Lexer) (name lexeme : Text) (offset : Int) :
    Except Fault (Option Token) × Lexer :=
  match RuleName.ofText? name with
  | some rule => lexer.classify rule lexeme offset
  | none => (.error (.unknownRule name), lexer)

/-- Makes sure that the journal opens with the start of the reading. -/
def started (lexer : Lexer) : Lexer :=
  match lexer.stage with
  | .untouched | .taken =>
    { lexer with
      stage := .reading
      journal := Event.started lexer.filename lexer.size :: lexer.journal }
  | .reading | .ended => lexer

/-- Reads one match, which leaves the matches in `rest`. -/
def consume (lexer : Lexer) (m : Match) (rest : List Match) : Except Fault (Option Token) × Lexer :=
  match lexer.classify m.rule m.lexeme m.offset with
  | (.error fault, lexer) => (.error fault, { lexer with pending := [], stage := .ended })
  | (.ok token?, lexer) =>
    (.ok token?,
      { lexer with
        pending := rest
        cursor := { lexer.cursor with pos := m.stop }
        tokenCount := lexer.tokenCount + token?.toList.length })

def endToken (lexer : Lexer) : Token :=
  ⟨.endOfFile, none, lexer.cursor.locate lexer.filename lexer.size⟩

def finished (lexer : Lexer) : Lexer :=
  { lexer with
    pending := []
    stage := .ended
    journal :=
      Event.finished lexer.filename lexer.tokenCount lexer.cursor.illegalCount lexer.cursor.line ::
        lexer.journal }

/-- Reads on to the first of these matches that makes a token, or to the end. -/
def readToken (lexer : Lexer) : List Match → Except Fault Token × Lexer
  | [] => (.ok lexer.endToken, lexer.finished)
  | m :: rest =>
    match lexer.consume m rest with
    | (.error fault, lexer) => (.error fault, lexer)
    | (.ok (some token), lexer) => (.ok token, lexer)
    | (.ok none, lexer) => lexer.readToken rest

def readTokens (lexer : Lexer) : List Match → Except Fault (List Token) × Lexer
  | [] => (.ok [lexer.endToken], lexer.finished)
  | m :: rest =>
    match lexer.consume m rest with
    | (.error fault, lexer) => (.error fault, lexer)
    | (.ok token?, lexer) =>
      match lexer.readTokens rest with
      | (.error fault, lexer) => (.error fault, lexer)
      | (.ok tokens, lexer) => (.ok (token?.toList ++ tokens), lexer)

def next (lexer : Lexer) : Except Fault Token × Lexer :=
  if lexer.stage = .ended then (.error .streamEnded, lexer)
  else lexer.started.readToken lexer.pending

/-- Hands out all the tokens that are left, which is none at all after the end of the file. -/
def remaining (lexer : Lexer) : Except Fault (List Token) × Lexer :=
  if lexer.stage = .ended then (.ok [], lexer)
  else lexer.started.readTokens lexer.pending

/-- Gives out the stream of a lexer that nobody has read from. -/
def takeStream (lexer : Lexer) : Except Fault Unit × Lexer :=
  if lexer.stage = .untouched then (.ok (), { lexer with stage := .taken })
  else (.error .streamTaken, lexer)

/-- Hands out the next `count` tokens. If the stream ends before, the tokens handed out on the way
are lost. -/
def pull (lexer : Lexer) : Nat → Except Fault (List Token) × Lexer
  | 0 => (.ok [], lexer)
  | count + 1 =>
    match lexer.next with
    | (.error fault, lexer) => (.error fault, lexer)
    | (.ok token, lexer) =>
      match lexer.pull count with
      | (.error fault, lexer) => (.error fault, lexer)
      | (.ok tokens, lexer) => (.ok (token :: tokens), lexer)

end Lexer

def tokenize (source filename : Text) : Except Fault (List Token) :=
  (Lexer.ofSource source filename).remaining.1

end PriorityLexer
