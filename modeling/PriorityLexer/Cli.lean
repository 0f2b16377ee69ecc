import PriorityLexer.Cli.Arguments
import PriorityLexer.Dump
import PriorityLexer.Host

namespace PriorityLexer.Cli

structure Outcome where
  status : Nat
  stdout : Text
  stderr : Text
deriving DecidableEq, Repr

def usage : Text :=
  "usage: buttercup-lex [-h] [--json] [--strict] [-v] [--version] file\n".toList

def help : Text :=
  usage ++
    ("\nButtercup lexical analyzer\n" ++
    "\npositional arguments:\n" ++
    "  file           Source file to scan, or - for stdin\n" ++
    "\noptions:\n" ++
    "  -h, --help     show this help message and exit\n" ++
    "  --json         Output tokens in JSON format\n" ++
    "  --strict       Exit with status 1 if the source has illegal characters\n" ++
    "  -v, --verbose  Enable debug logging\n" ++
    "  --version      show program's version number and exit\n" ++
    "\nExamples:\n" ++
    "    buttercup-lex program.bc              # Print the token stream\n" ++
    "    buttercup-lex --json program.bc       # Tokens as a JSON array\n" ++
    "    buttercup-lex --strict program.bc     # Fail on illegal characters\n" ++
    "    cat program.bc | buttercup-lex -      # Read from stdin\n" ++
    "        \n").toList

def version : Text := "buttercup-lex 0.1.0\n".toList

def usageFailure (error : UsageError) : Outcome :=
  ⟨2, [], usage ++ "buttercup-lex: error: ".toList ++ error.message ++ "\n".toList⟩

def standardInput : RawText := RawText.ofString "-"

def sourceName (file : RawText) : Text :=
  if file = standardInput then "<stdin>".toList else file.shown

section Source

variable (host : Host) (file : RawText)

def sourceBytes : Except Fault Text.Utf8.Bytes :=
  if file = standardInput then host.inputContent else host.content file

/-- The text of these bytes. Standard input is read with unified newlines, and a file as it is. -/
def sourceText (bytes : Text.Utf8.Bytes) : Except Fault Text :=
  if file = standardInput then
    ((host.decodeInput bytes).mapError .undecodable).map Text.unifyNewlines
  else decodeBytes bytes

def readSource : Except Fault Text := sourceBytes host file >>= sourceText host file

end Source

def logLine (stamp level channel message : Text) : Text :=
  stamp ++ " [".toList ++ level ++ "] ".toList ++ channel ++ ": ".toList ++ message ++ "\n".toList

def debugLog (stamp : Text) (events : List Event) : Text :=
  events.flatMap fun event => logLine stamp "DEBUG".toList Event.channel event.message

def rejection (stamp filename : Text) (errors : List LexicalError) : Text :=
  errors.flatMap LexicalError.text ++
    logLine stamp "WARNING".toList "buttercup.cli".toList
      (Text.decimal errors.length ++ " illegal character(s) in ".toList ++ filename)

def dump (stamp : Text) (request : Request) (source : Text) : Except Fault Outcome := do
  let filename := sourceName request.file
  let (tokens, lexer) := (Lexer.ofSource source filename).remaining
  let tokens ← tokens
  let output ← Dump.print request.json tokens
  let log := if request.verbose then debugLog stamp lexer.events else []
  let errors ← if request.strict then illegalErrors tokens else .ok []
  if errors.isEmpty then return ⟨0, output, log⟩
  else return ⟨1, output, log ++ rejection stamp filename errors⟩

/-- A run reports that a source cannot be opened, read or decoded. Any other fault ends it. -/
def isReported : Fault → Bool
  | .system _ _ | .undecodable _ => true
  | _ => false

/-- Runs the program. `stamp` is the time that log lines show. -/
def run (dialect : Dialect) (stamp : Text) (host : Host) (arguments : List RawText) :
    Except Fault Outcome :=
  match parse dialect arguments with
  | .error error => .ok (usageFailure error)
  | .ok .help => .ok ⟨0, help, []⟩
  | .ok .version => .ok ⟨0, version, []⟩
  | .ok (.scan request) =>
    match readSource host request.file with
    | .ok source => dump stamp request source
    | .error fault =>
      if isReported fault then .ok (usageFailure (.unreadable request.file fault))
      else .error fault

end PriorityLexer.Cli
