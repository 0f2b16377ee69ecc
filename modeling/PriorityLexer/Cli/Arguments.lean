import PriorityLexer.Fault

namespace PriorityLexer.Cli

open RawText (ofString)

inductive Flag where
  | help
  | json
  | strict
  | verbose
  | version
deriving DecidableEq, Repr

def Flag.label : Flag → Text
  | .help => "-h/--help".toList
  | .json => "--json".toList
  | .strict => "--strict".toList
  | .verbose => "-v/--verbose".toList
  | .version => "--version".toList

def spellings : List (RawText × Flag) := [
  (ofString "-h", .help), (ofString "--help", .help), (ofString "--json", .json),
  (ofString "--strict", .strict), (ofString "-v", .verbose), (ofString "--verbose", .verbose),
  (ofString "--version", .version)]

def flag? (spelling : RawText) : Option Flag := spellings.lookup spelling

inductive UsageError where
  | ambiguous (argument : RawText) (candidates : List RawText)
  /-- No flag takes a value. -/
  | ignoredValue (flag : Flag) (value : RawText)
  | fileRequired
  | unrecognized (arguments : List RawText)
  | unreadable (path : RawText) (fault : Fault)
deriving DecidableEq, Repr

def UsageError.message : UsageError → Text
  | .ambiguous argument candidates =>
    "ambiguous option: ".toList ++ argument.shown ++ " could match ".toList ++
      ", ".toList.intercalate (candidates.map RawText.shown)
  | .ignoredValue flag value =>
    "argument ".toList ++ flag.label ++ ": ignored explicit argument ".toList ++ value.quoted
  | .fileRequired => "the following arguments are required: file".toList
  | .unrecognized arguments =>
    "unrecognized arguments: ".toList ++ " ".toList.intercalate (arguments.map RawText.shown)
  | .unreadable path fault =>
    "cannot read ".toList ++ path.shown ++ ": ".toList ++ fault.message

/-- What becomes of the letters behind a short flag that are no short flags. Both ways are in
use. -/
inductive Dialect where
  /-- They are a value, and flags do not take values. An equals sign in front is passed over. -/
  | early
  /-- They are left over, unless an equals sign or a dash in front makes them a value. -/
  | late
deriving DecidableEq, Repr

inductive Word where
  | operand (text : RawText)
  | flags (flags : List Flag)
  /-- Short flags with letters behind them that are left over. -/
  | partly (flags : List Flag) (rest : RawText)
  /-- A flag with a value, which is an error once the reading comes to it. -/
  | misused (flag : Flag) (value : RawText)
  | unknown (text : RawText)
  | separator
deriving DecidableEq, Repr

def isDigit : CodePoint → Bool
  | .char c => Text.isDecimalDigit c
  | .surrogate _ => false

/-- A negative number is an operand although it begins with a dash. One newline may follow it. -/
def isNegativeNumber (argument : RawText) : Bool :=
  let body := argument.drop 1
  let body := if body.getLast? = some (.char '\n') then body.dropLast else body
  match body.dropWhile isDigit with
  | [] => !body.isEmpty
  | point :: fraction => point == .char '.' && !fraction.isEmpty && fraction.all isDigit

/-- A name, and the value behind the first equals sign if there is one. -/
def splitValue (argument : RawText) : RawText × Option RawText :=
  match argument.dropWhile fun point => point != .char '=' with
  | [] => (argument, none)
  | _ :: value => (argument.takeWhile fun point => point != .char '=', some value)

namespace Word

def behind (flag : Flag) : Word → Word
  | flags others => flags (flag :: others)
  | partly others rest => partly (flag :: others) rest
  | word => word

def ofLetters (dialect : Dialect) (flag : Flag) : RawText → Word
  | [] => flags [flag]
  | letter :: letters =>
    match flag? [.char '-', letter] with
    | some following =>
      if dialect = .late ∧ letters.head? = some (.char '=') then misused following (letters.drop 1)
      else (ofLetters dialect following letters).behind flag
    | none =>
      if dialect = .early ∨ letter = .char '-' then misused flag (letter :: letters)
      else partly [flag] (.char '-' :: letter :: letters)

def ofValued (dialect : Dialect) (flag : Flag) (name value : RawText) : Word :=
  -- in the early dialect the value of a short flag is read as letters, but for the empty one
  if dialect = .late ∨ (ofString "--").isPrefixOf name ∨ value = [] then misused flag value
  else ofLetters dialect flag value

def ofStray (argument : RawText) : Word :=
  if isNegativeNumber argument || argument.contains (.char ' ') then operand argument
  else unknown argument

/-- A long flag that is not spelled out. -/
def ofShortened (argument name : RawText) (value? : Option RawText) : Except UsageError Word :=
  match spellings.filter fun spelling => name.isPrefixOf spelling.1 with
  | [] => .ok (ofStray argument)
  | [(_, flag)] => .ok (value?.elim (flags [flag]) (misused flag))
  | candidates => .error (.ambiguous argument (candidates.map Prod.fst))

def ofArgument (dialect : Dialect) (argument : RawText) : Except UsageError Word :=
  if argument.head? ≠ some (.char '-') ∨ argument = ofString "-" then .ok (operand argument)
  else
    match flag? argument with
    | some flag => .ok (flags [flag])
    | none =>
      let (name, value?) := splitValue argument
      match flag? name, value? with
      | some flag, some value => .ok (ofValued dialect flag name value)
      | _, _ =>
        if (ofString "--").isPrefixOf argument then ofShortened argument name value?
        else
          match flag? (argument.take 2) with
          | some flag => .ok (ofLetters dialect flag (argument.drop 2))
          | none => .ok (ofStray argument)

def ofArguments (dialect : Dialect) : List RawText → Except UsageError (List Word)
  | [] => .ok []
  | argument :: rest =>
    if argument = ofString "--" then .ok (separator :: rest.map operand)
    else
      match ofArgument dialect argument with
      | .error error => .error error
      | .ok word => (ofArguments dialect rest).map (word :: ·)

end Word

structure Request where
  file : RawText
  json : Bool
  strict : Bool
  verbose : Bool
deriving DecidableEq, Repr

inductive Command where
  | help
  | version
  | scan (request : Request)
deriving DecidableEq, Repr

/-- What has been gathered from the words so far. -/
structure Reading where
  file? : Option RawText
  /-- The file is the last word that was read. -/
  fileIsLast : Bool
  extras : List RawText
  json : Bool
  strict : Bool
  verbose : Bool
deriving DecidableEq, Repr

namespace Reading

def start : Reading := ⟨none, false, [], false, false, false⟩

/-- Sets flags in order, or comes to the command that a flag asks for at once. -/
def act (reading : Reading) : List Flag → Except Command Reading
  | [] => .ok reading
  | .help :: _ => .error .help
  | .version :: _ => .error .version
  | .json :: flags => { reading with json := true }.act flags
  | .strict :: flags => { reading with strict := true }.act flags
  | .verbose :: flags => { reading with verbose := true }.act flags

def extra (reading : Reading) (text : RawText) : Reading :=
  { reading with fileIsLast := false, extras := reading.extras ++ [text] }

def operand (reading : Reading) (text : RawText) : Reading :=
  match reading.file? with
  | none => { reading with file? := some text, fileIsLast := true }
  | some _ => reading.extra text

/-- A separator next to the file is dropped; any other one is left over. -/
def separator (reading : Reading) : Reading :=
  if reading.file?.isNone ∨ reading.fileIsLast then reading else reading.extra (ofString "--")

def finish (reading : Reading) : Except UsageError Command :=
  match reading.file? with
  | none => .error .fileRequired
  | some file =>
    if reading.extras.isEmpty then .ok (.scan ⟨file, reading.json, reading.strict, reading.verbose⟩)
    else .error (.unrecognized reading.extras)

def run (reading : Reading) : List Word → Except UsageError Command
  | [] => reading.finish
  | .operand text :: words => (reading.operand text).run words
  | .unknown text :: words => (reading.extra text).run words
  | .separator :: words => reading.separator.run words
  | .misused flag value :: _ => .error (.ignoredValue flag value)
  | .flags flags :: words =>
    match { reading with fileIsLast := false }.act flags with
    | .ok reading => reading.run words
    | .error command => .ok command
  | .partly flags rest :: words =>
    match (reading.extra rest).act flags with
    | .ok reading => reading.run words
    | .error command => .ok command

end Reading

/-- All arguments are told apart before any of them is acted on. -/
def parse (dialect : Dialect) (arguments : List RawText) : Except UsageError Command :=
  match Word.ofArguments dialect arguments with
  | .error error => .error error
  | .ok words => Reading.start.run words

end PriorityLexer.Cli
