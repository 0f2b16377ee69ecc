import PriorityLexer.Report

namespace PriorityLexer

/-- The largest size that a file or a text can have. -/
def maxSize : Nat := 0x7FFFFFFFFFFFFFFF

/-- What has been read to its end. -/
abbrev Content := { bytes : Text.Utf8.Bytes // bytes.length ≤ maxSize }

/-- What a run finds to read around it. -/
structure Host where
  /-- Opening a file by its name fails, or leads to what reading the file comes to. -/
  files : Text.Utf8.Bytes → Except SystemError (Except SystemError Content)
  input : Except SystemError Content
  /-- Standard input is decoded as the locale asks for. -/
  decodeInput : Text.Utf8.Bytes → Except Text.Utf8.DecodeError Text

namespace Host

variable (host : Host)

/-- The bytes of the file at a path. A path is turned into a name before anything is opened. -/
def content (path : RawText) : Except Fault Text.Utf8.Bytes := do
  let name ← path.name.mapError .unencodable
  if .char '\x00' ∈ path then throw .nullInPath
  let opened ← (host.files name).mapError (.system · (some path))
  let content ← opened.mapError (.system · none)
  return content.val

def inputContent : Except Fault Text.Utf8.Bytes :=
  (host.input.mapError (.system · none)).map Subtype.val

end Host

def decodeBytes (bytes : Text.Utf8.Bytes) : Except Fault Text :=
  (Text.Utf8.decode bytes).mapError .undecodable

/-- All tokens of a file. The path as it is shown serves as the file name. -/
def tokenizeFile (host : Host) (path : RawText) (strict : Bool) :
    Except Fault (List Token) := do
  let source ← decodeBytes (← host.content path)
  tokenizeText source path.shown strict

end PriorityLexer
