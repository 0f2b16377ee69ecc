import PriorityLexer.Cli
import Std.Time.Zoned

namespace PriorityLexer.Main

/-- The local time as log lines show it. -/
def stamp : IO Text := do
  let now ← Std.Time.PlainDateTime.now
  let time := now.time
  let padded (width : Nat) (n : Int) := (Text.signedDecimal n).leftpad width '0'
  let date :=
    "-".toList.intercalate [padded 4 now.year, padded 2 now.month.val, padded 2 now.day.val]
  let clock :=
    ":".toList.intercalate
      [padded 2 time.hour.val, padded 2 time.minute.val, padded 2 time.second.val]
  return date ++ " ".toList ++ clock ++ ",".toList ++
    padded 3 (time.nanosecond.val / 1000000)

def systemError : IO.Error → SystemError
  | .alreadyExists _ code reason | .otherError code reason | .resourceBusy code reason
  | .resourceVanished code reason | .unsupportedOperation code reason | .hardwareFault code reason
  | .unsatisfiedConstraints code reason | .illegalOperation code reason
  | .protocolError code reason | .timeExpired code reason | .interrupted _ code reason
  | .noFileOrDirectory _ code reason | .invalidArgument _ code reason
  | .permissionDenied _ code reason | .resourceExhausted _ code reason
  | .inappropriateType _ code reason | .noSuchThing _ code reason => ⟨code.toNat, reason.toList⟩
  | .unexpectedEof => ⟨5, "Input/output error".toList⟩
  | .userError reason => ⟨5, reason.toList⟩

/-- Reads to the end. What is larger than any text is refused. -/
def readContent (read : IO ByteArray) : IO (Except SystemError Content) := do
  try
    let bytes := (← read).toList
    if fits : bytes.length ≤ maxSize then return .ok ⟨bytes, fits⟩
    else return .error ⟨27, "File too large".toList⟩
  catch error => return .error (systemError error)

/-- The host as far as the file of a request goes. -/
def hostOf (file : RawText) : IO Host := do
  let decodeInput := Text.Utf8.decode
  let absent : SystemError := ⟨2, "No such file or directory".toList⟩
  if file = Cli.standardInput then
    let input ← readContent do (← IO.getStdin).readBinToEnd
    return ⟨fun _ => .error absent, input, decodeInput⟩
  else
    let content ← readContent (IO.FS.readBinFile (String.ofList file.shown))
    return ⟨fun _ => content.map .ok, .ok ⟨[], Nat.zero_le _⟩, decodeInput⟩

end PriorityLexer.Main

open PriorityLexer in
def main (arguments : List String) : IO UInt32 := do
  let arguments := arguments.map RawText.ofString
  let file :=
    match Cli.parse .late arguments with
    | .ok (.scan request) => request.file
    | _ => []
  let host ← Main.hostOf file
  let stamp ← try Main.stamp catch _ => pure []
  match Cli.run .late stamp host arguments with
  | .ok outcome =>
    IO.print (String.ofList outcome.stdout)
    IO.eprint (String.ofList outcome.stderr)
    return UInt32.ofNat outcome.status
  | .error fault =>
    IO.eprintln (String.ofList fault.message)
    return 1
