import PriorityLexer.Cli
import PriorityLexer.Proofs.IllegalReports
import PriorityLexer.Proofs.SourceSizes

namespace PriorityLexer

open RawText (ofString)

theorem exists_ok_of_bind {α β : Type} {first : Except Fault α} {next : α → Except Fault β}
    {result : β} (ran : first >>= next = .ok result) :
    ∃ value, first = .ok value ∧ next value = .ok result := by
  cases first with
  | error fault => cases ran
  | ok value => exact ⟨value, rfl, ran⟩

namespace Host

variable {host : Host} {path : RawText}

theorem length_le_of_content {bytes : Text.Utf8.Bytes} (found : host.content path = .ok bytes) :
    bytes.length ≤ maxSize := by
  obtain ⟨name, -, found⟩ := exists_ok_of_bind found
  split at found
  · cases found
  · obtain ⟨opened, -, found⟩ := exists_ok_of_bind found
    obtain ⟨content, -, found⟩ := exists_ok_of_bind found
    exact Except.ok.inj found ▸ content.2

theorem length_le_of_inputContent {bytes : Text.Utf8.Bytes}
    (found : host.inputContent = .ok bytes) : bytes.length ≤ maxSize := by
  rw [inputContent] at found
  cases read : host.input with
  | error error => simp [read, Except.mapError, Except.map] at found
  | ok content =>
    rw [read] at found
    exact Except.ok.inj found ▸ content.2

end Host

theorem decodeBytes_encode (text : Text) : decodeBytes (Text.Utf8.encode text) = .ok text := by
  rw [decodeBytes, Text.Utf8.decode_encode]
  rfl

theorem decodeBytes_of_error {bytes : Text.Utf8.Bytes} {error : Text.Utf8.DecodeError}
    (failed : Text.Utf8.decode bytes = .error error) :
    decodeBytes bytes = .error (.undecodable error) := by
  rw [decodeBytes, failed]
  rfl

namespace Cli

def Reading.ComesTo (dialect : Dialect) (reading : Reading) (arguments : List RawText)
    (command : Command) : Prop :=
  ∃ words, Word.ofArguments dialect arguments = .ok words ∧ reading.run words = .ok command

section Reading

variable {dialect : Dialect} {reading : Reading} {argument : RawText} {rest : List RawText}
  {command : Command}

theorem Reading.ComesTo.parse_eq (h : Reading.start.ComesTo dialect rest command) :
    parse dialect rest = .ok command := by
  obtain ⟨words, told, run_eq⟩ := h
  rw [parse, told]
  exact run_eq

theorem Word.ofArguments_cons {word : Word} {words : List Word}
    (told : ofArgument dialect argument = .ok word)
    (others : ofArguments dialect rest = .ok words) :
    ofArguments dialect (argument :: rest) = .ok (word :: words) := by
  -- two dashes alone are never told: they could be short for any of the long flags
  have inFront : argument ≠ ofString "--" := by
    rintro rfl
    cases told
  rw [ofArguments, if_neg inFront, told, others]
  rfl

namespace Reading.ComesTo

theorem cons_flags {flags : List Flag} {reading' : Reading}
    (h : reading'.ComesTo dialect rest command)
    (told : Word.ofArgument dialect argument = .ok (.flags flags))
    (acts : { reading with fileIsLast := false }.act flags = .ok reading') :
    reading.ComesTo dialect (argument :: rest) command := by
  obtain ⟨words, others, run_eq⟩ := h
  refine ⟨.flags flags :: words, Word.ofArguments_cons told others, ?_⟩
  rw [run, acts]
  exact run_eq

theorem cons_operand {text : RawText} (h : (reading.operand text).ComesTo dialect rest command)
    (told : Word.ofArgument dialect argument = .ok (.operand text)) :
    reading.ComesTo dialect (argument :: rest) command := by
  obtain ⟨words, others, run_eq⟩ := h
  exact ⟨.operand text :: words, Word.ofArguments_cons told others, run_eq⟩

theorem flag (argument : RawText) (reading : Bool → Reading) {given : Bool} {flag : Flag}
    (h : (reading given).ComesTo dialect rest command)
    (spells : Word.ofArgument dialect argument = .ok (.flags [flag]))
    (sets : { reading false with fileIsLast := false }.act [flag] = .ok (reading true)) :
    (reading false).ComesTo dialect ((if given then [argument] else []) ++ rest) command := by
  cases given with
  | false => exact h
  | true => exact h.cons_flags spells sets

end Reading.ComesTo

end Reading

namespace Request

def flagArguments (request : Request) : List RawText :=
  (if request.json then [ofString "--json"] else []) ++
    ((if request.strict then [ofString "--strict"] else []) ++
      (if request.verbose then [ofString "-v"] else []))

/-- The file as an operand, behind a separator if it could be taken for a flag. -/
def fileArguments (request : Request) : List RawText :=
  if request.file.head? ≠ some (.char '-') ∨ request.file = standardInput then [request.file]
  else [ofString "--", request.file]

def arguments (request : Request) : List RawText := request.flagArguments ++ request.fileArguments

end Request

/-- The text that a run reads from the content of a file or of standard input. -/
def readAs (file : RawText) (text : Text) : Text :=
  if file = standardInput then Text.unifyNewlines text else text

theorem length_readAs_le (file : RawText) (text : Text) :
    (readAs file text).length ≤ text.length := by
  unfold readAs
  split
  · exact Text.length_unifyNewlines_le text
  · exact Nat.le_refl _

section Source

variable {host : Host} {file : RawText}

theorem length_le_of_sourceBytes {bytes : Text.Utf8.Bytes}
    (loaded : sourceBytes host file = .ok bytes) : bytes.length ≤ maxSize := by
  unfold sourceBytes at loaded
  split at loaded
  · exact Host.length_le_of_inputContent loaded
  · exact Host.length_le_of_content loaded

variable (strictly : file = standardInput → host.decodeInput = Text.Utf8.decode)
include strictly

theorem sourceText_eq (bytes : Text.Utf8.Bytes) :
    sourceText host file bytes = (decodeBytes bytes).map (readAs file) := by
  unfold sourceText
  split
  · rename_i input
    have unified : readAs file = Text.unifyNewlines := funext fun _ => if_pos input
    rw [strictly input, unified]
    rfl
  · rename_i apart
    have same : readAs file = id := funext fun _ => if_neg apart
    rw [same]
    cases decodeBytes bytes <;> rfl

theorem readSource_of_encode {text : Text}
    (loaded : sourceBytes host file = .ok (Text.Utf8.encode text)) :
    readSource host file = .ok (readAs file text) := by
  simp only [readSource, loaded, bind, Except.bind, sourceText_eq strictly, decodeBytes_encode]
  rfl

end Source

section Run

variable {dialect : Dialect} (stamp : Text) {host : Host} {request : Request}
  {arguments : List RawText} (parsed : parse dialect arguments = .ok (.scan request))
include parsed

theorem run_of_read {text : Text} (read : readSource host request.file = .ok text) :
    run dialect stamp host arguments = dump stamp request text := by
  simp only [run, parsed, read]

end Run

/-- What a run leaves behind that has dumped the tokens of its source. -/
structure Outcome.Shows (outcome : Outcome) (stamp : Text) (request : Request)
    (tokens : List Token) : Prop where
  status : outcome.status =
    if request.strict = true ∧ ∃ token ∈ tokens, token.isIllegal = true then 1 else 0
  stdout : outcome.stdout = Dump.render request.json tokens
  silent : request.verbose = false → outcome.status ≠ 1 → outcome.stderr = []
  rejects : request.verbose = false → outcome.status = 1 →
    ∃ errors, illegalErrors tokens = .ok errors ∧
      outcome.stderr = errors.flatMap LexicalError.text ++
        logLine stamp "WARNING".toList "buttercup.cli".toList
          (Text.decimal (tokens.countP Token.isIllegal) ++ " illegal character(s) in ".toList ++
            sourceName request.file)

theorem dump_eq (stamp : Text) {request : Request} {source : Text} {tokens : List Token}
    {errors : List LexicalError} (fits : source.length ≤ maxSize)
    (read : tokenize source (sourceName request.file) = .ok tokens)
    (made : illegalErrors tokens = .ok errors) :
    ∃ log, (request.verbose = false → log = []) ∧
      dump stamp request source = .ok
        (if request.strict = true ∧ errors ≠ [] then
          ⟨1, Dump.render request.json tokens,
            log ++ rejection stamp (sourceName request.file) errors⟩
        else ⟨0, Dump.render request.json tokens, log⟩) := by
  have written := Dump.print_of_tokenize request.json read fits
  cases reading : (Lexer.ofSource source (sourceName request.file)).remaining with
  | mk result lexer =>
    have ended : result = .ok tokens := by
      rw [← read, tokenize, reading]
    refine ⟨if request.verbose then debugLog stamp lexer.events else [],
      fun quiet => by simp [quiet], ?_⟩
    simp only [dump, reading, ended, written, bind, Except.bind]
    cases strict : request.strict with
    | false => rfl
    | true =>
      simp only [if_true, made]
      cases errors with
      | nil => rfl
      | cons => rfl

/-- A source that could be read is dumped, and no error stops the run. -/
theorem exists_dump (stamp : Text) (request : Request) {source : Text}
    (fits : source.length ≤ maxSize) :
    ∃ outcome tokens, dump stamp request source = .ok outcome ∧
      tokenize source (sourceName request.file) = .ok tokens ∧
      outcome.Shows stamp request tokens := by
  have read := tokenize_eq source (sourceName request.file)
  obtain ⟨errors, made, reports⟩ := illegalErrors_of_tokenize read
  obtain ⟨log, quiet, dumped⟩ := dump_eq stamp fits read made
  have found := and_congr_right fun _ : request.strict = true => ne_nil_iff_exists_isIllegal reports
  refine ⟨_, _, dumped, read, ?_⟩
  by_cases rejected : request.strict = true ∧ errors ≠ []
  · rw [if_pos rejected]
    refine ⟨(if_pos (found.mp rejected)).symm, rfl, fun _ other => absurd rfl other, ?_⟩
    intro lenient _
    refine ⟨errors, made, ?_⟩
    rw [quiet lenient, ← length_eq_countP reports]
    rfl
  · rw [if_neg rejected]
    exact ⟨(if_neg fun other => rejected (found.mpr other)).symm, rfl,
      fun lenient _ => quiet lenient, fun _ other => absurd other Nat.zero_ne_one⟩

theorem exists_run_of_encode {dialect : Dialect} (stamp : Text) {host : Host} {request : Request}
    {arguments : List RawText} (parsed : parse dialect arguments = .ok (.scan request))
    (strictly : request.file = standardInput → host.decodeInput = Text.Utf8.decode) {text : Text}
    (loaded : sourceBytes host request.file = .ok (Text.Utf8.encode text)) :
    ∃ outcome tokens, run dialect stamp host arguments = .ok outcome ∧
      tokenize (readAs request.file text) (sourceName request.file) = .ok tokens ∧
      outcome.Shows stamp request tokens := by
  have fits : (readAs request.file text).length ≤ maxSize :=
    (length_readAs_le _ _).trans
      ((Text.Utf8.length_le_length_encode text).trans (length_le_of_sourceBytes loaded))
  obtain ⟨outcome, tokens, dumped, read, shows⟩ := exists_dump stamp request fits
  have ran := run_of_read stamp parsed (readSource_of_encode strictly loaded)
  exact ⟨outcome, tokens, ran.trans dumped, read, shows⟩

/-- A host with two files, of which only the first holds a text. -/
def twoFiles : Host where
  files name :=
    if name = [112, 46, 98, 99] then .ok (.ok ⟨[34], by decide⟩)
    else if name = [113, 46, 98, 99] then .ok (.ok ⟨[255], by decide⟩)
    else .error ⟨2, "No such file or directory".toList⟩
  input := .ok ⟨[97], by decide⟩
  decodeInput := Text.Utf8.decode

theorem tokenize_quote : tokenize ['"'] "p.bc".toList = .ok
    [⟨.illegalChar, some ['"'], ⟨"p.bc".toList, 1, 1, 0⟩⟩,
      ⟨.endOfFile, none, ⟨"p.bc".toList, 1, 2, 1⟩⟩] := by
  decide +kernel

end Cli

end PriorityLexer
