import PriorityLexer.Proofs.StrictReading

namespace PriorityLexer

section File

variable {host : Host} {path : RawText} {bytes : Text.Utf8.Bytes}

theorem tokenizeFile_of_undecodable (found : host.content path = .ok bytes)
    {error : Text.Utf8.DecodeError} (failed : Text.Utf8.decode bytes = .error error)
    (strict : Bool) : tokenizeFile host path strict = .error (.undecodable error) := by
  simp only [tokenizeFile, found, bind, Except.bind, decodeBytes_of_error failed]

/-- Reading a file is exact, whatever host it is on. If its bytes encode a text, which is then the
only one, the file is read as this text; else the reading fails at the end of the longest prefix
that encodes one. What is not in its shortest form, no scalar value, out of place or cut off is
rejected where it begins. -/
theorem tokenizeFile_is_exact (found : host.content path = .ok bytes) (strict : Bool) :
    (∀ text, Text.Utf8.encode text = bytes →
      tokenizeFile host path strict = tokenizeText text path.shown strict ∧
        ∀ text', Text.Utf8.encode text' = bytes → text' = text) ∧
    ((∀ text, Text.Utf8.encode text ≠ bytes) →
      ∃ error, tokenizeFile host path strict = .error (.undecodable error) ∧
        IsGreatest {n | n ≤ bytes.length ∧ ∃ text, Text.Utf8.encode text = bytes.take n}
          error.position) ∧
    ∀ text rest, Text.Utf8.Malformed rest → bytes = Text.Utf8.encode text ++ rest →
      (∀ text', Text.Utf8.encode text' ≠ bytes) ∧
        ∃ error, tokenizeFile host path strict = .error (.undecodable error) ∧
          error.position = (Text.Utf8.encode text).length := by
  refine ⟨?_, ?_, ?_⟩
  · intro text encoded
    refine ⟨tokenizeFile_of_encode (encoded ▸ found) strict, ?_⟩
    intro text' encoded'
    exact Text.Utf8.encode_injective (encoded'.trans encoded.symm)
  · intro invalid
    obtain ⟨error, failed, longest⟩ := Text.Utf8.exists_decode_error invalid
    exact ⟨error, tokenizeFile_of_undecodable found failed strict, longest⟩
  · intro text rest malformed split
    obtain ⟨error, failed, position⟩ := malformed.stuck.exists_decode text
    rw [← split] at failed
    refine ⟨?_, error, tokenizeFile_of_undecodable found failed strict, position⟩
    intro text' encoded
    rw [← encoded, Text.Utf8.decode_encode] at failed
    cases failed

end File

/-- A byte order mark and a carriage return are read as they stand, here in a file under an absolute
path. A surrogate behind three bytes of text is rejected there. -/
theorem tokenizeFile_is_exact_on_marks :
    let marked := [0xEF, 0xBB, 0xBF, 0x61, 0x0D, 0x0A]
    let broken := [0x61, 0x0D, 0x0A, 0xED, 0xA0, 0x80, 0x62]
    let host : Host := {
      files := fun name =>
        if name = [0x2F, 0x70] then .ok (.ok ⟨marked, by decide⟩)
        else .ok (.ok ⟨broken, by decide⟩)
      input := .ok ⟨[], by decide⟩
      decodeInput := Text.Utf8.decode }
    host.content (.ofString "/p") = .ok marked ∧
      host.content (.ofString "../q") = .ok broken ∧
      tokenizeFile host (.ofString "/p") true =
        tokenizeText ['\uFEFF', 'a', '\r', '\n'] "/p".toList true ∧
      ∃ error, tokenizeFile host (.ofString "../q") false = .error (.undecodable error) ∧
        error.position = 3 := by
  intro marked broken host
  have found : host.content (.ofString "/p") = .ok marked := by decide +kernel
  have found' : host.content (.ofString "../q") = .ok broken := by decide +kernel
  have surrogate : Text.Utf8.Malformed (Text.Utf8.spelled 2 0xD800 ++ [0x62]) :=
    .surrogate (by decide) (by decide)
  obtain ⟨exact_text, -, -⟩ := tokenizeFile_is_exact found true
  obtain ⟨-, -, rejected⟩ := tokenizeFile_is_exact found' false
  have read := (exact_text ['\uFEFF', 'a', '\r', '\n'] (by decide +kernel)).1
  rw [RawText.ofString, RawText.shown_ofText] at read
  refine ⟨found, found', read, ?_⟩
  exact (rejected ['a', '\r', '\n'] _ surrogate (by decide +kernel)).2

end PriorityLexer
