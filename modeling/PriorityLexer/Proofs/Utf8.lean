import Mathlib.Order.Bounds.Basic
import Mathlib.Tactic.Ring
import PriorityLexer.Text.Utf8

namespace PriorityLexer.Text.Utf8

/-- The first byte of a sequence begins with a mark that tells the number of trailing bytes. -/
def mark : (trailing : Nat) → Nat
  | 0 => 0
  | 1 => 0xC0
  | 2 => 0xE0
  | 3 => 0xF0
  | 4 => 0xF8
  | _ => 0xFC

/-- The code points below this one can be spelled with so many trailing bytes. -/
def room : (trailing : Nat) → Nat
  | 0 => 0x80
  | 1 => 0x800
  | 2 => 0x10000
  | 3 => 0x200000
  | 4 => 0x4000000
  | _ => 0x80000000

def least : (trailing : Nat) → Nat
  | 0 => 0
  | trailing + 1 => room trailing

/-- The trailing bytes hold six bits each. -/
def tails : (trailing code : Nat) → Bytes
  | 0, _ => []
  | n + 1, code => UInt8.ofNat (0x80 + code / 64 ^ n % 64) :: tails n code

/-- A number in the layout of UTF-8, whether or not it may be spelled like that. -/
def spelled (trailing code : Nat) : Bytes :=
  UInt8.ofNat (mark trailing + code / 64 ^ trailing) :: tails trailing code

/-- The number is a scalar value and has no shorter spelling. -/
structure IsSpelling (trailing code : Nat) : Prop where
  shortest : least trailing ≤ code
  fits : code < room trailing
  scalar : code.isValidChar

section Spelling

variable {trailing trailing' code code' : Nat}

theorem IsSpelling.trailing_le (h : IsSpelling trailing code) : trailing ≤ 3 := by
  have shortest := h.shortest
  have scalar := h.scalar
  unfold Nat.isValidChar at scalar
  match trailing with
  | 0 | 1 | 2 | 3 => decide
  | 4 | 5 | _ + 6 =>
    simp only [least, room] at shortest
    omega

theorem room_le_least (less : trailing < trailing') (le : trailing' ≤ 3) :
    room trailing ≤ least trailing' := by
  have table : ∀ n ≤ 3, ∀ m < n, room m ≤ least n := by decide
  exact table trailing' le trailing less

theorem IsSpelling.unique (h : IsSpelling trailing code) (h' : IsSpelling trailing' code) :
    trailing = trailing' := by
  have shortest := h.shortest
  have fits := h.fits
  have shortest' := h'.shortest
  have fits' := h'.fits
  rcases Nat.lt_trichotomy trailing trailing' with less | same | more
  · have le := room_le_least less h'.trailing_le
    omega
  · exact same
  · have le := room_le_least more h.trailing_le
    omega

theorem length_tails (trailing code : Nat) : (tails trailing code).length = trailing := by
  induction trailing with
  | zero => rfl
  | succ n ih => rw [tails, List.length_cons, ih]

theorem exists_utf8EncodeChar (c : Char) :
    ∃ trailing, IsSpelling trailing c.toNat ∧
      String.utf8EncodeChar c = spelled trailing c.toNat := by
  have scalar : c.toNat.isValidChar := c.valid
  have bound : c.toNat < 0x110000 := by
    unfold Nat.isValidChar at scalar
    omega
  unfold String.utf8EncodeChar
  show ∃ trailing, IsSpelling trailing c.toNat ∧
    (if c.toNat ≤ 0x7F then _ else if c.toNat ≤ 0x7FF then _ else if c.toNat ≤ 0xFFFF then _
      else _) = _
  split_ifs with one two three
  · exact ⟨0, ⟨Nat.zero_le _, Nat.lt_succ_of_le one, scalar⟩, by simp [spelled, mark, tails]⟩
  · have front : c.toNat / 64 % 0x20 = c.toNat / 64 := by omega
    refine ⟨1, ⟨by simp only [least, room]; omega, Nat.lt_succ_of_le two, scalar⟩, ?_⟩
    simp [spelled, mark, tails, front, Nat.add_comm]
  · have front : c.toNat / 4096 % 0x10 = c.toNat / 4096 := by omega
    refine ⟨2, ⟨by simp only [least, room]; omega, Nat.lt_succ_of_le three, scalar⟩, ?_⟩
    simp [spelled, mark, tails, front, Nat.add_comm]
  · have front : c.toNat / 262144 % 0x08 = c.toNat / 262144 := by omega
    refine ⟨3, ⟨by simp only [least, room]; omega, by simp only [room]; omega, scalar⟩, ?_⟩
    simp [spelled, mark, tails, front, Nat.add_comm]

theorem toNat_ofNat (scalar : code.isValidChar) : (Char.ofNat code).toNat = code := by
  rw [Char.ofNat, dif_pos scalar]
  rfl

theorem IsSpelling.utf8EncodeChar_eq (h : IsSpelling trailing code) :
    String.utf8EncodeChar (Char.ofNat code) = spelled trailing code := by
  obtain ⟨trailing', spelling, eq⟩ := exists_utf8EncodeChar (Char.ofNat code)
  rw [toNat_ofNat h.scalar] at spelling eq
  rw [eq, h.unique spelling]

end Spelling

section Continuation

variable {n low high code : Nat}

/-- The next of the trailing bytes of the code point, if there is one, lies in the range. -/
def Admits (low high n code : Nat) : Prop :=
  ∀ k, n = k + 1 → low ≤ 0x80 + code / 64 ^ k % 64 ∧ 0x80 + code / 64 ^ k % 64 ≤ high

theorem admits_tails (n code : Nat) : Admits 0x80 0xBF n code := by
  intro k _
  omega

/-- Reading the trailing bytes of a code point puts its lower bits behind those read before. -/
theorem continuation_tails (admits : Admits low high n code) (bits seen : Nat) (left : Bytes) :
    continuation n low high bits seen (tails n code ++ left) =
      .ok (bits * 64 ^ n + code % 64 ^ n) := by
  induction n generalizing low high bits seen with
  | zero => simp [continuation, Nat.mod_one]
  | succ n ih =>
    have range := admits n rfl
    have small : (UInt8.ofNat (0x80 + code / 64 ^ n % 64)).toNat = 0x80 + code / 64 ^ n % 64 :=
      UInt8.toNat_ofNat_of_lt' (by simp only [UInt8.size]; omega)
    rw [tails, List.cons_append, continuation, small, if_pos range, ih (admits_tails n code),
      Nat.add_sub_cancel_left, Nat.mod_pow_succ, Nat.pow_succ]
    congr 1
    ring

theorem of_continuation {bits seen : Nat} {bytes : Bytes} (lower : 0x80 ≤ low)
    (upper : high ≤ 0xBF) (h : continuation n low high bits seen bytes = .ok code) :
    Admits low high n code ∧ code / 64 ^ n = bits ∧ ∃ left, bytes = tails n code ++ left := by
  induction n generalizing low high bits seen bytes with
  | zero =>
    cases h
    exact ⟨fun k absurd => by omega, by simp, bytes, rfl⟩
  | succ n ih =>
    cases bytes with
    | nil => cases h
    | cons byte rest =>
      rw [continuation] at h
      split at h
      · rename_i range
        obtain ⟨-, front, left, rfl⟩ := ih (Nat.le_refl _) (Nat.le_refl _) h
        have whole : 0x80 + code / 64 ^ n % 64 = byte.toNat := by omega
        refine ⟨?_, ?_, left, ?_⟩
        · intro k eq
          obtain rfl : n = k := by omega
          rwa [whole]
        · rw [Nat.pow_succ, ← Nat.div_div_eq_div_mul, front]
          omega
        · rw [tails, whole, UInt8.ofNat_toNat]
          rfl
      · cases h

end Continuation

section Lead

variable {byte trailing code : Nat} {lead : Lead}

theorem IsSpelling.exists_lead (h : IsSpelling trailing code) :
    ∃ low high, lead? (mark trailing + code / 64 ^ trailing) =
        some ⟨trailing, code / 64 ^ trailing, low, high⟩ ∧
      Admits low high trailing code ∧ mark trailing + code / 64 ^ trailing < 256 := by
  have le := h.trailing_le
  obtain ⟨shortest, fits, scalar⟩ := h
  unfold Nat.isValidChar at scalar
  unfold lead?
  match trailing, le with
  | 0, _ =>
    simp only [room, mark, Nat.pow_zero, Nat.div_one, Nat.zero_add] at fits ⊢
    rw [if_pos fits]
    exact ⟨_, _, rfl, fun k absurd => by omega, by omega⟩
  | 1, _ =>
    simp only [least, room, mark, Nat.pow_one] at shortest fits ⊢
    rw [if_neg (by omega), if_neg (by omega), if_pos (by omega), Nat.add_sub_cancel_left]
    exact ⟨_, _, rfl, admits_tails _ _, by omega⟩
  | 2, _ =>
    simp only [least, room, mark, Nat.reducePow] at shortest fits ⊢
    rw [if_neg (by omega), if_neg (by omega), if_neg (by omega), if_pos (by omega),
      Nat.add_sub_cancel_left]
    refine ⟨_, _, rfl, ?_, by omega⟩
    intro k eq
    obtain rfl : k = 1 := by omega
    split_ifs <;> omega
  | 3, _ =>
    simp only [least, room, mark, Nat.reducePow] at shortest fits ⊢
    rw [if_neg (by omega), if_neg (by omega), if_neg (by omega), if_neg (by omega),
      if_pos (by omega), Nat.add_sub_cancel_left]
    refine ⟨_, _, rfl, ?_, by omega⟩
    intro k eq
    obtain rfl : k = 2 := by omega
    split_ifs <;> omega

theorem lead?_cases (h : lead? byte = some lead) :
    (byte < 0x80 ∧ lead = ⟨0, byte, 0x80, 0xBF⟩) ∨
    (0xC2 ≤ byte ∧ byte < 0xE0 ∧ lead = ⟨1, byte - 0xC0, 0x80, 0xBF⟩) ∨
    (0xE0 ≤ byte ∧ byte < 0xF0 ∧ lead = ⟨2, byte - 0xE0, if byte = 0xE0 then 0xA0 else 0x80,
      if byte = 0xED then 0x9F else 0xBF⟩) ∨
    (0xF0 ≤ byte ∧ byte < 0xF5 ∧ lead = ⟨3, byte - 0xF0, if byte = 0xF0 then 0x90 else 0x80,
      if byte = 0xF4 then 0x8F else 0xBF⟩) := by
  unfold lead? at h
  grind

theorem lead?_within (h : lead? byte = some lead) :
    byte = mark lead.trailing + lead.bits ∧ 0x80 ≤ lead.low ∧ lead.high ≤ 0xBF := by
  rcases lead?_cases h with ⟨_, rfl⟩ | ⟨_, _, rfl⟩ | ⟨_, _, rfl⟩ | ⟨_, _, rfl⟩
  · exact ⟨(Nat.zero_add byte).symm, Nat.le_refl _, Nat.le_refl _⟩
  · refine ⟨?_, Nat.le_refl _, Nat.le_refl _⟩
    simp only [mark]
    omega
  · refine ⟨?_, ?_, ?_⟩
    · simp only [mark]
      omega
    · dsimp only
      split <;> omega
    · dsimp only
      split <;> omega
  · refine ⟨?_, ?_, ?_⟩
    · simp only [mark]
      omega
    · dsimp only
      split <;> omega
    · dsimp only
      split <;> omega

/-- The narrower ranges of the next byte leave only code points that may be spelled like that. -/
theorem isSpelling_of_lead? (h : lead? byte = some lead)
    (front : code / 64 ^ lead.trailing = lead.bits)
    (admits : Admits lead.low lead.high lead.trailing code) : IsSpelling lead.trailing code := by
  rcases lead?_cases h with ⟨below, rfl⟩ | ⟨above, below, rfl⟩ | ⟨above, below, rfl⟩ |
    ⟨above, below, rfl⟩
  · simp only [Nat.pow_zero, Nat.div_one] at front
    subst front
    exact ⟨Nat.zero_le _, below, .inl (by omega)⟩
  · simp only [Nat.pow_one] at front
    refine ⟨?_, ?_, .inl (by omega)⟩
    · simp only [least, room]
      omega
    · simp only [room]
      omega
  · have second := admits 1 rfl
    simp only [Nat.reducePow] at front second
    refine ⟨?_, ?_, ?_⟩
    · simp only [least, room]
      split_ifs at second <;> omega
    · simp only [room]
      omega
    · unfold Nat.isValidChar
      split_ifs at second <;> omega
  · have second := admits 2 rfl
    simp only [Nat.reducePow] at front second
    refine ⟨?_, ?_, ?_⟩
    · simp only [least, room]
      split_ifs at second <;> omega
    · simp only [room]
      omega
    · unfold Nat.isValidChar
      split_ifs at second <;> omega

end Lead

section CodePoint

variable {first : UInt8} {rest left : Bytes} {trailing code : Nat}

theorem codePoint_spelled (h : IsSpelling trailing code)
    (bytes : first :: rest = spelled trailing code ++ left) :
    codePoint first.toNat rest = .ok (code, trailing) := by
  rw [spelled, List.cons_append] at bytes
  obtain ⟨rfl, rfl⟩ := List.cons.inj bytes
  obtain ⟨low, high, lead, admits, byte⟩ := h.exists_lead
  rw [codePoint, UInt8.toNat_ofNat_of_lt' byte, lead]
  dsimp only
  rw [continuation_tails admits, Nat.div_add_mod']
  rfl

theorem of_codePoint (h : codePoint first.toNat rest = .ok (code, trailing)) :
    IsSpelling trailing code ∧ ∃ left, first :: rest = spelled trailing code ++ left := by
  unfold codePoint at h
  split at h
  · cases h
  · rename_i lead found
    obtain ⟨byte, lower, upper⟩ := lead?_within found
    cases further : continuation lead.trailing lead.low lead.high lead.bits 1 rest with
    | error fault =>
      rw [further] at h
      cases h
    | ok found_code =>
      rw [further] at h
      cases h
      obtain ⟨admits, front, left, rfl⟩ := of_continuation lower upper further
      refine ⟨isSpelling_of_lead? found front admits, left, ?_⟩
      rw [spelled, front, ← byte, UInt8.ofNat_toNat]
      rfl

end CodePoint

@[simp] theorem encode_nil : encode [] = [] := rfl

@[simp] theorem encode_cons (c : Char) (text : Text) :
    encode (c :: text) = String.utf8EncodeChar c ++ encode text := rfl

@[simp] theorem decodeFrom_nil (position : Nat) : decodeFrom position [] = .ok [] := by
  rw [decodeFrom]

theorem decodeFrom_char (position : Nat) (c : Char) (left : Bytes) :
    decodeFrom position (String.utf8EncodeChar c ++ left) =
      (decodeFrom (position + (String.utf8EncodeChar c).length) left).map (c :: ·) := by
  obtain ⟨trailing, spelling, eq⟩ := exists_utf8EncodeChar c
  have length : (spelled trailing c.toNat).length = 1 + trailing := by
    rw [spelled, List.length_cons, length_tails, Nat.add_comm]
  have behind : (tails trailing c.toNat ++ left).drop trailing = left :=
    List.drop_left' (length_tails trailing c.toNat)
  have read : codePoint (UInt8.ofNat (mark trailing + c.toNat / 64 ^ trailing)).toNat
      (tails trailing c.toNat ++ left) = .ok (c.toNat, trailing) :=
    codePoint_spelled spelling rfl
  rw [eq, length, spelled, List.cons_append, decodeFrom, read]
  dsimp only
  rw [behind, Nat.add_assoc, Char.ofNat_toNat]

/-- The encoding of a text is read back, and what stands behind it is decoded from there on. -/
theorem decodeFrom_encode_append (position : Nat) (text : Text) (left : Bytes) :
    decodeFrom position (encode text ++ left) =
      (decodeFrom (position + (encode text).length) left).map (text ++ ·) := by
  induction text generalizing position with
  | nil =>
    rw [encode_nil, List.nil_append, List.length_nil, Nat.add_zero]
    cases decodeFrom position left <;> rfl
  | cons c text ih =>
    rw [encode_cons, List.append_assoc, decodeFrom_char, ih, List.length_append, Nat.add_assoc]
    generalize decodeFrom (position + _) left = decoded
    cases decoded <;> rfl

theorem decode_encode (text : Text) : decode (encode text) = .ok text := by
  have whole := decodeFrom_encode_append 0 text []
  rw [List.append_nil, decodeFrom_nil, Except.map, List.append_nil] at whole
  exact whole

theorem encode_injective {text text' : Text} (h : encode text = encode text') : text = text' := by
  apply Except.ok.inj
  rw [← decode_encode text, h, decode_encode]

/-- Bytes are left, but they do not begin with the encoding of a character. -/
def Stuck (bytes : Bytes) : Prop :=
  bytes ≠ [] ∧ ∀ c left, bytes ≠ String.utf8EncodeChar c ++ left

theorem Stuck.exists_decodeFrom {bytes : Bytes} (h : Stuck bytes) (position : Nat) :
    ∃ error, decodeFrom position bytes = .error error ∧ error.position = position := by
  obtain ⟨first, rest, rfl⟩ := List.exists_cons_of_ne_nil h.1
  rw [decodeFrom]
  cases found : codePoint first.toNat rest with
  | error fault => exact ⟨_, rfl, rfl⟩
  | ok result =>
    obtain ⟨code, trailing⟩ := result
    obtain ⟨spelling, left, eq⟩ := of_codePoint found
    rw [← spelling.utf8EncodeChar_eq] at eq
    exact absurd eq (h.2 _ left)

/-- Bytes are the encoding of a text up to where they end or are stuck. -/
theorem exists_text_before (bytes : Bytes) :
    ∃ text left, bytes = encode text ++ left ∧ (left = [] ∨ Stuck left) := by
  -- by length, because what is left behind the first character is shorter
  induction hn : bytes.length using Nat.strongRecOn generalizing bytes with
  | ind n ih =>
    by_cases ends : bytes = [] ∨ Stuck bytes
    · exact ⟨[], bytes, rfl, ends⟩
    · have further : ∃ c left, bytes = String.utf8EncodeChar c ++ left := by
        by_contra absent
        simp only [not_exists] at absent
        exact ends (or_iff_not_imp_left.2 fun more => ⟨more, absent⟩)
      obtain ⟨c, left, rfl⟩ := further
      have positive : 0 < (String.utf8EncodeChar c).length := by
        rw [String.length_utf8EncodeChar]
        exact c.utf8Size_pos
      rw [List.length_append] at hn
      obtain ⟨text, rest, rfl, ends'⟩ := ih left.length (by omega) left rfl
      exact ⟨c :: text, rest, by rw [encode_cons, List.append_assoc], ends'⟩

theorem Stuck.exists_decode {left : Bytes} (h : Stuck left) (text : Text) :
    ∃ error, decode (encode text ++ left) = .error error ∧
      error.position = (encode text).length := by
  obtain ⟨error, failed, position⟩ := h.exists_decodeFrom (0 + (encode text).length)
  rw [Nat.zero_add] at position
  refine ⟨error, ?_, position⟩
  rw [decode, decodeFrom_encode_append, failed]
  rfl

theorem le_position_of_decodeFrom {position : Nat} {bytes : Bytes} {error : DecodeError}
    (failed : decodeFrom position bytes = .error error) : position ≤ error.position := by
  obtain ⟨text, left, rfl, rfl | stuck⟩ := exists_text_before bytes
  · rw [decodeFrom_encode_append, decodeFrom_nil] at failed
    cases failed
  · obtain ⟨error', failed', place⟩ := stuck.exists_decodeFrom (position + (encode text).length)
    rw [decodeFrom_encode_append, failed'] at failed
    cases failed
    omega

/-- Decoding fails exactly for bytes that are the encoding of no text, at the end of their longest
prefix that is one. -/
theorem exists_decode_error {bytes : Bytes} (invalid : ∀ text, encode text ≠ bytes) :
    ∃ error, decode bytes = .error error ∧
      IsGreatest {n | n ≤ bytes.length ∧ ∃ text, encode text = bytes.take n} error.position := by
  obtain ⟨text, left, rfl, rfl | stuck⟩ := exists_text_before bytes
  · exact absurd (List.append_nil _).symm (invalid text)
  · obtain ⟨error, failed, position⟩ := stuck.exists_decode text
    refine ⟨error, failed, ?_, ?_⟩
    · rw [position]
      exact ⟨by simp, text, List.take_left.symm⟩
    · rintro n ⟨inside, text', valid⟩
      -- what a longer valid prefix leaves would have to fail behind its end
      have length := congrArg List.length valid
      rw [List.length_take, Nat.min_eq_left inside] at length
      rw [← List.take_append_drop n (encode text ++ left), ← valid, decode,
        decodeFrom_encode_append, Nat.zero_add, length] at failed
      cases further : decodeFrom n ((encode text ++ left).drop n) with
      | ok text =>
        rw [further] at failed
        cases failed
      | error error' =>
        rw [further] at failed
        cases failed
        exact le_position_of_decodeFrom further

section Malformed

variable {trailing trailing' code code' : Nat} {rest rest' : Bytes}

theorem first_bounds (le : trailing ≤ 5) (fits : code < room trailing) :
    mark trailing ≤ mark trailing + code / 64 ^ trailing ∧
      mark trailing + code / 64 ^ trailing < 256 ∧
      (trailing = 0 → mark trailing + code / 64 ^ trailing < 0x80) ∧
      (trailing < 5 → mark trailing + code / 64 ^ trailing < mark (trailing + 1)) := by
  match trailing, le with
  | 0, _ | 1, _ | 2, _ | 3, _ | 4, _ | 5, _ =>
    simp only [room, mark, Nat.reducePow, Nat.pow_zero, Nat.pow_one] at fits ⊢
    omega

theorem mark_mono (less : trailing < trailing') (le : trailing' ≤ 5) :
    mark (trailing + 1) ≤ mark trailing' := by
  have table : ∀ n ≤ 5, ∀ m < n, mark (m + 1) ≤ mark n := by decide
  exact table trailing' le trailing less

theorem trailing_eq_of_first (le : trailing ≤ 5) (le' : trailing' ≤ 5) (fits : code < room trailing)
    (fits' : code' < room trailing')
    (same : mark trailing + code / 64 ^ trailing = mark trailing' + code' / 64 ^ trailing') :
    trailing = trailing' := by
  obtain ⟨lower, -, -, upper⟩ := first_bounds le fits
  obtain ⟨lower', -, -, upper'⟩ := first_bounds le' fits'
  rcases Nat.lt_trichotomy trailing trailing' with less | eq | more
  · have between := mark_mono less le'
    have below := upper (by omega)
    omega
  · exact eq
  · have between := mark_mono more le
    have below := upper' (by omega)
    omega

theorem spelled_inj (le : trailing ≤ 5) (le' : trailing' ≤ 5) (fits : code < room trailing)
    (fits' : code' < room trailing')
    (same : spelled trailing code ++ rest = spelled trailing' code' ++ rest') :
    trailing = trailing' ∧ code = code' ∧ rest = rest' := by
  simp only [spelled, List.cons_append, List.cons.injEq] at same
  obtain ⟨first, others⟩ := same
  have front : mark trailing + code / 64 ^ trailing = mark trailing' + code' / 64 ^ trailing' := by
    have bytes := congrArg UInt8.toNat first
    rwa [UInt8.toNat_ofNat_of_lt' (first_bounds le fits).2.1,
      UInt8.toNat_ofNat_of_lt' (first_bounds le' fits').2.1] at bytes
  obtain rfl := trailing_eq_of_first le le' fits fits' front
  obtain ⟨same_tails, rfl⟩ :=
    List.append_inj others (by rw [length_tails, length_tails])
  have read := continuation_tails (admits_tails trailing code) 0 0 []
  rw [same_tails, continuation_tails (admits_tails trailing code'), Except.ok.injEq] at read
  refine ⟨rfl, ?_, rfl⟩
  rw [← Nat.div_add_mod code (64 ^ trailing), ← Nat.div_add_mod code' (64 ^ trailing)]
  have heads : code / 64 ^ trailing = code' / 64 ^ trailing := by omega
  have lows : code % 64 ^ trailing = code' % 64 ^ trailing := by omega
  rw [heads, lows]

/-- The kinds of bytes that UTF-8 leaves out. -/
inductive Malformed : Bytes → Prop
  /-- A number that could be spelled with fewer bytes. -/
  | overlong {trailing code : Nat} {rest : Bytes} (le : trailing ≤ 5)
      (longer : code < least trailing) : Malformed (spelled trailing code ++ rest)
  | surrogate {code : Nat} {rest : Bytes} (first : 0xD800 ≤ code) (last : code ≤ 0xDFFF) :
      Malformed (spelled 2 code ++ rest)
  /-- A number that is too large for a code point. -/
  | beyond {trailing code : Nat} {rest : Bytes} (le : trailing ≤ 5) (beyond : 0x10FFFF < code)
      (fits : code < room trailing) : Malformed (spelled trailing code ++ rest)
  /-- A trailing byte that no first byte has announced. -/
  | stray {byte : UInt8} {rest : Bytes} (first : 0x80 ≤ byte.toNat) (last : byte.toNat ≤ 0xBF) :
      Malformed (byte :: rest)
  /-- The encoding of a character that breaks off. -/
  | cutOff {c : Char} {bytes : Bytes} (begun : bytes ≠ []) (front : bytes <+: String.utf8EncodeChar c)
      (short : bytes ≠ String.utf8EncodeChar c) : Malformed bytes

theorem least_le_room (trailing : Nat) : least trailing ≤ room trailing := by
  match trailing with
  | 0 | 1 | 2 | 3 | 4 | 5 | _ + 6 => simp only [least, room]; omega

theorem IsSpelling.trailing_le_five (h : IsSpelling trailing code) : trailing ≤ 5 :=
  Nat.le_trans h.trailing_le (by decide)

theorem stuck_of_not_isSpelling (le : trailing ≤ 5) (fits : code < room trailing)
    (unfit : ¬ IsSpelling trailing code) : Stuck (spelled trailing code ++ rest) := by
  refine ⟨List.cons_ne_nil _ _, ?_⟩
  intro c left same
  obtain ⟨trailing', spelling, eq⟩ := exists_utf8EncodeChar c
  rw [eq] at same
  obtain ⟨rfl, rfl, -⟩ := spelled_inj le spelling.trailing_le_five fits spelling.fits same
  exact unfit spelling

theorem Malformed.stuck {bytes : Bytes} (h : Malformed bytes) : Stuck bytes := by
  cases h with
  | overlong le longer =>
    apply stuck_of_not_isSpelling le (Nat.lt_of_lt_of_le longer (least_le_room _))
    exact fun spelling => absurd spelling.shortest (Nat.not_le_of_lt longer)
  | surrogate first last =>
    apply stuck_of_not_isSpelling (by decide) (by simp only [room]; omega)
    intro spelling
    have scalar := spelling.scalar
    unfold Nat.isValidChar at scalar
    omega
  | beyond le beyond fits =>
    apply stuck_of_not_isSpelling le fits
    intro spelling
    have scalar := spelling.scalar
    unfold Nat.isValidChar at scalar
    omega
  | stray first last =>
    refine ⟨List.cons_ne_nil _ _, ?_⟩
    intro c left same
    obtain ⟨trailing, spelling, eq⟩ := exists_utf8EncodeChar c
    have le := spelling.trailing_le_five
    obtain ⟨lower, small, single, -⟩ := first_bounds le spelling.fits
    rw [eq, spelled, List.cons_append] at same
    obtain ⟨rfl, -⟩ := List.cons.inj same
    rw [UInt8.toNat_ofNat_of_lt' small] at first last
    by_cases one : trailing = 0
    · have below := single one
      omega
    · have marked : 0xC0 ≤ mark trailing := mark_mono (Nat.pos_of_ne_zero one) le
      omega
  | @cutOff c bytes begun front short =>
    refine ⟨begun, ?_⟩
    rintro c' left rfl
    obtain ⟨more, whole⟩ := front
    obtain ⟨trailing, spelling, eq⟩ := exists_utf8EncodeChar c
    obtain ⟨trailing', spelling', eq'⟩ := exists_utf8EncodeChar c'
    have same : spelled trailing' c'.toNat ++ (left ++ more) = spelled trailing c.toNat ++ [] := by
      rw [List.append_nil, ← eq, ← eq', ← whole, List.append_assoc]
    obtain ⟨rfl, code, nothing⟩ := spelled_inj spelling'.trailing_le_five
      spelling.trailing_le_five spelling'.fits spelling.fits same
    obtain ⟨rfl, -⟩ := List.append_eq_nil_iff.1 nothing
    rw [List.append_nil, eq, eq', code] at short
    exact short rfl

end Malformed

end PriorityLexer.Text.Utf8
