import PriorityLexer.Text

namespace PriorityLexer

inductive Json where
  | null
  | bool (value : Bool)
  /-- The digits times this power of ten. -/
  | number (digits exponent : Int)
  | string (text : Text)
  | array (elements : List Json)
  | object (members : List (Text × Json))
deriving Repr

namespace Json

inductive Symbol where
  | openArray
  | closeArray
  | openObject
  | closeObject
  | comma
  | colon
  | null
  | bool (value : Bool)
  | number (digits exponent : Int)
  | string (text : Text)
deriving DecidableEq, Repr

mutual

/-- The symbols that a value is written with. -/
def symbols : Json → List Symbol
  | null => [.null]
  | bool value => [.bool value]
  | number digits exponent => [.number digits exponent]
  | string text => [.string text]
  | array [] => [.openArray, .closeArray]
  | array (first :: others) => .openArray :: first.symbols ++ furtherElements others
  | object [] => [.openObject, .closeObject]
  | object ((name, first) :: others) =>
    .openObject :: .string name :: .colon :: first.symbols ++ furtherMembers others

def furtherElements : List Json → List Symbol
  | [] => [.closeArray]
  | value :: others => .comma :: value.symbols ++ furtherElements others

def furtherMembers : List (Text × Json) → List Symbol
  | [] => [.closeObject]
  | (name, value) :: others =>
    .comma :: .string name :: .colon :: value.symbols ++ furtherMembers others

end

def memberSymbols (member : Text × Json) : List Symbol :=
  .string member.1 :: .colon :: member.2.symbols

theorem symbols_array (elements : List Json) :
    (array elements).symbols =
      .openArray :: [.comma].intercalate (elements.map symbols) ++ [.closeArray] := by
  cases elements with
  | nil => rw [symbols]; rfl
  | cons first others =>
    have further : first.symbols ++ furtherElements others =
        [.comma].intercalate ((first :: others).map symbols) ++ [.closeArray] := by
      induction others generalizing first with
      | nil => simp [furtherElements]
      | cons next others ih =>
        rw [furtherElements, List.cons_append, ih next]
        simp [List.intercalate_cons_cons]
    rw [symbols, List.cons_append, further]
    rfl

theorem symbols_object (members : List (Text × Json)) :
    (object members).symbols =
      .openObject :: [.comma].intercalate (members.map memberSymbols) ++ [.closeObject] := by
  cases members with
  | nil => rw [symbols]; rfl
  | cons first others =>
    have further : memberSymbols first ++ furtherMembers others =
        [.comma].intercalate ((first :: others).map memberSymbols) ++ [.closeObject] := by
      induction others generalizing first with
      | nil => simp [furtherMembers]
      | cons next others ih =>
        have tail := ih next
        rw [memberSymbols, List.cons_append, List.cons_append] at tail
        rw [furtherMembers, List.cons_append, List.cons_append, List.cons_append, tail]
        simp [List.intercalate_cons_cons]
    rw [symbols, List.cons_append, List.cons_append, List.cons_append, ← List.cons_append,
      ← List.cons_append]
    exact congrArg (Symbol.openObject :: ·) further

/-- What a value that is being read belongs to: an array behind some elements, or the last name of
an object behind some members. -/
inductive Frame where
  | element (before : List Json)
  | member (before : List (Text × Json)) (name : Text)
deriving Repr

/-- What has been read and what may follow. -/
inductive Progress where
  | expectValue (stack : List Frame)
  /-- An array has just been opened. -/
  | opensArray (stack : List Frame)
  /-- An object has just been opened. -/
  | opensObject (stack : List Frame)
  | expectName (before : List (Text × Json)) (stack : List Frame)
  | expectColon (before : List (Text × Json)) (name : Text) (stack : List Frame)
  /-- A value has been read. -/
  | done (value : Json) (stack : List Frame)
deriving Repr

namespace Progress

def begin (stack : List Frame) : Symbol → Option Progress
  | .openArray => some (opensArray stack)
  | .openObject => some (opensObject stack)
  | .null => some (done .null stack)
  | .bool value => some (done (.bool value) stack)
  | .number digits exponent => some (done (.number digits exponent) stack)
  | .string text => some (done (.string text) stack)
  | _ => none

def step : Progress → Symbol → Option Progress
  | expectValue stack, symbol => begin stack symbol
  | opensArray stack, .closeArray => some (done (.array []) stack)
  | opensArray stack, symbol => begin (.element [] :: stack) symbol
  | opensObject stack, .closeObject => some (done (.object []) stack)
  | opensObject stack, .string name => some (expectColon [] name stack)
  | expectName before stack, .string name => some (expectColon before name stack)
  | expectColon before name stack, .colon => some (expectValue (.member before name :: stack))
  | done value (.element before :: stack), .comma =>
    some (expectValue (.element (before ++ [value]) :: stack))
  | done value (.element before :: stack), .closeArray =>
    some (done (.array (before ++ [value])) stack)
  | done value (.member before name :: stack), .comma =>
    some (expectName (before ++ [(name, value)]) stack)
  | done value (.member before name :: stack), .closeObject =>
    some (done (.object (before ++ [(name, value)])) stack)
  | _, _ => none

def run (progress : Progress) (symbols : List Symbol) : Option Progress :=
  symbols.foldlM step progress

/-- The value that has been read, if nothing is open any more. -/
def result? : Progress → Option Json
  | done value [] => some value
  | _ => none

end Progress

def parse? (symbols : List Symbol) : Option Json :=
  ((Progress.expectValue []).run symbols).bind Progress.result?

namespace Progress

theorem run_append (progress : Progress) (before after : List Symbol) :
    progress.run (before ++ after) = (progress.run before).bind (run · after) :=
  List.foldlM_append

theorem run_cons (progress : Progress) (symbol : Symbol) (symbols : List Symbol) :
    progress.run (symbol :: symbols) = (progress.step symbol).bind (run · symbols) :=
  List.foldlM_cons

theorem run_array_symbols (first : Json) (stack : List Frame) :
    (opensArray stack).run first.symbols =
      (expectValue (.element [] :: stack)).run first.symbols := by
  unfold symbols
  split <;> rfl

mutual

/-- A value is read back from its symbols wherever a value may stand. -/
theorem run_symbols (stack : List Frame) :
    (v : Json) → (expectValue stack).run v.symbols = some (done v stack)
  | .null => by rw [symbols]; rfl
  | .bool _ => by rw [symbols]; rfl
  | .number _ _ => by rw [symbols]; rfl
  | .string _ => by rw [symbols]; rfl
  | .array [] => by rw [symbols]; rfl
  | .array (first :: others) => by
    -- the bracket leaves it open whether an element follows
    rw [symbols, List.cons_append, run_cons, step, begin, Option.bind_some, run_append,
      run_array_symbols, run_symbols _ first, Option.bind_some, run_furtherElements [] first others,
      List.nil_append]
  | .object [] => by rw [symbols]; rfl
  | .object ((name, first) :: others) => by
    rw [symbols]
    show (expectValue (.member [] name :: stack)).run (first.symbols ++ furtherMembers others) = _
    rw [run_append, run_symbols _ first, Option.bind_some, run_furtherMembers [] name first others,
      List.nil_append]

theorem run_furtherElements {stack : List Frame} (before : List Json) (last : Json) :
    (others : List Json) →
      (done last (.element before :: stack)).run (furtherElements others) =
        some (done (.array (before ++ last :: others)) stack)
  | [] => by rw [furtherElements]; rfl
  | next :: others => by
    rw [furtherElements, List.cons_append, run_cons, step, Option.bind_some, run_append,
      run_symbols _ next, Option.bind_some, run_furtherElements (before ++ [last]) next others,
      List.append_assoc, List.singleton_append]

theorem run_furtherMembers {stack : List Frame} (before : List (Text × Json)) (name : Text)
    (last : Json) : (others : List (Text × Json)) →
      (done last (.member before name :: stack)).run (furtherMembers others) =
        some (done (.object (before ++ (name, last) :: others)) stack)
  | [] => by rw [furtherMembers]; rfl
  | (name', next) :: others => by
    rw [furtherMembers]
    show (expectValue (.member (before ++ [(name, last)]) name' :: stack)).run
      (next.symbols ++ furtherMembers others) = _
    rw [run_append, run_symbols _ next, Option.bind_some,
      run_furtherMembers (before ++ [(name, last)]) name' next others, List.append_assoc,
      List.singleton_append]

end

end Progress

theorem intercalate_concat {α : Type} (separator : List α) (words : List (List α))
    (last : List α) :
    separator.intercalate (words ++ [last]) = words.flatMap (· ++ separator) ++ last := by
  induction words with
  | nil => simp
  | cons word words ih =>
    cases words with
    | nil => simp [List.intercalate_cons_cons]
    | cons next words =>
      rw [List.cons_append] at ih
      rw [List.cons_append, List.cons_append, List.intercalate_cons_cons, ih]
      simp

/-- The symbols of some elements or members that others follow. -/
def followed (pieces : List (List Symbol)) : List Symbol := pieces.flatMap (· ++ [.comma])

def Frame.symbols : Frame → List Symbol
  | element before => .openArray :: followed (before.map Json.symbols)
  | member before name =>
    .openObject :: followed (before.map memberSymbols) ++ [.string name, .colon]

/-- The outermost frame is the last one of a stack. -/
def stackSymbols (stack : List Frame) : List Symbol := stack.reverse.flatMap Frame.symbols

theorem stackSymbols_cons (frame : Frame) (stack : List Frame) :
    stackSymbols (frame :: stack) = stackSymbols stack ++ frame.symbols := by
  simp [stackSymbols]

namespace Progress

/-- The symbols that lead to this progress. -/
def symbols : Progress → List Symbol
  | expectValue stack => stackSymbols stack
  | opensArray stack => stackSymbols stack ++ [.openArray]
  | opensObject stack => stackSymbols stack ++ [.openObject]
  | expectName before stack =>
    stackSymbols stack ++ .openObject :: followed (before.map memberSymbols)
  | expectColon before name stack =>
    stackSymbols stack ++ .openObject :: followed (before.map memberSymbols) ++ [.string name]
  | done value stack => stackSymbols stack ++ value.symbols

theorem begin_symbols {stack : List Frame} {symbol : Symbol} {later : Progress}
    (begins : begin stack symbol = some later) :
    later.symbols = stackSymbols stack ++ [symbol] := by
  cases symbol <;> cases begins <;> simp [symbols, Json.symbols]

theorem step_symbols {progress later : Progress} {symbol : Symbol}
    (steps : progress.step symbol = some later) :
    later.symbols = progress.symbols ++ [symbol] := by
  revert steps
  fun_cases step progress symbol with
  | case1 => exact begin_symbols
  | case3 =>
    intro begins
    rw [begin_symbols begins]
    simp [symbols, stackSymbols_cons, Frame.symbols, followed]
  -- the brackets that close: the value is now the last one of a whole array or object
  | case9 =>
    rintro ⟨⟩
    rw [symbols, symbols, symbols_array, List.map_append, List.map_singleton, intercalate_concat,
      stackSymbols_cons, Frame.symbols]
    simp [followed]
  | case11 =>
    rintro ⟨⟩
    rw [symbols, symbols, symbols_object, List.map_append, List.map_singleton, intercalate_concat,
      stackSymbols_cons, Frame.symbols]
    simp [followed, memberSymbols]
  | case12 => rintro ⟨⟩
  | _ =>
    rintro ⟨⟩
    simp [symbols, Json.symbols, stackSymbols_cons, Frame.symbols, followed, memberSymbols]

theorem run_eq_some_symbols {progress later : Progress} {read : List Symbol}
    (runs : progress.run read = some later) : later.symbols = progress.symbols ++ read := by
  induction read generalizing progress with
  | nil =>
    cases runs
    rw [List.append_nil]
  | cons symbol read ih =>
    rw [run_cons, Option.bind_eq_some_iff] at runs
    obtain ⟨middle, steps, runs⟩ := runs
    rw [ih runs, step_symbols steps, List.append_assoc, List.singleton_append]

end Progress

/-- Symbols are read as a value exactly if they are the ones it is written with. -/
theorem parse?_eq_some_iff {read : List Symbol} {value : Json} :
    parse? read = some value ↔ read = value.symbols := by
  constructor
  · intro parsed
    obtain ⟨progress, runs, result⟩ := Option.bind_eq_some_iff.1 parsed
    have spelled := Progress.run_eq_some_symbols runs
    unfold Progress.result? at result
    split at result
    · cases result
      exact spelled.symm
    · cases result
  · rintro rfl
    rw [parse?, Progress.run_symbols]
    rfl

end Json

end PriorityLexer
