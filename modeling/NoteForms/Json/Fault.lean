/-! What can be wrong with a JSON text, and where. A place is a line and a
column; columns count the bytes since the last line feed. -/

namespace NoteForms.Json

/-- What is wrong at a place of a text. -/
inductive Problem where
  | endInList
  | endInObject
  | endInString
  | endInValue
  | expectedColon
  | expectedListCommaOrEnd
  | expectedObjectCommaOrEnd
  | expectedWord
  | expectedValue
  | invalidEscape
  | invalidNumber
  | numberOutOfRange
  | controlCharacter
  | keyNotString
  | loneSurrogate
  | trailingComma
  | trailingCharacters
  | unfinishedSurrogate
  | tooDeep
  deriving DecidableEq, Repr

def Problem.text : Problem → String
  | .endInList => "EOF while parsing a list"
  | .endInObject => "EOF while parsing an object"
  | .endInString => "EOF while parsing a string"
  | .endInValue => "EOF while parsing a value"
  | .expectedColon => "expected `:`"
  | .expectedListCommaOrEnd => "expected `,` or `]`"
  | .expectedObjectCommaOrEnd => "expected `,` or `\x7d`"
  | .expectedWord => "expected ident"
  | .expectedValue => "expected value"
  | .invalidEscape => "invalid escape"
  | .invalidNumber => "invalid number"
  | .numberOutOfRange => "number out of range"
  | .controlCharacter => "control character (\\u0000-\\u001F) found while parsing a string"
  | .keyNotString => "key must be a string"
  | .loneSurrogate => "lone leading surrogate in hex escape"
  | .trailingComma => "trailing comma"
  | .trailingCharacters => "trailing characters"
  | .unfinishedSurrogate => "unexpected end of hex escape"
  | .tooDeep => "recursion limit exceeded"

/-- A problem and where it was met. -/
structure Fault where
  problem : Problem
  line : Nat
  column : Nat
  deriving DecidableEq, Repr

def Fault.message (f : Fault) : String :=
  f.problem.text ++ " at line " ++ toString f.line ++ " column " ++ toString f.column

/-! ### Places -/

/-- Bytes of a text. -/
def byteCount : List Char → Nat
  | [] => 0
  | c :: cs => c.utf8Size + byteCount cs

/-- Line and column after the given number of bytes. -/
def placeAfter : Nat → List Char → Nat → Nat → Nat × Nat
  | _, [], line, column => (line, column)
  | bytes, c :: cs, line, column =>
    if bytes = 0 then (line, column)
    else if c = '\n' then placeAfter (bytes - 1) cs (line + 1) 0
    else if bytes < c.utf8Size then (line, column + bytes)
    else placeAfter (bytes - c.utf8Size) cs line (column + c.utf8Size)

/-- The fault of a problem met with `left` bytes of the text to go. -/
def Fault.locate (text : List Char) (problem : Problem) (left : Nat) : Fault :=
  let place := placeAfter (byteCount text - left) text 1 0
  ⟨problem, place.1, place.2⟩

end NoteForms.Json
