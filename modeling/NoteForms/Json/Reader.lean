import NoteForms.Json.Number

/-! Reading a JSON text. Every fault is located; the first one met ends the
reading. A value may be nested 127 deep. The reader of values takes fuel from the
length of the text: every call but the first follows a character that was taken. -/

namespace NoteForms.Json

open Text (hexValue?)

/-! ### Blanks and words -/

def isBlank (c : Char) : Bool := c = ' ' || c = '\n' || c = '\t' || c = '\r'

def skipBlanks (cs : List Char) : List Char := cs.dropWhile isBlank

/-- The rest of a word after its first letter. -/
def word (v : Json) : List Char → List Char → Step Json
  | [], rest => .ok (v, rest)
  | _ :: _, [] => .error (stopAt .endInValue [])
  | w :: ws, c :: rest =>
    if c = w then word v ws rest else .error (stopIn .expectedWord (c :: rest))

/-! ### Strings -/

/-- Four hexadecimal digits. -/
def hex4 (cs : List Char) : Step Nat :=
  match cs with
  | a :: b :: c :: d :: rest =>
    match hexValue? a, hexValue? b, hexValue? c, hexValue? d with
    | some a, some b, some c, some d => .ok (((a * 16 + b) * 16 + c) * 16 + d, rest)
    | _, _, _, _ => .error (.invalidEscape, byteCount cs - 4)
  | cs =>
    if byteCount cs < 4 then .error (stopAt .endInString [])
    else .error (.invalidEscape, byteCount cs - 4)

/-- The character of a `\u` escape, from two escapes when the first is a leading surrogate. -/
def unicodeEscape (cs : List Char) : Except Stop (Char × List Char) := do
  let (n, rest) ← hex4 cs
  if 0xDC00 ≤ n ∧ n ≤ 0xDFFF then throw (stopAt .loneSurrogate rest)
  if n < 0xD800 ∨ 0xDBFF < n then return (Char.ofNat n, rest)
  match rest with
  | [] => throw (stopAt .endInString [])
  | '\\' :: rest =>
    match rest with
    | [] => throw (stopAt .endInString [])
    | 'u' :: rest =>
      let (m, rest) ← hex4 rest
      if m < 0xDC00 ∨ 0xDFFF < m then throw (stopAt .loneSurrogate rest)
      return (Char.ofNat ((n - 0xD800) * 0x400 + (m - 0xDC00) + 0x10000), rest)
    | rest => throw (stopIn .unfinishedSurrogate rest)
  | rest => throw (stopIn .unfinishedSurrogate rest)

/-- The character of an escape, after its backslash. -/
def escape (cs : List Char) : Except Stop (Char × List Char) :=
  match cs with
  | [] => .error (stopAt .endInString [])
  | 'u' :: rest => unicodeEscape rest
  | 'b' :: rest => .ok ('\x08', rest)
  | 'f' :: rest => .ok ('\x0C', rest)
  | 'n' :: rest => .ok ('\n', rest)
  | 'r' :: rest => .ok ('\r', rest)
  | 't' :: rest => .ok ('\t', rest)
  | c :: rest =>
    if c = '\x22' ∨ c = '\\' ∨ c = '/' then .ok (c, rest)
    else .error (stopIn .invalidEscape (c :: rest))

/-- The rest of a string after its opening quote; `taken` is in reverse. -/
def stringBody : Nat → List Char → List Char → Except Stop (String × List Char)
  | 0, _, _ => .error (stopAt .endInString [])
  | _ + 1, _, [] => .error (stopAt .endInString [])
  | fuel + 1, taken, c :: rest =>
    if c = '\x22' then .ok (String.ofList taken.reverse, rest)
    else if c = '\\' then do
      let (d, rest) ← escape rest
      stringBody fuel (d :: taken) rest
    else if c.toNat < 0x20 then .error (stopAt .controlCharacter rest)
    else stringBody fuel (c :: taken) rest

def string (cs : List Char) : Step String := stringBody (cs.length + 1) [] cs

/-! ### Values -/

/-- The colon between the key and the value of an entry. -/
def colon (cs : List Char) : Except Stop (List Char) :=
  match skipBlanks cs with
  | ':' :: rest => .ok rest
  | [] => .error (stopAt .endInObject [])
  | rest => .error (stopIn .expectedColon rest)

mutual

/-- A value, in which brackets may be nested fewer than `depth` deep. -/
def value (depth : Nat) : Nat → List Char → Except Stop (Json × List Char)
  | 0, _ => .error (stopAt .endInValue [])
  | fuel + 1, cs =>
    match skipBlanks cs with
    | [] => .error (stopAt .endInValue [])
    | 'n' :: rest => word .null ['u', 'l', 'l'] rest
    | 't' :: rest => word (.bool true) ['r', 'u', 'e'] rest
    | 'f' :: rest => word (.bool false) ['a', 'l', 's', 'e'] rest
    | '-' :: rest => number false rest
    | '[' :: rest =>
      if depth ≤ 1 then .error (stopIn .tooDeep ('[' :: rest))
      else (items (depth - 1) true fuel rest).map fun (vs, rest) => (.arr vs, rest)
    | c :: rest =>
      if c = '\x7b' then
        if depth ≤ 1 then .error (stopIn .tooDeep (c :: rest))
        else (entries (depth - 1) true [] fuel rest).map fun (es, rest) => (.obj es, rest)
      else if c = '\x22' then (string rest).map fun (s, rest) => (.str s, rest)
      else if c.isDigit then number true (c :: rest)
      else .error (stopIn .expectedValue (c :: rest))

/-- The items up to the closing bracket. -/
def items (depth : Nat) (first : Bool) : Nat → List Char → Except Stop (List Json × List Char)
  | 0, _ => .error (stopAt .endInList [])
  | fuel + 1, cs =>
    match skipBlanks cs with
    | [] => .error (stopAt .endInList [])
    | ']' :: rest => .ok ([], rest)
    | c :: rest =>
      let start : Except Stop (List Char) :=
        if first then .ok (c :: rest)
        else if c = ',' then
          match skipBlanks rest with
          | ']' :: r => .error (stopIn .trailingComma (']' :: r))
          | [] => .error (stopAt .endInValue [])
          | r => .ok r
        else .error (stopIn .expectedListCommaOrEnd (c :: rest))
      do
        let (v, rest) ← value depth fuel (← start)
        let (vs, rest) ← items depth false fuel rest
        return (v :: vs, rest)

/-- The entries up to the closing brace, stored over those already read. -/
def entries (depth : Nat) (first : Bool) (read : Object) : Nat → List Char → Except Stop (Object × List Char)
  | 0, _ => .error (stopAt .endInObject [])
  | fuel + 1, cs =>
    match skipBlanks cs with
    | [] => .error (stopAt .endInObject [])
    | c :: rest =>
      if c = '\x7d' then .ok (read, rest)
      else
        let start : Except Stop (List Char) :=
          if first then
            if c = '\x22' then .ok rest else .error (stopIn .keyNotString (c :: rest))
          else if c = ',' then
            match skipBlanks rest with
            | [] => .error (stopAt .endInValue [])
            | d :: r =>
              if d = '\x22' then .ok r
              else if d = '\x7d' then .error (stopIn .trailingComma (d :: r))
              else .error (stopIn .keyNotString (d :: r))
          else .error (stopIn .expectedObjectCommaOrEnd (c :: rest))
        do
          let (k, rest) ← string (← start)
          let (v, rest) ← value depth fuel (← colon rest)
          entries depth false (read.put k v) fuel rest

end

/-- Reads a whole text as one value. -/
def readChars (cs : List Char) : Except Stop Json := do
  let (v, rest) ← value 128 (2 * cs.length + 2) cs
  match skipBlanks rest with
  | [] => return v
  | rest => throw (stopIn .trailingCharacters rest)

def read (text : String) : Except Fault Json :=
  (readChars text.toList).mapError fun (p, left) => Fault.locate text.toList p left

end NoteForms.Json
