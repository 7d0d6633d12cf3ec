import NoteForms.Json.Value
import NoteForms.Decimal.Layout

/-! Texts of values: compact on one line, and pretty with two spaces a level.
Entries are written in their order. Strings escape the quote, the backslash and
the control characters below the space, nothing else. -/

namespace NoteForms.Json

/-- Plain from 0.00001 to below 1e16, otherwise an exponent with its sign. -/
def floatLayout : Decimal.Layout := ⟨-5, 16, true⟩

/-- The letter after the backslash of a short escape. -/
def shortEscape? (c : Char) : Option Char :=
  if c = '\x22' then some c
  else if c = '\\' then some c
  else if c = '\x08' then some 'b'
  else if c = '\x0C' then some 'f'
  else if c = '\n' then some 'n'
  else if c = '\r' then some 'r'
  else if c = '\t' then some 't'
  else none

def escapeChar (c : Char) : List Char :=
  match shortEscape? c with
  | some l => ['\\', l]
  | none =>
    if c.toNat < 0x20 then
      ['\\', 'u', '0', '0', Nat.digitChar (c.toNat / 16), Nat.digitChar (c.toNat % 16)]
    else [c]

def quote (s : String) : List Char :=
  '\x22' :: s.toList.flatMap escapeChar ++ ['\x22']

def intText (n : Int) : List Char :=
  (if n < 0 then ['-'] else []) ++ Nat.toDigits 10 n.natAbs

/-- The text of a value that holds no others. -/
def atomText : Json → List Char
  | .null => ['n', 'u', 'l', 'l']
  | .bool true => ['t', 'r', 'u', 'e']
  | .bool false => ['f', 'a', 'l', 's', 'e']
  | .int n => intText n
  | .float x => floatLayout.render x
  | .str s => quote s
  | .arr _ | .obj _ => []

/-! ### On one line -/

mutual

def compact : Json → List Char
  | .arr items => '[' :: compactItems items ++ [']']
  | .obj fields => '\x7b' :: compactFields fields ++ ['\x7d']
  | v => v.atomText

def compactItems : List Json → List Char
  | [] => []
  | [v] => compact v
  | v :: vs => compact v ++ ',' :: compactItems vs

def compactFields : List (String × Json) → List Char
  | [] => []
  | [(k, v)] => quote k ++ ':' :: compact v
  | (k, v) :: fs => quote k ++ ':' :: compact v ++ ',' :: compactFields fs

end

/-- The text on one line, without blanks. -/
def text (v : Json) : String := String.ofList v.compact

/-! ### With a line for every item and entry -/

/-- A new line, indented. -/
def newLine (level : Nat) : List Char := '\n' :: List.replicate (2 * level) ' '

mutual

def prettyAt (level : Nat) : Json → List Char
  | .arr [] => ['[', ']']
  | .obj [] => ['\x7b', '\x7d']
  | .arr items => '[' :: prettyItems (level + 1) items ++ newLine level ++ [']']
  | .obj fields => '\x7b' :: prettyFields (level + 1) fields ++ newLine level ++ ['\x7d']
  | v => v.atomText

def prettyItems (level : Nat) : List Json → List Char
  | [] => []
  | [v] => newLine level ++ prettyAt level v
  | v :: vs => newLine level ++ prettyAt level v ++ ',' :: prettyItems level vs

def prettyFields (level : Nat) : List (String × Json) → List Char
  | [] => []
  | [(k, v)] => newLine level ++ quote k ++ ':' :: ' ' :: prettyAt level v
  | (k, v) :: fs =>
    newLine level ++ quote k ++ ':' :: ' ' :: prettyAt level v ++ ',' :: prettyFields level fs

end

def pretty (v : Json) : String := String.ofList (v.prettyAt 0)

end NoteForms.Json
