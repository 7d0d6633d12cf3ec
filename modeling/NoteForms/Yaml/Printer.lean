import NoteForms.Yaml.Style
import NoteForms.Json.Printer

/-! The YAML text of a value, in block style. A level of nesting is two spaces;
only the sequence that is the value of a simple key is not indented. A key that is
long or has a break is marked, with its value on a line of its own. Empty
collections are in flow style. Every node ends its line. -/

namespace NoteForms.Yaml

/-! ### Scalars -/

def pad (n : Nat) : List Char := List.replicate n ' '

/-- The text between single quotes; the lines after a break are indented. -/
def singleBody (indent : Nat) (broken : Bool) : List Char → List Char
  | [] => if broken then pad indent else []
  | c :: cs =>
    if isBreak c then c :: singleBody indent true cs
    else (if broken then pad indent else []) ++
      (if c = '\x27' then [c, c] else [c]) ++ singleBody indent false cs

def hexText : Nat → Nat → List Char
  | 0, _ => []
  | k + 1, n => hexText k (n / 16) ++ [(Nat.digitChar (n % 16)).toUpper]

/-- The letter of a short escape. -/
def escapeLetter? (c : Char) : Option Char :=
  match c with
  | '\x00' => some '0'
  | '\x07' => some 'a'
  | '\x08' => some 'b'
  | '\t' => some 't'
  | '\n' => some 'n'
  | '\x0B' => some 'v'
  | '\x0C' => some 'f'
  | '\r' => some 'r'
  | '\x1B' => some 'e'
  | '\\' => some '\\'
  | '\x85' => some 'N'
  | '\u2028' => some 'L'
  | '\u2029' => some 'P'
  | c => if c = '\x22' then some c else none

/-- A character between double quotes. -/
def doubleChar (c : Char) : List Char :=
  match escapeLetter? c with
  | some l => ['\\', l]
  | none =>
    let n := c.toNat
    if isPrintable c then [c]
    else if n ≤ 0xFF then '\\' :: 'x' :: hexText 2 n
    else if n ≤ 0xFFFF then '\\' :: 'u' :: hexText 4 n
    else '\\' :: 'U' :: hexText 8 n

/-- The header of a literal block: its indentation when the text starts with a
space or break, and what becomes of the breaks at its end. -/
def literalHeader (cs : List Char) : List Char :=
  let indent := if cs.head?.any fun c => c = ' ' || isBreak c then ['2'] else []
  let ending := match cs.reverse with
    | [] => ['-']
    | [c] => if isBreak c then ['+'] else ['-']
    | c :: d :: _ => if !isBreak c then ['-'] else if isBreak d then ['+'] else []
  '|' :: indent ++ ending

/-- The lines of a literal block; empty ones are not indented. -/
def literalBody (indent : Nat) (broken : Bool) : List Char → List Char
  | [] => if broken then [] else ['\n']
  | c :: cs =>
    if isBreak c then c :: literalBody indent true cs
    else (if broken then pad indent else []) ++ c :: literalBody indent false cs

/-- A text and its line end; the lines after the first are indented. -/
def scalarText (indent : Nat) (s : String) : List Char :=
  let cs := s.toList
  match Style.ofText cs with
  | .plain => cs ++ ['\n']
  | .single => '\x27' :: singleBody indent false cs ++ ['\x27', '\n']
  | .double => '\x22' :: cs.flatMap doubleChar ++ ['\x22', '\n']
  | .literal => literalHeader cs ++ '\n' :: literalBody indent true cs

/-- Plain from 0.00001 to below 1e16, otherwise an exponent without a plus sign. -/
def floatLayout : Decimal.Layout := ⟨-5, 16, false⟩

/-- A value that holds no others, and its line end. -/
def atomText (indent : Nat) : Json → List Char
  | .null => ['n', 'u', 'l', 'l', '\n']
  | .bool true => ['t', 'r', 'u', 'e', '\n']
  | .bool false => ['f', 'a', 'l', 's', 'e', '\n']
  | .int n => Json.intText n ++ ['\n']
  | .float x => floatLayout.render x ++ ['\n']
  | .str s => scalarText indent s
  | .arr _ | .obj _ => ['\n']

/-! ### Collections -/

/-- Simple keys have at most 128 bytes and no break. -/
def isSimpleKey (key : String) : Bool := key.utf8ByteSize ≤ 128 && !key.toList.any isBreak

/-- The key without its line end. -/
def simpleKeyText (indent : Nat) (key : String) : List Char := (scalarText indent key).dropLast

/-- Where a node is written: on the line of an item, or after a simple key. -/
inductive Place where
  | here
  | afterKey
  deriving DecidableEq, Repr

/-- An empty collection and its line end. -/
def emptyText (place : Place) (brackets : List Char) : List Char :=
  (match place with
    | .here => []
    | .afterKey => [' ']) ++ brackets ++ ['\n']

mutual

/-- A node and its line end. Here, its place is in column `n`; after a key, that
column is the one of the key. -/
def nodeText (place : Place) (n : Nat) : Json → List Char
  | .arr items =>
    if items.isEmpty then emptyText place ['[', ']']
    else match place with
      | .here => itemsText n true items
      | .afterKey => '\n' :: itemsText n false items
  | .obj fields =>
    if fields.isEmpty then emptyText place ['\x7b', '\x7d']
    else match place with
      | .here => entriesText n true fields
      | .afterKey => '\n' :: entriesText (n + 2) false fields
  | v => match place with
    | .here => atomText n v
    | .afterKey => ' ' :: atomText (n + 2) v

/-- The items in column `n`, which is reached already for the first one `here`. -/
def itemsText (n : Nat) (here : Bool) : List Json → List Char
  | [] => []
  | v :: vs =>
    (if here then [] else pad n) ++ '-' :: ' ' :: nodeText .here (n + 2) v ++ itemsText n false vs

def entriesText (n : Nat) (here : Bool) : List (String × Json) → List Char
  | [] => []
  | (k, v) :: es =>
    (if here then [] else pad n) ++
      (if isSimpleKey k then simpleKeyText (n + 2) k ++ ':' :: nodeText .afterKey n v
      else '?' :: ' ' :: scalarText (n + 2) k ++ pad n ++ ':' :: ' ' :: nodeText .here (n + 2) v) ++
      entriesText n false es

end

/-- The text of a value as a whole document. -/
def text (v : Json) : String :=
  String.ofList (match v with
    | .arr items => nodeText .here 0 (.arr items)
    | .obj fields => nodeText .here 0 (.obj fields)
    | v => atomText 2 v)

end NoteForms.Yaml
