import NoteForms.Yaml.Token
import NoteForms.Yaml.Cursor
import NoteForms.Text.Digits

/-! Anchors, aliases, tags and directives. A tag may escape the octets of its
characters. They must look like UTF-8, but may be too many for their character, or
have a code that no character has. A tag ends in front of an escaped zero. -/

namespace NoteForms.Yaml.Property

/-! ### Names -/

/-- Characters that may follow a name directly. -/
def endsName (c : Char) : Bool :=
  isSpace c || c = '?' || c = ':' || c = ',' || c = ']' || c = '\x7d' || c = '%' || c = '@' ||
    c = '\x60'

/-- The name of an anchor or alias, from its indicator on. -/
def name (c : Cursor) : Option (List Char × Cursor) :=
  let (name, c) := (c.skip 1).takeWhile isWordChar
  if name ≠ [] ∧ c.rest.head?.all endsName then some (name, c) else none

/-! ### Tags -/

/-- The octet of an escape. -/
def octet? : List Char → Option Nat
  | '%' :: a :: b :: _ => do return (← Text.hexValue? a) * 16 + (← Text.hexValue? b)
  | _ => none

/-- The number of octets after a leading one, and the part of the code in it. -/
def lead? (octet : Nat) : Option (Nat × Nat) :=
  if octet < 0x80 then some (0, octet)
  else if octet / 32 = 6 then some (1, octet % 32)
  else if octet / 16 = 14 then some (2, octet % 16)
  else if octet / 8 = 30 then some (3, octet % 8)
  else none

/-- The code that goes on with so many octets of six bits each. -/
def followers : Nat → Nat → Cursor → Option (Nat × Cursor)
  | 0, code, c => some (code, c)
  | n + 1, code, c => do
    let o ← octet? c.rest
    if o / 64 ≠ 2 then none else followers n (code * 64 + o % 64) (c.skip 3)

/-- The character of a code that takes so many octets. -/
def character? (code octets : Nat) : Option Char :=
  if h : code.isValidChar then
    let d := Char.ofNatAux code h
    if d.utf8Size = octets then some d else none
  else none

/-- One escaped character, if its octets spell one. -/
def escaped (c : Cursor) : Option (Option Char × Cursor) := do
  let (n, bits) ← lead? (← octet? c.rest)
  let (code, c) ← followers n bits (c.skip 3)
  return (character? code (n + 1), c)

/-- Characters of a URI; a verbatim tag and a directive admit three more. -/
def isUriChar (verbatim : Bool) (c : Char) : Bool :=
  isWordChar c || c = ';' || c = '/' || c = '?' || c = ':' || c = '@' || c = '&' || c = '=' ||
    c = '+' || c = '$' || c = '.' || c = '%' || c = '!' || c = '~' || c = '*' || c = '\x27' ||
    c = '(' || c = ')' || verbatim && (c = ',' || c = '[' || c = ']')

def uri (verbatim : Bool) : Nat → TagText → Cursor → Option (TagText × Cursor)
  | 0, taken, c => some (taken, c)
  | fuel + 1, taken, c =>
    match c.rest with
    | [] => some (taken, c)
    | d :: _ =>
      if d = '%' then do
        let (d, c) ← escaped c
        uri verbatim fuel (taken ++ [d]) c
      else if isUriChar verbatim d then uri verbatim fuel (taken ++ [some d]) (c.skip 1)
      else some (taken, c)

/-- A tag up to an escaped zero. -/
def beforeZero (t : TagText) : TagText := t.takeWhile (· != some '\x00')

/-- A URI of at least one character. -/
def uri1 (verbatim : Bool) (c : Cursor) : Option (TagText × Cursor) := do
  let (t, c) ← uri verbatim (c.rest.length + 1) [] c
  if t = [] then none else return (beforeZero t, c)

/-- One or two exclamation marks with a name between them. -/
def handle (c : Cursor) : List Char × Cursor :=
  let (name, c) := (c.skip 1).takeWhile isWordChar
  if c.rest.head? == some '!' then ('!' :: name ++ ['!'], c.skip 1) else ('!' :: name, c)

/-- A full handle has a mark at both ends. -/
def isFull (handle : List Char) : Bool := 1 < handle.length && handle.getLast? == some '!'

/-- The handle and the suffix of a tag, from its exclamation mark on. A verbatim
tag has no handle; a mark alone is a suffix. -/
def tagParts (c : Cursor) : Option (List Char × TagText × Cursor) :=
  match c.rest with
  | '!' :: '<' :: _ => do
    let (t, c) ← uri1 true (c.skip 2)
    if c.rest.head? == some '>' then return ([], t, c.skip 1) else none
  | _ =>
    let (h, d) := handle c
    if isFull h then (uri1 false d).map fun (t, d) => (h, t, d)
    else do
      let (t, d) ← uri false (d.rest.length + 1) ((h.drop 1).map some) d
      match beforeZero t with
      | [] => return ([], [some '!'], d)
      | t => return (['!'], t, d)

def tag (flow : Bool) (c : Cursor) : Option (Token × Cursor) := do
  let (h, suffix, c) ← tagParts c
  if spaceNext c.rest || flow && c.rest.head? == some ',' then return (.tag h suffix, c) else none

/-! ### Directives -/

/-- A number of one to nine digits. -/
def versionNumber (c : Cursor) : Option (Nat × Cursor) :=
  let (ds, c) := c.takeWhile Char.isDigit
  if ds = [] ∨ 9 < ds.length then none
  else some (ds.foldl (fun n d => n * 10 + Text.digitValue d) 0, c)

def version (c : Cursor) : Option (Token × Cursor) := do
  let (major, c) ← versionNumber (c.skipWhile isBlank)
  if c.rest.head? ≠ some '.' then none
  else
    let (minor, c) ← versionNumber (c.skip 1)
    return (.version major minor, c)

def tagHandle (c : Cursor) : Option (Token × Cursor) := do
  let c := c.skipWhile isBlank
  if c.rest.head? ≠ some '!' then none
  else
    let (h, c) := handle c
    if !(h = ['!'] || isFull h) || !c.rest.head?.any isBlank then none
    else
      let (u, c) ← uri1 true (c.skipWhile isBlank)
      if spaceNext c.rest then return (.tagHandle h u, c) else none

/-- A directive, from its percent sign on, with the rest of its line. -/
def directive (c : Cursor) : Option (Token × Cursor) := do
  let (name, c) := (c.skip 1).takeWhile isWordChar
  if !spaceNext c.rest then none
  else
    let (token, c) ←
      if name = ['Y', 'A', 'M', 'L'] then version c
      else if name = ['T', 'A', 'G'] then tagHandle c
      else none
    let c := c.skipWhile isBlank
    let c := if c.rest.head? == some '#' then c.skipWhile (!isBreak ·) else c
    if breakNext c.rest then return (token, c.skipBreak) else none

end NoteForms.Yaml.Property
