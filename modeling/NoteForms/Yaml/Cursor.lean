import NoteForms.Yaml.Chars

/-! A place in a text: what is left of it, the octets of UTF-8 in front of it, and
the line and column of its first character. A carriage return with a line feed is
one break. -/

namespace NoteForms.Yaml

structure Cursor where
  rest : List Char
  octets : Nat
  line : Nat
  column : Nat

namespace Cursor

def start (cs : List Char) : Cursor := ⟨cs, 0, 0, 0⟩

/-- Past `n` characters of the line. -/
def skip (c : Cursor) (n : Nat) : Cursor :=
  ⟨c.rest.drop n, (c.rest.take n).foldl (· + ·.utf8Size) c.octets, c.line, c.column + n⟩

/-- Past a line break, if one is next. -/
def skipBreak (c : Cursor) : Cursor :=
  match c.rest with
  | '\r' :: '\n' :: r => ⟨r, c.octets + 2, c.line + 1, 0⟩
  | d :: r => if isBreak d then ⟨r, c.octets + d.utf8Size, c.line + 1, 0⟩ else c
  | [] => c

/-- Past a byte order mark at the start of a line. -/
def skipMark (c : Cursor) : Cursor :=
  if c.column = 0 ∧ c.rest.head? = some '\uFEFF' then c.skip 1 else c

/-- What the next line break stands for in a scalar: a line feed, except that the
two separators stand for themselves. -/
def breakText (c : Cursor) : List Char :=
  match c.rest with
  | d :: _ => if d = '\u2028' ∨ d = '\u2029' then [d] else if isBreak d then ['\n'] else []
  | [] => []

/-- The characters before the first that fails the test, and the place after them. -/
def takeWhile (c : Cursor) (p : Char → Bool) : List Char × Cursor :=
  let taken := c.rest.takeWhile p
  (taken, c.skip taken.length)

def skipWhile (c : Cursor) (p : Char → Bool) : Cursor := (c.takeWhile p).2

/-- Three dashes or three dots at the start of a line, with a space after them. -/
def atMarker (c : Cursor) : Bool :=
  c.column == 0 &&
    match c.rest with
    | '-' :: '-' :: '-' :: r => spaceNext r
    | '.' :: '.' :: '.' :: r => spaceNext r
    | _ => false

end Cursor

end NoteForms.Yaml
