import NoteForms.Yaml.Cursor
import NoteForms.Text.Digits

/-! Block scalars, literal and folded. The header may say how the breaks at the
end are kept and how far the lines are indented; otherwise the first line that is
not empty, or a longer blank line before it, sets the indentation. -/

namespace NoteForms.Yaml.Block

/-- What becomes of the breaks at the end: all dropped, one kept, all kept. -/
inductive Chomping where
  | strip
  | clip
  | keep
  deriving DecidableEq, Repr

def chomping? : List Char → Option Chomping
  | '+' :: _ => some .keep
  | '-' :: _ => some .strip
  | _ => none

/-- An indentation of zero is a fault, one that is not given is zero. -/
def increment? (c : Cursor) : Option (Nat × Cursor) :=
  match c.rest with
  | d :: _ => if d = '0' then none else if d.isDigit then some (Text.digitValue d, c.skip 1) else some (0, c)
  | [] => some (0, c)

/-- The chomping and the increment after the indicator, in either order. -/
def header (c : Cursor) : Option (Chomping × Nat × Cursor) :=
  match chomping? c.rest with
  | some k => (increment? (c.skip 1)).map fun (n, c) => (k, n, c)
  | none => do
    let (n, c) ← increment? c
    match n, chomping? c.rest with
    | 0, _ | _, none => return (.clip, n, c)
    | n, some k => return (k, n, c.skip 1)

/-- Past blanks, a comment and the end of the line. A comment needs no blank in
front of it; anything else is a fault. -/
def endLine (c : Cursor) : Option Cursor :=
  let c := c.skipWhile isBlank
  let c := if c.rest.head? == some '#' then c.skipWhile (!isBreak ·) else c
  if breakNext c.rest then some c.skipBreak else none

/-- The empty lines at a place, and the greatest column met in front of a break or
text. Spaces are passed up to the indentation, any number while it is unknown. -/
def emptyLines (indent : Option Nat) :
    Nat → Nat → List Char → Cursor → Option (List Char × Nat × Cursor)
  | 0, widest, breaks, c => some (breaks, widest, c)
  | fuel + 1, widest, breaks, c =>
    let spaces := (c.rest.takeWhile (· == ' ')).length
    let c := c.skip (match indent with
      | some n => min spaces (n - c.column)
      | none => spaces)
    let widest := max widest c.column
    if c.rest.head? == some '\t' && indent.all (c.column < ·) then none
    else if c.rest.head?.any isBreak then
      emptyLines indent fuel widest (breaks ++ c.breakText) c.skipBreak
    else some (breaks, widest, c)

/-- What is read of a block scalar up to a line: the text in reverse, the break that
ended the last line, the breaks of the empty lines after it, and whether the last
line started with a blank. -/
structure Lines where
  taken : List Char
  lead : List Char
  trail : List Char
  startsBlank : Bool

/-- The breaks before the next line. A folded scalar joins two lines that start
with no blank by a space. -/
def Lines.joint (literal : Bool) (l : Lines) (nextBlank : Bool) : List Char :=
  if !literal && l.lead == ['\n'] && !l.startsBlank && !nextBlank then
    if l.trail = [] then [' '] else l.trail
  else l.lead ++ l.trail

def lines (literal : Bool) (indent : Nat) : Nat → Lines → Cursor → Option (Lines × Cursor)
  | 0, l, c => some (l, c)
  | fuel + 1, l, c =>
    if c.column ≠ indent ∨ c.rest = [] then some (l, c)
    else do
      let blank := c.rest.head?.any isBlank
      let (text, c) := c.takeWhile (!isBreak ·)
      let taken := (l.joint literal blank ++ text).reverse ++ l.taken
      let lead := c.breakText
      let (trail, _, c) ← emptyLines (some indent) c.rest.length 0 [] c.skipBreak
      lines literal indent fuel ⟨taken, lead, trail, blank⟩ c

/-- A block scalar, from its indicator on, in a block whose content starts at
column `indent`. -/
def scan (literal : Bool) (indent : Nat) (c : Cursor) : Option (List Char × Cursor) := do
  let (chomping, increment, c) ← header (c.skip 1)
  let c ← endLine c
  let given := if increment = 0 then none else some (indent - 1 + increment)
  let (trail, widest, c) ← emptyLines given (c.rest.length + 1) 0 [] c
  let column := given.getD (max widest (max indent 1))
  let (l, c) ← lines literal column (c.rest.length + 1) ⟨[], [], trail, false⟩ c
  let ending := match chomping with
    | .strip => []
    | .clip => l.lead
    | .keep => l.lead ++ l.trail
  return (l.taken.reverse ++ ending, c)

end NoteForms.Yaml.Block
