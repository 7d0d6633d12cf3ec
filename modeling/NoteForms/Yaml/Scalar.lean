import NoteForms.Json.Value
import NoteForms.Text.Digits
import NoteForms.Yaml.Token

/-! What a plain scalar stands for: null, a boolean, a number or text. Whole
numbers are decimal, hexadecimal, octal or binary; digits after a leading zero are
text. A number without a text in JSON is null, one beyond the range is text, and a
whole number beyond 64 bits is a fault. -/

namespace NoteForms.Yaml.Scalar

/-- A reading: it may not apply, or be a fault. -/
inductive Reading (α : Type) where
  | value (x : α)
  | other
  | fault
  deriving DecidableEq, Repr

/-! ### Words -/

def isNull (cs : List Char) : Bool :=
  cs = ['~'] || cs = ['n', 'u', 'l', 'l'] || cs = ['N', 'u', 'l', 'l'] || cs = ['N', 'U', 'L', 'L']

def boolean? (cs : List Char) : Option Bool :=
  if cs = ['t', 'r', 'u', 'e'] ∨ cs = ['T', 'r', 'u', 'e'] ∨ cs = ['T', 'R', 'U', 'E'] then some true
  else if cs = ['f', 'a', 'l', 's', 'e'] ∨ cs = ['F', 'a', 'l', 's', 'e'] ∨
      cs = ['F', 'A', 'L', 'S', 'E'] then some false
  else none

/-! ### Whole numbers -/

def isSign (c : Char) : Bool := c = '+' || c = '-'

def startsWithSign (cs : List Char) : Bool := cs.head?.any isSign

/-- At least two digits, the first of them zero, after at most one sign. -/
def isZeroLed (cs : List Char) : Bool :=
  match if startsWithSign cs then cs.drop 1 else cs with
  | '0' :: d :: ds => (d :: ds).all Char.isDigit
  | _ => false

/-- The number written with the given digits, of which there must be one. -/
def digits (base : Nat) (digit? : Char → Option Nat) : List Char → Option Nat
  | [] => none
  | cs => cs.foldl (fun n? c => do
      let n ← n?
      let d ← digit? c
      if d < base then some (n * base + d) else none) (some 0)

/-- The base that two characters in front announce, and the digits after them. -/
def based? : List Char → Option (Nat × List Char)
  | '0' :: 'x' :: cs => some (16, cs)
  | '0' :: 'o' :: cs => some (8, cs)
  | '0' :: 'b' :: cs => some (2, cs)
  | _ => none

def natural (cs : List Char) : Option Nat :=
  match based? cs with
  | some (base, ds) => digits base Text.hexValue? ds
  | none => digits 10 Text.hexValue? cs

/-- A whole number. Only one sign is read, and no sign after a base. -/
def whole? (cs : List Char) : Option Int :=
  if isZeroLed cs then none
  else match cs with
    | '+' :: ds => (natural ds).map fun n => (n : Int)
    | '-' :: ds => (natural ds).map fun n => -(n : Int)
    | ds => (natural ds).map fun n => (n : Int)

/-- The number fits a word of so many bits, signed or not. -/
def fits (bits : Nat) (n : Int) : Bool :=
  -(Nat.pow 2 (bits - 1) : Nat) ≤ n && n < (Nat.pow 2 bits : Nat)

/-- Whole numbers that fit 64 bits are values and those that fit 128 are faults. -/
def whole (cs : List Char) : Reading Int :=
  match whole? cs with
  | none => .other
  | some n => if fits 64 n then .value n else if fits 128 n then .fault else .other

/-! ### Floats -/

/-- An exponent after its letter: at most one sign and at least one digit. -/
def exponent? (cs : List Char) : Option Int :=
  match cs with
  | '+' :: ds => (digits 10 Text.hexValue? ds).map fun n => (n : Int)
  | '-' :: ds => (digits 10 Text.hexValue? ds).map fun n => -(n : Int)
  | ds => (digits 10 Text.hexValue? ds).map fun n => (n : Int)

/-- A decimal without a sign as digits and an exponent: digits with an optional
point among, before or after them, then an optional exponent. -/
def decimal? (cs : List Char) : Option (Nat × Int) :=
  let (before, cs) := (cs.takeWhile Char.isDigit, cs.dropWhile Char.isDigit)
  let (after, cs) := match cs with
    | '.' :: r => (r.takeWhile Char.isDigit, r.dropWhile Char.isDigit)
    | r => ([], r)
  let e? := match cs with
    | [] => some 0
    | 'e' :: r | 'E' :: r => exponent? r
    | _ => none
  match digits 10 Text.hexValue? (before ++ after), e? with
  | some m, some e => some (m, e - after.length)
  | _, _ => none

def isInfinity (cs : List Char) : Bool :=
  cs = ['.', 'i', 'n', 'f'] || cs = ['.', 'I', 'n', 'f'] || cs = ['.', 'I', 'N', 'F']

def isNotANumber (cs : List Char) : Bool :=
  cs = ['.', 'n', 'a', 'n'] || cs = ['.', 'N', 'a', 'N'] || cs = ['.', 'N', 'A', 'N']

/-- A float; infinities and what is not a number are null. -/
def float? (cs : List Char) : Option Json :=
  if isNotANumber cs then some .null
  else
    let (negative, cs) := match cs with
      | '+' :: r => (false, r)
      | '-' :: r => (true, r)
      | r => (false, r)
    if isInfinity cs then some .null
    else do
      let (m, e) ← decimal? cs
      return .float (← Double.nearest? negative m e)

/-! ### Scalars -/

/-- A tag that starts with an exclamation mark names no type that a value has. One
with an escape that spells no character names nothing. -/
def isLocal (tag : TagText) : Bool := tag.head? == some (some '!') && tag.all (·.isSome)

/-- What a plain scalar without a tag stands for; none when it is a fault. -/
def plain (cs : List Char) : Option Json :=
  if cs = [] ∨ isNull cs then some .null
  else match boolean? cs, whole cs with
    | some b, _ => some (.bool b)
    | none, .value n => some (.int n)
    | none, .fault => none
    | none, .other =>
      if isZeroLed cs then some (.str (String.ofList cs))
      else some ((float? cs).getD (.str (String.ofList cs)))

def untagged (isPlain : Bool) (cs : List Char) : Option Json :=
  if isPlain then plain cs else some (.str (String.ofList cs))

/-- The tag of a core type. -/
def coreTag (type : String) : TagText := ("tag:yaml.org,2002:" ++ type).toList.map some

/-- The value of a scalar. A core tag of a boolean, a number or null holds whatever
the quotes and accepts nothing else. A local tag is a fault, or as good as none where
it names nothing; all others make the scalar text. -/
def value (tag : Option TagText) (isPlain : Bool) (cs : List Char) : Option Json :=
  match tag with
  | none => untagged isPlain cs
  | some t =>
    if isLocal t then none
    else if t.head? = some (some '!') then untagged isPlain cs
    else if t = coreTag "bool" then (boolean? cs).map .bool
    else if t = coreTag "int" then
      match whole cs with
      | .value n => some (.int n)
      | _ => none
    else if t = coreTag "float" then float? cs
    else if t = coreTag "null" then (if isNull cs then some .null else none)
    else some (.str (String.ofList cs))

end NoteForms.Yaml.Scalar
