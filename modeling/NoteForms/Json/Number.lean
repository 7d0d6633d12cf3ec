import NoteForms.Json.Value
import NoteForms.Json.Fault
import NoteForms.Text.Digits

/-! Reading a number. Whole numbers that fit 64 bits, signed or not, stay whole;
all others are floats. A float takes the digits that fit 64 bits and scales them
by powers of ten in the format itself, so its last bit can differ from the nearest
number's. Minus zero is a float. -/

namespace NoteForms.Json

open Text (digitValue)

/-- A problem, and the bytes of the text that were left where it was met. -/
abbrev Stop := Problem × Nat

/-- A result and what is left of the text. -/
abbrev Step (α : Type) := Except Stop (α × List Char)

/-- Stops in front of the given rest. -/
def stopAt (p : Problem) (rest : List Char) : Stop := (p, byteCount rest)

/-- Stops one byte into the given rest, or at the end of the text. -/
def stopIn (p : Problem) (rest : List Char) : Stop := (p, byteCount rest - 1)

def maxUnsigned : Nat := 0xFFFFFFFFFFFFFFFF

/-! ### Scaling -/

/-- The `k`th power of ten as a float. -/
def powerOfTen (k : Nat) : Float := Float.ofScientific 1 false k

/-- Scales by powers of ten, at most 308 at a time; none when it overflows. -/
def scale : Nat → Float → Int → Option Float
  | 0, _, _ => none
  | fuel + 1, x, e =>
    if e.natAbs ≤ 308 then
      if 0 ≤ e then
        let y := x * powerOfTen e.natAbs
        if y.isInf then none else some y
      else some (x / powerOfTen e.natAbs)
    else if x == 0 then some x
    else if 0 ≤ e then none
    else scale fuel (x / powerOfTen 308) (e + 308)

/-- A float from its kept digits. Four divisions by 1e308 leave nothing of a
64-bit number, so five rounds are enough. -/
def floatOf (positive : Bool) (digits : Nat) (e : Int) (rest : List Char) : Step Json :=
  match scale 5 (Float.ofScientific digits false 0) e with
  | some x => .ok (.float (.ofFloat (if positive then x else -x)), rest)
  | none => .error (stopAt .numberOutOfRange rest)

/-! ### Digits -/

/-- Appends digits while the number fits 64 bits; with the count of those taken. -/
def takeFitting : Nat → Nat → List Char → Nat × Nat × List Char
  | n, count, [] => (n, count, [])
  | n, count, c :: cs =>
    if c.isDigit ∧ n * 10 + digitValue c ≤ maxUnsigned then
      takeFitting (n * 10 + digitValue c) (count + 1) cs
    else (n, count, c :: cs)

def startsWithDigit : List Char → Bool
  | c :: _ => c.isDigit
  | [] => false

def dropDigits (cs : List Char) : List Char := cs.dropWhile Char.isDigit

/-! ### Parts of a number -/

def maxExponent : Nat := 0x7FFFFFFF

/-- The digits of an exponent; none when they exceed the range, with the rest. -/
def exponentDigits : Nat → List Char → Option Nat × List Char
  | n, [] => (some n, [])
  | n, c :: cs =>
    if c.isDigit then
      if n * 10 + digitValue c ≤ maxExponent then exponentDigits (n * 10 + digitValue c) cs
      else (none, cs)
    else (some n, c :: cs)

/-- After the letter of the exponent. -/
def exponentPart (positive : Bool) (digits : Nat) (e : Int) (cs : List Char) : Step Json :=
  let (up, cs) : Bool × List Char := match cs with
    | '+' :: r => (true, r)
    | '-' :: r => (false, r)
    | r => (true, r)
  match cs with
  | [] => .error (stopAt .endInValue [])
  | c :: r =>
    if !c.isDigit then .error (stopIn .invalidNumber (c :: r))
    else match exponentDigits (digitValue c) r with
      | (some n, rest) => floatOf positive digits (if up then e + n else e - n) rest
      | (none, rest) =>
        if digits ≠ 0 ∧ up then .error (stopAt .numberOutOfRange rest)
        else .ok (.float (.ofFloat (if positive then 0.0 else -0.0)), dropDigits rest)

def afterDigits (positive : Bool) (digits : Nat) (e : Int) (cs : List Char) : Step Json :=
  match cs with
  | 'e' :: r | 'E' :: r => exponentPart positive digits e r
  | r => floatOf positive digits e r

/-- After the decimal point. -/
def fractionPart (positive : Bool) (digits : Nat) (e : Int) (cs : List Char) : Step Json :=
  let (digits, count, rest) := takeFitting digits 0 cs
  if startsWithDigit rest then afterDigits positive digits (e - count) (dropDigits rest)
  else if count = 0 then
    match rest with
    | [] => .error (stopAt .endInValue [])
    | r => .error (stopIn .invalidNumber r)
  else afterDigits positive digits (e - count) rest

/-- After a whole part that fits 64 bits. -/
def wholePart (positive : Bool) (digits : Nat) (cs : List Char) : Step Json :=
  match cs with
  | '.' :: r => fractionPart positive digits 0 r
  | 'e' :: r | 'E' :: r => exponentPart positive digits 0 r
  | r =>
    if positive then .ok (.int digits, r)
    else if digits = 0 ∨ 0x8000000000000000 < digits then
      .ok (.float (.ofFloat (-(Float.ofScientific digits false 0))), r)
    else .ok (.int (-digits), r)

/-- After a whole part of which `dropped` digits no longer fit. -/
def longPart (positive : Bool) (digits dropped : Nat) (cs : List Char) : Step Json :=
  match cs with
  | '.' :: r => fractionPart positive digits dropped r
  | r => afterDigits positive digits dropped r

/-- A number after its sign. -/
def number (positive : Bool) (cs : List Char) : Step Json :=
  match cs with
  | [] => .error (stopAt .endInValue [])
  | '0' :: r =>
    if startsWithDigit r then .error (stopIn .invalidNumber r) else wholePart positive 0 r
  | c :: r =>
    if c.isDigit then
      let (digits, _, rest) := takeFitting (digitValue c) 0 r
      if startsWithDigit rest then
        longPart positive digits (rest.length - (dropDigits rest).length) (dropDigits rest)
      else wholePart positive digits rest
    else .error (stopIn .invalidNumber (c :: r))

end NoteForms.Json
