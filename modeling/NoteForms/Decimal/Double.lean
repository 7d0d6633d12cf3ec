/-! Finite binary64 numbers, kept as their bits so that equality of values is
decidable. Numeric comparison, the nearest number to a decimal, and the whole
numbers as floats are here; the decimal text of a number is not. -/

namespace NoteForms

/-- A binary64 number by its bits. The values of this library are finite. -/
structure Double where
  bits : UInt64
  deriving DecidableEq, Repr

namespace Double

def ofFloat (x : Float) : Double := ⟨x.toBits⟩

def isNegative (x : Double) : Bool := x.bits >>> 63 == 1

/-- The bits without the sign. -/
def magnitude (x : Double) : UInt64 := x.bits &&& 0x7FFFFFFFFFFFFFFF

def isZero (x : Double) : Bool := x.magnitude == 0

def isFinite (x : Double) : Bool := x.magnitude < 0x7FF0000000000000

def neg (x : Double) : Double := ⟨x.bits ^^^ 0x8000000000000000⟩

/-- Equality of numbers: the two zeros are the same number. -/
def same (x y : Double) : Bool := x == y || (x.isZero && y.isZero)

/-- The number nearest to a whole number. -/
def ofInt (n : Int) : Double :=
  let x := ofFloat (Float.ofScientific n.natAbs false 0)
  if n < 0 then x.neg else x

/-- The number nearest to `m * 10 ^ e` with the given sign, none when it lies
beyond the largest finite number. The exponent is compared with the range of the
format first, so no power is computed for a hopeless exponent. -/
def nearest? (negative : Bool) (m : Nat) (e : Int) : Option Double :=
  let top := (Nat.toDigits 10 m).length + e
  let x : Double :=
    if m = 0 ∨ top < -400 then ⟨0⟩
    else if 400 < top then ⟨0x7FF0000000000000⟩
    else ofFloat (Float.ofScientific m (e < 0) e.natAbs)
  if x.isFinite then some (if negative then x.neg else x) else none

end Double

end NoteForms
