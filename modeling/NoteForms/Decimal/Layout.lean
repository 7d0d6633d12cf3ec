import NoteForms.Decimal.Shortest

/-! How the digits of a number are laid out: where plain notation gives way to an
exponent, and whether a positive exponent carries a sign. Every text has a point
or an exponent, so it never reads as a whole number. -/

namespace NoteForms.Decimal

/-- Layout decisions. The exponent meant is that of the leading digit. -/
structure Layout where
  /-- The least exponent written plainly. -/
  plainFrom : Int
  /-- The least exponent above it that is no longer written plainly. -/
  plainBelow : Int
  /-- A positive exponent is written with its sign. -/
  plusSign : Bool

namespace Layout

def zeros (n : Nat) : List Char := List.replicate n '0'

def exponentText (f : Layout) (e : Int) : List Char :=
  'e' :: (if e < 0 then ['-'] else if f.plusSign then ['+'] else []) ++ Nat.toDigits 10 e.natAbs

/-- The text of a positive numeral. -/
def place (f : Layout) (d : Numeral) : List Char :=
  let ds := Nat.toDigits 10 d.digits
  let e := d.exponent + ds.length - 1
  if f.plainFrom ≤ e ∧ e < f.plainBelow then
    if 0 ≤ d.exponent then ds ++ zeros d.exponent.toNat ++ ['.', '0']
    else if 0 ≤ e then ds.take (e.toNat + 1) ++ '.' :: ds.drop (e.toNat + 1)
    else '0' :: '.' :: zeros (-e - 1).toNat ++ ds
  else
    match ds with
    | [c] => c :: f.exponentText e
    | c :: rest => c :: '.' :: rest ++ f.exponentText e
    | [] => []

def render (f : Layout) (x : Double) : List Char :=
  (if x.isNegative then ['-'] else []) ++
    if x.isZero then ['0', '.', '0'] else f.place (Binary.ofDouble x).shortest

end Layout

end NoteForms.Decimal
