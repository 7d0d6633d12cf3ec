import NoteForms.Decimal.Double

/-! The fewest decimal digits that read back as a given binary64 number. A
number is taken apart into `m * 2 ^ q`; the reals that round to it form an
interval, closed exactly when `m` is even; the grids of one, two, up to seventeen
digits are searched for a point of the interval next to the number. All
comparisons are between natural numbers. -/

namespace NoteForms.Decimal

/-- A positive number `m * 2 ^ q`. -/
structure Binary where
  m : Nat
  q : Int
  /-- The gap to the next number below is half the gap to the next above. -/
  narrowBelow : Bool

def Binary.ofDouble (x : Double) : Binary :=
  let e := (x.magnitude >>> 52).toNat
  let f := (x.magnitude &&& 0xFFFFFFFFFFFFF).toNat
  if e = 0 then ⟨f, -1074, false⟩ else ⟨0x10000000000000 + f, e - 1075, f == 0 && 1 < e⟩

/-- The numeral `digits * 10 ^ exponent`. -/
structure Numeral where
  digits : Nat
  exponent : Int
  deriving DecidableEq, Repr

/-- Compares `a * 10 ^ i` with `n * 2 ^ j`. -/
def compareScaled (a : Nat) (i : Int) (n : Nat) (j : Int) : Ordering :=
  compare (a * Nat.pow 10 i.toNat * Nat.pow 2 (-j).toNat)
    (n * Nat.pow 2 j.toNat * Nat.pow 10 (-i).toNat)

/-- The numeral lies among the reals that round to the number. -/
def Binary.readsBack (x : Binary) (d : Numeral) : Bool :=
  let below := if x.narrowBelow then 4 * x.m - 1 else 4 * x.m - 2
  let closed := x.m % 2 == 0
  let low := compareScaled d.digits d.exponent below (x.q - 2)
  let high := compareScaled d.digits d.exponent (4 * x.m + 2) (x.q - 2)
  (low == .gt || closed && low == .eq) && (high == .lt || closed && high == .eq)

/-- The least `k` with `m * 2 ^ q < 10 ^ k`, from an estimate of the logarithm. -/
def Binary.scale (x : Binary) : Int :=
  let guess := ((x.m.log2 : Int) + x.q) * 30103 / 100000
  ([guess - 1, guess, guess + 1, guess + 2].find? fun k =>
    compareScaled 1 k x.m x.q == .gt).getD (guess + 3)

/-- The point of the grid `10 ^ g` nearest to the number among those that read
back, the even one of two equally near. -/
def Binary.onGrid (x : Binary) (g : Int) : Option Numeral :=
  let num := x.m * Nat.pow 2 x.q.toNat * Nat.pow 10 (-g).toNat
  let den := Nat.pow 2 (-x.q).toNat * Nat.pow 10 g.toNat
  let low := num / den
  let near : List Nat :=
    match compare (2 * num) ((2 * low + 1) * den) with
    | .lt => [low, low + 1]
    | .gt => [low + 1, low]
    | .eq => if low % 2 = 0 then [low, low + 1] else [low + 1, low]
  (near.map (Numeral.mk · g)).find? x.readsBack

/-- Drops zeros at the end of the digits; `fuel` bounds their number. -/
def Numeral.strip : Nat → Numeral → Numeral
  | 0, d => d
  | fuel + 1, d =>
    if d.digits ≠ 0 ∧ d.digits % 10 = 0 then strip fuel ⟨d.digits / 10, d.exponent + 1⟩ else d

def Binary.shortest (x : Binary) : Numeral :=
  let k := x.scale
  let found := (List.range 17).findSome? fun n : Nat => x.onGrid (k - (n + 1 : Nat))
  (found.getD ⟨x.m * Nat.pow 2 x.q.toNat, 0⟩).strip 400

end NoteForms.Decimal
