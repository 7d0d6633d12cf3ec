/-! The place in a numbered list of records. Bounds and places are unsigned words;
clamping compares them as signed words, so a bound of 2^63 or more lies below all
smaller ones. -/

namespace NoteForms.Edit

structure Pager where
  min : UInt64
  /-- None while it is not known how many records there are. -/
  max : Option UInt64
  /-- None while nothing is selected. -/
  value : Option UInt64
  deriving DecidableEq, Repr

namespace Pager

/-- A pager with nothing selected. -/
def start (min : UInt64) (max : Option UInt64) : Pager := ⟨min, max, none⟩

/-- The greatest signed bound: the maximum, but not below the minimum. -/
def upper (p : Pager) : Int64 :=
  match p.max with
  | some m => if m.toInt64 < p.min.toInt64 then p.min.toInt64 else m.toInt64
  | none => p.min.toInt64

/-- The nearest place within the bounds. -/
def clamp (p : Pager) (v : Int64) : UInt64 :=
  (if v < p.min.toInt64 then p.min.toInt64 else if p.upper < v then p.upper else v).toUInt64

/-- A new maximum. The first one known is selected; later ones draw the selection in. -/
def setMax (p : Pager) (max : Option UInt64) : Pager :=
  let q := { p with max }
  { q with value := match p.value, max with
    | _, none => none
    | none, some m => some m
    | some v, some _ => some (q.clamp v.toInt64) }

/-- Selects the nearest place, if a maximum is known. -/
def select (p : Pager) (v : Option UInt64) : Pager :=
  { p with value := match v, p.max with
    | some v, some _ => some (p.clamp v.toInt64)
    | _, _ => none }

/-- Moves the selection, if there is one, up to the bounds. -/
def move (p : Pager) (steps : Int64) : Pager :=
  { p with value := p.value.map fun v => p.clamp (v.toInt64 + steps) }

def clear (p : Pager) : Pager := { p with value := none }

end Pager

end NoteForms.Edit
