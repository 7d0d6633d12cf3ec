import NoteForms.Decimal.Double

/-! Untyped values. An object is a list of entries in order of first arrival: a
repeated key keeps its first position and takes its last value. Whole numbers and
floats are different values. -/

namespace NoteForms

/-! ### Entries -/

/-- Associations in order of first arrival. -/
abbrev Entries (α : Type) := List (String × α)

namespace Entries

variable {α : Type}

def keys (es : Entries α) : List String := es.map Prod.fst

/-- Stores a value under a key: in place when the key is there, at the end otherwise. -/
def put : Entries α → String → α → Entries α
  | [], k, v => [(k, v)]
  | (k', v') :: es, k, v => if k' = k then (k, v) :: es else (k', v') :: put es k v

/-- Removes the entry of a key and keeps the order of the others. -/
def remove : Entries α → String → Entries α
  | [], _ => []
  | (k', v') :: es, k => if k' = k then es else (k', v') :: remove es k

theorem lookup_cons (k k' : String) (v : α) (es : Entries α) :
    List.lookup k ((k', v) :: es) = if k = k' then some v else es.lookup k := by
  change (match decide (k = k') with
    | true => some v
    | false => es.lookup k) = _
  by_cases hk : k = k' <;> simp [hk]

theorem lookup_put_self (es : Entries α) (k : String) (v : α) :
    (put es k v).lookup k = some v := by
  induction es with
  | nil => simp [put]
  | cons e es ih =>
    obtain ⟨k', v'⟩ := e
    by_cases h : k' = k
    · simp [put, h]
    · have hk : ¬k = k' := fun e => h e.symm
      simp [put, h, lookup_cons, hk, ih]

theorem lookup_put_of_ne {k j : String} (h : j ≠ k) (es : Entries α) (v : α) :
    (put es k v).lookup j = es.lookup j := by
  induction es with
  | nil => simp [put, lookup_cons, h]
  | cons e es ih =>
    obtain ⟨k', v'⟩ := e
    by_cases hk : k' = k
    · subst hk
      simp [put, lookup_cons, h]
    · simp [put, hk, lookup_cons, ih]

end Entries

/-! ### Values -/

inductive Json where
  | null
  | bool (b : Bool)
  | int (n : Int)
  | float (x : Double)
  | str (s : String)
  | arr (items : List Json)
  | obj (fields : List (String × Json))

/-- The entries of an object. -/
abbrev Object := Entries Json

namespace Json

instance : Inhabited Json := ⟨.null⟩

def isNull : Json → Bool
  | .null => true
  | _ => false

def asObject? : Json → Option Object
  | .obj fields => some fields
  | _ => none

def asArray? : Json → Option (List Json)
  | .arr items => some items
  | _ => none

def asString? : Json → Option String
  | .str s => some s
  | _ => none

/-- The value under a key, none when the value is no object or lacks the key. -/
def get? (v : Json) (key : String) : Option Json :=
  v.asObject?.bind (·.lookup key)

end Json

end NoteForms
