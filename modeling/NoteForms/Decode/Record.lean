import NoteForms.Decode.Decoder

/-! Decoding the entries of an object. An entry that is null counts as absent. A
required entry must be there; layered decoding writes the entries that are there
over defaults, each with its own decoder, and reports all that fail. -/

namespace NoteForms.Decode

variable {α β : Type}

/-- The value of an entry that is there and not null. -/
def present? (object : Object) (key : String) : Option Json :=
  match object.lookup key with
  | none | some .null => none
  | some v => some v

theorem present?_eq_some {fields : Object} {key : String} {v : Json} :
    present? fields key = some v ↔ fields.lookup key = some v ∧ v ≠ .null := by
  unfold present?
  cases fields.lookup key with
  | none => simp
  | some w =>
    cases w with
    | null =>
      constructor
      · intro h
        contradiction
      · rintro ⟨hv, hne⟩
        exact absurd (Option.some.inj hv).symm hne
    | _ =>
      constructor
      · intro h
        exact ⟨h, by rw [← Option.some.inj h]; simp⟩
      · exact fun h => h.1

theorem present?_eq_none {fields : Object} {key : String} :
    present? fields key = none ↔ fields.lookup key = none ∨ fields.lookup key = some .null := by
  cases hp : present? fields key with
  | some v =>
    obtain ⟨hv, hne⟩ := present?_eq_some.mp hp
    simp [hv, hne]
  | none =>
    cases hl : fields.lookup key with
    | none => simp
    | some v =>
      by_cases hv : v = .null
      · simp [hv]
      · rw [present?_eq_some.mpr ⟨hl, hv⟩] at hp
        contradiction

def required (object : Object) (key : String) (d : Decoder α) : Except Failures α :=
  match present? object key with
  | none => .error (.under (.key key) (.root .missing))
  | some v => (d.decode v).mapError (.under (.key key))

def optional (object : Object) (key : String) (d : Decoder α) : Except Failures (Option α) :=
  match present? object key with
  | none => .ok none
  | some v => (d.decode v).map some |>.mapError (.under (.key key))

/-! ### Layers -/

/-- An entry and how its value is written into a target. -/
structure Field (α : Type) where
  key : String
  apply : Json → Except Failures (α → α)

/-- Decodes the value, then stores it. -/
def Field.of (key : String) (d : Decoder β) (store : β → α → α) : Field α :=
  ⟨key, fun v => (d.decode v).map store⟩

/-- Writes the entries of an object into a target, field by field; the fields that
fail leave it as it is and are listed. -/
def overlay (object : Object) : List (Field α) → α → α × List Failures
  | [], target => (target, [])
  | f :: fs, target =>
    match present? object f.key with
    | none => overlay object fs target
    | some v =>
      match f.apply v with
      | .ok store => overlay object fs (store target)
      | .error e =>
        let (target, es) := overlay object fs target
        (target, .under (.key f.key) e :: es)

/-- The defaults, under the entries of the decoded object. Null stands for an
object without entries. -/
def layered (defaults : α) (fields : List (Field α)) : Decoder α :=
  ⟨fun v =>
    if v.isNull then .ok defaults
    else do
      let object ← Decoder.record.decode v
      match overlay object fields defaults with
      | (target, []) => return target
      | (_, es) => throw es.flatten⟩

end NoteForms.Decode
