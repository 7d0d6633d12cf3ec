import NoteForms.Proofs.Decode.Accepts
import NoteForms.Records.Store

/-! What is stored, said without a decoder: the records under a key of a frontmatter,
and those of a JSON text. A store reads records exactly where some are stored. A schema is the
object under its key, and what else may be there is as good as none. -/

namespace NoteForms.Records

open Decode Edit

/-- The value that records are stored as. -/
def listed (rs : List Record) : Json := .arr (rs.map .obj)

/-- The records under a key. What is absent or null is no records. -/
inductive Stored (fields : Object) (key : String) : List Record → Prop where
  | list {rs : List Record} (h : fields.lookup key = some (listed rs)) : Stored fields key rs
  | absent (h : fields.lookup key = none) : Stored fields key []
  | null (h : fields.lookup key = some .null) : Stored fields key []

/-- The records of a text. Blank text is no records. -/
inductive Written (text : String) : List Record → Prop where
  | list {rs : List Record} (hb : Text.isBlank text.toList = false)
    (hr : Json.read text = .ok (listed rs)) : Written text rs
  | blank (hb : Text.isBlank text.toList = true) : Written text []

/-! ### Decoding -/

/-- A list of records decodes if it holds objects only. -/
theorem gather_decodeItems_eq_ok {vs : List Json} {n : Nat} {rs : List Record} :
    gather (decodeItems Decoder.record n vs) = .ok rs ↔ vs = rs.map .obj := by
  induction vs generalizing n rs with
  | nil => simp [decodeItems, gather, eq_comm]
  | cons v vs ih =>
    rw [decodeItems, gather_cons_eq_ok]
    constructor
    · rintro ⟨r, rest, hr, hrest, rfl⟩
      rw [decode_record_eq_ok.mp (mapError_eq_ok.mp hr), ih.mp hrest, List.map_cons]
    · intro h
      cases rs with
      | nil => contradiction
      | cons r rs =>
        obtain ⟨hv, hvs⟩ := List.cons.inj h
        exact ⟨r, rs, mapError_eq_ok.mpr (decode_record_eq_ok.mpr hv), ih.mpr hvs, rfl⟩

theorem decodeRecords_eq_ok {f : Setup.FileKey} {v : Json} {rs : List Record} :
    Store.decodeRecords f v = .ok rs ↔ v = listed rs := by
  rw [Store.decodeRecords, mapError_eq_ok]
  cases v with
  | arr vs =>
    show gather (decodeItems Decoder.record 0 vs) = .ok rs ↔ _
    rw [gather_decodeItems_eq_ok, listed, Json.arr.injEq]
  | _ =>
    constructor
    · intro h
      contradiction
    · intro h
      contradiction

/-! ### Stores -/

/-- A store reads the records that are stored under its key, and faults otherwise. -/
theorem ofFrontmatter_eq_ok {f : Setup.FileKey} {fields : Object} {rs : List Record} :
    Store.ofFrontmatter f fields = .ok rs ↔ Stored fields f.key rs := by
  unfold Store.ofFrontmatter
  cases hp : present? fields f.key with
  | none =>
    have hn := present?_eq_none.mp hp
    simp only [Except.ok.injEq]
    constructor
    · rintro rfl
      exact hn.elim .absent .null
    · intro h
      cases h with
      | list h => rcases hn with hn | hn <;> rw [hn] at h <;> simp [listed] at h
      | absent | null => rfl
  | some v =>
    obtain ⟨hv, hne⟩ := present?_eq_some.mp hp
    rw [decodeRecords_eq_ok]
    constructor
    · rintro rfl
      exact .list hv
    · intro h
      cases h with
      | list h => exact Option.some.inj (hv.symm.trans h)
      | absent h => rw [hv] at h; contradiction
      | null h => rw [hv] at h; exact absurd (Option.some.inj h) hne

theorem ofText_eq_ok {f : Setup.FileKey} {text : String} {rs : List Record} :
    Store.ofText f text = .ok rs ↔ Written text rs := by
  unfold Store.ofText
  cases hb : Text.isBlank text.toList with
  | true =>
    simp only [if_true, Except.ok.injEq]
    constructor
    · rintro rfl
      exact .blank hb
    · intro h
      cases h with
      | list hb' => rw [hb] at hb'; contradiction
      | blank => rfl
  | false =>
    simp only [Bool.false_eq_true, if_false]
    cases hr : Json.read text with
    | error fault =>
      constructor
      · intro h
        contradiction
      · intro h
        cases h with
        | list _ hr' => rw [hr] at hr'; contradiction
        | blank hb' => rw [hb] at hb'; contradiction
    | ok v =>
      simp only [decodeRecords_eq_ok]
      constructor
      · rintro rfl
        exact .list hb hr
      · intro h
        cases h with
        | list _ hr' => exact Except.ok.inj (hr.symm.trans hr')
        | blank hb' => rw [hb] at hb'; contradiction

/-- A JSON file holds the same records under any key. -/
theorem ofText_congr {f g : Setup.FileKey} (hp : f.path = g.path) (hj : f.isJson = true) :
    Store.ofText f = Store.ofText g := by
  have hj' : g.isJson = true := by rwa [Setup.FileKey.isJson, ← hp]
  have hd : Store.decodeRecords f = Store.decodeRecords g := by
    funext v
    simp [Store.decodeRecords, location, hj, hj', hp]
  funext text
  simp [Store.ofText, hp, hd]

/-! ### Schemas -/

/-- The object of a schema as it is known now, none where its key is absent or holds no object. -/
def Document.resolved? (d : Document) (h : Host) : Option Object :=
  match d with
  | .inline o => some o
  | .file f n => ((h.notes[n]?).bind (·.data)).bind fun fields =>
      (fields.lookup f.key).bind Json.asObject?

theorem value_resolved (d : Document) (h : Host) :
    (match d.value h with
      | .ok v => v
      | .error _ => none) = d.resolved? h := by
  cases d with
  | inline o => rfl
  | file f n =>
    simp only [Document.value, Document.resolved?]
    cases (h.notes[n]?).bind (·.data) with
    | none => rfl
    | some fields =>
      cases hl : fields.lookup f.key with
      | none => simp [present?, hl]
      | some v => cases v <;> simp [present?, hl] <;> rfl

end NoteForms.Records
