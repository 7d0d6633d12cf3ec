import NoteForms.Setup.Configuration

/-! Records read property by property. Each property has a key and a decoder of its own
and is required or optional; what is wrong with one of them does not keep the others from
being read. The decoder of configurations is one of these. -/

namespace NoteForms.Decode

/-- The properties of a record, in the order in which they are read, with what they are
read as. -/
inductive Properties : Type → Type 1 where
  | none : Properties Unit
  | required {β γ : Type} (key : String) (d : Decoder β) (rest : Properties γ) : Properties (β × γ)
  | optional {β γ : Type} (key : String) (d : Decoder β) (rest : Properties γ) :
    Properties (Option β × γ)

/-- One property, whatever it is read as. -/
structure Property where
  key : String
  needed : Bool
  {Value : Type}
  decoder : Decoder Value

namespace Properties

variable {α γ : Type}

def toList : {γ : Type} → Properties γ → List Property
  | _, .none => []
  | _, .required key d rest => ⟨key, true, d⟩ :: rest.toList
  | _, .optional key d rest => ⟨key, false, d⟩ :: rest.toList

/-- Reads all properties of an object. -/
def read (o : Object) : {γ : Type} → Properties γ → Except Failures γ
  | _, .none => .ok ()
  | _, .required key d rest => both (Decode.required o key d) (rest.read o)
  | _, .optional key d rest => both (Decode.optional o key d) (rest.read o)

/-- A record made of the properties of an object. -/
def decoder (ps : Properties γ) (build : γ → α) : Decoder α :=
  ⟨fun v => do return build (← ps.read (← Decoder.record.decode v))⟩

theorem decode_decoder (ps : Properties γ) (build : γ → α) (o : Object) :
    (ps.decoder build).decode (.obj o) = (ps.read o).map build := by
  show (ps.read o).bind _ = _
  cases ps.read o <;> rfl

end Properties

end NoteForms.Decode

namespace NoteForms.Setup

open Decode

/-- The parts of a configuration. -/
def configurationProperties (d : Defaults) :
    Properties (FileKey × Source × Option Source × Unit) :=
  .required Settings.recordsName (recordsFile d.records)
    (.required Settings.schemaName (source d.schema)
      (.optional Settings.uiSchemaName (source d.uiSchema) .none))

theorem configuration_eq (d : Defaults) :
    configuration d = (configurationProperties d).decoder fun (records, schema, uiSchema, ()) =>
      ⟨records, schema, uiSchema⟩ := by
  unfold configuration Properties.decoder
  congr 1
  funext v
  cases Decoder.record.decode v with
  | error fs => rfl
  | ok o =>
    show (both _ (both _ _)).bind _ = (both _ (both _ (both _ (.ok ())))).bind _
    cases required o Settings.recordsName (recordsFile d.records) <;>
      cases required o Settings.schemaName (source d.schema) <;>
      cases optional o Settings.uiSchemaName (source d.uiSchema) <;> rfl

end NoteForms.Setup
