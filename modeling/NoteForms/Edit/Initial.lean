import NoteForms.Edit.Drafts

/-! The value that a schema starts from: its default, or the empty value of its
type. An object starts with the defaults of its properties. -/

namespace NoteForms.Edit

/-- The type that a schema names, the first one of a list of types. -/
def typeName? (schema : Json) : Option String :=
  match schema.get? "type" with
  | some (.str t) => some t
  | some (.arr ts) => ts.head?.bind Json.asString?
  | _ => none

/-- The defaults of those properties that have one. -/
def propertyDefaults (schema : Json) : Object :=
  (((schema.get? "properties").bind Json.asObject?).getD []).filterMap fun (name, property) =>
    (property.get? "default").map fun v => (name, v)

/-- The empty value of a type. A schema without a type is one of objects. -/
def emptyValue (schema : Json) : Json :=
  match typeName? schema with
  | none | some "object" => .obj (propertyDefaults schema)
  | some "string" => .str ""
  | some "number" | some "integer" => .int 0
  | some "boolean" => .bool false
  | some "array" => .arr []
  | some _ => .null

def initialValue (schema : Json) : Json :=
  match schema.get? "default" with
  | some v => v
  | none => emptyValue schema

/-- The record that a new form starts from, empty when the schema's is no object. -/
def initialRecord (schema : Option Object) : Record :=
  match schema with
  | none => []
  | some fields => ((initialValue (.obj fields)).asObject?).getD []

end NoteForms.Edit
