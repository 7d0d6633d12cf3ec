import NoteForms.Fault

/-! Settings: for each part of a configuration the frontmatter key that is meant
when a block names none. Stored settings are read over the defaults entry by
entry; null entries count as absent. -/

namespace NoteForms.Setup

structure Settings where
  records : String := "data"
  schema : String := "schema"
  uiSchema : String := "uischema"
  deriving DecidableEq, Repr

namespace Settings

/-- The names of the parts in stored settings. -/
def recordsName : String := "datasource"

def schemaName : String := "schema"

def uiSchemaName : String := "uischema"

/-- The entry of a part that holds its key. -/
def keyName : String := "frontmatter"

/-! ### Reading -/

mutual

/-- An object without its null entries, at any depth of objects. -/
def withoutNulls : Json → Json
  | .obj fields => .obj (fieldsWithoutNulls fields)
  | v => v

def fieldsWithoutNulls : List (String × Json) → List (String × Json)
  | [] => []
  | (k, v) :: fs =>
    if v.isNull then fieldsWithoutNulls fs else (k, withoutNulls v) :: fieldsWithoutNulls fs

end

/-- The key of a part. An object says it under its name or leaves the default, a
list says it in its first item; nothing else is accepted. -/
def partKey (default : String) : Json → Except SettingsFault String
  | .obj fields =>
    match fields.lookup keyName with
    | none => .ok default
    | some (.str s) => .ok s
    | some _ => .error .shape
  | .arr (.str s :: _) => .ok s
  | _ => .error .shape

def part (stored : Object) (name default : String) : Except SettingsFault String :=
  match stored.lookup name with
  | none => .ok default
  | some v => partKey default v

/-- Stored settings over the defaults. What is stored counts only if it is an object. -/
def merged (stored : Option Json) : Except SettingsFault Settings := do
  let fields := match stored with
    | some (.obj fields) => fieldsWithoutNulls fields
    | _ => []
  let defaults : Settings := {}
  return {
    records := ← part fields recordsName defaults.records
    schema := ← part fields schemaName defaults.schema
    uiSchema := ← part fields uiSchemaName defaults.uiSchema }

/-! ### Writing -/

def toJson (s : Settings) : Json :=
  .obj [(recordsName, .obj [(keyName, .str s.records)]), (schemaName, .obj [(keyName, .str s.schema)]),
    (uiSchemaName, .obj [(keyName, .str s.uiSchema)])]

/-- The entry of stored data that holds the settings. -/
def storeKey : String := "settings"

end Settings

/-! ### Storage -/

/-- A host that keeps data. Either call may fail, and may leave the host in another state. -/
structure Storage (σ : Type) where
  load : σ → Except SettingsFault (Option Json) × σ
  save : Json → σ → Except SettingsFault Unit × σ

namespace Storage

variable {σ : Type} (k : Storage σ)

/-- The settings that are stored. -/
def settings (c : σ) : Except SettingsFault Settings × σ :=
  match k.load c with
  | (.error fault, c) => (.error fault, c)
  | (.ok data, c) => (Settings.merged (data.bind (·.get? Settings.storeKey)), c)

/-- Stores settings and keeps the other entries of the data, if that is an object. -/
def putSettings (s : Settings) (c : σ) : Except SettingsFault Unit × σ :=
  match k.load c with
  | (.error fault, c) => (.error fault, c)
  | (.ok data, c) =>
    let fields : Object := (data.bind Json.asObject?).getD []
    k.save (.obj (fields.put Settings.storeKey s.toJson)) c

end Storage

/-- The data that a host keeps in memory, with switches that make it fail. -/
structure DataStore where
  data : Option Json := none
  failLoad : Bool := false
  failSave : Bool := false

/-- A call that fails leaves the data as it was. -/
def DataStore.storage : Storage DataStore where
  load d := if d.failLoad then (.error (.store "load disabled"), d) else (.ok d.data, d)
  save data d :=
    if d.failSave then (.error (.store "save disabled"), d) else (.ok (), { d with data := some data })

namespace Settings

def load (d : DataStore) : Except SettingsFault Settings := (DataStore.storage.settings d).1

def save (s : Settings) (d : DataStore) : Except SettingsFault DataStore :=
  let (result, d) := DataStore.storage.putSettings s d
  result.map fun _ => d

end Settings

end NoteForms.Setup
