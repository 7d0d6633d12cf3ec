import NoteForms.Setup.Settings
import NoteForms.Setup.Path
import NoteForms.Decode.Record
import NoteForms.Decode.Sum

/-! The configuration that a form block writes down: where the records are, and
the schema and the UI schema, each written in place or kept in a file. A file may
leave out its path, which is then that of the note of the block, and its key,
which then is the one in the settings. -/

namespace NoteForms.Setup

/-! ### Parts -/

/-- A file and a key of its frontmatter. -/
structure FileKey where
  path : String
  key : String
  deriving DecidableEq, Repr

/-- The value is the whole text of the file, whatever the key. -/
def FileKey.isJson (f : FileKey) : Bool := isJsonPath f.path

/-- A document written in place or kept in a file. -/
inductive Source where
  | inline (document : Object)
  | file (file : FileKey)
  deriving DecidableEq

def Source.file? : Source → Option FileKey
  | .inline _ => none
  | .file f => some f

structure Configuration where
  records : FileKey
  schema : Source
  uiSchema : Option Source
  deriving DecidableEq

/-- What each part that names a file falls back to. -/
structure Defaults where
  records : FileKey
  schema : FileKey
  uiSchema : FileKey
  deriving DecidableEq, Repr

/-- The defaults of a block in the note at a path. -/
def Settings.defaults (s : Settings) (notePath : String) : Defaults :=
  let path := normalizePath notePath
  ⟨⟨path, s.records⟩, ⟨path, s.schema⟩, ⟨path, s.uiSchema⟩⟩

/-! ### Decoding -/

open Decode

def fileKey (default : FileKey) : Decoder FileKey :=
  layered default
    [.of "path" Decoder.string fun path f => { f with path := normalizePath path },
      .of "frontmatter" Decoder.string fun key f => { f with key }]

def recordsFile (default : FileKey) : Decoder FileKey := sum [⟨"file", fileKey default⟩]

def source (default : FileKey) : Decoder Source :=
  sum [⟨"inline", Decoder.record.map .inline⟩, ⟨"file", (fileKey default).map .file⟩]

/-- Decodes a configuration and reports the failures of all its parts. -/
def configuration (d : Defaults) : Decoder Configuration :=
  ⟨fun v => do
    let object ← Decoder.record.decode v
    let (records, schema, uiSchema) ←
      both (required object Settings.recordsName (recordsFile d.records))
        (both (required object Settings.schemaName (source d.schema))
          (optional object Settings.uiSchemaName (source d.uiSchema)))
    return ⟨records, schema, uiSchema⟩⟩

/-- Reads the body of a block in a language. -/
def Configuration.read (language body : String) (d : Defaults) : Except BlockFault Configuration := do
  let some format := Format.ofLanguage? language | throw (.unsupportedLanguage language)
  let v ← (format.parse body).mapError (.unreadable format)
  ((configuration d).decode v).mapError .invalid

/-! ### Encoding -/

def FileKey.toJson (f : FileKey) : Json :=
  .obj [("path", .str f.path), ("frontmatter", .str f.key)]

def Source.toJson : Source → Json
  | .inline document => .obj [("inline", .obj document)]
  | .file f => .obj [("file", f.toJson)]

/-- The value that decodes to the configuration; a part that is absent is left out. -/
def Configuration.toJson (c : Configuration) : Json :=
  .obj ([(Settings.recordsName, .obj [("file", c.records.toJson)]),
    (Settings.schemaName, c.schema.toJson)] ++
    match c.uiSchema with
    | none => []
    | some s => [(Settings.uiSchemaName, s.toJson)])

end NoteForms.Setup
