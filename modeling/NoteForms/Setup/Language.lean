import NoteForms.Json.Reader
import NoteForms.Yaml.Reader

/-! The languages of form blocks. A block is tagged with the name of its format, a
dash and a common ending. -/

namespace NoteForms.Setup

/-- How the body of a block is written. -/
inductive Format where
  | yaml
  | json
  deriving DecidableEq, Repr

namespace Format

def name : Format → String
  | .yaml => "YAML"
  | .json => "JSON"

/-- What the languages of a format start with. -/
def extensions : Format → List String
  | .yaml => ["yaml", "yml"]
  | .json => ["json", "jsn", "jsonc"]

/-- What all languages end with. -/
def ending : String := "data-entry"

def languages (f : Format) : List String := f.extensions.map fun e => e ++ "-" ++ ending

/-- The format of a language; none for a language that is no form block's. -/
def ofLanguage? (language : String) : Option Format :=
  [yaml, json].find? fun f => f.languages.contains language

/-- What stands for the reason of a fault in a YAML text. -/
def yamlReason : String := "<yaml>"

/-- Reads the body of a block, or says why it cannot be read. -/
def parse (f : Format) (source : String) : Except String Json :=
  match f with
  | .yaml => match Yaml.read source with
    | some v => .ok v
    | none => .error yamlReason
  | .json => (Json.read source).mapError Json.Fault.message

end Format

/-- All languages of form blocks. -/
def languages : List String := Format.yaml.languages ++ Format.json.languages

end NoteForms.Setup
