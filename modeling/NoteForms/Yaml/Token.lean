/-! The tokens of a YAML text. Indentation shows as the starts and ends of block
collections; a scalar is already freed of its quotes, escapes and folds. -/

namespace NoteForms.Yaml

/-- The text of a tag. An escape may spell no character. -/
abbrev TagText := List (Option Char)

inductive Token where
  | version (major minor : Nat)
  | tagHandle (handle : List Char) (uri : TagText)
  | documentStart
  | documentEnd
  | blockSequence
  | blockMapping
  | blockEnd
  | flowSequence
  | flowSequenceEnd
  | flowMapping
  | flowMappingEnd
  /-- The dash in front of an item. -/
  | item
  | comma
  /-- In front of a key, marked or not. -/
  | key
  /-- The colon in front of a value. -/
  | value
  | alias (name : List Char)
  | anchor (name : List Char)
  | tag (handle : List Char) (suffix : TagText)
  | scalar (plain : Bool) (text : List Char)
  deriving DecidableEq, Repr

end NoteForms.Yaml
