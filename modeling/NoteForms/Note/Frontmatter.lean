import NoteForms.Yaml.Reader
import NoteForms.Yaml.Printer
import NoteForms.Text.Blank

/-! Frontmatter of a note: a mapping in YAML between a first line and a later line
of three dashes. The rest of the note is its body. A block that holds no mapping
is cut off the body all the same. -/

namespace NoteForms.Note

/-! ### Lines -/

/-- The lines of a text, each with its line feed; joined they are the text. -/
def lines : List Char → List (List Char)
  | [] => []
  | c :: cs =>
    if c = '\n' then [c] :: lines cs
    else match lines cs with
      | [] => [[c]]
      | l :: ls => (c :: l) :: ls

theorem flatten_lines (cs : List Char) : (lines cs).flatten = cs := by
  induction cs with
  | nil => rfl
  | cons c cs ih =>
    simp only [lines]
    split
    · simp_all
    · split
      · next h => simp_all
      · next l ls h => rw [h] at ih; simpa using ih

/-- A line without the breaks at its end. -/
def trimEnd (line : List Char) : List Char :=
  (line.reverse.dropWhile fun c => c = '\r' || c = '\n').reverse

def isDelimiter (line : List Char) : Bool := trimEnd line = ['-', '-', '-']

/-! ### The block -/

/-- The text after the opening line. -/
def opened? : List Char → Option (List Char)
  | '-' :: '-' :: '-' :: '\n' :: cs => some cs
  | '-' :: '-' :: '-' :: '\r' :: '\n' :: cs => some cs
  | _ => none

/-- The text up to the first delimiting line, and the text after it. -/
def splitAtDelimiter (cs : List Char) : Option (List Char × List Char) :=
  match (lines cs).dropWhile (!isDelimiter ·) with
  | [] => none
  | _ :: after => some (((lines cs).takeWhile (!isDelimiter ·)).flatten, after.flatten)

/-- The YAML text and the body of a note that has a block. -/
def split (cs : List Char) : Option (List Char × List Char) :=
  (opened? cs).bind splitAtDelimiter

/-! ### Notes -/

end Note

/-- A note taken apart. -/
structure Note where
  /-- None when the note has no block, or one that holds no mapping. -/
  frontmatter : Option Object
  body : String

namespace Note

/-- The mapping of a block: empty for a blank block or null, none for another value. -/
def mapping (yaml : List Char) : Option (Option Object) :=
  if Text.isBlank yaml then some (some [])
  else match Yaml.read (String.ofList yaml) with
    | none => none
    | some (.obj fields) => some (some fields)
    | some .null => some (some [])
    | some _ => some none

/-- Takes a note apart; none when the YAML text of its block has faults. -/
def parse (text : String) : Option Note :=
  match split text.toList with
  | none => some ⟨none, text⟩
  | some (yaml, body) => (mapping yaml).map fun fm => ⟨fm, String.ofList body⟩

/-- The note of a frontmatter and a body; an empty frontmatter leaves no block. -/
def render (frontmatter : Object) (body : String) : String :=
  if frontmatter.isEmpty then body
  else "---\n" ++ Yaml.text (.obj frontmatter) ++ "---\n" ++ body

end Note

end NoteForms
