import NoteForms.Records.Document
import NoteForms.Edit.Drafts
import NoteForms.Text.Blank

/-! The stored records of a form. A JSON file holds them as its whole text, any
other file under a key of its frontmatter. What is absent reads as no records, and
a write replaces all of them. -/

namespace NoteForms.Records

open Setup Edit

structure Store where
  file : FileKey
  tracker : TrackerId

namespace Store

def openFile (f : FileKey) (h : Host) (r : Roster) : Store × Host × Roster :=
  if f.isJson then
    let (n, h, r) := r.text h f.path
    (⟨f, .text n⟩, h, r)
  else
    let (n, h, r) := r.note h f.path
    (⟨f, .note n⟩, h, r)

def close (s : Store) (h : Host) : Host := h.drop s.tracker

def location (s : Store) : String := Records.location s.file

/-! ### Reading -/

def decodeRecords (f : FileKey) (v : Json) : Except RecordsFault (List Record) :=
  (Decode.Decoder.record.array.decode v).mapError (.shape (Records.location f))

/-- The records under the key of a frontmatter. -/
def ofFrontmatter (f : FileKey) (fields : Object) : Except RecordsFault (List Record) :=
  match Decode.present? fields f.key with
  | none => .ok []
  | some v => decodeRecords f v

/-- The records of a JSON text. -/
def ofText (f : FileKey) (text : String) : Except RecordsFault (List Record) :=
  if Text.isBlank text.toList then .ok []
  else match Json.read text with
    | .error fault => .error (.json f.path fault)
    | .ok v => decodeRecords f v

/-- The records as they are known now. -/
def records (s : Store) (h : Host) : Except RecordsFault (List Record) :=
  match s.tracker with
  | .note n => ofFrontmatter s.file (((h.notes[n]?).bind (·.data)).getD [])
  | .text n => ofText s.file (((h.texts[n]?).bind (·.data)).getD "")

/-- The records, none where they cannot be read. -/
def recordsOrNone (s : Store) (h : Host) : List Record :=
  match s.records h with
  | .ok rs => rs
  | .error _ => []

/-- What is wrong with the file. -/
def fault? (s : Store) (h : Host) : Option FileFault := (h.ask s.tracker Tracker.fault?).join

/-- Another number whenever the records were loaded anew. -/
def revision (s : Store) (h : Host) : Nat := (h.ask s.tracker Tracker.revision).getD 0

/-- How often a change was published. -/
def published (s : Store) (h : Host) : Nat := (h.ask s.tracker Tracker.published).getD 0

/-! ### Writing -/

/-- Replaces the stored records. -/
def persist (s : Store) (h : Host) (records : List Record) : Except RecordsFault Unit × Host :=
  let v : Json := .arr (records.map .obj)
  let (result, h) := match s.tracker with
    | .note n => h.modifyNote n (·.put s.file.key v)
    | .text n => h.writeText n v.pretty
  (result.mapError .file, h)

end Store

end NoteForms.Records
