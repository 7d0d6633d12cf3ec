import NoteForms.Track.Roster
import NoteForms.Setup.Configuration

/-! A schema as it is now: written in place, or kept under a key of the frontmatter
of a note that is followed. -/

namespace NoteForms.Records

open Setup

/-- Where the value is, for the user. -/
def location (f : FileKey) : String :=
  if f.isJson then "\"" ++ f.path ++ "\""
  else "\"" ++ f.path ++ "\" frontmatter key \"" ++ f.key ++ "\""

inductive Document where
  | inline (document : Object)
  /-- The tracker follows the file. -/
  | file (file : FileKey) (tracker : Nat)

namespace Document

def openSource (s : Source) (h : Host) (r : Roster) : Document × Host × Roster :=
  match s with
  | .inline document => (.inline document, h, r)
  | .file f =>
    let (n, h, r) := r.note h f.path
    (.file f n, h, r)

def close (d : Document) (h : Host) : Host :=
  match d with
  | .inline _ => h
  | .file _ n => h.drop (.note n)

/-- The document, none while its key is absent or null. -/
def value (d : Document) (h : Host) : Except RecordsFault (Option Object) :=
  match d with
  | .inline document => .ok (some document)
  | .file f n =>
    match (h.notes[n]?).bind (·.data) with
    | none => .ok none
    | some fields =>
      match Decode.present? fields f.key with
      | none => .ok none
      | some v => (Decode.Decoder.record.decode v).map some |>.mapError (.shape (location f))

/-- What is wrong with the file. -/
def fault? (d : Document) (h : Host) : Option FileFault :=
  match d with
  | .inline _ => none
  | .file _ n => (h.ask (.note n) Tracker.fault?).join

def revision (d : Document) (h : Host) : Nat :=
  match d with
  | .inline _ => 0
  | .file _ n => (h.ask (.note n) Tracker.revision).getD 0

end Document

end NoteForms.Records
