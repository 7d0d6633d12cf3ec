import NoteForms.Form.View
import NoteForms.Records.Store
import NoteForms.Edit.Initial

/-! A mounted form: its configuration, the records and schemas that it follows, and
the state of editing. It catches up with what it follows before it does anything
else. Submitting stores all records anew, with the one on screen in its place. -/

namespace NoteForms.Form

open Setup Records Edit

structure Mounted where
  configuration : Configuration
  store : Store
  schema : Document
  uiSchema : Option Document
  editor : Editor
  /-- The revision of the schema that new records start from. -/
  schemaRevision : Nat

namespace Mounted

/-! ### Mounting -/

/-- The record that new records start from, as the schema is now. -/
def initialOf (schema : Document) (h : Host) : Record :=
  match schema.value h with
  | .ok v => initialRecord v
  | .error _ => initialRecord none

def openOption (s : Option Source) (h : Host) (r : Roster) : Option Document × Host × Roster :=
  match s with
  | none => (none, h, r)
  | some s =>
    let (d, h, r) := Document.openSource s h r
    (some d, h, r)

/-- Opens all that a configuration names and starts editing. -/
def mount (c : Configuration) (h : Host) (r : Roster) : Mounted × Host × Roster :=
  let (store, h, r) := Store.openFile c.records h r
  let (schema, h, r) := Document.openSource c.schema h r
  let (uiSchema, h, r) := openOption c.uiSchema h r
  let editor := Editor.start (initialOf schema h) (store.revision h) (store.recordsOrNone h)
  (⟨c, store, schema, uiSchema, editor, schema.revision h⟩, h, r)

/-- Lets go of all that the form follows. -/
def unmount (f : Mounted) (h : Host) : Host :=
  let h := f.schema.close (f.store.close h)
  match f.uiSchema with
  | none => h
  | some d => d.close h

/-! ### Catching up -/

/-- New records start from the schema as it is now. -/
def syncSchema (f : Mounted) (h : Host) : Mounted :=
  let revision := f.schema.revision h
  if revision = f.schemaRevision then f
  else { f with schemaRevision := revision, editor := f.editor.setInitial (initialOf f.schema h) }

/-- Catches up with the schema and the records; tells whether the records are new. -/
def sync (f : Mounted) (h : Host) : Bool × Mounted :=
  let f := f.syncSchema h
  let (changed, editor) := f.editor.sync (f.store.revision h) (f.store.recordsOrNone h)
  (changed, { f with editor })

/-! ### Showing -/

def fileBanner (part : String) (fault : Option FileFault) : List Banner :=
  (fault.map (Banner.ofFile part)).toList

def recordsBanner {α : Type} (part : String) (result : Except RecordsFault α) : List Banner :=
  match result with
  | .ok _ => []
  | .error f => [.ofRecords part f]

/-- A document, none where it cannot be read. -/
def shown (result : Except RecordsFault (Option Object)) : Option Object :=
  match result with
  | .ok v => v
  | .error _ => none

/-- What is shown of a form that has caught up. -/
def viewOf (f : Mounted) (h : Host) : View :=
  let uiValue : Except RecordsFault (Option Object) := match f.uiSchema with
    | none => .ok none
    | some d => d.value h
  { banners :=
      fileBanner Settings.recordsName (f.store.fault? h) ++
      fileBanner Settings.schemaName (f.schema.fault? h) ++
      fileBanner Settings.uiSchemaName (f.uiSchema.bind (·.fault? h)) ++
      recordsBanner Settings.recordsName (f.store.records h) ++
      recordsBanner Settings.schemaName (f.schema.value h) ++
      recordsBanner Settings.uiSchemaName uiValue
    schema := shown (f.schema.value h)
    uiSchema := shown uiValue
    form := f.editor.form?
    controls := .ofEditor f.editor
    submitLabel := submitLabel f.editor }

def view (f : Mounted) (h : Host) : View × Mounted :=
  let f := (f.sync h).2
  (f.viewOf h, f)

/-- The view as it is rendered; it never breaks down. -/
def render (f : Mounted) (h : Host) : Rendered × Mounted :=
  let (view, f) := f.view h
  (.of (.ok view), f)

/-! ### Storing -/

/-- Stores the record on screen. -/
def submit (f : Mounted) (h : Host) : Except RecordsFault Unit × Mounted × Host :=
  let f := (f.sync h).2
  match f.store.records h >>= f.editor.submission with
  | .error fault => (.error fault, f, h)
  | .ok records =>
    match f.store.persist h records with
    | (.error fault, h) => (.error fault, f, h)
    | (.ok (), h) => (.ok (), (f.sync h).2, h)

end Mounted

end NoteForms.Form
