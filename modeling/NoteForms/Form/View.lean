import NoteForms.Fault
import NoteForms.Edit.Editor

/-! What is shown of a form: the records' place, the record on screen, and a banner
for everything that is wrong. A form that cannot be shown has a fallback. -/

namespace NoteForms.Form

/-- A message above a form. -/
structure Banner where
  severity : Severity
  message : String
  deriving DecidableEq, Repr

/-- The message of a fault of a part. -/
def Banner.of (part : String) (severity : Severity) (message : String) : Banner :=
  ⟨severity, part ++ ": " ++ message⟩

def Banner.ofFile (part : String) (f : FileFault) : Banner := .of part f.severity f.message

def Banner.ofRecords (part : String) (f : RecordsFault) : Banner := .of part f.severity f.message

structure Controls where
  creating : Bool
  toggleLabel : String
  count : Nat
  page : Nat
  pagingDisabled : Bool
  deriving DecidableEq, Repr

/-- The labels name what a press does. -/
def Controls.ofEditor (e : Edit.Editor) : Controls :=
  ⟨e.creating, if e.creating then "<- Back to item" else "Create ->", e.count, e.page, e.creating⟩

def submitLabel (e : Edit.Editor) : String := if e.creating then "Create" else "Update"

structure View where
  banners : List Banner
  schema : Option Object
  uiSchema : Option Object
  /-- None when there is no record to show. -/
  form : Option Edit.Record
  controls : Controls
  submitLabel : String
  deriving DecidableEq

/-- What stands in for a form that cannot be shown. -/
structure Fallback where
  title : String
  detail : String
  deriving DecidableEq, Repr

def Fallback.of (detail : String) : Fallback := ⟨"Something went wrong.", detail⟩

/-! ### Rendering -/

/-- Why a view was not made. -/
inductive Breakdown where
  | fault (fault : Fault)
  /-- It was given up with a message, if any. -/
  | abandoned (message : Option String)

def Breakdown.detail : Breakdown → String
  | .fault f => f.message?.getD ""
  | .abandoned message => message.getD "unknown panic"

/-- A form or what stands in for it. -/
inductive Rendered where
  | form (view : View)
  | fallback (fallback : Fallback)

def Rendered.of : Except Breakdown View → Rendered
  | .ok view => .form view
  | .error b => .fallback (.of b.detail)

end NoteForms.Form
