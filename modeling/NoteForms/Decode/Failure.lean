import NoteForms.Json.Printer

/-! What a decoder reports: a list of failures, each with the path from the
decoded root to the offending value and a reason. A failure is written on one line
as its path, a colon and the reason. -/

namespace NoteForms.Decode

/-! ### Paths -/

/-- A step from a value into one of its parts. -/
inductive Segment where
  | key (name : String)
  | variant (tag : String)
  | index (n : Nat)
  deriving DecidableEq, Repr

namespace Segment

def text : Segment → String
  | .key name => name
  | .variant tag => tag
  | .index n => "[" ++ toString n ++ "]"

def isIndex : Segment → Bool
  | .index _ => true
  | _ => false

/-- The text of a path after what is written already; a point stands before every
name but the first. -/
def join (written : String) : List Segment → String
  | [] => written
  | s :: path =>
    join (if written ≠ "" ∧ !s.isIndex then written ++ "." ++ s.text else written ++ s.text) path

end Segment

def pathText (path : List Segment) : String :=
  if path = [] then "<root>" else Segment.join "" path

/-! ### Reasons -/

inductive Reason where
  | mismatch (expected found : String)
  | missing
  | noVariant (tags : List String)
  | ambiguous (tags : List String)
  | message (text : String)
  deriving DecidableEq, Repr

/-- The longest rendering of an offending value, in characters. -/
def foundLimit : Nat := 48

/-- An offending value on one line, cut when it is too long. -/
def describe (v : Json) : String :=
  let cs := v.compact
  if foundLimit < cs.length then String.ofList (cs.take foundLimit) ++ "..." else String.ofList cs

def quoted (tags : List String) : String :=
  ", ".intercalate (tags.map fun tag => "\"" ++ tag ++ "\"")

def Reason.text : Reason → String
  | .mismatch expected found => "expected " ++ expected ++ ", found " ++ found
  | .missing => "required property is missing"
  | .noVariant tags => "expected exactly one of " ++ quoted tags ++ ", found none"
  | .ambiguous tags => "expected exactly one variant, found " ++ quoted tags
  | .message text => text

/-! ### Failures -/

structure Failure where
  path : List Segment
  reason : Reason
  deriving DecidableEq, Repr

def Failure.line (f : Failure) : String := pathText f.path ++ ": " ++ f.reason.text

/-- All failures of one decoding, in order. -/
abbrev Failures := List Failure

namespace Failures

/-- One failure at the root. -/
def root (reason : Reason) : Failures := [⟨[], reason⟩]

/-- A value of the wrong kind. -/
def leaf (expected : String) (found : Json) : Failures :=
  root (.mismatch expected (describe found))

/-- The failures seen from a value that holds the decoded one. -/
def under (segment : Segment) (fs : Failures) : Failures :=
  fs.map fun f => ⟨segment :: f.path, f.reason⟩

def lines (fs : Failures) : List String := fs.map Failure.line

def message (fs : Failures) : String := "\n".intercalate fs.lines

end Failures

end NoteForms.Decode
