import NoteForms.Edit.Pager
import NoteForms.Edit.Drafts
import NoteForms.Json.Equality
import NoteForms.Fault

/-! The state of editing: which record is on screen, its working copy, and whether
a new record is being made instead. -/

namespace NoteForms.Edit

structure Editor where
  pager : Pager
  drafts : Drafts
  /-- A new record is being made. -/
  creating : Bool
  /-- What a new record starts from. -/
  initial : Record
  /-- The number of stored records. -/
  count : Nat

namespace Editor

/-- Catches up with the stored records; tells whether they are new. -/
def sync (e : Editor) (revision : Nat) (records : List Record) : Bool × Editor :=
  match e.drafts.sync revision records with
  | (false, _) => (false, e)
  | (true, drafts) =>
    let last := if records = [] then none else some (UInt64.ofNat (records.length - 1))
    (true, { e with drafts, count := records.length, pager := e.pager.setMax last })

/-- Starts editing. Without records a new one is made. -/
def start (initial : Record) (revision : Nat) (records : List Record) : Editor :=
  let e : Editor := ⟨.start 0 none, .start initial, records.isEmpty, initial, 0⟩
  (e.sync revision records).2

def setCreating (e : Editor) (creating : Bool) : Editor := { e with creating }

/-- The page of the selected record, counted from one; zero when none is selected. -/
def page (e : Editor) : Nat :=
  match e.pager.value with
  | none => 0
  | some i => i.toNat + 1

/-- Selects the record of a page; there is no page zero. -/
def goToPage (e : Editor) (page : UInt64) : Editor :=
  if page = 0 then e else { e with pager := e.pager.select (some (page - 1)) }

def move (e : Editor) (steps : Int64) : Editor := { e with pager := e.pager.move steps }

/-- The record on screen. -/
def form? (e : Editor) : Option Record :=
  if e.creating then some e.drafts.created
  else e.pager.value.bind fun i => e.drafts.get? i.toNat

/-- Replaces the record on screen; tells whether there is one. -/
def setForm (e : Editor) (r : Record) : Bool × Editor :=
  if e.creating then (true, { e with drafts := e.drafts.setCreated r })
  else match e.pager.value with
    | some i => (true, { e with drafts := e.drafts.set i.toNat r })
    | none => (false, e)

/-- Replaces what a new record starts from. A new record that is still what it
started from follows. -/
def setInitial (e : Editor) (r : Record) : Editor :=
  if e.initial.same r then e
  else
    let drafts := if e.drafts.created.same e.initial then e.drafts.setCreated r else e.drafts
    { e with drafts, initial := r }

/-- Puts the record on screen back to what a new one starts from. -/
def clear (e : Editor) : Bool × Editor := e.setForm e.initial

/-- All records to store when the one on screen is submitted. -/
def submission (e : Editor) (records : List Record) : Except RecordsFault (List Record) :=
  if e.creating then .ok (records ++ [e.drafts.created])
  else
    match e.pager.value with
    | none => .error .nothingSelected
    | some i =>
      match e.drafts.get? i.toNat with
      | none => .error .nothingSelected
      | some r =>
        if i.toNat < records.length then .ok (records.set i.toNat r) else .error .nothingSelected

end Editor

end NoteForms.Edit
