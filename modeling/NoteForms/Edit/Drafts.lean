import NoteForms.Json.Value

/-! Unsaved edits: a working copy for each record, and the record that is being
made. New records from outside throw the working copies away; the record being
made stays. -/

namespace NoteForms.Edit

/-- A record of a list. -/
abbrev Record := Object

structure Drafts where
  /-- The working copies by number, in ascending order. -/
  copies : List (Nat × Record)
  created : Record
  /-- The revision of the records that the copies were made from. -/
  revision : Option Nat

namespace Drafts

def start (created : Record) : Drafts := ⟨[], created, none⟩

/-- Records with their numbers from `n` on. -/
def numbered (n : Nat) : List Record → List (Nat × Record)
  | [] => []
  | r :: rs => (n, r) :: numbered (n + 1) rs

/-- Starts over from the records. -/
def reset (d : Drafts) (records : List Record) : Drafts := { d with copies := numbered 0 records }

/-- Starts over if the records are of another revision. -/
def sync (d : Drafts) (revision : Nat) (records : List Record) : Bool × Drafts :=
  if d.revision = some revision then (false, d)
  else (true, { d.reset records with revision := some revision })

def get? (d : Drafts) (i : Nat) : Option Record := d.copies.lookup i

/-- Puts a copy at its number. -/
def insert (i : Nat) (r : Record) : List (Nat × Record) → List (Nat × Record)
  | [] => [(i, r)]
  | (j, s) :: cs =>
    if i < j then (i, r) :: (j, s) :: cs
    else if i = j then (i, r) :: cs
    else (j, s) :: insert i r cs

def set (d : Drafts) (i : Nat) (r : Record) : Drafts := { d with copies := insert i r d.copies }

def setCreated (d : Drafts) (r : Record) : Drafts := { d with created := r }

end Drafts

end NoteForms.Edit
