import NoteForms.Track.Host

/-! Trackers shared by path: one of each flavour for every path, as long as someone
holds it. A roster holds none itself, so a tracker that nobody else holds is gone,
and the next request for its path opens another. -/

namespace NoteForms

structure Roster where
  notes : Entries Nat := []
  texts : Entries Nat := []

namespace Roster

/-- The tracker entered under a path, if it is still held. -/
def live? (h : Host) (id : Nat → TrackerId) (entries : Entries Nat) (path : String) : Option Nat :=
  (entries.lookup path).filter fun n => h.isLive (id n)

/-- The tracker of the frontmatter at a path, opened if nobody holds one. -/
def note (r : Roster) (h : Host) (path : String) : Nat × Host × Roster :=
  match live? h .note r.notes path with
  | some n => (n, h.share (.note n), r)
  | none =>
    let (n, h) := h.openNote path
    (n, h, { r with notes := r.notes.put path n })

/-- The tracker of the text at a path, opened if nobody holds one. -/
def text (r : Roster) (h : Host) (path : String) : Nat × Host × Roster :=
  match live? h .text r.texts path with
  | some n => (n, h.share (.text n), r)
  | none =>
    let (n, h) := h.openText path
    (n, h, { r with texts := r.texts.put path n })

def unlistenAll (h : Host) (id : Nat → TrackerId) (n? : Option Nat) : Host :=
  match n? with
  | none => h
  | some n => h.unlisten (id n)

/-- Stops the trackers of a path from listening, whoever holds them, and forgets
them. Tells whether there was one. -/
def release (r : Roster) (h : Host) (path : String) : Bool × Host × Roster :=
  let note? := live? h .note r.notes path
  let text? := live? h .text r.texts path
  (note?.isSome || text?.isSome, unlistenAll (unlistenAll h .note note?) .text text?,
    ⟨r.notes.remove path, r.texts.remove path⟩)

/-- The paths with a tracker that is held, in order and each once. -/
def paths (r : Roster) (h : Host) : List String :=
  let held (id : Nat → TrackerId) (entries : Entries Nat) : List String :=
    entries.filterMap fun (path, n) => if h.isLive (id n) then some path else none
  ((held .note r.notes ++ held .text r.texts).mergeSort fun a b => decide (a ≤ b)).eraseDups

def releaseAll (r : Roster) (h : Host) : Host × Roster :=
  (r.paths h).foldl (fun (h, r) path => (r.release h path).2) (h, r)

end Roster

end NoteForms
