import NoteForms.Proofs.Track.NoteTracking
import NoteForms.Proofs.Track.TextTracking

/-! Trackers of either flavour. One that is opened attends to its file until an action
stops it. -/

namespace NoteForms.Host

variable {h : Host} {path : String} {id : TrackerId}

def Tracks (h : Host) (id : TrackerId) (path : String) : Prop :=
  match id with
  | .note n => h.TracksNote n path
  | .text n => h.TracksText n path

/-- A tracker that is held and listens, and knows its file. -/
structure Attends (h : Host) (id : TrackerId) (path : String) : Prop where
  subscribed : h.Subscribed id
  tracks : h.Tracks id path

/-- No action stops a tracker but one that is about it. -/
theorem Attends.act (ha : h.Attends id path) (hr : h.Ready) {a : Action}
    (hs : a.stops ≠ some id) : (h.act a).Attends id path := by
  refine ⟨ha.subscribed.moves (act_moves hr.sound a) hs, ?_⟩
  cases id with
  | note n => exact TracksNote.act ha.tracks hr ha.subscribed.2 a
  | text n => exact TracksText.act ha.tracks hr ha.subscribed a

theorem openNote_attends (h : Host) (path : String) :
    (h.openNote path).2.Attends (.note (h.openNote path).1) path := by
  refine ⟨?_, openNote_tracks h path⟩
  have hl : (h.addNote (.forNote h.vault path)).isLive (.note h.notes.length) = true := by
    simp [isLive, ask, Tracker.isLive, addNote, (Tracker.forNote_sameSite h.vault path).handles]
  have hk : (h.addNote (.forNote h.vault path)).Knows (.note h.notes.length) := by
    simp [Knows, addNote]
  rw [openNote_eq]
  exact ⟨isLive_listen hl _, listens_listen hk⟩

theorem Ready.openText_attends (hr : h.Ready) (path : String) :
    (h.openText path).2.Attends (.text (h.openText path).1) path := by
  refine ⟨?_, hr.openText_tracks path⟩
  have hl : (h.addText (.forText h.vault h.read path)).isLive (.text h.texts.length) = true := by
    simp [isLive, ask, Tracker.isLive, addText, (Tracker.forText_sameSite h.vault h.read path).handles]
  have hk : (h.addText (.forText h.vault h.read path)).Knows (.text h.texts.length) := by
    simp [Knows, addText]
  rw [openText_eq]
  exact ⟨isLive_listen hl _, listens_listen hk⟩

end NoteForms.Host
