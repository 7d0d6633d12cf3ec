import NoteForms.Proofs.Form.Advance
import NoteForms.Proofs.Track.Holders

/-! Trackers that are woken. Whatever is done with a host, at most one tracker that was there
starts to listen, and only when it is told to. One that is opened listens from the start, but
was not there before. -/

namespace NoteForms.Host

variable {h h' h'' : Host} {id : TrackerId} {woken : Option TrackerId}

/-- Of the trackers that are there, at most one starts to listen. -/
structure Wakes (woken : Option TrackerId) (h h' : Host) : Prop where
  advances : h.Advances h'
  quiet : ∀ id, h.Knows id → woken ≠ some id → h'.Listens id → h.Listens id

theorem Wakes.rfl : Wakes woken h h := ⟨.rfl, fun _ _ _ hl => hl⟩

theorem Wakes.trans (h₁ : Wakes woken h h') (h₂ : Wakes woken h' h'') : Wakes woken h h'' where
  advances := h₁.advances.trans h₂.advances
  quiet id hk hw hl := h₁.quiet id hk hw (h₂.quiet id (h₁.advances.knows hk) hw hl)

theorem wakes_of_listenersOf (ha : h.Advances h')
    (hl : ∀ id, h'.listenersOf id = h.listenersOf id) : Wakes woken h h' where
  advances := ha
  quiet id _ _ hl' := by rwa [Listens, hl] at hl'

theorem SameWires.wakes (hs : SameWires h h') (ha : h.Advances h') : Wakes woken h h' :=
  wakes_of_listenersOf ha hs.listenersOf

/-! ### Starting and stopping -/

theorem listenersOf_unlistens (h : Host) (ids : List TrackerId) (id : TrackerId) :
    (ids.foldl Host.unlisten h).listenersOf id = if id ∈ ids then [] else h.listenersOf id := by
  induction ids generalizing h with
  | nil => rfl
  | cons id' ids ih =>
    rw [List.foldl_cons, ih, listenersOf_unlisten]
    by_cases he : id' = id
    · simp [he]
    · simp [he, Ne.symm he]

theorem unlistens_wakes (h : Host) (ids : List TrackerId) :
    Wakes woken h (ids.foldl Host.unlisten h) where
  advances := List.foldlRecOn ids _ (motive := fun h' => h.Advances h') .rfl
    fun h' ha id _ => ha.trans (unlisten_advances h' id)
  quiet id _ _ hl := by
    rw [Listens, listenersOf_unlistens] at hl
    split at hl
    · contradiction
    · exact hl

theorem unlisten_wakes (h : Host) (id : TrackerId) : Wakes woken h (h.unlisten id) :=
  unlistens_wakes h [id]

theorem listen_wakes (h : Host) (id : TrackerId) : Wakes (some id) h (h.listen id) where
  advances := listen_advances h id
  quiet id' _ hw hl := by
    rcases listenersOf_listen h id id' with he | ⟨rfl, -⟩
    · rwa [Listens, he] at hl
    · exact absurd rfl hw

/-! ### Handles -/

theorem share_wakes (h : Host) (id : TrackerId) : Wakes woken h (h.share id) :=
  wakes_of_listenersOf (share_advances h id)
    (listenersOf_adjust h id (f := fun t => { t with handles := t.handles + 1 }) fun _ => rfl)

theorem drop_wakes (h : Host) (id : TrackerId) : Wakes woken h (h.drop id) := by
  have hd : Wakes woken h (h.adjust id fun t => { t with handles := t.handles - 1 }) :=
    wakes_of_listenersOf
      (adjust_advances h id fun _ => Tracker.advances_of_eq rfl rfl rfl fun hs => hs)
      (listenersOf_adjust h id (f := fun t => { t with handles := t.handles - 1 }) fun _ => rfl)
  simp only [Host.drop]
  split
  · exact hd
  · exact hd.trans (unlisten_wakes _ id)

/-- A tracker that was not there starts to listen. -/
theorem listen_new_wakes {g : Host} (hnew : ¬ h.Knows id) (ha : h.Advances g)
    (hl : ∀ id', g.listenersOf id' = h.listenersOf id') : Wakes woken h (g.listen id) where
  advances := ha.trans (listen_advances g id)
  quiet id' hk _ hl' := by
    rcases listenersOf_listen g id id' with he | ⟨rfl, -⟩
    · rwa [Listens, he, hl] at hl'
    · exact absurd hk hnew

theorem openAs_wakes (h : Host) (k : Flavour) (path : String) :
    Wakes woken h (h.openAs k path).2 := by
  have hnew := (h.openAs_new k path).1
  cases k with
  | note =>
    have hq : Quiet none h (h.addNote (.forNote h.vault path)) :=
      quiet_addNote h (Tracker.forNote_sameSite h.vault path).listeners
    exact listen_new_wakes hnew ⟨Tracker.allAdvance_append _, .rfl⟩ hq.listenersOf
  | text =>
    have hq : Quiet none h (h.addText (.forText h.vault h.read path)) :=
      quiet_addText h (Tracker.forText_sameSite h.vault h.read path).listeners
    exact listen_new_wakes hnew ⟨.rfl, Tracker.allAdvance_append _⟩ hq.listenersOf

theorem wakes_of_enrols {r r' : Roster} {es : List (String × TrackerId)}
    (he : Enrols h r es h' r') : Wakes woken h h' :=
  he.preserves (P := Wakes woken h) .rfl (fun h' id ha => ha.trans (h'.share_wakes id))
    fun h' k path ha => ha.trans (h'.openAs_wakes k path)

end NoteForms.Host
