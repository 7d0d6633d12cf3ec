import NoteForms.Proofs.Track.Run

/-! What trackers show to those who hold them. A snapshot says the same of a tracker of
frontmatter and of one of text: its path, its state, its data and how often that was
replaced. Neither the wires nor the users of a tracker are in it. After an event a tracker
that listens is in the state that the change leads to from the one it was in, and one that
does not listen shows the same. -/

namespace NoteForms

/-- What is known of a file. -/
inductive Contents where
  | frontmatter (fields : Object)
  | text (text : String)
  deriving DecidableEq

structure Snapshot where
  path : String
  state : FileState
  data : Option Contents
  revision : Nat
  deriving DecidableEq

def Snapshot.fault? (s : Snapshot) : Option FileFault := s.state.fault? s.path

def Tracker.snapshot {α : Type} (of : α → Contents) (t : Tracker α) : Snapshot :=
  ⟨t.path, t.state, t.data.map of, t.revision⟩

@[simp] theorem Tracker.snapshot_setState {α : Type} (of : α → Contents) (t : Tracker α)
    (s : FileState) : (t.setState s).snapshot of = { t.snapshot of with state := s } := by
  unfold Tracker.setState
  split
  · next hs => simp [Tracker.snapshot, ← hs]
  · rfl

@[simp] theorem Tracker.snapshot_setData {α : Type} (of : α → Contents) (t : Tracker α)
    (d : Option α) : (t.setData d).snapshot of =
      { t.snapshot of with data := d.map of, revision := t.revision + 1 } := rfl

/-- What a vault has for a tracker of some flavour at a path. -/
def Vault.contents? (v : Vault) (id : TrackerId) (path : String) : Option Contents :=
  match id with
  | .note _ => (v.frontmatter? path).map .frontmatter
  | .text _ => (v.text? path).map .text

/-! ### States -/

/-- Where a change leaves a tracker. -/
def FileState.after (path : String) (v : Vault) (s : FileState) : Tracker.Change → FileState
  | .unrelated | .modified => s
  | .arrived => .ofPlace (v.lookup path)
  | .deleted => .resolved
  | .left target => .renamed path target

namespace Tracker

theorem react_state {α : Type} (t : Tracker α) (v : Vault) (c : Change) :
    (t.react v c).1.state = t.state.after t.path v c := by
  cases c <;> simp [react, invalidate, FileState.after]

@[simp] theorem loadNote_state (t : Tracker Object) (v : Vault) : (t.loadNote v).state = t.state := by
  unfold loadNote
  split <;> rfl

theorem hearNote_state (t : Tracker Object) (v : Vault) (e : Event) :
    (t.hearNote v e).state = t.state.after t.path v (.of t.path e) := by
  rw [← react_state]
  simp only [hearNote]
  split <;> simp

theorem hearText_state (t : Tracker String) (v : Vault) (e : Event) :
    (t.hearText v e).1.state = t.state.after t.path v (.of t.path e) := t.react_state v _

/-- What is modified stays where it was. -/
theorem after_modify (s : FileState) (path : String) (v : Vault) (p : Place) :
    s.after path v (.of path (.modify p)) = s := by
  simp only [Change.of]
  split <;> rfl

end Tracker

namespace Host

def snapshot? (h : Host) : TrackerId → Option Snapshot
  | .note n => (h.notes[n]?).map (·.snapshot .frontmatter)
  | .text n => (h.texts[n]?).map (·.snapshot .text)

variable {h h' : Host} {id id' : TrackerId} {s : Snapshot} {e : Event}

/-! ### What is asked of a tracker -/

section Ask

variable {β : Type} {g : {α : Type} → Tracker α → β} {k : Snapshot → β}

/-- What a snapshot tells of a tracker can be asked of it. -/
theorem ask_eq_map (hg : ∀ {α : Type} (t : Tracker α) (of : α → Contents), g t = k (t.snapshot of))
    (h : Host) (id : TrackerId) : h.ask id g = (h.snapshot? id).map k := by
  cases id with
  | note n =>
    simp only [ask, snapshot?, Option.map_map]
    exact congrArg (Option.map · h.notes[n]?) (funext fun t => hg t .frontmatter)
  | text n =>
    simp only [ask, snapshot?, Option.map_map]
    exact congrArg (Option.map · h.texts[n]?) (funext fun t => hg t .text)

end Ask

theorem path_eq (hs : h.snapshot? id = some s) : h.path id = s.path := by
  rw [path, ask_eq_map (k := Snapshot.path) (fun _ _ => rfl), hs]
  rfl

theorem refusal?_eq (hs : h.snapshot? id = some s) :
    h.refusal? id = if s.state.isOpen then none else some (s.state.refusal s.path) := by
  rw [refusal?, ask_eq_map (k := fun s => if s.state.isOpen then none else some
    (s.state.refusal s.path)) (fun _ _ => rfl), hs]
  rfl

theorem knows_of_snapshot (hs : h.snapshot? id = some s) : h.Knows id := by
  cases id with
  | note n =>
    obtain ⟨t, ht, -⟩ := Option.map_eq_some_iff.mp hs
    exact (List.getElem?_eq_some_iff.mp ht).1
  | text n =>
    obtain ⟨t, ht, -⟩ := Option.map_eq_some_iff.mp hs
    exact (List.getElem?_eq_some_iff.mp ht).1

/-- A tracker of a path is in some state. -/
def Stands (h : Host) (id : TrackerId) (path : String) (state : FileState) : Prop :=
  ∃ s, h.snapshot? id = some s ∧ s.path = path ∧ s.state = state

theorem stands_iff {path : String} {state : FileState} : h.Stands id path state ↔
    h.ask id (fun t => (t.path, t.state)) = some (path, state) := by
  rw [ask_eq_map (k := fun s => (s.path, s.state)) (fun _ _ => rfl), Option.map_eq_some_iff]
  simp only [Stands, Prod.mk.injEq]

/-! ### Adjustments and wires -/

/-- An adjustment of a tracker as its snapshot shows it. -/
theorem snapshot?_adjust {f : Adjustment} {k : Snapshot → Snapshot}
    (hf : ∀ {α : Type} (t : Tracker α) (of : α → Contents), (f t).snapshot of = k (t.snapshot of))
    (h : Host) (id id' : TrackerId) :
    (h.adjust id f).snapshot? id' = (h.snapshot? id').map fun s => if id = id' then k s else s := by
  cases id with
  | note n =>
    cases id' with
    | text m => simp [adjust, snapshot?, Function.comp_def]
    | note m =>
      simp only [adjust, snapshot?, List.getElem?_modify, Option.map_eq_map, Option.map_map]
      congr 1
      funext t
      by_cases hn : n = m <;> simp [hn, hf]
  | text n =>
    cases id' with
    | note m => simp [adjust, snapshot?, Function.comp_def]
    | text m =>
      simp only [adjust, snapshot?, List.getElem?_modify, Option.map_eq_map, Option.map_map]
      congr 1
      funext t
      by_cases hn : n = m <;> simp [hn, hf]

/-- Other wires and users show nowhere. -/
theorem snapshot?_adjust_of_eq {f : Adjustment}
    (hf : ∀ {α : Type} (t : Tracker α) (of : α → Contents), (f t).snapshot of = t.snapshot of)
    (h : Host) (id id' : TrackerId) : (h.adjust id f).snapshot? id' = h.snapshot? id' := by
  rw [snapshot?_adjust (k := fun s => s) hf]
  simp

@[simp] theorem snapshot?_listen (h : Host) (id id' : TrackerId) :
    (h.listen id).snapshot? id' = h.snapshot? id' := by
  unfold Host.listen
  split
  · generalize h.bus.registerAll (.tracker id) = wires
    exact snapshot?_adjust_of_eq (f := fun t => { t with listeners := wires.1 }) (fun _ _ => rfl) _ id id'
  · rfl

@[simp] theorem snapshot?_unlisten (h : Host) (id id' : TrackerId) :
    (h.unlisten id).snapshot? id' = h.snapshot? id' :=
  snapshot?_adjust_of_eq (f := fun t => { t with listeners := [] }) (fun _ _ => rfl) _ id id'

@[simp] theorem snapshot?_share (h : Host) (id id' : TrackerId) :
    (h.share id).snapshot? id' = h.snapshot? id' :=
  snapshot?_adjust_of_eq (f := fun t => { t with handles := t.handles + 1 }) (fun _ _ => rfl) h id id'

@[simp] theorem snapshot?_drop (h : Host) (id id' : TrackerId) :
    (h.drop id).snapshot? id' = h.snapshot? id' := by
  have hd := snapshot?_adjust_of_eq (f := fun t => { t with handles := t.handles - 1 })
    (fun _ _ => rfl) h id id'
  simp only [Host.drop]
  split
  · exact hd
  · rw [snapshot?_unlisten, hd]

/-! ### New trackers -/

theorem snapshot?_addNote (hs : h.snapshot? id = some s) (t : Tracker Object) :
    (h.addNote t).snapshot? id = some s := by
  have hk := knows_of_snapshot hs
  cases id with
  | note n => rw [← hs, snapshot?, snapshot?, addNote, List.getElem?_append_left hk]
  | text n => exact hs

theorem snapshot?_addText (hs : h.snapshot? id = some s) (t : Tracker String) :
    (h.addText t).snapshot? id = some s := by
  have hk := knows_of_snapshot hs
  cases id with
  | note n => exact hs
  | text n => rw [← hs, snapshot?, snapshot?, addText, List.getElem?_append_left hk]

/-! ### Events -/

theorem snapshot?_deliver_of_ne {r : Receiver} (hr : r ≠ .tracker id) :
    (deliver e h r).snapshot? id = h.snapshot? id := by
  cases id with
  | note n => rw [snapshot?, deliver_note_of_ne hr, snapshot?]
  | text n => rw [snapshot?, (deliver_text_of_ne hr).1, snapshot?]

/-- What is modified leaves all trackers in their states. -/
theorem Stands.emit_modify {path : String} {state : FileState} (hs : h.Stands id path state)
    (p : Place) : (h.emit (.modify p)).Stands id path state := by
  rw [stands_iff] at hs ⊢
  rw [ask_emit _ _, hs]
  · intro t v
    rw [(t.hearNote_sameSite v _).path, t.hearNote_state, Tracker.after_modify]
  · intro t v
    rw [t.hearText_state, Tracker.after_modify, Tracker.hearText, (t.react_sameSite v _).path]

/-- A tracker that listens goes where a change leaves it. -/
theorem Ready.stands_changed (hr : h.Ready) (hl : h.Listens id) {path : String} {state : FileState}
    (hs : h.Stands id path state) (c : Event × Vault) :
    (h.changed c).Stands id path (state.after path c.2 (.of path c.1)) := by
  rw [stands_iff] at hs ⊢
  cases id with
  | note n =>
    obtain ⟨t, ht, he⟩ := Option.map_eq_some_iff.mp hs
    obtain ⟨rfl, rfl⟩ := Prod.mk.inj he
    rw [ask, changed_note hr.wired hl, ht, Option.map_some, Option.map_some, t.hearNote_state, (t.hearNote_sameSite c.2 c.1).path]
  | text n =>
    obtain ⟨t, ht, he⟩ := Option.map_eq_some_iff.mp hs
    obtain ⟨rfl, rfl⟩ := Prod.mk.inj he
    rw [ask, (changed_text hr hl ht c).1, Option.map_some, t.hearText_state, Tracker.hearText, (t.react_sameSite c.2 _).path]

/-- A tracker that does not listen hears nothing. -/
theorem Wired.snapshot?_emit (hw : h.Wired) (hl : ¬ h.Listens id) (e : Event) :
    (h.emit e).snapshot? id = h.snapshot? id := by
  have hnone := hw.not_mem_receivers (Classical.not_not.mp hl) e.kind
  exact foldl_deliver (·.snapshot? id) _
    (fun _ r hr => snapshot?_deliver_of_ne fun he => hnone (he ▸ hr)) h

theorem Ready.snapshot?_changed (hr : h.Ready) (hl : ¬ h.Listens id) (c : Event × Vault) :
    (h.changed c).snapshot? id = h.snapshot? id :=
  (hr.wired.withVault c.2).snapshot?_emit hl c.1

end Host

end NoteForms
