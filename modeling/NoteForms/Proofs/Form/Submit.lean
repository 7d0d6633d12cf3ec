import NoteForms.Proofs.Form.World
import NoteForms.Proofs.Edit.Placing
import NoteForms.Proofs.Records.Stored
import NoteForms.Proofs.Track.Write

/-! What a submit does. The store reads the records that its tracker knows, the record on
screen is put among them, and the tracker writes them all. If any of that fails, nothing is
written, and at most the tracker knows of it. -/

namespace NoteForms

/-! ### Persisting -/

namespace Records.Store

open Edit

/-- The write by which records are stored. -/
def write (s : Store) (rs : List Record) : Host.Write :=
  match s.tracker with
  | .note n => .note n (·.put s.file.key (listed rs))
  | .text n => .text n (listed rs).pretty

variable {s : Store} {h : Host} {rs : List Record}

@[simp] theorem write_tracker (s : Store) (rs : List Record) : (s.write rs).tracker = s.tracker := by
  unfold write
  split <;> next hid => exact hid.symm

theorem persist_eq (s : Store) (h : Host) (rs : List Record) : s.persist h rs =
    ((h.perform (s.write rs)).1.mapError .file, (h.perform (s.write rs)).2) := by
  unfold persist write
  cases s.tracker <;> rfl

/-- At most, the tracker notes that the write failed. -/
theorem persist_error {fault : RecordsFault} (he : (s.persist h rs).1 = .error fault) :
    (s.persist h rs).2 = h ∨ (s.persist h rs).2 = h.adjust s.tracker Tracker.writeFailed := by
  rw [persist_eq] at he ⊢
  obtain ⟨e, he⟩ : ∃ e, (h.perform (s.write rs)).1 = .error e := by
    cases hr : (h.perform (s.write rs)).1 with
    | error e => exact ⟨e, rfl⟩
    | ok u => rw [hr] at he; contradiction
  simpa using Host.perform_error he

end Records.Store

/-! ### Submits -/

instance decidableEqExcept {ε α : Type} [DecidableEq ε] [DecidableEq α] : DecidableEq (Except ε α)
  | .ok x, .ok y => decidable_of_iff (x = y) (by simp)
  | .error e, .error e' => decidable_of_iff (e = e') (by simp)
  | .ok _, .error _ | .error _, .ok _ => .isFalse nofun

namespace Form

open Edit Records

/-- What is stored once the form on screen is, in place of some records. -/
def View.Places (v : View) (rs rs' : List Record) : Prop :=
  ∃ r, v.form = some r ∧ Placed r rs v.controls.creating v.controls.page rs'

theorem View.Places.unique {v : View} {rs rs₁ rs₂ : List Record} (h₁ : v.Places rs rs₁)
    (h₂ : v.Places rs rs₂) : rs₁ = rs₂ := by
  obtain ⟨r₁, hf₁, hp₁⟩ := h₁
  obtain ⟨r₂, hf₂, hp₂⟩ := h₂
  have hr : r₁ = r₂ := Option.some.inj (hf₁.symm.trans hf₂)
  exact (hr ▸ hp₁).unique hp₂

namespace Mounted

variable {f : Mounted} {h : Host}

/-- A submit that succeeds wrote the records that its store reads, with the record on
screen among them. -/
theorem submit_eq_ok (hok : (f.submit h).1 = .ok ()) :
    ∃ rs rs', f.store.records h = .ok rs ∧ (f.view h).1.Places rs rs' ∧
      (f.store.persist h rs').1 = .ok () ∧ (f.submit h).2.2 = (f.store.persist h rs').2 := by
  have hstore := (f.sync_same h).store
  unfold submit at hok ⊢
  simp only [hstore] at hok ⊢
  cases hr : f.store.records h with
  | error fault => simp [hr, bind, Except.bind] at hok
  | ok rs =>
    cases hs : (f.sync h).2.editor.submission rs with
    | error fault => simp [hr, hs, bind, Except.bind] at hok
    | ok rs' =>
      have hp : (f.view h).1.Places rs rs' := Editor.submission_eq_ok.mp hs
      simp only [hr, hs, bind, Except.bind] at hok ⊢
      refine ⟨rs, rs', rfl, hp, ?_⟩
      cases hw : f.store.persist h rs' with
      | mk result h' =>
        cases result with
        | error fault => simp [hw] at hok
        | ok u => exact ⟨rfl, rfl⟩

/-- A store of a note persisted: its tracker stood open, and the vault rewrote the note. -/
theorem persist_note {s : Store} {n : Nat} {t : Tracker Object} {rs : List Record}
    (hid : s.tracker = .note n) (hn : h.notes[n]? = some t) (hok : (s.persist h rs).1 = .ok ()) :
    t.state.isOpen = true ∧ ∃ c,
      h.vault.process t.path (·.put s.file.key (listed rs)) = .ok c ∧
      (s.persist h rs).2.vault = c.2 := by
  have hs : h.snapshot? (.note n) = some (t.snapshot .frontmatter) := by rw [Host.snapshot?, hn]; rfl
  rw [Store.persist_eq, Store.write, hid] at hok ⊢
  exact Host.perform_eq_ok hs (Decode.mapError_eq_ok.mp hok)

/-- A store of a JSON file persisted: the vault wrote the whole text anew. -/
theorem persist_text {s : Store} {n : Nat} {t : Tracker String} {rs : List Record}
    (hid : s.tracker = .text n) (hn : h.texts[n]? = some t) (hok : (s.persist h rs).1 = .ok ()) :
    t.state.isOpen = true ∧ ∃ c, h.vault.write t.path (listed rs).pretty = .ok c ∧
      (s.persist h rs).2.vault = c.2 := by
  have hs : h.snapshot? (.text n) = some (t.snapshot .text) := by rw [Host.snapshot?, hn]; rfl
  rw [Store.persist_eq, Store.write, hid] at hok ⊢
  exact Host.perform_eq_ok hs (Decode.mapError_eq_ok.mp hok)

/-- A submit that fails catches up first. At most, the tracker of its store notes that a write
failed. -/
theorem submit_error_cases {fault : RecordsFault} (he : (f.submit h).1 = .error fault) :
    (f.submit h).2.1 = (f.sync h).2 ∧ ((f.submit h).2.2 = h ∨
      (f.submit h).2.2 = h.adjust f.store.tracker Tracker.writeFailed) := by
  have hstore := (f.sync_same h).store
  unfold submit at he ⊢
  simp only [hstore] at he ⊢
  cases hr : f.store.records h >>= (f.sync h).2.editor.submission with
  | error fault => exact ⟨rfl, .inl rfl⟩
  | ok rs =>
    simp only [hr] at he ⊢
    cases hp : f.store.persist h rs with
    | mk result h' =>
      cases result with
      | error fault =>
        have herr : (f.store.persist h rs).1 = .error fault := by rw [hp]
        have hw := Store.persist_error herr
        rw [hp] at hw
        exact ⟨rfl, hw⟩
      | ok u => simp [hp] at he

/-- So it leaves the vault as it was. -/
theorem submit_error {fault : RecordsFault} (he : (f.submit h).1 = .error fault) :
    (f.submit h).2.2.vault = h.vault := by
  rcases (submit_error_cases he).2 with hh | hh <;> simp [hh]

end Mounted

end Form

end NoteForms
