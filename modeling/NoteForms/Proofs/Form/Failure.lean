import NoteForms.Proofs.Form.Current
import NoteForms.Proofs.Form.Submit

/-! Submits that fail. Whatever the reason, the vault is as it was and nobody hears of
anything; at most the tracker of the records is known to have failed. The form has caught up,
as it does before it submits, and is as that left it. A failed write is not taken for new
records, so the form catches up with nothing more the next time, and no unsaved edit is lost. -/

namespace NoteForms

open Records

namespace Host

variable {h : Host} {id : TrackerId}

/-- The hosts differ at most in that the last write of a tracker failed. -/
structure Unharmed (id : TrackerId) (h h' : Host) : Prop where
  vault : h'.vault = h.vault
  recorded : h'.recorded = h.recorded
  pending : h'.pending = h.pending
  bus : h'.bus = h.bus
  shows : ∀ id', h'.snapshot? id' = h.snapshot? id' ∨ id' = id ∧ ∃ s, h.snapshot? id = some s ∧
    h'.snapshot? id = some { s with state := .failed s.path }

theorem Unharmed.rfl : Unharmed id h h :=
  ⟨Eq.refl _, Eq.refl _, Eq.refl _, Eq.refl _, fun _ => .inl (Eq.refl _)⟩

theorem unharmed_writeFailed (h : Host) (id : TrackerId) :
    Unharmed id h (h.adjust id Tracker.writeFailed) where
  vault := adjust_vault h id _
  recorded := by cases id <;> rfl
  pending := adjust_pending h id _
  bus := adjust_bus h id _
  shows id' := by
    rw [snapshot?_writeFailed, snapshot?_writeFailed]
    by_cases hid : id = id'
    · subst hid
      cases hs : h.snapshot? id with
      | none => exact .inl (Eq.refl _)
      | some s => exact .inr ⟨Eq.refl _, s, Eq.refl _, by simp⟩
    · refine .inl ?_
      cases h.snapshot? id' <;> simp [hid]

theorem Unharmed.revision {h' : Host} (hu : Unharmed id h h') (id' : TrackerId) :
    h'.ask id' Tracker.revision = h.ask id' Tracker.revision := by
  rw [ask_eq_map (k := Snapshot.revision) (fun _ _ => Eq.refl _),
    ask_eq_map (k := Snapshot.revision) fun _ _ => Eq.refl _]
  rcases hu.shows id' with he | ⟨hid, s, hs, hs'⟩
  · rw [he]
  · subst hid
    rw [hs, hs']
    exact Eq.refl _

end Host

namespace Form

namespace Mounted

variable {f : Mounted} {h h' : Host}

theorem syncSchema_schema (f : Mounted) (h : Host) : (f.syncSchema h).schema = f.schema := by
  unfold syncSchema
  simp only
  split <;> rfl

theorem syncSchema_revision (f : Mounted) (h : Host) :
    (f.syncSchema h).schemaRevision = f.schema.revision h := by
  unfold syncSchema
  simp only
  split
  · next he => exact he.symm
  · rfl

/-- A form that has caught up has nothing to catch up with while the revisions are the same. -/
theorem sync_again (f : Mounted) (hs : f.store.revision h' = f.store.revision h)
    (hd : f.schema.revision h' = f.schema.revision h) :
    (f.sync h).2.sync h' = (false, (f.sync h).2) := by
  have hstore : (f.sync h).2.store = f.store := (f.sync_same h).store
  have hschema : (f.sync h).2.schema.revision h' = (f.sync h).2.schemaRevision := by
    rw [sync_eq]
    show (f.syncSchema h).schema.revision h' = (f.syncSchema h).schemaRevision
    rw [syncSchema_schema, syncSchema_revision, hd]
  -- the schema first, since that may bring another initial record, and then the records
  have hstays : (f.sync h).2.syncSchema h' = (f.sync h).2 := if_pos hschema
  have hrecords : (f.sync h).2.editor.drafts.revision = some ((f.sync h).2.store.revision h') := by
    rw [hstore, hs, sync_eq]
    exact Edit.Editor.sync_revision _ _ _
  rw [sync_eq (f.sync h).2, hstays, Edit.Editor.sync_eq_of_eq hrecords]

/-- Neither flavour of document is read anew for a write that failed. -/
theorem unharmed_revisions {id : TrackerId} (hu : h.Unharmed id h') (s : Store) (d : Document) :
    s.revision h' = s.revision h ∧ d.revision h' = d.revision h := by
  refine ⟨by rw [Store.revision, hu.revision, Store.revision], ?_⟩
  cases d with
  | inline document => rfl
  | file file n => rw [Document.revision, hu.revision, Document.revision]

theorem submit_unharmed {fault : RecordsFault} (he : (f.submit h).1 = .error fault) :
    h.Unharmed f.store.tracker (f.submit h).2.2 := by
  rcases (submit_error_cases he).2 with hh | hh <;> rw [hh]
  · exact .rfl
  · exact h.unharmed_writeFailed f.store.tracker

end Mounted

namespace World

/-- A form in any world submits, and fails for any reason. The vault is as it was, no event was
reported, and all trackers show what they showed, but that of the records may be known to have
failed. Nothing else of the world changes but that the form has caught up, as it does first. When
it catches up the next time, or at any time while its records and its schema are of the same
revisions, it finds nothing new and stays as it is. -/
theorem submit_error_keeps (w w' : World) (n : Nat) (f : Mounted) (fault : RecordsFault)
    (hf : w.form? n = some f) (he : (f.submit w.host).1 = .error fault)
    (hw : w' = w.act (.submit n)) :
    w.host.Unharmed f.store.tracker w'.host ∧ w'.roster = w.roster ∧
      (∀ m, w'.form? m = if n = m then some (f.sync w.host).2 else w.form? m) ∧
      (f.sync w.host).2.sync w'.host = (false, (f.sync w.host).2) ∧
      ∀ h, f.store.revision h = f.store.revision w.host →
        f.schema.revision h = f.schema.revision w.host →
        (f.sync w.host).2.sync h = (false, (f.sync w.host).2) := by
  have hu := f.submit_unharmed he
  have hform := (f.submit_error_cases he).1
  have hact : w' = { w with host := (f.submit w.host).2.2 }.setForm n (f.sync w.host).2 := by
    rw [hw, World.act, hf, ← hform]
  obtain ⟨hs, hd⟩ := Mounted.unharmed_revisions hu f.store f.schema
  have hhost : w'.host = (f.submit w.host).2.2 := by rw [hact]; rfl
  refine ⟨hhost ▸ hu, by rw [hact]; rfl, fun m => ?_, ?_, fun h hs hd => f.sync_again hs hd⟩
  · have hf' : ({ w with host := (f.submit w.host).2.2 } : World).form? n = some f := hf
    rw [hact, form?_setForm hf']
    rfl
  · rw [hhost]
    exact f.sync_again hs hd

/-- A list with one record, of which a form has an unsaved edit when writes are disabled. -/
def editedList : World := ({} : World).run [.host (.insert "people.json" "[\x7b\x7d]"),
  .mount ⟨⟨"people.json", "data"⟩, .inline [], none⟩, .edit 0 (.setForm [("x", .int 3)]),
  .host (.setFailWrites true)]

/-- The submit fails, the list is as it was, and the edit is there still. -/
theorem submit_error_keeps_edited : ∃ f, editedList.form? 0 = some f ∧
    (f.submit editedList.host).1 = .error (.file (.unmodified "people.json")) ∧
    (editedList.act (.submit 0)).host.vault.text? "people.json" = some "[\x7b\x7d]" ∧
    ∃ f', (editedList.act (.submit 0)).form? 0 = some f' ∧
      f'.sync (editedList.act (.submit 0)).host = (false, f') ∧
      f'.editor.drafts.get? 0 = some [("x", .int 3)] := by
  obtain ⟨w, hw⟩ : ∃ w, w = editedList := ⟨_, rfl⟩
  obtain ⟨w', hw'⟩ : ∃ w', w' = w.act (.submit 0) := ⟨_, rfl⟩
  have hform : ∀ f ∈ editedList.form? 0,
      (f.submit editedList.host).1 = .error (.file (.unmodified "people.json")) ∧
      (f.sync editedList.host).2.editor.drafts.get? 0 = some [("x", .int 3)] := by decide +kernel
  have hv : editedList.host.vault.text? "people.json" = some "[\x7b\x7d]" := by decide +kernel
  have hsome : (editedList.form? 0).isSome = true := by decide +kernel
  rw [← hw] at hform hv hsome ⊢
  rw [← hw']
  obtain ⟨f, hf⟩ := Option.isSome_iff_exists.mp hsome
  obtain ⟨he, hedit⟩ := hform f hf
  obtain ⟨hu, -, hforms, hsync, -⟩ := submit_error_keeps w w' 0 f _ hf he hw'
  exact ⟨f, hf, he, by rw [hu.vault, hv], _, by rw [hforms, if_pos rfl], hsync, hedit⟩

end World

end Form

end NoteForms
