import NoteForms.Proofs.Form.Failure
import NoteForms.Proofs.Form.Site
import NoteForms.Proofs.Track.Rest

/-! Unsaved edits through what is unrelated. A form drops its working copies when its records are
of another revision. Nothing that is done elsewhere brings one about: not at other files or
through other trackers, not by other forms, however many share the roster, and not by the schema
of the form. So a form that has caught up keeps its place and all its copies. -/

namespace NoteForms

open Records Setup Edit

/-! ### Editors -/

namespace Edit.Editor

/-- The place, the working copies, the count and what is being made are the same. What a new
record starts from may differ, and the new record with it. -/
structure Alike (e e' : Editor) : Prop where
  pager : e'.pager = e.pager
  count : e'.count = e.count
  creating : e'.creating = e.creating
  copies : e'.drafts.copies = e.drafts.copies
  revision : e'.drafts.revision = e.drafts.revision

variable {e e' e'' : Editor}

theorem Alike.rfl : Alike e e := ⟨Eq.refl _, Eq.refl _, Eq.refl _, Eq.refl _, Eq.refl _⟩

theorem Alike.trans (h₁ : Alike e e') (h₂ : Alike e' e'') : Alike e e'' :=
  ⟨h₂.pager.trans h₁.pager, h₂.count.trans h₁.count, h₂.creating.trans h₁.creating,
    h₂.copies.trans h₁.copies, h₂.revision.trans h₁.revision⟩

theorem Alike.symm (h : Alike e e') : Alike e' e :=
  ⟨h.pager.symm, h.count.symm, h.creating.symm, h.copies.symm, h.revision.symm⟩

theorem setInitial_alike (e : Editor) (r : Record) : Alike e (e.setInitial r) := by
  unfold setInitial
  split
  · exact .rfl
  · split <;> exact ⟨Eq.refl _, Eq.refl _, Eq.refl _, Eq.refl _, Eq.refl _⟩

theorem Alike.sync (ha : Alike e e') (revision : Nat) (rs : List Record) :
    Alike (e.sync revision rs).2 (e'.sync revision rs).2 := by
  by_cases hr : e.drafts.revision = some revision
  · rw [sync_eq_of_eq hr, sync_eq_of_eq (ha.revision.trans hr)]
    exact ha
  · rw [sync_eq_of_ne hr, sync_eq_of_ne (by rwa [ha.revision])]
    exact ⟨by rw [ha.pager], Eq.refl _, ha.creating, Eq.refl _, Eq.refl _⟩

end Edit.Editor

namespace Form

/-! ### Forms that catch up -/

namespace Mounted

variable (f : Mounted) (h : Host)

theorem syncSchema_alike : f.editor.Alike (f.syncSchema h).editor := by
  unfold syncSchema
  simp only
  split
  · exact .rfl
  · exact Editor.setInitial_alike _ _

/-- A form catches up as its editor does; its schema has no part in that. -/
theorem sync_alike : (f.editor.sync (f.store.revision h) (f.store.recordsOrNone h)).2.Alike
    (f.sync h).2.editor := by
  rw [sync_eq]
  exact (f.syncSchema_alike h).sync _ _

/-- The new record changes by that only if it was what new records started from, and then to
what they start from as the schema is now. -/
theorem sync_created : (f.sync h).2.editor.drafts.created = f.editor.drafts.created ∨
    f.editor.drafts.created.same f.editor.initial = true ∧
      (f.sync h).2.editor.drafts.created = initialOf f.schema h ∧
      (f.sync h).2.editor.initial = initialOf f.schema h := by
  obtain ⟨hc, hi⟩ := Editor.sync_created (f.syncSchema h).editor (f.store.revision h)
    (f.store.recordsOrNone h)
  rw [sync_eq]
  simp only [hc, hi]
  unfold syncSchema
  simp only
  split
  · exact .inl rfl
  · exact Editor.setInitial_created _ _

/-- The form has seen the records as its store knows them. -/
def CaughtUp (f : Mounted) (h : Host) : Prop :=
  f.editor.drafts.revision = some (f.store.revision h)

variable {f h}

theorem CaughtUp.sync (hc : f.CaughtUp h) :
    f.editor.Alike (f.sync h).2.editor ∧ (f.sync h).1 = false := by
  have ha := f.sync_alike h
  rw [Editor.sync_eq_of_eq hc] at ha
  refine ⟨ha, ?_⟩
  rw [sync_eq, Editor.sync_eq_of_eq ((f.syncSchema_alike h).revision.trans hc)]

end Mounted

/-! ### What users do with trackers -/

end Form

namespace Host

variable {h : Host} {id : TrackerId} {path : String} {revision : Nat}

theorem Rests.mount (hr : h.Rests id path revision) (c : Configuration) (r : Roster) :
    (Form.Mounted.mount c h r).2.1.Rests id path revision := by
  refine (Form.Mounted.mount_enrols c h r).preserves (P := fun h => h.Rests id path revision) hr
    (fun _ id' hr => hr.share id') fun _ k p hr => ?_
  cases k with
  | note => exact hr.openNote p
  | text => exact hr.openText p

theorem Rests.unmount (hr : h.Rests id path revision) (f : Form.Mounted) :
    (f.unmount h).Rests id path revision := by
  rw [f.unmount_eq]
  exact List.foldrRecOn f.holds _ (motive := fun (h : Host) => h.Rests id path revision) hr
    fun _ hr id' _ => hr.drop id'

theorem Rests.release (hr : h.Rests id path revision) (r : Roster) (p : String) :
    (r.release h p).2.1.Rests id path revision := by
  rw [Roster.release_eq]
  exact List.foldlRecOn _ _ (motive := fun (h : Host) => h.Rests id path revision) hr
    fun _ hr id' _ => hr.unlisten id'

theorem Rests.releaseAll (hr : h.Rests id path revision) (r : Roster) :
    (r.releaseAll h).1.Rests id path revision :=
  List.foldlRecOn _ _ (motive := fun (p : Host × Roster) => p.1.Rests id path revision) hr
    fun p hr q _ => hr.release p.2 q

/-- A submit that fails, or one to another file, leaves a tracker at rest. -/
theorem Rests.submit (hr : h.Rests id path revision) {f : Form.Mounted} (hs : Form.Sited h f.store)
    (hp : (f.submit h).1 = .ok () → f.store.file.path ≠ path) :
    (f.submit h).2.2.Rests id path revision := by
  rcases f.submit_host h with he | ⟨rs, he, hok⟩ <;> rw [he]
  · exact hr
  · rw [Store.persist_eq] at hok ⊢
    refine hr.perform fun hw => ?_
    rw [Store.write_tracker, hs.at'.path_eq]
    exact hp (hok (by rw [hw]; rfl))

end Host

namespace Form

/-! ### Unrelated steps -/

namespace World

variable {w : World} {n : Nat} {f : Mounted}

/-- A step that has nothing to do with the unsaved edits of a form. It neither edits the form nor
unmounts it, and what it changes in the vault is at another path than that of the records. -/
def Step.Unrelated (w : World) (n : Nat) (f : Mounted) : Step → Prop
  | .act (.host a) => a.Leaves w.host f.store.tracker f.configuration.records.path
  | .act (.edit m _) | .act (.unmount m) => m ≠ n
  | .act (.submit m) => ∀ g, w.form? m = some g → (g.submit w.host).1 = .ok () →
      g.configuration.records.path ≠ f.configuration.records.path
  | _ => True

/-- All steps of a run are unrelated to a form. -/
def Unrelated (n : Nat) (f : Mounted) : World → List Step → Prop
  | _, [] => True
  | w, s :: ss => s.Unrelated w n f ∧ Unrelated n f (w.step s) ss

/-- The edits of a form are those of another one that has the same store, once that has caught up
with some records. If it had before, they are the same all the time. -/
structure Resumes (f : Mounted) (h : Host) (g : Mounted) : Prop where
  same : Mounted.Same f g
  caughtUp : (f.editor.sync (f.store.revision h) (f.store.recordsOrNone h)).2.Alike
    (g.editor.sync (f.store.revision h) (f.store.recordsOrNone h)).2
  always : f.CaughtUp h → f.editor.Alike g.editor

theorem Resumes.rfl {h : Host} : Resumes f h f := ⟨⟨Eq.refl _, Eq.refl _⟩, .rfl, fun _ => .rfl⟩

/-- What was a form at some host is still there, with its edits. -/
structure Retains (f : Mounted) (h : Host) (n : Nat) (w : World) : Prop where
  sited : w.Sited
  knows : h.Knows f.store.tracker
  advances : h.Advances w.host
  rests : w.host.Rests f.store.tracker f.configuration.records.path (f.store.revision h)
  form : ∃ g, w.form? n = some g ∧ Resumes f h g

section Retains

variable {h : Host} {g : Mounted} (hr : Retains f h n w) (hg : Resumes f h g)

include hr hg

/-- The records are the same, of the same revision. -/
theorem Retains.store : g.store.revision w.host = f.store.revision h ∧
    g.store.recordsOrNone w.host = f.store.recordsOrNone h := by
  rw [hg.same.store]
  have hrev : f.store.revision w.host = f.store.revision h := hr.rests.revision_eq
  exact ⟨hrev, (revision_advances hr.advances hr.knows).2 hrev⟩

/-- When the form catches up, it has the edits that it would have had at first. -/
theorem Retains.sync_alike : (f.sync h).2.editor.Alike (g.sync w.host).2.editor := by
  obtain ⟨hrev, hrs⟩ := hr.store hg
  have hf := f.sync_alike h
  have hsync := g.sync_alike w.host
  rw [hrev, hrs] at hsync
  exact (hf.symm.trans hg.caughtUp).trans hsync

theorem Retains.caughtUp (hc : f.CaughtUp h) : g.CaughtUp w.host := by
  rw [Mounted.CaughtUp, (hg.always hc).revision, hc, (hr.store hg).1]

theorem Retains.sync : Resumes f h (g.sync w.host).2 := by
  obtain ⟨hrev, hrs⟩ := hr.store hg
  have hsync := g.sync_alike w.host
  have hsame := g.sync_same w.host
  rw [hrev, hrs] at hsync
  refine ⟨⟨hsame.configuration.trans hg.same.configuration, hsame.store.trans hg.same.store⟩, ?_,
    fun hc => (hg.always hc).trans (hr.caughtUp hg hc).sync.1⟩
  -- a form that has caught up stays as it is when it does so again
  have hagain := hsync.sync (f.store.revision h) (f.store.recordsOrNone h)
  rw [Editor.sync_eq_of_eq (Editor.sync_revision g.editor _ _)] at hagain
  exact hg.caughtUp.trans hagain

end Retains

/-- A form is there still after a step that is unrelated to it. -/
theorem Resumes.step {h : Host} {g : Mounted} (hr : Retains f h n w) (hf : w.form? n = some g)
    (hg : Resumes f h g) {s : Step} (hs : s.Unrelated w n f) :
    ∃ g', (w.step s).form? n = some g' ∧ Resumes f h g' := by
  cases s with
  | setFailReads | setCanWait => exact ⟨g, hf, hg⟩
  | act a =>
    by_cases ha : a.subject = some n
    · cases a with
      | host | mount | release | releaseAll => contradiction
      | edit m a => exact absurd (Option.some.inj ha) hs
      | unmount m => exact absurd (Option.some.inj ha) hs
      | sync m | view m =>
        obtain rfl : m = n := Option.some.inj ha
        refine ⟨(g.sync w.host).2, ?_, hr.sync hg⟩
        simp only [step, act, hf]
        exact form?_setForm_self hf w.host _
      | submit m =>
        obtain rfl : m = n := Option.some.inj ha
        -- it is a submit to the file of the form, so it failed
        cases hok : (g.submit w.host).1 with
        | ok u =>
          refine absurd ?_ (hs g hf hok)
          rw [hg.same.configuration]
        | error fault =>
          have hsync := (Mounted.submit_error_cases hok).1
          refine ⟨(g.sync w.host).2, ?_, hr.sync hg⟩
          simp only [step, act, hf, hsync]
          exact form?_setForm_self hf _ _
    · exact ⟨g, (form?_act_of_ne ha (lt_of_form? hf)).trans hf, hg⟩

theorem Retains.step {h : Host} (hr : Retains f h n w) {s : Step} (hs : s.Unrelated w n f) :
    Retains f h n (w.step s) := by
  obtain ⟨g, hf, hg⟩ := hr.form
  refine ⟨hr.sited.step s, hr.knows, hr.advances.trans (w.step_advances s), ?_, hg.step hr hf hs⟩
  have hrests := hr.rests
  cases s with
  | setFailReads | setCanWait => exact ⟨hrests.known, hrests.unread⟩
  | act a =>
    cases a with
    | host a => exact hrests.act hs
    | mount c => exact hrests.mount c w.roster
    | release p => exact hrests.release w.roster p
    | releaseAll => exact hrests.releaseAll w.roster
    | unmount m =>
      simp only [World.step, act]
      split
      · exact hrests
      · next g _ => exact hrests.unmount g
    | edit m a | sync m | view m =>
      simp only [World.step, act]
      split <;> exact hrests
    | submit m =>
      simp only [World.step, act]
      split
      · exact hrests
      · next g hg =>
        refine hrests.submit (hr.sited.stores hg) fun hok => ?_
        rw [hr.sited.files hg]
        exact hs g hg hok

theorem Retains.steps {h : Host} (hr : Retains f h n w) {ss : List Step}
    (hs : Unrelated n f w ss) : Retains f h n (w.steps ss) := by
  induction ss generalizing w with
  | nil => exact hr
  | cons s ss ih => exact ih (hr.step hs.1) hs.2

/-- In any run, a form is there and no read of its records waits. Anything unrelated is done after
that. Then, whenever the form catches up, its place, its count and all its working copies are what
they would have been had it caught up at first; if it had, they have been the same all the time
and it finds nothing new. The new record changes only from what such records started from to what
they start from now. -/
theorem steps_retain_edits (before ss : List Step) (n : Nat) (w w' : World) (f : Mounted)
    (hw : w = ({} : World).steps before) (hf : w.form? n = some f)
    (hread : ∀ r ∈ w.host.pending, f.store.tracker ≠ .text r.tracker)
    (hs : Unrelated n f w ss) (hw' : w' = w.steps ss) :
    ∃ g, w'.form? n = some g ∧ (f.sync w.host).2.editor.Alike (g.sync w'.host).2.editor ∧
      (f.CaughtUp w.host → f.editor.Alike g.editor ∧ f.editor.Alike (g.sync w'.host).2.editor ∧
        (g.sync w'.host).1 = false) ∧
      ((g.sync w'.host).2.editor.drafts.created = g.editor.drafts.created ∨
        g.editor.drafts.created.same g.editor.initial = true ∧
          (g.sync w'.host).2.editor.drafts.created = Mounted.initialOf g.schema w'.host ∧
          (g.sync w'.host).2.editor.initial = Mounted.initialOf g.schema w'.host) := by
  have hsited : w.Sited := hw ▸ sited_empty.steps before
  have hat := (hsited.stores hf).at'
  rw [hsited.files hf] at hat
  obtain ⟨state, -, t, ht, hp, -⟩ := hat
  have hrests : w.host.Rests f.store.tracker f.configuration.records.path
      (f.store.revision w.host) := by
    refine ⟨⟨t, ht, hp, ?_⟩, hread⟩
    rw [Store.revision, Host.ask_eq_map (k := Snapshot.revision) (fun _ _ => rfl), ht]
    rfl
  have hr : Retains f w.host n w' := hw' ▸ (Retains.mk hsited (Host.knows_of_snapshot ht) .rfl hrests
    ⟨f, hf, .rfl⟩).steps hs
  obtain ⟨g, hform, hg⟩ := hr.form
  refine ⟨g, hform, hr.sync_alike hg, fun hc => ?_, g.sync_created w'.host⟩
  obtain ⟨ha, hfalse⟩ := (hr.caughtUp hg hc).sync
  exact ⟨hg.always hc, (hg.always hc).trans ha, hfalse⟩

/-- A form has an unsaved edit of its one record. Then the list is emptied, and the read that this
asks for is run, but the form has not caught up. -/
def behind : List Step := [.act (.host (.insert "people.json" "[\x7b\x7d]")),
  .act (.mount ⟨⟨"people.json", "data"⟩, .inline [], none⟩), .act (.edit 0 (.setForm [("x", .int 3)])),
  .act (.host (.insert "people.json" "[]")), .act (.host (.runRead 0))]

/-- Another file is made, and the form catches up: its edit is gone. -/
theorem steps_drop_edits : ∃ w f g, w = ({} : World).steps behind ∧ w.form? 0 = some f ∧
    w.host.pending = [] ∧ f.editor.drafts.copies = [(0, [("x", .int 3)])] ∧
    Unrelated 0 f w [.act (.host (.insert "other.md" ""))] ∧
    (w.steps [.act (.host (.insert "other.md" ""))]).form? 0 = some g ∧
    (g.sync (w.steps [.act (.host (.insert "other.md" ""))]).host).2.editor.drafts.copies = [] := by
  obtain ⟨w, hw⟩ : ∃ w, w = ({} : World).steps behind := ⟨_, rfl⟩
  have hform : w.host.pending = [] ∧ ∀ f ∈ w.form? 0, f.configuration.records.path = "people.json" ∧
      f.editor.drafts.copies = [(0, [("x", .int 3)])] ∧
      (f.sync (w.steps [.act (.host (.insert "other.md" ""))]).host).2.editor.drafts.copies = [] := by
    rw [hw]
    decide +kernel
  obtain ⟨f, hf⟩ : ∃ f, w.form? 0 = some f := Option.isSome_iff_exists.mp (by
    rw [hw]
    decide +kernel)
  obtain ⟨hpath, hcopies, hgone⟩ := hform.2 f hf
  refine ⟨w, f, f, hw, hf, hform.1, hcopies, ⟨fun _ he => ?_, trivial⟩, hf, hgone⟩
  rw [hpath] at he
  exact absurd (Option.some.inj he) (by decide)

/-- A form of a list whose schema is in a note, and one of the records in another note. The record
of the list has an unsaved edit. -/
def editing : List Step := [.act (.host (.insert "people.json" "[\x7b\x7d]")),
  .act (.host (.insert "schema.md" "---\nschema:\n  default:\n    x: 1\n---\n")),
  .act (.host (.insert "other.md" "")),
  .act (.mount ⟨⟨"people.json", "data"⟩, .file ⟨"schema.md", "schema"⟩, none⟩),
  .act (.mount ⟨⟨"other.md", "data"⟩, .inline [], none⟩),
  .act (.edit 0 (.setForm [("x", .int 3)]))]

/-- The schema changes, the other form submits, and the list is moved away. -/
def elsewhere : List Step := [
  .act (.host (.insert "schema.md" "---\nschema:\n  default:\n    x: 2\n---\n")),
  .act (.submit 1), .act (.host (.rename "people.json" "old.json"))]

/-- The edit is there still, and new records start from the new default. -/
theorem steps_retain_edits_elsewhere : ∃ f g, (({} : World).steps editing).form? 0 = some f ∧
    ((({} : World).steps editing).steps elsewhere).form? 0 = some g ∧
    (g.sync ((({} : World).steps editing).steps elsewhere).host).1 = false ∧
    (g.sync ((({} : World).steps editing).steps elsewhere).host).2.editor.drafts.copies =
      [(0, [("x", .int 3)])] ∧
    g.editor.drafts.created = [("x", .int 1)] ∧
    (g.sync ((({} : World).steps editing).steps elsewhere).host).2.editor.drafts.created =
      [("x", .int 2)] := by
  obtain ⟨w, hw⟩ : ∃ w, w = ({} : World).steps editing := ⟨_, rfl⟩
  obtain ⟨w', hw'⟩ : ∃ w', w' = w.steps elsewhere := ⟨_, rfl⟩
  have hform : w.host.pending = [] ∧ ∀ f ∈ w.form? 0, f.configuration.records.path = "people.json" ∧
      f.editor.drafts.copies = [(0, [("x", .int 3)])] ∧
      f.editor.drafts.revision = some (f.store.revision w.host) := by
    rw [hw]
    decide +kernel
  have hcreated : ∀ g ∈ w'.form? 0, g.editor.drafts.created = [("x", .int 1)] ∧
      (g.sync w'.host).2.editor.drafts.created = [("x", .int 2)] := by
    rw [hw', hw]
    decide +kernel
  have hother : ∀ g ∈ (w.steps (elsewhere.take 1)).form? 1, g.configuration.records.path = "other.md" := by
    rw [hw]
    decide +kernel
  obtain ⟨f, hf⟩ : ∃ f, w.form? 0 = some f := Option.isSome_iff_exists.mp (by
    rw [hw]
    decide +kernel)
  obtain ⟨hpath, hcopies, hcaught⟩ := hform.2 f hf
  have hs : Unrelated 0 f w elsewhere := by
    refine ⟨fun _ he => ?_, fun g hg _ => ?_, fun _ he => ?_, trivial⟩
    · rw [hpath] at he
      exact absurd (Option.some.inj he) (by decide)
    · rw [hpath, hother g hg]
      decide
    · rw [hpath] at he
      exact absurd (Option.some.inj he) (by decide)
  rw [← hw, ← hw']
  obtain ⟨g, hg, -, hsame, -⟩ := steps_retain_edits editing elsewhere 0 w w' f hw hf
    (by simp [hform.1]) hs hw'
  obtain ⟨-, ha, hfalse⟩ := hsame hcaught
  exact ⟨f, g, hf, hg, hfalse, ha.copies.trans hcopies, hcreated g hg⟩

end World

end Form

end NoteForms
