import NoteForms.Proofs.Form.Current
import NoteForms.Proofs.Track.Snapshot

/-! Where trackers are. In every run of a world the roster enters trackers under their own
paths, and the store of each form has a tracker of its file, of the flavour of the file, which
has looked the path up. Trackers may be stopped, let go of and released; they keep their paths. -/

namespace NoteForms

open Records Setup

/-! ### Trackers -/

namespace Host

variable {h h' : Host} {id : TrackerId} {path : String}

/-- The tracker is there, it is of the path, and it has looked the path up. -/
def At (h : Host) (id : TrackerId) (path : String) : Prop :=
  ∃ state, state ≠ .unresolved ∧ h.Stands id path state

theorem At.advances (hat : h.At id path) (ha : h.Advances h') : h'.At id path := by
  obtain ⟨state, hne, hs⟩ := hat
  rw [stands_iff] at hs
  cases id with
  | note n =>
    obtain ⟨t, ht, he⟩ := Option.map_eq_some_iff.mp hs
    obtain ⟨rfl, rfl⟩ := Prod.mk.inj he
    obtain ⟨t', ht', hadv⟩ := ha.notes n t ht
    exact ⟨t'.state, hadv.lookedUp hne, stands_iff.mpr (by simp [ask, ht', hadv.path])⟩
  | text n =>
    obtain ⟨t, ht, he⟩ := Option.map_eq_some_iff.mp hs
    obtain ⟨rfl, rfl⟩ := Prod.mk.inj he
    obtain ⟨t', ht', hadv⟩ := ha.texts n t ht
    exact ⟨t'.state, hadv.lookedUp hne, stands_iff.mpr (by simp [ask, ht', hadv.path])⟩

theorem At.path_eq (hat : h.At id path) : h.path id = path := by
  obtain ⟨-, -, s, hs, hp, -⟩ := hat
  rw [Host.path_eq hs, hp]

theorem At.knows (hat : h.At id path) : h.Knows id := by
  obtain ⟨-, -, s, hs, -⟩ := hat
  exact knows_of_snapshot hs

/-- A tracker looks its path up when it is opened. -/
theorem openNote_at (h : Host) (path : String) :
    (h.openNote path).2.At (.note (h.openNote path).1) path := by
  have hl : Tracker.Advances (({ path } : Tracker Object).resolve h.vault)
      (.forNote h.vault path) := Tracker.loadNote_advances _ _
  have hne : (Tracker.forNote h.vault path).state ≠ .unresolved := hl.lookedUp (by
    rw [Tracker.resolve_state]
    exact Tracker.ofPlace_ne_unresolved _)
  refine ⟨_, hne, stands_iff.mpr ?_⟩
  rw [openNote_eq, ask_eq_map (k := fun s => (s.path, s.state)) (fun _ _ => rfl), snapshot?_listen]
  simp [snapshot?, addNote, Tracker.snapshot, (Tracker.forNote_sameSite h.vault path).path]

theorem openText_at (h : Host) (path : String) :
    (h.openText path).2.At (.text (h.openText path).1) path := by
  have hl : Tracker.Advances (({ path } : Tracker String).resolve h.vault)
      (.forText h.vault h.read path) := Tracker.loadText_advances _ _ _
  have hne : (Tracker.forText h.vault h.read path).state ≠ .unresolved := hl.lookedUp (by
    rw [Tracker.resolve_state]
    exact Tracker.ofPlace_ne_unresolved _)
  refine ⟨_, hne, stands_iff.mpr ?_⟩
  rw [openText_eq, ask_eq_map (k := fun s => (s.path, s.state)) (fun _ _ => rfl), snapshot?_listen]
  simp [snapshot?, addText, Tracker.snapshot, (Tracker.forText_sameSite h.vault h.read path).path]

theorem openAs_at (h : Host) (k : Flavour) (path : String) :
    (h.openAs k path).2.At (h.openAs k path).1 path := by
  cases k with
  | note => exact h.openNote_at path
  | text => exact h.openText_at path

end Host

/-! ### Rosters -/

namespace Roster

variable {h h' : Host} {r : Roster} {k : Flavour} {path : String} {id : TrackerId}

/-- Trackers are entered under their paths. -/
structure Sited (r : Roster) (h : Host) : Prop where
  notes : ∀ {path n}, (path, n) ∈ r.notes → h.At (.note n) path
  texts : ∀ {path n}, (path, n) ∈ r.texts → h.At (.text n) path

theorem Sited.advances (hr : r.Sited h) (ha : h.Advances h') : r.Sited h' :=
  ⟨fun hm => (hr.notes hm).advances ha, fun hm => (hr.texts hm).advances ha⟩

theorem Sited.at' (hr : r.Sited h) (he : r.entered? k path = some id) : h.At id path := by
  cases k with
  | note =>
    obtain ⟨n, hn, rfl⟩ := Option.map_eq_some_iff.mp he
    exact hr.notes (Entries.mem_of_lookup hn)
  | text =>
    obtain ⟨n, hn, rfl⟩ := Option.map_eq_some_iff.mp he
    exact hr.texts (Entries.mem_of_lookup hn)

theorem Sited.enter (hr : r.Sited h) (hat : h.At id path) : (r.enter path id).Sited h := by
  cases id with
  | note n =>
    refine ⟨fun hm => ?_, hr.texts⟩
    rcases Entries.eq_or_mem_of_mem_put hm with he | hm
    · obtain ⟨rfl, rfl⟩ := Prod.mk.inj he
      exact hat
    · exact hr.notes hm
  | text n =>
    refine ⟨hr.notes, fun hm => ?_⟩
    rcases Entries.eq_or_mem_of_mem_put hm with he | hm
    · obtain ⟨rfl, rfl⟩ := Prod.mk.inj he
      exact hat
    · exact hr.texts hm

/-- The tracker that is handed out is of the path, and so are all that are entered. -/
theorem Sited.request (hr : r.Sited h) (k : Flavour) (path : String) :
    (r.request h k path).2.2.Sited (r.request h k path).2.1 ∧
      (r.request h k path).2.1.At (r.request h k path).1 path := by
  rw [request_eq]
  cases hh : r.held? h k path with
  | some id =>
    have ha := h.share_advances id
    exact ⟨hr.advances ha, (hr.at' (Option.filter_eq_some_iff.mp hh).1).advances ha⟩
  | none =>
    have hat := h.openAs_at k path
    exact ⟨(hr.advances (h.openAs_advances k path)).enter hat, hat⟩

/-- Requests in turn. -/
theorem Sited.enrols {r' : Roster} {es : List (String × TrackerId)} (hr : r.Sited h)
    (he : Enrols h r es h' r') : r'.Sited h' ∧ ∀ {path id}, (path, id) ∈ es → h'.At id path := by
  induction he with
  | none => exact ⟨hr, nofun⟩
  | request _ k p ih =>
    obtain ⟨hr', hat⟩ := ih.1.request k p
    refine ⟨hr', fun hm => ?_⟩
    rcases List.mem_cons.mp hm with heq | hm
    · obtain ⟨rfl, rfl⟩ := Prod.mk.inj heq
      exact hat
    · exact (ih.2 hm).advances (request_advances _ _ k p).1

theorem Sited.release (hr : r.Sited h) (path : String) :
    (r.release h path).2.2.Sited (r.release h path).2.1 := by
  have ha := hr.advances (r.release_advances h path)
  exact ⟨fun hm => ha.notes (Entries.mem_of_mem_remove hm),
    fun hm => ha.texts (Entries.mem_of_mem_remove hm)⟩

theorem Sited.releaseAll (hr : r.Sited h) : (r.releaseAll h).2.Sited (r.releaseAll h).1 :=
  List.foldlRecOn (r.paths h) _ (motive := fun (p : Host × Roster) => p.2.Sited p.1) hr
    fun _ hp path _ => hp.release path

end Roster

/-! ### Forms -/

namespace Form

variable {h h' : Host} {r : Roster}

/-- A store has a tracker of its file, of the flavour of the file. -/
structure Sited (h : Host) (s : Store) : Prop where
  flavour : s.file.isJson = true ↔ ∃ n, s.tracker = .text n
  at' : h.At s.tracker s.file.path

theorem Sited.advances {s : Store} (hs : Sited h s) (ha : h.Advances h') : Sited h' s :=
  ⟨hs.flavour, hs.at'.advances ha⟩

theorem mount_sited (hr : r.Sited h) (c : Configuration) :
    (Mounted.mount c h r).2.2.Sited (Mounted.mount c h r).2.1 ∧
      Sited (Mounted.mount c h r).2.1 (Mounted.mount c h r).1.store ∧
      (Mounted.mount c h r).1.store.file = c.records := by
  obtain ⟨hflavour, hfile⟩ := Mounted.mount_store c h r
  obtain ⟨hsited, hat⟩ := hr.enrols (Mounted.mount_enrols c h r)
  exact ⟨hsited, ⟨hflavour, hat (Mounted.mem_requests _)⟩, hfile⟩

/-! ### Worlds -/

namespace World

variable {w : World}

/-- Everything is where it is said to be. -/
structure Sited (w : World) : Prop where
  roster : w.roster.Sited w.host
  stores : ∀ {n f}, w.form? n = some f → Form.Sited w.host f.store
  files : ∀ {n f}, w.form? n = some f → f.store.file = f.configuration.records

theorem sited_empty : ({} : World).Sited := ⟨⟨nofun, nofun⟩, by simp [form?], by simp [form?]⟩

theorem same_setForm {n m : Nat} {f f' g : Mounted} {h : Host} (hf : w.form? m = some f)
    (hs : Mounted.Same f f') (hg : ({ w with host := h }.setForm m f').form? n = some g) :
    ∃ f, w.form? n = some f ∧ Mounted.Same f g := by
  have hf' : ({ w with host := h } : World).form? m = some f := hf
  rw [form?_setForm hf'] at hg
  split at hg
  · next hm => exact ⟨f, hm ▸ hf, Option.some.inj hg ▸ hs⟩
  · exact ⟨g, hg, rfl, rfl⟩

/-- A form is one that was there, with the same store, or was mounted just now. -/
theorem form?_act {a : Action} {n : Nat} {g : Mounted} (hg : (w.act a).form? n = some g) :
    (∃ f, w.form? n = some f ∧ Mounted.Same f g) ∨
      ∃ c, a = .mount c ∧ g = (Mounted.mount c w.host w.roster).1 := by
  have hstays : w.form? n = some g → ∃ f, w.form? n = some f ∧ Mounted.Same f g :=
    fun hg => ⟨g, hg, rfl, rfl⟩
  cases a with
  | host | release | releaseAll => exact .inl (hstays hg)
  | mount c => exact (form?_mount hg).imp hstays fun he => ⟨c, rfl, he⟩
  | unmount m =>
    simp only [act] at hg
    split at hg
    · exact .inl (hstays hg)
    · by_cases hm : m = n
      · subst hm
        by_cases hn : m < w.forms.length <;> simp [form?, hn] at hg
      · exact .inl (hstays (by simpa [form?, hm] using hg))
  | edit m a =>
    simp only [act] at hg
    split at hg
    · exact .inl (hstays hg)
    · next f hf =>
      have hs := f.sync_same w.host
      have he : Mounted.Same f { (f.sync w.host).2 with editor := (f.sync w.host).2.editor.act a } :=
        ⟨hs.configuration, hs.store⟩
      exact .inl (same_setForm hf he hg)
  | sync m | view m =>
    simp only [act] at hg
    split at hg
    · exact .inl (hstays hg)
    · next f hf => exact .inl (same_setForm hf (f.sync_same w.host) hg)
  | submit m =>
    simp only [act] at hg
    split at hg
    · exact .inl (hstays hg)
    · next f hf => exact .inl (same_setForm hf (f.submit_same w.host) hg)

theorem Sited.act (hw : w.Sited) (a : Action) : (w.act a).Sited := by
  have ha := w.act_advances a
  have hroster : (w.act a).roster.Sited (w.act a).host := by
    cases a with
    | host a => exact hw.roster.advances ha
    | mount c => exact (mount_sited hw.roster c).1
    | release path => exact hw.roster.release path
    | releaseAll => exact hw.roster.releaseAll
    | unmount n | edit n a | sync n | view n | submit n =>
      simp only [World.act] at ha ⊢
      split at ha <;> exact hw.roster.advances ha
  refine ⟨hroster, fun {n g} hg => ?_, fun {n g} hg => ?_⟩
  · rcases form?_act hg with ⟨f, hf, hs⟩ | ⟨c, rfl, rfl⟩
    · rw [hs.store]
      exact (hw.stores hf).advances ha
    · exact (mount_sited hw.roster c).2.1
  · rcases form?_act hg with ⟨f, hf, hs⟩ | ⟨c, rfl, rfl⟩
    · rw [hs.store, hs.configuration]
      exact hw.files hf
    · exact (mount_sited hw.roster c).2.2

theorem Sited.step (hw : w.Sited) (s : Step) : (w.step s).Sited := by
  cases s with
  | act a => exact hw.act a
  | setFailReads fail =>
    have ha := w.step_advances (.setFailReads fail)
    exact ⟨hw.roster.advances ha, fun hf => (hw.stores hf).advances ha, hw.files⟩
  | setCanWait wait =>
    have ha := w.step_advances (.setCanWait wait)
    exact ⟨hw.roster.advances ha, fun hf => (hw.stores hf).advances ha, hw.files⟩

theorem Sited.steps (hw : w.Sited) (ss : List Step) : (w.steps ss).Sited := by
  induction ss generalizing w with
  | nil => exact hw
  | cons s ss ih => exact ih (hw.step s)

end World

end Form

end NoteForms
