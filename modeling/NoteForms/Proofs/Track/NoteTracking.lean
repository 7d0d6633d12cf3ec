import NoteForms.Proofs.Track.Run

/-! A tracker of frontmatter that listens never loses its file: it agrees with the
vault after everything that is done. Nobody need hold it, and none of its reads waits,
since it takes what the vault keeps at once. -/

namespace NoteForms.Host

open Tracker (FollowsNote)

variable {h h' : Host} {n : Nat} {path : String}

/-- The tracker of a note is at its path and agrees with the vault. -/
def TracksNote (h : Host) (n : Nat) (path : String) : Prop :=
  ∃ t, h.notes[n]? = some t ∧ t.path = path ∧ t.FollowsNote h.vault

/-! ### What happens to the tracker -/

/-- Some change of the tracker alone. -/
theorem TracksNote.map (ht : h.TracksNote n path) {f : Tracker Object → Tracker Object}
    (hv : h'.vault.files = h.vault.files) (hn : h'.notes[n]? = (h.notes[n]?).map f)
    (hf : ∀ t, h.notes[n]? = some t → t.FollowsNote h.vault →
      (f t).path = t.path ∧ (f t).FollowsNote h.vault) : h'.TracksNote n path := by
  obtain ⟨t, ht, rfl, hfollows⟩ := ht
  obtain ⟨hp, hfollows'⟩ := hf t ht hfollows
  exact ⟨f t, by rw [hn, ht]; rfl, hp, hfollows'.congr (by rw [hv])⟩

theorem TracksNote.congr (ht : h.TracksNote n path) (hv : h'.vault.files = h.vault.files)
    (hn : h'.notes[n]? = h.notes[n]?) : h'.TracksNote n path :=
  ht.map (f := id) hv (by simpa using hn) fun _ _ hf => ⟨rfl, hf⟩

/-- The tracker hears of a change before anything else is done. -/
theorem TracksNote.changed (ht : h.TracksNote n path) (hw : h.Wired) (hl : h.Listens (.note n))
    {c : Event × Vault} (hc : Vault.Reports c.1 h.vault c.2) : (h.changed c).TracksNote n path := by
  obtain ⟨t, ht, hp, hf⟩ := ht
  refine ⟨t.hearNote c.2 c.1, ?_, (t.hearNote_sameSite c.2 c.1).path.trans hp, ?_⟩
  · rw [changed_note hw hl, ht]
    rfl
  · rw [Host.changed, emit_vault]
    exact Tracker.hearNote_follows hf hc

theorem adjust_note (h : Host) (id : TrackerId) (f : Adjustment) (n : Nat) :
    (h.adjust id f).notes[n]? = (h.notes[n]?).map fun t => if id = .note n then f t else t := by
  cases id with
  | text m => simp [adjust]
  | note m =>
    simp only [adjust, List.getElem?_modify, TrackerId.note.injEq, Option.map_eq_map]

theorem TracksNote.adjust (ht : h.TracksNote n path) (id : TrackerId) (f : Adjustment)
    (hf : ∀ t, id = .note n → h.notes[n]? = some t → t.FollowsNote h.vault →
      (f t).path = t.path ∧ (f t).FollowsNote h.vault) : (h.adjust id f).TracksNote n path := by
  refine ht.map (by simp) (adjust_note h id f n) fun t hn hfollows => ?_
  split
  · next hid => exact hf t hid hn hfollows
  · exact ⟨rfl, hfollows⟩

/-- Neither its listeners nor its users matter to what a tracker knows. -/
theorem tracksNote_indifferent (n : Nat) (path : String) : Indifferent (·.TracksNote n path) where
  bus _ ht := ht
  adjust id f hf ht := ht.adjust id f fun t _ _ hfollows =>
    have ⟨hp, hs, hd, _⟩ := hf t
    ⟨hp, hfollows.alike hp hs hd⟩

theorem TracksNote.addNote (ht : h.TracksNote n path) (t : Tracker Object) :
    (h.addNote t).TracksNote n path := by
  have ⟨_, hn, _⟩ := ht
  exact ht.congr rfl (List.getElem?_append_left (List.getElem?_eq_some_iff.mp hn).1)

theorem TracksNote.runReadAt (ht : h.TracksNote n path) (i : Nat) :
    (h.runReadAt i).TracksNote n path := by
  unfold Host.runReadAt
  split
  · exact ht
  · exact ht.congr rfl rfl

theorem TracksNote.refresh (ht : h.TracksNote n path) (id : TrackerId) :
    (h.refresh id).TracksNote n path := by
  cases id with
  | text m => exact ht.congr rfl rfl
  | note m =>
    refine ht.map (f := fun t => if m = n then t.loadNote h.vault else t) rfl ?_ fun t _ hf => ?_
    · simp only [Host.refresh, List.getElem?_modify, Option.map_eq_map]
    · split
      · exact ⟨(t.loadNote_sameSite h.vault).path, Tracker.loadNote_follows hf.missing⟩
      · exact ⟨rfl, hf⟩

theorem refusal?_note {t : Tracker Object} (ht : h.notes[n]? = some t)
    (hr : h.refusal? (.note n) = none) : t.state.isOpen = true := by
  simpa [refusal?, ask, ht] using hr

theorem path_note {t : Tracker Object} (ht : h.notes[n]? = some t) : h.path (.note n) = t.path := by
  simp [path, ask, ht]

/-- A write through any tracker. The tracker that writes stood open. -/
theorem TracksNote.settle (ht : h.TracksNote n path) (hw : h.Wired) (hl : h.Listens (.note n))
    {id : TrackerId} {keep : Host → Host} {outcome : Except VaultFault (Event × Vault)}
    (hk : ∀ h, (keep h).vault = h.vault ∧ (keep h).notes[n]? = h.notes[n]?)
    (hr : h.refusal? id = none) (ho : ∀ c, outcome = .ok c → Vault.Reports c.1 h.vault c.2) :
    (h.settle id keep outcome).2.TracksNote n path := by
  cases outcome with
  | error fault =>
    refine ht.adjust id Tracker.writeFailed fun t hid hn hf =>
      ⟨t.writeFailed_sameSite.path, hf.writeFailed ?_⟩
    subst hid
    exact refusal?_note hn hr
  | ok c =>
    have hc := (ht.changed hw hl (ho c rfl)).congr (by rw [(hk _).1]) (hk _).2
    exact hc.adjust id Tracker.writeSucceeded fun t _ _ hf =>
      ⟨t.writeSucceeded_sameSite.path, hf.writeSucceeded⟩

/-! ### Steps and runs -/

/-- Whatever is done while the tracker listens. -/
theorem TracksNote.act (ht : h.TracksNote n path) (hr : h.Ready) (hl : h.Listens (.note n))
    (a : Action) : (h.act a).TracksNote n path := by
  have hi := tracksNote_indifferent n path
  have houtside : a.Outside → (h.act a).TracksNote n path := by
    intro ha
    rcases h.act_outside ha with he | ⟨c, hc, he⟩ <;> rw [he]
    · exact ht
    · exact ht.changed hr.wired hl (Action.change?_reports hr.sound hc)
  cases a with
  | insert | createFolder | delete | rename | write | process => exact houtside trivial
  | setFailWrites fail => exact ht.congr rfl rfl
  | runRead i => exact ht.runReadAt i
  | openNote p => exact hi.listen (ht.addNote _) _
  | openText p =>
    have ha : (h.addText (.forText h.vault h.read p)).TracksNote n path := ht.congr rfl rfl
    exact hi.listen ha _
  | share id => exact hi.share ht id
  | drop id => exact hi.drop ht id
  | listen id => exact hi.listen ht id
  | unlisten id => exact hi.unlisten ht id
  | refresh id => exact ht.refresh id
  | modifyNote m f =>
    simp only [Host.act, Host.modifyNote]
    split
    · exact ht
    · next ho =>
      exact ht.settle hr.wired hl (fun _ => ⟨rfl, rfl⟩) ho fun c hc => Vault.process_reports hr.sound hc
  | writeText m text =>
    simp only [Host.act, Host.writeText]
    split
    · exact ht
    · next ho =>
      exact ht.settle hr.wired hl (fun _ => ⟨rfl, rfl⟩) ho fun c hc => Vault.write_reports hr.sound hc

theorem TracksNote.run (ht : h.TracksNote n path) (hr : h.Ready) (as : List Action)
    (hl : Throughout (·.Listens (.note n)) h as) : (h.run as).TracksNote n path := by
  induction as generalizing h with
  | nil => exact ht
  | cons a as ih => exact ih (ht.act hr hl.1 a) (hr.act a) hl.2

theorem openNote_tracks (h : Host) (path : String) :
    (h.openNote path).2.TracksNote (h.openNote path).1 path := by
  rw [openNote_eq]
  have ha : (h.addNote (.forNote h.vault path)).TracksNote h.notes.length path :=
    ⟨_, List.getElem?_concat_length, (Tracker.forNote_sameSite h.vault path).path,
      Tracker.forNote_follows h.vault path⟩
  exact (tracksNote_indifferent _ path).listen ha _

/-- A tracker of frontmatter is opened in any host that was reached and listens from
then on. After whatever was done, it has the frontmatter that the vault keeps if its
file may be read, and if it found none, there is none. -/
theorem openNote_coherent (before after : List Action) (path : String) (n : Nat) (start : Host)
    (ho : (({} : Host).run before).openNote path = (n, start))
    (hl : Throughout (·.Listens (.note n)) start after) :
    ∃ t, (start.run after).notes[n]? = some t ∧ t.path = path ∧
      (t.state.isOpen = true → t.data = (start.run after).vault.frontmatter? path) ∧
      (t.state = .notFound → (start.run after).vault.hasFile path = false ∧ t.data = none) := by
  have hr := ready_empty.run before
  have ht := openNote_tracks (({} : Host).run before) path
  have hr' := hr.act (.openNote path)
  rw [act, ho] at hr'
  rw [ho] at ht
  obtain ⟨t, hn, rfl, hf⟩ := ht.run hr' after hl
  exact ⟨t, hn, rfl, hf.fresh, hf.missing⟩

/-- A note is moved away and another one onto its path, and a write fails. -/
def moves : List Action :=
  [.rename "a.md" "b.md", .insert "c.md" "---\nk: v\n---\ntwo", .rename "c.md" "a.md",
    .setFailWrites true, .modifyNote 0 (·.remove "k")]

/-- The tracker of the first note has the frontmatter of the other one. -/
theorem openNote_coherent_moves :
    ∃ t : Tracker Object, ∃ h : Host,
      h = ((({} : Host).run [.insert "a.md" "one"]).openNote "a.md").2.run moves ∧
      h.notes[0]? = some t ∧ t.state = .failed "a.md" ∧ t.data = h.vault.frontmatter? "a.md" := by
  have hl : Throughout (·.Listens (.note 0))
      ((({} : Host).run [.insert "a.md" "one"]).openNote "a.md").2 moves := by decide +kernel
  have hs : (((({} : Host).run [.insert "a.md" "one"]).openNote "a.md").2.run moves).notes[0]?.map
      (·.state) = some (.failed "a.md") := by decide +kernel
  obtain ⟨t, ht, -, hfresh, -⟩ :=
    openNote_coherent [.insert "a.md" "one"] moves "a.md" 0
      ((({} : Host).run [.insert "a.md" "one"]).openNote "a.md").2 rfl hl
  rw [ht] at hs
  have hs' : t.state = .failed "a.md" := Option.some.inj hs
  exact ⟨t, _, rfl, ht, hs', hfresh (by rw [hs']; rfl)⟩

end NoteForms.Host
