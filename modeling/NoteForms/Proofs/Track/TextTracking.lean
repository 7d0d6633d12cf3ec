import NoteForms.Proofs.Track.Run

/-! A tracker of text that is held and listens agrees with the vault when none of its
reads waits. Reads may wait as long as they like: one that is run late takes the text
of that moment, or nothing. -/

namespace NoteForms.Host

open Tracker (FollowsText)

variable {h h' : Host} {n : Nat} {path : String}

/-- The tracker of a text is at its path and agrees with the vault, as far as its
reads that wait allow. -/
def TracksText (h : Host) (n : Nat) (path : String) : Prop :=
  ∃ t, h.texts[n]? = some t ∧ t.path = path ∧ t.FollowsText (h.waitingOf n) h.vault

/-! ### What happens to the tracker -/

/-- Some change of the tracker, or of the reads that wait for it. -/
theorem TracksText.map (ht : h.TracksText n path) {f : Tracker String → Tracker String}
    (hv : h'.vault.files = h.vault.files) (hn : h'.texts[n]? = (h.texts[n]?).map f)
    (hf : ∀ t, h.texts[n]? = some t → t.FollowsText (h.waitingOf n) h.vault →
      (f t).path = t.path ∧ (f t).FollowsText (h'.waitingOf n) h.vault) : h'.TracksText n path := by
  obtain ⟨t, ht, rfl, hfollows⟩ := ht
  obtain ⟨hp, hfollows'⟩ := hf t ht hfollows
  exact ⟨f t, by rw [hn, ht]; rfl, hp, hfollows'.congr (by rw [hv])⟩

theorem TracksText.congr (ht : h.TracksText n path) (hv : h'.vault.files = h.vault.files)
    (hn : h'.texts[n]? = h.texts[n]?) (hw : h'.waitingOf n = h.waitingOf n) :
    h'.TracksText n path :=
  ht.map (f := id) hv (by simpa using hn) fun _ _ hf => ⟨rfl, hw ▸ hf⟩

/-- The tracker hears of a change. It may ask for a read, which then waits. -/
theorem TracksText.changed (ht : h.TracksText n path) (hr : h.Ready) (hl : h.Listens (.text n))
    {c : Event × Vault} (hc : Vault.Reports c.1 h.vault c.2) : (h.changed c).TracksText n path := by
  obtain ⟨t, ht, hp, hf⟩ := ht
  obtain ⟨hn, hwait⟩ := changed_text hr hl ht c
  refine ⟨_, hn, (t.react_sameSite c.2 _).path.trans hp, ?_⟩
  rw [hwait, Host.changed, emit_vault]
  exact Tracker.hearText_follows hf hc

theorem adjust_text (h : Host) (id : TrackerId) (f : Adjustment) (n : Nat) :
    (h.adjust id f).texts[n]? = (h.texts[n]?).map fun t => if id = .text n then f t else t := by
  cases id with
  | note m => simp [adjust]
  | text m =>
    simp only [adjust, List.getElem?_modify, TrackerId.text.injEq, Option.map_eq_map]

theorem waitingOf_adjust (h : Host) (id : TrackerId) (f : Adjustment) (n : Nat) :
    (h.adjust id f).waitingOf n = h.waitingOf n := by simp [waitingOf]

theorem TracksText.adjust (ht : h.TracksText n path) (id : TrackerId) (f : Adjustment)
    (hf : ∀ t, id = .text n → h.texts[n]? = some t → t.FollowsText (h.waitingOf n) h.vault →
      (f t).path = t.path ∧ (f t).FollowsText (h.waitingOf n) h.vault) :
    (h.adjust id f).TracksText n path := by
  refine ht.map (by simp) (adjust_text h id f n) fun t hn hfollows => ?_
  rw [waitingOf_adjust]
  split
  · next hid => exact hf t hid hn hfollows
  · exact ⟨rfl, hfollows⟩

theorem tracksText_indifferent (n : Nat) (path : String) : Indifferent (·.TracksText n path) where
  bus _ ht := ht
  adjust id f hf ht := ht.adjust id f fun t _ _ hfollows =>
    have ⟨hp, hs, hd, he⟩ := hf t
    ⟨hp, hfollows.alike hp hs hd he⟩

theorem TracksText.addText (ht : h.TracksText n path) (t : Tracker String) :
    (h.addText t).TracksText n path := by
  have ⟨_, hn, _⟩ := ht
  exact ht.congr rfl (List.getElem?_append_left (List.getElem?_eq_some_iff.mp hn).1) rfl

/-! ### Writes -/

theorem refusal?_text {t : Tracker String} (ht : h.texts[n]? = some t)
    (hr : h.refusal? (.text n) = none) : t.state.isOpen = true := by
  simpa [refusal?, ask, ht] using hr

theorem path_text {t : Tracker String} (ht : h.texts[n]? = some t) : h.path (.text n) = t.path := by
  simp [Host.path, ask, ht]

theorem TracksText.failed (ht : h.TracksText n path) {id : TrackerId} (hr : h.refusal? id = none) :
    (h.adjust id Tracker.writeFailed).TracksText n path := by
  refine ht.adjust id Tracker.writeFailed fun t hid hn hf =>
    ⟨t.writeFailed_sameSite.path, hf.writeFailed ?_⟩
  subst hid
  exact refusal?_text hn hr

theorem TracksText.succeeded (ht : h.TracksText n path) (id : TrackerId) :
    (h.adjust id Tracker.writeSucceeded).TracksText n path :=
  ht.adjust id Tracker.writeSucceeded fun t _ _ hf =>
    ⟨t.writeSucceeded_sameSite.path, hf.writeSucceeded⟩

/-- What a tracker wrote is in the vault when it keeps the text. -/
theorem TracksText.keep (ht : h.TracksText n path) (m : Nat) (text : String)
    (hm : m = n → h.vault.text? path = some text) : (keepText m text h).TracksText n path := by
  have ⟨t₀, ht₀, hp₀, _⟩ := ht
  refine ht.map (f := fun t => if m = n then t.invalidate.setData (some text) else t) rfl ?_
    fun t hn hf => ?_
  · simp only [keepText, List.getElem?_modify, Option.map_eq_map]
  · have hp : t.path = path := by
      rw [ht₀] at hn
      rw [← Option.some.inj hn, hp₀]
    split
    · next hmn => exact ⟨rfl, Tracker.keep_followsText hf (by rw [hp]; exact hm hmn)⟩
    · exact ⟨rfl, hf⟩

theorem TracksText.writeText (ht : h.TracksText n path) (hr : h.Ready) (hl : h.Listens (.text n))
    (m : Nat) (text : String) : (h.writeText m text).2.TracksText n path := by
  unfold Host.writeText
  split
  · exact ht
  · next ho =>
    cases hw : h.vault.write (h.path (.text m)) text with
    | error fault => exact ht.failed ho
    | ok c =>
      have hc := ht.changed hr hl (Vault.write_reports hr.sound hw)
      refine (hc.keep m text fun hmn => ?_).succeeded _
      obtain ⟨-, rfl⟩ := Vault.write_eq_ok hw
      obtain ⟨t, ht, hp, -⟩ := ht
      rw [Host.changed, emit_vault, hmn, path_text ht, hp]
      simp [Vault.text?, Vault.lookup_putFile, StoredFile.ofText]

theorem TracksText.modifyNote (ht : h.TracksText n path) (hr : h.Ready) (hl : h.Listens (.text n))
    (m : Nat) (f : Object → Object) : (h.modifyNote m f).2.TracksText n path := by
  unfold Host.modifyNote
  split
  · exact ht
  · next ho =>
    cases hw : h.vault.process (h.path (.note m)) f with
    | error fault => exact ht.failed ho
    | ok c => exact (ht.changed hr hl (Vault.process_reports hr.sound hw)).succeeded _

/-! ### Reads -/

theorem read_eq (hf : h.failReads = false) : h.read = h.vault.read := by
  funext p
  simp [Host.read, hf]

/-- A read that is run: the reads that wait before and after it. -/
theorem waitingOf_eq {i : Nat} {r : PendingRead} (hp : h.pending[i]? = some r) (n : Nat) :
    ∃ before after, ({ h with pending := h.pending.eraseIdx i }.waitingOf n = before ++ after) ∧
      h.waitingOf n = if r.tracker = n then before ++ r.epoch :: after else before ++ after := by
  obtain ⟨hi, he⟩ := List.getElem?_eq_some_iff.mp hp
  refine ⟨((h.pending.take i).filter (·.tracker = n)).map (·.epoch),
    ((h.pending.drop (i + 1)).filter (·.tracker = n)).map (·.epoch), ?_, ?_⟩
  · simp [waitingOf, List.eraseIdx_eq_take_drop_succ]
  · have hs : h.pending = h.pending.take i ++ r :: h.pending.drop (i + 1) := by
      rw [← he, ← List.drop_eq_getElem_cons hi, List.take_append_drop]
    have hw : h.waitingOf n =
        ((h.pending.take i ++ r :: h.pending.drop (i + 1)).filter (·.tracker = n)).map (·.epoch) := by
      rw [← hs]
      rfl
    rw [hw, List.filter_append, List.map_append]
    by_cases hm : r.tracker = n <;> simp [hm]

theorem isLive_text {t : Tracker String} (ht : h.texts[n]? = some t) :
    h.isLive (.text n) = t.isLive := by
  simp [isLive, ask, ht]

theorem TracksText.runReadAt (ht : h.TracksText n path) (hr : h.Ready)
    (hl : h.isLive (.text n) = true) (i : Nat) : (h.runReadAt i).TracksText n path := by
  unfold Host.runReadAt
  split
  · exact ht
  · next r hp =>
    obtain ⟨before, after, hafter, hbefore⟩ := waitingOf_eq hp n
    refine ht.map (f := fun t => if r.tracker = n then t.loadText h.vault.read r.epoch else t) rfl ?_
      fun t hn hf => ?_
    · have ⟨t, ht, _⟩ := ht
      have hlive : t.isLive = true := isLive_text ht ▸ hl
      have hread : ({ h with pending := h.pending.eraseIdx i } : Host).read = h.vault.read :=
        read_eq hr.failReads
      simp [runRead, List.getElem?_modify, ht, hlive, hread]
    · show _ ∧ Tracker.FollowsText ({ h with pending := h.pending.eraseIdx i }.waitingOf n) _ _
      rw [hafter]
      rw [hbefore] at hf
      split at hf
      · next hm =>
        rw [if_pos hm]
        exact ⟨(t.loadText_sameSite _ _).path, Tracker.loadText_follows hf⟩
      · next hm =>
        rw [if_neg hm]
        exact ⟨rfl, hf⟩

theorem TracksText.refresh (ht : h.TracksText n path) (hr : h.Ready) (id : TrackerId) :
    (h.refresh id).TracksText n path := by
  cases id with
  | note m => exact ht.congr rfl rfl rfl
  | text m =>
    refine ht.map (f := fun t => if m = n then t.loadText h.vault.read t.epoch else t) rfl ?_
      fun t _ hf => ?_
    · simp only [Host.refresh, List.getElem?_modify, Option.map_eq_map, read_eq hr.failReads]
    · split
      · exact ⟨(t.loadText_sameSite _ _).path, Tracker.refresh_followsText hf⟩
      · exact ⟨rfl, hf⟩

/-- Whatever is done while the tracker is held and listens. -/
theorem TracksText.act (ht : h.TracksText n path) (hr : h.Ready) (hs : h.Subscribed (.text n))
    (a : Action) : (h.act a).TracksText n path := by
  have hi := tracksText_indifferent n path
  have houtside : a.Outside → (h.act a).TracksText n path := by
    intro ha
    rcases h.act_outside ha with he | ⟨c, hc, he⟩ <;> rw [he]
    · exact ht
    · exact ht.changed hr hs.2 (Action.change?_reports hr.sound hc)
  cases a with
  | insert | createFolder | delete | rename | write | process => exact houtside trivial
  | setFailWrites fail => exact ht.congr rfl rfl rfl
  | runRead i => exact ht.runReadAt hr hs.1 i
  | openNote p =>
    have ha : (h.addNote (.forNote h.vault p)).TracksText n path := ht.congr rfl rfl rfl
    exact hi.listen ha _
  | openText p => exact hi.listen (ht.addText _) _
  | share id => exact hi.share ht id
  | drop id => exact hi.drop ht id
  | listen id => exact hi.listen ht id
  | unlisten id => exact hi.unlisten ht id
  | refresh id => exact ht.refresh hr id
  | modifyNote m f => exact ht.modifyNote hr hs.2 m f
  | writeText m text => exact ht.writeText hr hs.2 m text

theorem TracksText.run (ht : h.TracksText n path) (hr : h.Ready) (as : List Action)
    (hs : Throughout (·.Subscribed (.text n)) h as) : (h.run as).TracksText n path := by
  induction as generalizing h with
  | nil => exact ht
  | cons a as ih => exact ih (ht.act hr hs.1 a) (hr.act a) hs.2

/-- No read waits for a tracker that is not there. -/
theorem Waits.waitingOf_new (hw : h.Waits) : h.waitingOf h.texts.length = [] := by
  simp only [waitingOf, List.map_eq_nil_iff, List.filter_eq_nil_iff, decide_eq_true_eq]
  intro r hm he
  have := hw r hm
  omega

theorem Ready.openText_tracks (hr : h.Ready) (path : String) :
    (h.openText path).2.TracksText (h.openText path).1 path := by
  have hw := hr.waits.waitingOf_new
  have hf : (Tracker.forText h.vault h.read path).FollowsText [] h.vault := by
    rw [read_eq hr.failReads]
    exact Tracker.forText_follows h.vault path
  have ha : (h.addText (.forText h.vault h.read path)).TracksText h.texts.length path :=
    ⟨_, List.getElem?_concat_length, (Tracker.forText_sameSite h.vault h.read path).path, hw ▸ hf⟩
  rw [openText_eq]
  exact (tracksText_indifferent _ path).listen ha _

end NoteForms.Host
