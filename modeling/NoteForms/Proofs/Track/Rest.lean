import NoteForms.Proofs.Track.Write

/-! Trackers at rest. A tracker replaces its data when something is done at its path, when a
read that waits for it is run, when it is asked to, or when it writes. It does not for what
happens at other paths, whoever listens to it and however often, nor when its file is renamed
away, nor when a write is rejected; these at most change the state that it publishes. -/

namespace NoteForms

/-! ### Changes -/

namespace Tracker

/-- A change for which no data is replaced. -/
def Change.Keeps : Change → Prop
  | .unrelated | .left _ => True
  | .arrived | .modified | .deleted => False

/-- What happens at another path, and a file that is renamed away from this one. -/
theorem Change.keeps_of {path : String} {e : Event} (he : e.place.path ≠ path) :
    (Change.of path e).Keeps := by
  have hne : ∀ p : Place, p.path ≠ path → (if p.path = path then Change.arrived else .unrelated).Keeps :=
    fun p hp => by rw [if_neg hp]; trivial
  cases e with
  | create p => exact hne p he
  | modify p | delete p =>
    have hp : p.path ≠ path := he
    rw [Change.of, if_neg hp]
    trivial
  | rename p oldPath =>
    rw [Change.of]
    split
    · trivial
    · exact hne p he

section Change

variable {α : Type} {c : Change} (hc : c.Keeps)

include hc

theorem react_keeps (t : Tracker α) (v : Vault) :
    (t.react v c).1.revision = t.revision ∧ (t.react v c).2 = false := by
  have hs : ∀ s, (t.invalidate.setState s).revision = t.revision := fun s => by
    unfold setState
    split <;> rfl
  cases c with
  | unrelated => exact ⟨rfl, rfl⟩
  | left target => exact ⟨hs _, rfl⟩
  | arrived | modified | deleted => exact False.elim hc

end Change

theorem hearNote_keeps {e : Event} {t : Tracker Object} (hc : (Change.of t.path e).Keeps)
    (v : Vault) : (t.hearNote v e).revision = t.revision := by
  obtain ⟨hr, hl⟩ := react_keeps hc t v
  simp only [hearNote, hl]
  exact hr

end Tracker

namespace Host

open Tracker (Change)

variable {h h' : Host} {id id' : TrackerId} {path : String} {revision : Nat} {e : Event}

/-! ### Rest -/

/-- A tracker is of a path and has replaced its data so often, and no read waits for it. -/
structure Rests (h : Host) (id : TrackerId) (path : String) (revision : Nat) : Prop where
  known : ∃ s, h.snapshot? id = some s ∧ s.path = path ∧ s.revision = revision
  unread : ∀ r ∈ h.pending, id ≠ .text r.tracker

/-- What a tracker shows and the reads that wait are all that matters. -/
theorem Rests.congr (hr : h.Rests id path revision) (hs : h'.snapshot? id = h.snapshot? id)
    (hp : h'.pending = h.pending) : h'.Rests id path revision :=
  ⟨hs ▸ hr.known, hp ▸ hr.unread⟩

theorem Rests.revision_eq (hr : h.Rests id path revision) :
    (h.ask id Tracker.revision).getD 0 = revision := by
  obtain ⟨s, hs, -, rfl⟩ := hr.known
  rw [ask_eq_map (k := Snapshot.revision) (fun _ _ => rfl), hs]
  rfl

theorem Rests.path_eq (hr : h.Rests id path revision) : h.path id = path := by
  obtain ⟨s, hs, rfl, -⟩ := hr.known
  exact Host.path_eq hs

/-! ### Events -/

theorem Rests.deliver (hr : h.Rests id path revision) (he : (Change.of path e).Keeps)
    (r : Receiver) : (deliver e h r).Rests id path revision := by
  by_cases hid : r = .tracker id
  · subst hid
    obtain ⟨s, hs, hpath, hrev⟩ := hr.known
    cases id with
    | note n =>
      obtain ⟨t, ht, rfl⟩ := Option.map_eq_some_iff.mp hs
      have hpath : t.path = path := hpath
      have hc : (Change.of t.path e).Keeps := by rwa [hpath]
      refine ⟨⟨(t.hearNote h.vault e).snapshot .frontmatter, ?_, ?_, ?_⟩, hr.unread⟩
      · rw [snapshot?, deliver_note_self, ht]
        rfl
      · exact (t.hearNote_sameSite h.vault e).path.trans hpath
      · exact (t.hearNote_keeps hc h.vault).trans hrev
    | text n =>
      obtain ⟨t, ht, rfl⟩ := Option.map_eq_some_iff.mp hs
      have hpath : t.path = path := hpath
      have hc : (Change.of t.path e).Keeps := by rwa [hpath]
      obtain ⟨hkeeps, hload⟩ := Tracker.react_keeps hc t h.vault
      refine ⟨⟨(t.hearText h.vault e).1.snapshot .text, ?_, ?_, ?_⟩, fun r hm => hr.unread r ?_⟩
      · rw [snapshot?, deliver_text_self ht]
        rfl
      · exact (t.react_sameSite h.vault _).path.trans hpath
      · exact hkeeps.trans hrev
      · simpa [Host.deliver, ht, hload] using hm
  · refine ⟨by rw [snapshot?_deliver_of_ne hid]; exact hr.known, fun r' hm => ?_⟩
    -- a read that is new waits for the receiver
    cases r with
    | recorder => exact hr.unread r' hm
    | tracker id' =>
      cases id' with
      | note m => exact hr.unread r' hm
      | text m =>
        simp only [Host.deliver] at hm
        split at hm
        · exact hr.unread r' hm
        · simp only at hm
          split at hm
          · rcases List.mem_append.mp hm with hm | hm
            · exact hr.unread r' hm
            · obtain rfl := List.mem_singleton.mp hm
              exact fun hh => hid (by rw [hh])
          · exact hr.unread r' hm

theorem Rests.changed (hr : h.Rests id path revision) {c : Event × Vault}
    (hc : c.1.place.path ≠ path) : (h.changed c).Rests id path revision := by
  have hv : ({ h with vault := c.2 } : Host).Rests id path revision := ⟨hr.known, hr.unread⟩
  exact List.foldlRecOn _ _ (motive := fun (h : Host) => h.Rests id path revision) hv
    fun _ hr r _ => hr.deliver (Change.keeps_of hc) r

/-! ### Actions -/

/-- The path at which an action from outside changes something, if it is carried out. -/
def Action.target? : Action → Option String
  | .insert p _ | .createFolder p | .delete p | .write p _ | .process p _ => some p
  | .rename _ target => some target
  | _ => none

/-- The event of a change is about the path at which it was made. -/
theorem Action.change?_place {v : Vault} {a : Action} {c : Event × Vault}
    (hc : a.change? v = some c) : a.target? = some c.1.place.path := by
  cases a with
  | insert p text =>
    rw [← Option.some.inj hc]
    simp only [Vault.insert]
    split <;> rfl
  | createFolder p => rw [← Option.some.inj hc]; rfl
  | delete p =>
    rw [Action.change?, Vault.delete] at hc
    split at hc
    · contradiction
    · rw [← Option.some.inj hc]; rfl
    · rw [← Option.some.inj hc]; rfl
  | rename source target =>
    obtain ⟨f, -, rfl⟩ := Option.map_eq_some_iff.mp hc
    rfl
  | write p text =>
    obtain ⟨-, rfl⟩ := Vault.write_eq_ok (toOption_eq_some hc)
    rfl
  | process p f =>
    obtain ⟨-, note, -, rfl⟩ := Vault.process_eq_ok (toOption_eq_some hc)
    rfl
  | _ => contradiction

/-- An action that leaves a tracker of a path alone. What is carried out from outside, or
written through a tracker, is at another path; a file may be renamed away from this one. The
tracker is not asked to load its data anew. -/
def Action.Leaves (h : Host) (id : TrackerId) (path : String) : Action → Prop
  | .refresh id' => id' ≠ id
  | .modifyNote n f => (h.modifyNote n f).1 = .ok () → h.path (.note n) ≠ path
  | .writeText n text => (h.writeText n text).1 = .ok () → h.path (.text n) ≠ path
  | a => (a.change? h.vault).isSome = true → a.target? ≠ some path

theorem Rests.writeFailed (hr : h.Rests id path revision) (id' : TrackerId) :
    (h.adjust id' Tracker.writeFailed).Rests id path revision := by
  obtain ⟨s, hs, hpath, hrev⟩ := hr.known
  refine ⟨⟨_, by rw [snapshot?_writeFailed, hs, Option.map_some], ?_, ?_⟩, by simpa using hr.unread⟩
  · split <;> exact hpath
  · split <;> exact hrev

theorem Rests.writeSucceeded (hr : h.Rests id path revision) (id' : TrackerId) :
    (h.adjust id' Tracker.writeSucceeded).Rests id path revision := by
  obtain ⟨s, hs, hpath, hrev⟩ := hr.known
  refine ⟨⟨_, by rw [snapshot?_writeSucceeded, hs, Option.map_some], ?_, ?_⟩,
    by simpa using hr.unread⟩
  · split <;> exact hpath
  · split <;> exact hrev

theorem Rests.modifyNotes (hr : h.Rests id path revision) {n : Nat} (hn : id ≠ .note n)
    (f : Tracker Object → Tracker Object) :
    ({ h with notes := h.notes.modify n f } : Host).Rests id path revision := by
  refine hr.congr ?_ rfl
  cases id with
  | text m => rfl
  | note m =>
    have hm : n ≠ m := fun he => hn (by rw [he])
    simp [snapshot?, hm]

theorem Rests.modifyTexts (hr : h.Rests id path revision) {n : Nat} (hn : id ≠ .text n)
    (f : Tracker String → Tracker String) :
    ({ h with texts := h.texts.modify n f } : Host).Rests id path revision := by
  refine hr.congr ?_ rfl
  cases id with
  | note m => rfl
  | text m =>
    have hm : n ≠ m := fun he => hn (by rw [he])
    simp [snapshot?, hm]

theorem Rests.runReadAt (hr : h.Rests id path revision) (i : Nat) :
    (h.runReadAt i).Rests id path revision := by
  unfold Host.runReadAt
  split
  · exact hr
  · next r hp =>
    have hm : r ∈ h.pending := List.mem_of_getElem? hp
    have hr' : ({ h with pending := h.pending.eraseIdx i } : Host).Rests id path revision :=
      ⟨hr.known, fun r' hm' => hr.unread r' (List.eraseIdx_subset hm')⟩
    exact hr'.modifyTexts (hr.unread r hm) _

theorem Rests.listen (hr : h.Rests id path revision) (id' : TrackerId) :
    (h.listen id').Rests id path revision := hr.congr (by simp) (by simp)

theorem Rests.unlisten (hr : h.Rests id path revision) (id' : TrackerId) :
    (h.unlisten id').Rests id path revision := hr.congr (by simp) (by simp [Host.unlisten])

theorem Rests.share (hr : h.Rests id path revision) (id' : TrackerId) :
    (h.share id').Rests id path revision := hr.congr (by simp) (by simp [Host.share])

theorem Rests.drop (hr : h.Rests id path revision) (id' : TrackerId) :
    (h.drop id').Rests id path revision := by
  refine hr.congr (by simp) ?_
  simp only [Host.drop]
  split <;> simp [Host.unlisten]

theorem Rests.openNote (hr : h.Rests id path revision) (p : String) :
    (h.openNote p).2.Rests id path revision := by
  obtain ⟨s, hs, -⟩ := hr.known
  have ha : (h.addNote (.forNote h.vault p)).Rests id path revision :=
    hr.congr (by rw [snapshot?_addNote hs, hs]) rfl
  exact ha.listen _

theorem Rests.openText (hr : h.Rests id path revision) (p : String) :
    (h.openText p).2.Rests id path revision := by
  obtain ⟨s, hs, -⟩ := hr.known
  have ha : (h.addText (.forText h.vault h.read p)).Rests id path revision :=
    hr.congr (by rw [snapshot?_addText hs, hs]) rfl
  exact ha.listen _

/-- A write through a tracker of another path, or one that fails. -/
theorem Rests.perform (hr : h.Rests id path revision) {w : Write}
    (hw : (h.perform w).1 = .ok () → h.path w.tracker ≠ path) :
    (h.perform w).2.Rests id path revision := by
  rw [perform_eq] at hw ⊢
  split
  · exact hr
  · next hn =>
    rw [hn] at hw
    cases hc : w.outcome h.vault (h.path w.tracker) with
    | error fault => exact hr.writeFailed _
    | ok c =>
      have hp : h.path w.tracker ≠ path := hw (by rw [hc]; rfl)
      have hchanged : (h.changed c).Rests id path revision := by
        obtain ⟨-, f, rfl⟩ := Write.outcome_eq_ok hc
        exact hr.changed hp
      have hkeep : (w.keep (h.changed c)).Rests id path revision := by
        cases w with
        | note n f => exact hchanged
        | text n text =>
          have hne : id ≠ .text n := by
            rintro rfl
            exact hp hr.path_eq
          exact hchanged.modifyTexts hne _
      exact hkeep.writeSucceeded _

/-- An action that leaves a tracker at rest alone leaves it at rest. -/
theorem Rests.act (hr : h.Rests id path revision) {a : Action} (ha : a.Leaves h id path) :
    (h.act a).Rests id path revision := by
  have houtside : a.Outside → ((a.change? h.vault).isSome = true → a.target? ≠ some path) →
      (h.act a).Rests id path revision := by
    intro ho ht
    rcases h.act_outside ho with he | ⟨c, hc, he⟩ <;> rw [he]
    · exact hr
    · refine hr.changed fun hp => ht (by rw [hc]; rfl) ?_
      rw [Action.change?_place hc, hp]
  cases a with
  | insert | createFolder | delete | rename | write | process => exact houtside trivial ha
  | setFailWrites fail => exact ⟨hr.known, hr.unread⟩
  | runRead i => exact hr.runReadAt i
  | openNote p => exact hr.openNote p
  | openText p => exact hr.openText p
  | share id' => exact hr.share id'
  | drop id' => exact hr.drop id'
  | listen id' => exact hr.listen id'
  | unlisten id' => exact hr.unlisten id'
  | refresh id' =>
    cases id' with
    | note n => exact hr.modifyNotes (Ne.symm ha) _
    | text n => exact hr.modifyTexts (Ne.symm ha) _
  | modifyNote n f => exact hr.perform (w := .note n f) ha
  | writeText n text => exact hr.perform (w := .text n text) ha

end Host

end NoteForms
