import NoteForms.Proofs.Form.World
import NoteForms.Proofs.Track.Advance

/-! Revisions of stores. Forms open, share and drop trackers, release them and write through
them, and their host advances with all of that. So the records of a store whose tracker is
there are the same whenever its revision is. -/

namespace NoteForms

open Records Setup

variable {h h' : Host}

/-! ### Rosters -/

theorem Host.openAs_advances (h : Host) (k : Flavour) (path : String) :
    h.Advances (h.openAs k path).2 := by
  cases k with
  | note => exact h.openNote_advances path
  | text => exact h.openText_advances path

theorem Host.openAs_knows (h : Host) (k : Flavour) (path : String) :
    (h.openAs k path).2.Knows (h.openAs k path).1 := by
  cases k with
  | note =>
    have hk : (h.addNote (.forNote h.vault path)).Knows (.note h.notes.length) := by
      simp [Host.Knows, Host.addNote]
    exact (Host.listen_advances _ _).knows hk
  | text =>
    have hk : (h.addText (.forText h.vault h.read path)).Knows (.text h.texts.length) := by
      simp [Host.Knows, Host.addText]
    exact (Host.listen_advances _ _).knows hk

/-- Only trackers that are there are held. -/
theorem Host.knows_of_isLive {id : TrackerId} (hlive : h.isLive id = true) : h.Knows id := by
  cases id with
  | note n =>
    rw [Host.isLive, Host.ask] at hlive
    cases ht : h.notes[n]? with
    | none => simp [ht] at hlive
    | some t => exact (List.getElem?_eq_some_iff.mp ht).1
  | text n =>
    rw [Host.isLive, Host.ask] at hlive
    cases ht : h.texts[n]? with
    | none => simp [ht] at hlive
    | some t => exact (List.getElem?_eq_some_iff.mp ht).1

namespace Roster

theorem request_advances (r : Roster) (h : Host) (k : Flavour) (path : String) :
    h.Advances (r.request h k path).2.1 ∧
      (r.request h k path).2.1.Knows (r.request h k path).1 := by
  rw [request_eq]
  cases hh : r.held? h k path with
  | some id =>
    have ha := h.share_advances id
    exact ⟨ha, ha.knows (Host.knows_of_isLive (Option.filter_eq_some_iff.mp hh).2)⟩
  | none => exact ⟨h.openAs_advances k path, h.openAs_knows k path⟩

theorem release_advances (h : Host) (r : Roster) (path : String) :
    h.Advances (r.release h path).2.1 := by
  rw [release_eq]
  exact List.foldlRecOn _ _ (motive := fun h' => h.Advances h') .rfl
    fun h' ha id _ => ha.trans (h'.unlisten_advances id)

theorem releaseAll_advances (h : Host) (r : Roster) : h.Advances (r.releaseAll h).1 :=
  List.foldlRecOn (r.paths h) _ (motive := fun (p : Host × Roster) => h.Advances p.1) .rfl
    fun p ha path _ => ha.trans (release_advances p.1 p.2 path)

end Roster

/-- What is asked for is there from then on. -/
theorem Enrols.advances {r r' : Roster} {es : List (String × TrackerId)}
    (he : Enrols h r es h' r') : h.Advances h' ∧ ∀ e ∈ es, h'.Knows e.2 := by
  induction he with
  | none => exact ⟨.rfl, nofun⟩
  | request _ k path ih =>
    obtain ⟨ha, hk⟩ := Roster.request_advances _ _ k path
    refine ⟨ih.1.trans ha, fun e hm => ?_⟩
    rcases List.mem_cons.mp hm with rfl | hm
    · exact hk
    · exact ha.knows (ih.2 e hm)

/-! ### Stores -/

namespace Records

theorem persist_advances (s : Store) (h : Host) (rs : List Edit.Record) :
    h.Advances (s.persist h rs).2 := by
  unfold Store.persist
  cases s.tracker with
  | note n => exact Host.modifyNote_advances h n _
  | text n => exact Host.writeText_advances h n _

/-- What was read at a revision is what is read at the same revision later on. -/
theorem revision_advances {s : Store} (ha : h.Advances h') (hk : h.Knows s.tracker) :
    s.revision h ≤ s.revision h' ∧
      (s.revision h' = s.revision h → s.recordsOrNone h' = s.recordsOrNone h) := by
  simp only [Store.recordsOrNone, Store.revision, Store.records]
  cases hid : s.tracker with
  | note n =>
    rw [hid] at hk
    obtain ⟨hle, hdata⟩ := ha.notes.at hk
    exact ⟨hle, fun he => by simp only [hdata he]⟩
  | text n =>
    rw [hid] at hk
    obtain ⟨hle, hdata⟩ := ha.texts.at hk
    exact ⟨hle, fun he => by simp only [hdata he]⟩

end Records

/-! ### Forms -/

namespace Form

namespace Mounted

/-- The tracker of the store is there. -/
theorem mount_advances (c : Configuration) (h : Host) (r : Roster) :
    h.Advances (mount c h r).2.1 ∧ (mount c h r).2.1.Knows (mount c h r).1.store.tracker := by
  obtain ⟨ha, hk⟩ := (mount_enrols c h r).advances
  exact ⟨ha, hk _ (mem_requests _)⟩

theorem unmount_advances (f : Mounted) (h : Host) : h.Advances (f.unmount h) := by
  rw [f.unmount_eq]
  exact List.foldrRecOn f.holds _ (motive := fun h' => h.Advances h') .rfl
    fun h' ha id _ => ha.trans (h'.drop_advances id)

/-- A submit catches up and writes, at most; one that succeeds catches up once more. -/
theorem submit_cases (f : Mounted) (h : Host) : ∃ h', h.Advances h' ∧
    ((∃ fault, f.submit h = (.error fault, (f.sync h).2, h')) ∨
      f.submit h = (.ok (), ((f.sync h).2.sync h').2, h')) := by
  unfold submit
  simp only
  split
  · next fault _ => exact ⟨h, .rfl, .inl ⟨fault, rfl⟩⟩
  · next rs _ =>
    have ha := persist_advances (f.sync h).2.store h rs
    split
    · next fault h' hp => exact ⟨h', by rwa [hp] at ha, .inl ⟨fault, rfl⟩⟩
    · next h' hp => exact ⟨h', by rwa [hp] at ha, .inr rfl⟩

theorem submit_advances (f : Mounted) (h : Host) : h.Advances (f.submit h).2.2 := by
  obtain ⟨h', ha, ⟨fault, he⟩ | he⟩ := f.submit_cases h <;> rwa [he]

end Mounted

namespace World

theorem act_advances (w : World) (a : Action) : w.host.Advances (w.act a).host := by
  cases a with
  | host a => exact Host.act_advances w.host a
  | mount c => exact (Mounted.mount_advances c w.host w.roster).1
  | unmount n =>
    simp only [act]
    split
    · exact .rfl
    · next f _ => exact f.unmount_advances w.host
  | release path => exact w.roster.release_advances w.host path
  | releaseAll => exact w.roster.releaseAll_advances w.host
  | edit n a =>
    simp only [act]
    split <;> exact .rfl
  | sync n | view n =>
    simp only [act]
    split <;> exact .rfl
  | submit n =>
    simp only [act]
    split
    · exact .rfl
    · next f _ => exact f.submit_advances w.host

end World

end Form

end NoteForms
