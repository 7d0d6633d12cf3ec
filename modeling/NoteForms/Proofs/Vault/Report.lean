import NoteForms.Proofs.Json.Entries
import NoteForms.Track.Tracker

/-! What the event of a change says about a path. The event names at most two paths:
at all others the files are as they were. Where something arrived, something is
there; what was modified was a file before and is one after; what was deleted is no
file. At the path that a file left is none, unless it was renamed onto itself. -/

namespace NoteForms.Vault

open Tracker (Change)

/-! ### Files -/

/-- Each path names one file. -/
def Sound (v : Vault) : Prop := v.files.keys.Nodup

theorem hasFile_iff {v : Vault} {p : String} : v.hasFile p = true ↔ ∃ f, v.files.lookup p = some f :=
  Option.isSome_iff_exists

theorem hasFile_eq_false_iff {v : Vault} {p : String} :
    v.hasFile p = false ↔ v.files.lookup p = none := Option.isSome_eq_false_iff.trans Option.isNone_iff_eq_none

theorem hasFile_congr {v v' : Vault} {p : String} (h : v'.files.lookup p = v.files.lookup p) :
    v'.hasFile p = v.hasFile p := congrArg Option.isSome h

theorem lookup_ne_none_of_hasFile {v : Vault} {p : String} (h : v.hasFile p = true) :
    v.lookup p = some (.file p) := by
  simp [lookup, h]

theorem text?_of_hasFile {v : Vault} {p : String} (h : v.hasFile p = true) :
    ∃ text, v.text? p = some text := by
  obtain ⟨f, hf⟩ := hasFile_iff.mp h
  exact ⟨f.text, by simp [text?, hf]⟩

theorem text?_of_not_hasFile {v : Vault} {p : String} (h : v.hasFile p = false) :
    v.text? p = none := by
  simp [text?, hasFile_eq_false_iff.mp h]

theorem frontmatter?_of_not_hasFile {v : Vault} {p : String} (h : v.hasFile p = false) :
    v.frontmatter? p = none := by
  simp [frontmatter?, hasFile_eq_false_iff.mp h]

theorem ofPlace_lookup_isOpen {v : Vault} {p : String}
    (h : (FileState.ofPlace (v.lookup p)).isOpen = true) : v.hasFile p = true := by
  unfold lookup at h
  split at h
  · assumption
  · split at h <;> simp [FileState.ofPlace, FileState.isOpen] at h

theorem lookup_putFile (v : Vault) (p q : String) (f : StoredFile) :
    (v.putFile p f).files.lookup q = if q = p then some f else v.files.lookup q :=
  Entries.lookup_put _ _ _ _

theorem hasFile_putFile (v : Vault) (p : String) (f : StoredFile) :
    (v.putFile p f).hasFile p = true :=
  hasFile_iff.mpr ⟨f, by rw [lookup_putFile, if_pos rfl]⟩

theorem putFile_sound {v : Vault} (h : v.Sound) (p : String) (f : StoredFile) :
    (v.putFile p f).Sound := Entries.put_nodup h p f

theorem addFolder_files (v : Vault) (p : String) : (v.addFolder p).files = v.files := by
  unfold addFolder
  split <;> rfl

/-! ### Reports -/

/-- What a change says about its path. -/
def Told (p : String) (v v' : Vault) : Change → Prop
  | .unrelated => v'.files.lookup p = v.files.lookup p
  | .arrived => v'.lookup p ≠ none
  | .modified => v.hasFile p = true ∧ v'.hasFile p = true
  | .deleted => v'.hasFile p = false
  | .left target => target ≠ p → v'.hasFile p = false

/-- The event tells of the change from one vault to another. -/
structure Reports (e : Event) (v v' : Vault) : Prop where
  sound : v'.Sound
  told : ∀ p, Told p v v' (.of p e)

theorem putFile_reports_modify {v : Vault} (hv : v.Sound) {p : String} (hp : v.hasFile p = true)
    (f : StoredFile) : Reports (.modify (.file p)) v (v.putFile p f) where
  sound := putFile_sound hv p f
  told q := by
    by_cases hq : p = q
    · subst hq
      simp [Change.of, Place.path, Told, hp, hasFile_putFile]
    · simp [Change.of, Place.path, Told, hq, lookup_putFile, Ne.symm hq]

theorem insert_reports {v : Vault} (hv : v.Sound) (p text : String) :
    Reports (v.insert p text).1 v (v.insert p text).2 := by
  by_cases hp : v.hasFile p = true
  · simpa [insert, hp] using putFile_reports_modify hv hp _
  · refine ⟨putFile_sound hv p _, fun q => ?_⟩
    by_cases hq : p = q
    · subst hq
      simp [insert, hp, Change.of, Place.path, Told, lookup_ne_none_of_hasFile (hasFile_putFile _ _ _)]
    · simp [insert, hp, Change.of, Place.path, Told, hq, lookup_putFile, Ne.symm hq]

theorem createFolder_reports {v : Vault} (hv : v.Sound) (p : String) :
    Reports (v.createFolder p).1 v (v.createFolder p).2 := by
  refine ⟨by simpa [Sound, createFolder, addFolder_files] using hv, fun q => ?_⟩
  by_cases hq : p = q
  · subst hq
    have hf : p ∈ (v.addFolder p).folders := by
      unfold addFolder
      split <;> simp_all
    have hl : (v.addFolder p).lookup p ≠ none := by
      unfold lookup
      split <;> simp [hf]
    simpa [createFolder, Change.of, Place.path, Told] using hl
  · simp [createFolder, Change.of, Place.path, Told, hq, addFolder_files]

/-- A file is deleted before a folder at the same path, so no file is left there. -/
theorem delete_reports {v : Vault} (hv : v.Sound) {p : String} {c : Event × Vault}
    (hc : v.delete p = some c) : Reports c.1 v c.2 := by
  by_cases hp : v.hasFile p = true
  · simp only [delete, lookup, hp, if_true, Option.some.injEq] at hc
    subst hc
    refine ⟨Entries.remove_nodup hv p, fun q => ?_⟩
    by_cases hq : p = q
    · subst hq
      simp [Change.of, Place.path, Told, hasFile_eq_false_iff, Entries.lookup_remove_self hv]
    · simp [Change.of, Place.path, Told, hq, Entries.lookup_remove_of_ne (Ne.symm hq)]
  · by_cases hf : p ∈ v.folders
    · simp only [delete, lookup, hp, List.contains_iff_mem, hf, if_true, if_false, Bool.false_eq_true,
        Option.some.injEq] at hc
      subst hc
      refine ⟨hv, fun q => ?_⟩
      by_cases hq : p = q
      · subst hq
        simpa [Change.of, Place.path, Told, hasFile_eq_false_iff] using hp
      · simp [Change.of, Place.path, Told, hq]
    · simp [delete, lookup, hp, hf] at hc

theorem rename_reports {v : Vault} (hv : v.Sound) {p q : String} {c : Event × Vault}
    (hc : v.rename p q = some c) : Reports c.1 v c.2 := by
  obtain ⟨f, -, rfl⟩ := Option.map_eq_some_iff.mp hc
  refine ⟨Entries.put_nodup (Entries.remove_nodup hv p) q f, fun r => ?_⟩
  by_cases h₁ : p = r
  · subst h₁
    rw [Change.of, if_pos rfl]
    intro hq
    have hput := Entries.lookup_put_of_ne (Ne.symm hq) (v.files.remove p) f
    exact hasFile_eq_false_iff.mpr (hput.trans (Entries.lookup_remove_self hv p))
  · by_cases h₂ : q = r
    · subst h₂
      have hf : (⟨(v.files.remove p).put q f, v.folders, v.failWrites⟩ : Vault).hasFile q = true :=
        hasFile_iff.mpr ⟨f, Entries.lookup_put_self _ _ _⟩
      simp [Change.of, Place.path, Told, h₁, lookup_ne_none_of_hasFile hf]
    · simp [Change.of, Place.path, Told, h₁, h₂, Entries.lookup_put_of_ne (Ne.symm h₂),
        Entries.lookup_remove_of_ne (Ne.symm h₁)]

/-! ### Writes -/

theorem writeFault?_eq_none {v : Vault} {p : String} (h : v.writeFault? p = none) :
    v.failWrites = false ∧ v.hasFile p = true := by
  unfold writeFault? at h
  split at h
  · contradiction
  · next hf =>
    split at h
    · next hp => exact ⟨by simpa using hf, hp⟩
    · contradiction

/-- A write that is not refused replaces the file at its path. -/
theorem write_eq_ok {v : Vault} {p text : String} {c : Event × Vault} (h : v.write p text = .ok c) :
    v.hasFile p = true ∧ c = (.modify (.file p), v.putFile p (.ofText text)) := by
  unfold write at h
  split at h
  · contradiction
  · next hw => exact ⟨(writeFault?_eq_none hw).2, (Except.ok.inj h).symm⟩

/-- So does one of the frontmatter, which the text of the file must allow to read. -/
theorem process_eq_ok {v : Vault} {p : String} {f : Object → Object} {c : Event × Vault}
    (h : v.process p f = .ok c) :
    v.hasFile p = true ∧ ∃ note, Note.parse ((v.text? p).getD "") = some note ∧
      c = (.modify (.file p), v.putFile p ⟨Note.render (f (note.frontmatter.getD [])) note.body,
        some (f (note.frontmatter.getD []))⟩) := by
  unfold process at h
  split at h
  · contradiction
  · next hw =>
    split at h
    · contradiction
    · next note hn => exact ⟨(writeFault?_eq_none hw).2, note, hn, (Except.ok.inj h).symm⟩

theorem write_reports {v : Vault} (hv : v.Sound) {p text : String} {c : Event × Vault}
    (hc : v.write p text = .ok c) : Reports c.1 v c.2 := by
  obtain ⟨hp, rfl⟩ := write_eq_ok hc
  exact putFile_reports_modify hv hp _

theorem process_reports {v : Vault} (hv : v.Sound) {p : String} {f : Object → Object}
    {c : Event × Vault} (hc : v.process p f = .ok c) : Reports c.1 v c.2 := by
  obtain ⟨hp, note, -, rfl⟩ := process_eq_ok hc
  exact putFile_reports_modify hv hp _

end NoteForms.Vault
