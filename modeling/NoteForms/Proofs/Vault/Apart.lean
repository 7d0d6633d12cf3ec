import Mathlib.Data.List.Nodup
import NoteForms.Proofs.Vault.Cache

/-! Paths that are a file and a folder. What makes or moves a file does not ask for a folder at
its path, and what makes a folder does not ask for a file, so a path may become both; writes and
deletions bring nothing to a path. What is deleted or moved at a path of both kinds is the file,
and the folder is found there next. A path of one kind is empty after that. -/

namespace NoteForms.Vault

/-! ### Paths of both kinds -/

/-- A path is a file and a folder. -/
def Doubled (v : Vault) (path : String) : Prop := v.hasFile path = true ∧ path ∈ v.folders

instance (v : Vault) (path : String) : Decidable (v.Doubled path) :=
  inferInstanceAs (Decidable (_ ∧ _))

/-- No path is a file and a folder. -/
def Apart (v : Vault) : Prop := ∀ path, ¬ v.Doubled path

/-- No file or folder is brought to a path where one of the other kind is. -/
def KeepsApart (v : Vault) : Action → Prop
  | .seed path _ | .insert path _ => path ∉ v.folders
  | .seedFolder path | .createFolder path => v.hasFile path = false
  | .rename source target => v.hasFile source = true → target ∉ v.folders
  | .delete _ | .write _ _ | .process _ _ | .setFailWrites _ => True

instance decidableKeepsApart (v : Vault) : (a : Action) → Decidable (v.KeepsApart a)
  | .seed path _ | .insert path _ => inferInstanceAs (Decidable (path ∉ v.folders))
  | .seedFolder path | .createFolder path => inferInstanceAs (Decidable (v.hasFile path = false))
  | .rename source target =>
    inferInstanceAs (Decidable (v.hasFile source = true → target ∉ v.folders))
  | .delete _ | .write _ _ | .process _ _ | .setFailWrites _ => .isTrue trivial

variable {v v' : Vault} {path : String}

/-- Nothing comes to any path. -/
theorem Apart.mono (h : v.Apart) (hfiles : ∀ p, v'.hasFile p = true → v.hasFile p = true)
    (hfolders : ∀ p ∈ v'.folders, p ∈ v.folders) : v'.Apart :=
  fun p hp => h p ⟨hfiles p hp.1, hfolders p hp.2⟩

theorem hasFile_of_hasFile_remove {p : String}
    (h : ({ v with files := v.files.remove path } : Vault).hasFile p = true) :
    v.hasFile p = true := by
  by_cases hp : p = path
  · obtain ⟨f, hf⟩ := hasFile_iff.mp h
    have hkeys := Entries.mem_keys_of_mem_remove (Entries.mem_keys_of_lookup hf)
    obtain ⟨g, hg⟩ := Entries.exists_lookup_of_mem_keys hkeys
    exact hasFile_iff.mpr ⟨g, hg⟩
  · rwa [hasFile_congr (Entries.lookup_remove_of_ne hp v.files)] at h

theorem Apart.remove (h : v.Apart) (path : String) :
    ({ v with files := v.files.remove path } : Vault).Apart :=
  h.mono (fun _ => hasFile_of_hasFile_remove) fun _ hp => hp

theorem Apart.putFile_iff (h : v.Apart) (f : StoredFile) :
    (v.putFile path f).Apart ↔ path ∉ v.folders := by
  constructor
  · exact fun hafter hp => hafter path ⟨hasFile_putFile v path f, hp⟩
  · rintro hp p ⟨hfile, hfolder⟩
    have hne : p ≠ path := fun he => hp (he ▸ hfolder)
    rw [hasFile_congr (by rw [lookup_putFile, if_neg hne] : _ = v.files.lookup p)] at hfile
    exact h p ⟨hfile, hfolder⟩

theorem mem_addFolder {p : String} : p ∈ (v.addFolder path).folders ↔ p ∈ v.folders ∨ p = path := by
  unfold addFolder
  split
  · next hp =>
    rw [List.contains_iff_mem] at hp
    exact ⟨.inl, fun h => h.elim id fun he => he ▸ hp⟩
  · simp

theorem hasFile_addFolder (v : Vault) (path p : String) :
    (v.addFolder path).hasFile p = v.hasFile p := by
  rw [hasFile, addFolder_files, hasFile]

theorem Apart.addFolder_iff (h : v.Apart) : (v.addFolder path).Apart ↔ v.hasFile path = false := by
  constructor
  · intro hafter
    rw [← Bool.not_eq_true]
    exact fun hp => hafter path ⟨by rwa [hasFile_addFolder], mem_addFolder.mpr (.inr rfl)⟩
  · rintro hp p ⟨hfile, hfolder⟩
    rw [hasFile_addFolder] at hfile
    rcases mem_addFolder.mp hfolder with hfolder | rfl
    · exact h p ⟨hfile, hfolder⟩
    · exact absurd hfile (by simp [hp])

/-! ### One action -/

/-- What a write makes of a vault, if it is let through: a file that was there is replaced. -/
def Rewrites (v v' : Vault) : Prop :=
  v' = v ∨ ∃ path f, v.hasFile path = true ∧ v' = v.putFile path f

theorem act_write_rewrites (v : Vault) (path text : String) :
    v.Rewrites (v.act (.write path text)) := by
  rw [act]
  cases hc : v.write path text with
  | error fault => exact .inl rfl
  | ok c =>
    obtain ⟨hp, rfl⟩ := write_eq_ok hc
    exact .inr ⟨path, _, hp, rfl⟩

theorem act_process_rewrites (v : Vault) (path : String) (f : Object → Object) :
    v.Rewrites (v.act (.process path f)) := by
  rw [act]
  cases hc : v.process path f with
  | error fault => exact .inl rfl
  | ok c =>
    obtain ⟨hp, note, -, rfl⟩ := process_eq_ok hc
    exact .inr ⟨path, _, hp, rfl⟩

theorem Apart.rewrites (h : v.Apart) (hw : v.Rewrites v') : v'.Apart := by
  rcases hw with rfl | ⟨path, f, hp, rfl⟩
  · exact h
  · exact (h.putFile_iff f).mpr fun hfolder => h path ⟨hp, hfolder⟩

theorem Rewrites.folders (hw : v.Rewrites v') : v'.folders = v.folders := by
  rcases hw with rfl | ⟨path, f, -, rfl⟩ <;> rfl

theorem Apart.delete (h : v.Apart) (path : String) : (v.act (.delete path)).Apart := by
  rw [act, Vault.delete]
  split
  · exact h
  · exact h.remove path
  · exact h.mono (fun _ hp => hp) fun _ hp => List.mem_of_mem_erase hp

theorem Apart.rename_iff (h : v.Apart) (source target : String) :
    (v.act (.rename source target)).Apart ↔ (v.hasFile source = true → target ∉ v.folders) := by
  rw [act, Vault.rename]
  cases hf : v.files.lookup source with
  | none => exact iff_of_true h fun hsource => by simp [hasFile, hf] at hsource
  | some f =>
    have hsource : v.hasFile source = true := hasFile_iff.mpr ⟨f, hf⟩
    exact ((h.remove source).putFile_iff f).trans ⟨fun ht _ => ht, fun ht => ht hsource⟩

/-- An action keeps files and folders apart exactly if it brings neither to the other. -/
theorem Apart.act_iff (h : v.Apart) (a : Action) : (v.act a).Apart ↔ v.KeepsApart a := by
  cases a with
  | seed path text => exact h.putFile_iff _
  | seedFolder path => exact h.addFolder_iff
  | insert path text => exact h.putFile_iff _
  | createFolder path => exact h.addFolder_iff
  | delete path => exact iff_of_true (h.delete path) trivial
  | rename source target => exact h.rename_iff source target
  | write path text => exact iff_of_true (h.rewrites (v.act_write_rewrites path text)) trivial
  | process path f => exact iff_of_true (h.rewrites (v.act_process_rewrites path f)) trivial
  | setFailWrites fail => exact iff_of_true h trivial

/-! ### Folders -/

/-- Each path names one folder. -/
def FoldersSound (v : Vault) : Prop := v.folders.Nodup

theorem FoldersSound.addFolder (h : v.FoldersSound) (path : String) :
    (v.addFolder path).FoldersSound := by
  unfold Vault.addFolder
  split
  · exact h
  · next hp =>
    rw [List.contains_iff_mem] at hp
    exact List.nodup_append_comm.mp (List.nodup_cons.mpr ⟨hp, h⟩)

theorem FoldersSound.act (h : v.FoldersSound) (a : Action) : (v.act a).FoldersSound := by
  cases a with
  | seedFolder path => exact h.addFolder path
  | createFolder path => exact h.addFolder path
  | delete path =>
    rw [Vault.act, Vault.delete]
    split
    · exact h
    · exact h
    · exact h.erase path
  | rename source target =>
    rw [Vault.act, Vault.rename]
    cases v.files.lookup source <;> exact h
  | write path text => rwa [FoldersSound, (v.act_write_rewrites path text).folders]
  | process path f => rwa [FoldersSound, (v.act_process_rewrites path f).folders]
  | seed | insert | setFailWrites => exact h

/-! ### What is left at a path -/

theorem lookup_of_not_hasFile (h : v.hasFile path = false) :
    v.lookup path = if path ∈ v.folders then some (.folder path) else none := by
  simp [lookup, h]

/-- After a file is gone from a path, the folder there is found, if there is one. -/
theorem lookup_after_file (hp : v.hasFile path = true) (hgone : v'.hasFile path = false)
    (hfolders : v'.folders = v.folders) :
    v'.lookup path = if v.Doubled path then some (.folder path) else none := by
  have hdoubled : v.Doubled path ↔ path ∈ v.folders := and_iff_right hp
  rw [lookup_of_not_hasFile hgone, hfolders]
  simp only [hdoubled]

theorem lookup_delete (hv : v.Sound) (hf : v.FoldersSound) {c : Event × Vault}
    (hc : v.delete path = some c) :
    c.2.lookup path = if v.Doubled path then some (.folder path) else none := by
  unfold delete at hc
  split at hc
  · contradiction
  · next q hfound =>
    have hp : v.hasFile path = true := by
      by_contra hno
      rw [lookup_of_not_hasFile (by simpa using hno)] at hfound
      split at hfound <;> simp at hfound
    rw [← Option.some.inj hc]
    exact lookup_after_file hp (hasFile_eq_false_iff.mpr (Entries.lookup_remove_self hv path)) rfl
  · next q hfound =>
    have hp : v.hasFile path = false := by
      by_contra hfile
      rw [lookup_ne_none_of_hasFile (by simpa using hfile)] at hfound
      simp at hfound
    have hnot : ¬ v.Doubled path := fun h => by simp [h.1] at hp
    have hafter : ({ v with folders := v.folders.erase path } : Vault).hasFile path = false := hp
    rw [← Option.some.inj hc, if_neg hnot]
    exact (lookup_of_not_hasFile hafter).trans (if_neg hf.not_mem_erase)

theorem lookup_rename (hv : v.Sound) {source target : String} {c : Event × Vault}
    (hne : source ≠ target) (hc : v.rename source target = some c) :
    c.2.lookup source = if v.Doubled source then some (.folder source) else none := by
  obtain ⟨f, hf, rfl⟩ := Option.map_eq_some_iff.mp hc
  have hput := Entries.lookup_put_of_ne hne (v.files.remove source) f
  have hgone := hput.trans (Entries.lookup_remove_self hv source)
  exact lookup_after_file (hasFile_iff.mpr ⟨f, hf⟩) (hasFile_eq_false_iff.mpr hgone) rfl

/-! ### Runs -/

/-- Files and folders are sound at the end of a run. -/
theorem run_sound (hv : v.Sound) (hf : v.FoldersSound) (as : List Action) :
    (v.run as).Sound ∧ (v.run as).FoldersSound := by
  induction as generalizing v with
  | nil => exact ⟨hv, hf⟩
  | cons a as ih => exact ih (act_sound hv a) (hf.act a)

theorem apart_empty : Apart {} := fun _ h => by cases h.2

/-- No path is a file and a folder at any time of a run exactly when none of its actions
brings a file or a folder to a path of the other kind. After a path is deleted nothing is
found there, and neither is after a file is moved from there to another path; but where a
folder was at the path of the file, it is found. -/
theorem throughout_apart_iff (as : List Action) :
    (Throughout Apart {} as ↔ Each KeepsApart {} as) ∧
      (∀ path c, (run {} as).delete path = some c →
        c.2.lookup path = if (run {} as).Doubled path then some (.folder path) else none) ∧
      ∀ source target c, source ≠ target → (run {} as).rename source target = some c →
        c.2.lookup source = if (run {} as).Doubled source then some (.folder source) else none := by
  obtain ⟨hv, hf⟩ := run_sound sound_empty List.nodup_nil as
  refine ⟨?_, fun path c hc => lookup_delete hv hf hc, fun source target c => lookup_rename hv⟩
  exact throughout_iff_each (I := fun _ => True) (R := fun _ _ => True) (fun _ _ _ => trivial)
    (fun _ a _ _ h => h.act_iff a) trivial (each_of_forall (fun _ _ => trivial) _ as) apart_empty

/-- A note is made beside a folder, moved into it and deleted. -/
def moves : List Action :=
  [.createFolder "old", .insert "n.md" "a", .process "n.md" (·.put "b" (.int 1)),
    .rename "n.md" "old/n.md", .createFolder "n.md"]

/-- The path that the note has left may be a folder, and nothing is found where the note is
deleted. -/
theorem throughout_apart_iff_moves :
    Throughout Apart {} moves ∧ ∃ c, (run {} moves).delete "old/n.md" = some c ∧
      c.2.lookup "old/n.md" = none := by
  obtain ⟨hiff, hdelete, -⟩ := throughout_apart_iff moves
  refine ⟨hiff.mpr (by decide +kernel), ?_⟩
  have hsome : ((run {} moves).delete "old/n.md").isSome = true := by decide +kernel
  obtain ⟨c, hc⟩ := Option.isSome_iff_exists.mp hsome
  refine ⟨c, hc, ?_⟩
  rw [hdelete _ c hc]
  decide +kernel

/-- A folder is made at the path of a note. -/
def both : List Action := [.insert "n.md" "", .createFolder "n.md"]

/-- The path is both, and whether the note is deleted or moved, the folder is found there. -/
theorem run_both_remains :
    (run {} both).Doubled "n.md" ∧
      (∃ c, (run {} both).delete "n.md" = some c ∧ c.2.lookup "n.md" = some (.folder "n.md")) ∧
      ∃ c, (run {} both).rename "n.md" "m.md" = some c ∧
        c.2.lookup "n.md" = some (.folder "n.md") :=
  ⟨by decide +kernel, ⟨_, rfl, by decide +kernel⟩, ⟨_, rfl, by decide +kernel⟩⟩

end NoteForms.Vault
