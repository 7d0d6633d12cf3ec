import NoteForms.Proofs.Vault.Settled

/-! Kept frontmatter against the text, in all runs of a vault. Whatever is done, a file is
kept with the frontmatter that its text reads as, or with an empty mapping: that is left by
a write of the frontmatter which takes the last entry away. The text then is the old body,
and reads as whatever block the body starts with. So what is kept is right throughout a run
exactly when every body that such a write lays bare starts with an empty block. -/

namespace NoteForms

/-- The frontmatter that the text of a file reads as, none when it has faults. -/
def StoredFile.reading (f : StoredFile) : Option Object := (Note.parse f.text).bind (·.frontmatter)

/-- What is kept with the file is what its text reads as. -/
def StoredFile.Current (f : StoredFile) : Prop := f.frontmatter = f.reading

instance (f : StoredFile) : Decidable f.Current := inferInstanceAs (Decidable (_ = _))

theorem StoredFile.ofText_current (text : String) : (ofText text).Current := rfl

namespace Vault

/-! ### Runs -/

inductive Action where
  /-- A file or a folder that is there from the start. -/
  | seed (path text : String)
  | seedFolder (path : String)
  | insert (path text : String)
  | createFolder (path : String)
  | delete (path : String)
  | rename (source target : String)
  | write (path text : String)
  | process (path : String) (f : Object → Object)
  | setFailWrites (fail : Bool)

/-- The vault after a change that may be refused. -/
def after {ε : Type} (v : Vault) : Except ε (Event × Vault) → Vault
  | .ok c => c.2
  | .error _ => v

def act (v : Vault) : Action → Vault
  | .seed path text => v.putFile path (.ofText text)
  | .seedFolder path => v.addFolder path
  | .insert path text => (v.insert path text).2
  | .createFolder path => (v.createFolder path).2
  | .delete path => ((v.delete path).map Prod.snd).getD v
  | .rename source target => ((v.rename source target).map Prod.snd).getD v
  | .write path text => v.after (v.write path text)
  | .process path f => v.after (v.process path f)
  | .setFailWrites fail => { v with failWrites := fail }

def run (v : Vault) (as : List Action) : Vault := as.foldl act v

/-- Something is so at every vault of a run, the first and the last included. -/
def Throughout (P : Vault → Prop) : Vault → List Action → Prop
  | v, [] => P v
  | v, a :: as => P v ∧ Throughout P (v.act a) as

/-- Something is so of every action of a run, at the vault where it is done. -/
def Each (P : Vault → Action → Prop) : Vault → List Action → Prop
  | _, [] => True
  | v, a :: as => P v a ∧ Each P (v.act a) as

/-- What a write of the frontmatter starts from, if it is let through. -/
def admitted? (v : Vault) (path : String) : Option Note :=
  if (v.writeFault? path).isSome then none else Note.parse ((v.text? path).getD "")

/-- Something is so of the mapping that a write of the frontmatter leaves, and of the body
that it goes in front of. -/
def Leaves (P : Object → String → Prop) (v : Vault) : Action → Prop
  | .process path f => ∀ note ∈ v.admitted? path, P (f (note.frontmatter.getD [])) note.body
  | _ => True

/-- The mapping is written so that it reads back. -/
abbrev WritesFaithfully : Vault → Action → Prop := Leaves fun fm _ => fm ≠ [] → Note.Faithful fm

/-- A body with nothing in front of it reads as a note with an empty mapping. -/
abbrev BaresEmptyBlock : Vault → Action → Prop :=
  Leaves fun fm body => fm = [] → (Note.parse body).bind (·.frontmatter) = some []

instance decidableLeaves {P : Object → String → Prop} [∀ fm body, Decidable (P fm body)]
    (v : Vault) : (a : Action) → Decidable (Leaves P v a)
  | .process path f => inferInstanceAs (Decidable
    (∀ note ∈ v.admitted? path, P (f (note.frontmatter.getD [])) note.body))
  | .seed _ _ | .seedFolder _ | .insert _ _ | .createFolder _ | .delete _ | .rename _ _
  | .write _ _ | .setFailWrites _ => .isTrue trivial

instance decidableEach {P : Vault → Action → Prop} [∀ v a, Decidable (P v a)] :
    (v : Vault) → (as : List Action) → Decidable (Each P v as)
  | _, [] => .isTrue trivial
  | v, a :: as =>
    have := decidableEach (P := P) (v.act a) as
    inferInstanceAs (Decidable (P v a ∧ Each P (v.act a) as))

theorem each_of_forall {Q : Vault → Action → Prop} (hq : ∀ v a, Q v a) (v : Vault)
    (as : List Action) : Each Q v as := by
  induction as generalizing v with
  | nil => trivial
  | cons a as ih => exact ⟨hq v a, ih _⟩

theorem Throughout.head {P : Vault → Prop} {v : Vault} {as : List Action} (h : Throughout P v as) :
    P v := by
  cases as with
  | nil => exact h
  | cons a as => exact h.1

/-- Where each action keeps `P` exactly if it is `Q`, all of them are `Q` exactly if `P` is so
throughout. The actions are of the kind `R`, and what they need of a vault, `I`, they keep. -/
theorem throughout_iff_each {I P : Vault → Prop} {R Q : Vault → Action → Prop}
    (hkeeps : ∀ v a, I v → I (v.act a))
    (hstep : ∀ v a, I v → R v a → P v → (P (v.act a) ↔ Q v a)) {v : Vault} {as : List Action}
    (hi : I v) (hr : Each R v as) (hp : P v) : Throughout P v as ↔ Each Q v as := by
  induction as generalizing v with
  | nil => exact ⟨fun _ => trivial, fun _ => hp⟩
  | cons a as ih =>
    have hact := hstep v a hi hr.1 hp
    constructor
    · rintro ⟨-, hrest⟩
      exact ⟨hact.mp hrest.head, (ih (hkeeps v a hi) hr.2 hrest.head).mp hrest⟩
    · rintro ⟨hq, hrest⟩
      have hnext := hact.mpr hq
      exact ⟨hp, (ih (hkeeps v a hi) hr.2 hnext).mpr hrest⟩

variable {v : Vault} {P : StoredFile → Prop} {a : Action}

theorem process_of_admitted {path : String} {note : Note} (h : v.admitted? path = some note)
    (f : Object → Object) :
    v.process path f = .ok (.modify (.file path),
      v.putFile path ⟨Note.render (f (note.frontmatter.getD [])) note.body,
        some (f (note.frontmatter.getD []))⟩) := by
  unfold admitted? at h
  split at h
  · contradiction
  · next hw =>
    unfold process
    rw [Option.not_isSome_iff_eq_none.mp hw, h]

/-- A write of the frontmatter that is not let through leaves the vault as it was. -/
theorem after_process_of_not_admitted {path : String} (h : v.admitted? path = none)
    (f : Object → Object) : v.after (v.process path f) = v := by
  unfold admitted? at h
  unfold process
  cases hw : v.writeFault? path with
  | some fault => rfl
  | none =>
    rw [hw] at h
    simp only [Option.isSome_none, Bool.false_eq_true, if_false] at h
    rw [h]
    rfl

/-! ### One action -/

/-- What an action makes of the files. -/
inductive FilesAfter (v : Vault) (a : Action) : Entries StoredFile → Prop where
  | kept : FilesAfter v a v.files
  | written (path text : String) : FilesAfter v a (v.files.put path (.ofText text))
  | removed (path : String) : FilesAfter v a (v.files.remove path)
  | moved {source : String} {file : StoredFile} (target : String)
    (hf : v.files.lookup source = some file) :
    FilesAfter v a ((v.files.remove source).put target file)
  | processed {path : String} {f : Object → Object} {note : Note} (ha : a = .process path f)
    (hn : v.admitted? path = some note) :
    FilesAfter v a (v.files.put path ⟨Note.render (f (note.frontmatter.getD [])) note.body,
      some (f (note.frontmatter.getD []))⟩)

theorem act_files (v : Vault) (a : Action) : FilesAfter v a (v.act a).files := by
  cases a with
  | seed path text => exact .written path text
  | seedFolder path =>
    rw [act, addFolder_files]
    exact .kept
  | insert path text => exact .written path text
  | createFolder path =>
    rw [act, createFolder, addFolder_files]
    exact .kept
  | delete path =>
    rw [act, delete]
    split
    · exact .kept
    · exact .removed path
    · exact .kept
  | rename source target =>
    rw [act, rename]
    cases hf : v.files.lookup source with
    | none => exact .kept
    | some file => exact .moved target hf
  | write path text =>
    rw [act]
    cases hc : v.write path text with
    | error fault => exact .kept
    | ok c =>
      obtain ⟨-, rfl⟩ := write_eq_ok hc
      exact .written path text
  | process path f =>
    rw [act]
    cases hn : v.admitted? path with
    | none =>
      rw [after_process_of_not_admitted hn]
      exact .kept
    | some note =>
      rw [process_of_admitted hn]
      exact .processed rfl hn
  | setFailWrites fail => exact .kept

theorem act_sound (hv : v.Sound) (a : Action) : (v.act a).Sound := by
  have hnodup : ∀ es, FilesAfter v a es → es.keys.Nodup := by
    intro es he
    cases he with
    | kept => exact hv
    | written => exact Entries.put_nodup hv _ _
    | removed => exact Entries.remove_nodup hv _
    | moved => exact Entries.put_nodup (Entries.remove_nodup hv _) _ _
    | processed => exact Entries.put_nodup hv _ _
  exact hnodup _ (v.act_files a)

/-- Whatever is so of all texts, and of what writes of the frontmatter leave, stays so of all
files. -/
theorem Holds.act (h : v.Holds P) (hv : v.Sound) (htext : ∀ text, P (.ofText text))
    (hprocess : ∀ path f note, a = .process path f → v.admitted? path = some note →
      P ⟨Note.render (f (note.frontmatter.getD [])) note.body, some (f (note.frontmatter.getD []))⟩) :
    (v.act a).Holds P := by
  have hall : ∀ es, FilesAfter v a es → ∀ p f, es.lookup p = some f → P f := by
    intro es he
    cases he with
    | kept => exact h
    | written path text => exact h.putFile (p := path) (htext text)
    | removed path => exact h.remove hv path
    | @moved source file target hf =>
      exact (h.remove hv source).putFile (p := target) (h source file hf)
    | @processed path f note ha hn => exact h.putFile (p := path) (hprocess path f note ha hn)
  exact hall _ (v.act_files a)

/-! ### Files in line -/

/-- What is kept is what the text reads as, unless it is an empty mapping. -/
def CurrentUnlessEmpty (f : StoredFile) : Prop := f.Current ∨ f.frontmatter = some []

theorem render_current {fm : Object} (hf : Note.Faithful fm) (hne : fm ≠ []) (body : String) :
    (⟨Note.render fm body, some fm⟩ : StoredFile).Current := by
  show some fm = (Note.parse (Note.render fm body)).bind (·.frontmatter)
  rw [Note.parse_render hf hne]
  rfl

theorem render_empty_current {body : String} :
    (⟨Note.render [] body, some []⟩ : StoredFile).Current ↔
      (Note.parse body).bind (·.frontmatter) = some [] := eq_comm

theorem Holds.act_unlessEmpty (h : v.Holds CurrentUnlessEmpty) (hv : v.Sound)
    (hf : v.WritesFaithfully a) : (v.act a).Holds CurrentUnlessEmpty := by
  refine h.act hv (fun text => .inl (StoredFile.ofText_current text)) fun path f note ha hadm => ?_
  subst ha
  by_cases hne : f (note.frontmatter.getD []) = []
  · exact .inr (congrArg some hne)
  · exact .inl (render_current (hf note hadm hne) hne note.body)

theorem Holds.run_unlessEmpty (h : v.Holds CurrentUnlessEmpty) (hv : v.Sound) {as : List Action}
    (hf : Each WritesFaithfully v as) : (v.run as).Holds CurrentUnlessEmpty := by
  induction as generalizing v with
  | nil => exact h
  | cons a as ih => exact ih (h.act_unlessEmpty hv hf.1) (act_sound hv a) hf.2

/-- An action keeps all files current exactly if no body is laid bare that reads as anything
but an empty mapping. -/
theorem Holds.act_current_iff (h : v.Holds StoredFile.Current) (hv : v.Sound)
    (hf : v.WritesFaithfully a) :
    (v.act a).Holds StoredFile.Current ↔ v.BaresEmptyBlock a := by
  constructor
  · intro hafter
    cases a with
    | process path f =>
      intro note hadm hempty
      have hact : v.act (.process path f) = v.putFile path ⟨Note.render [] note.body, some []⟩ := by
        simp only [Vault.act, process_of_admitted hadm f, hempty, Vault.after]
      rw [hact] at hafter
      exact render_empty_current.mp (hafter path _ (by rw [lookup_putFile, if_pos rfl]))
    | _ => trivial
  · intro hb
    refine h.act hv StoredFile.ofText_current fun path f note ha hadm => ?_
    subst ha
    by_cases hne : f (note.frontmatter.getD []) = []
    · rw [hne]
      exact render_empty_current.mpr (hb note hadm hne)
    · exact render_current (hf note hadm hne) hne note.body

theorem throughout_current_of (h : v.Holds StoredFile.Current) (hv : v.Sound) {as : List Action}
    (hf : Each WritesFaithfully v as) :
    Throughout (Holds StoredFile.Current) v as ↔ Each BaresEmptyBlock v as :=
  throughout_iff_each (I := Sound) (fun _ a hv => act_sound hv a)
    (fun _ _ hv hf h => h.act_current_iff hv hf) hv hf h

/-! ### From an empty vault -/

theorem holds_empty (P : StoredFile → Prop) : Holds P {} := fun _ _ h => by cases h

theorem sound_empty : Sound {} := List.nodup_nil

/-- In a run that writes mappings so that they read back, a file is kept at any time with the
frontmatter that its text reads as, or with an empty mapping. All files are so at all times
exactly when no body is laid bare that reads as anything but an empty mapping. -/
theorem throughout_current_iff (as : List Action) (hf : Each WritesFaithfully {} as) :
    (Throughout (Holds StoredFile.Current) {} as ↔ Each BaresEmptyBlock {} as) ∧
      ∀ path file, (run {} as).files.lookup path = some file →
        file.frontmatter = file.reading ∨ file.frontmatter = some [] :=
  ⟨throughout_current_of (holds_empty _) sound_empty hf,
    (holds_empty CurrentUnlessEmpty).run_unlessEmpty sound_empty hf⟩

/-- A note is written and moved while another is there, and one of its two entries taken. -/
def edits : List Action :=
  [.seed "n.md" "---\na: 1\n---\n---\nb: 2\n---\n", .createFolder "old",
    .process "n.md" (·.put "c" (.str "x\n---\n")), .insert "m.md" "---\n[\n---\n",
    .rename "n.md" "old/n.md", .process "old/n.md" (·.remove "a"), .delete "m.md"]

theorem throughout_current_iff_edits :
    Each WritesFaithfully {} edits ∧ Throughout (Holds StoredFile.Current) {} edits ∧
      (run {} edits).frontmatter? "old/n.md" = some [("c", .str "x\n---\n")] := by
  have hf : Each WritesFaithfully {} edits := by decide +kernel
  have hb : Each BaresEmptyBlock {} edits := by decide +kernel
  exact ⟨hf, (throughout_current_iff edits hf).1.mpr hb, by decide +kernel⟩

/-- The last entry of a note is taken, whose body looks like a block. -/
def bared : List Action :=
  [.seed "n.md" "---\na: 1\n---\n---\nb: 2\n---\n", .process "n.md" (·.remove "a")]

/-- The text then reads as what is in the body; the mapping that is kept is empty. -/
theorem run_bared_outdated :
    Each WritesFaithfully {} bared ∧ (run {} bared).text? "n.md" = some "---\nb: 2\n---\n" ∧
      (run {} bared).frontmatter? "n.md" = some [] ∧
      (Note.parse "---\nb: 2\n---\n").bind (·.frontmatter) = some [("b", .int 2)] ∧
      ¬ (run {} bared).Holds StoredFile.Current := by
  have htext : (run {} bared).files.lookup "n.md" = some ⟨"---\nb: 2\n---\n", some []⟩ := by
    decide +kernel
  refine ⟨by decide +kernel, by decide +kernel, by decide +kernel, by decide +kernel, fun h => ?_⟩
  exact absurd (h "n.md" _ htext) (by decide +kernel)

end Vault

end NoteForms
