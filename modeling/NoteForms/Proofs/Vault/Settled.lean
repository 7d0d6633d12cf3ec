import NoteForms.Proofs.Note.RoundTrip
import NoteForms.Proofs.Vault.Report

/-! The frontmatter that a vault keeps with a file is the one that the text of the file
reads as, where it reads at all. A note without frontmatter counts as one with an empty
one: a write of the frontmatter starts from either in the same way. -/

namespace NoteForms

/-- The kept frontmatter is the one of the text. -/
def StoredFile.Settled (f : StoredFile) : Prop :=
  ∀ note, Note.parse f.text = some note → note.frontmatter.getD [] = f.frontmatter.getD []

theorem StoredFile.ofText_settled (text : String) : (ofText text).Settled := by
  intro note hn
  simp only [ofText] at hn ⊢
  rw [hn]
  rfl

theorem StoredFile.render_settled {fm : Object} (hf : Note.Faithful fm) (hne : fm ≠ [])
    (body : String) : (⟨Note.render fm body, some fm⟩ : StoredFile).Settled := by
  intro note hn
  rw [Note.parse_render hf hne] at hn
  rw [← Option.some.inj hn]

namespace Vault

variable {v v' : Vault} {p q text : String} {c : Event × Vault}

/-! ### All files -/

/-- Something is so of all files. -/
def Holds (P : StoredFile → Prop) (v : Vault) : Prop := ∀ p f, v.files.lookup p = some f → P f

section Holds

variable {P : StoredFile → Prop}

theorem Holds.congr (hs : v.Holds P) (hv : v'.files = v.files) : v'.Holds P := by
  intro p f hf
  exact hs p f (hv ▸ hf)

theorem Holds.putFile (hs : v.Holds P) {f : StoredFile} (hf : P f) : (v.putFile p f).Holds P := by
  intro q g hg
  rw [lookup_putFile] at hg
  split at hg
  · rw [← Option.some.inj hg]
    exact hf
  · exact hs q g hg

theorem Holds.remove (hs : v.Holds P) (hv : v.Sound) (p : String) :
    ({ v with files := v.files.remove p } : Vault).Holds P := by
  intro q f hf
  by_cases hq : q = p
  · subst hq
    rw [Entries.lookup_remove_self hv] at hf
    contradiction
  · rw [Entries.lookup_remove_of_ne hq] at hf
    exact hs q f hf

theorem Holds.createFolder (hs : v.Holds P) (p : String) : (v.createFolder p).2.Holds P :=
  hs.congr (addFolder_files v p)

theorem Holds.delete (hs : v.Holds P) (hv : v.Sound) (hc : v.delete p = some c) : c.2.Holds P := by
  unfold Vault.delete at hc
  split at hc
  · contradiction
  · rw [← Option.some.inj hc]
    exact hs.remove hv p
  · rw [← Option.some.inj hc]
    exact hs.congr rfl

theorem Holds.rename (hs : v.Holds P) (hv : v.Sound) (hc : v.rename p q = some c) :
    c.2.Holds P := by
  obtain ⟨f, hf, rfl⟩ := Option.map_eq_some_iff.mp hc
  have hput := (hs.remove hv p).putFile (p := q) (hs p f hf)
  exact hput.congr rfl

theorem Holds.write (hs : v.Holds P) (hP : P (.ofText text)) (hc : v.write p text = .ok c) :
    c.2.Holds P := by
  obtain ⟨-, rfl⟩ := write_eq_ok hc
  exact hs.putFile hP

end Holds

/-! ### Settled vaults -/

def Settled (v : Vault) : Prop := ∀ p f, v.files.lookup p = some f → f.Settled

theorem Settled.congr (hs : v.Settled) (hv : v'.files = v.files) : v'.Settled :=
  Holds.congr (P := StoredFile.Settled) hs hv

theorem Settled.putFile (hs : v.Settled) {f : StoredFile} (hf : f.Settled) :
    (v.putFile p f).Settled := Holds.putFile (P := StoredFile.Settled) hs hf

theorem Settled.insert (hs : v.Settled) (p text : String) : (v.insert p text).2.Settled :=
  hs.putFile (StoredFile.ofText_settled text)

theorem Settled.createFolder (hs : v.Settled) (p : String) : (v.createFolder p).2.Settled :=
  Holds.createFolder (P := StoredFile.Settled) hs p

theorem Settled.delete (hs : v.Settled) (hv : v.Sound) (hc : v.delete p = some c) : c.2.Settled :=
  Holds.delete (P := StoredFile.Settled) hs hv hc

theorem Settled.rename (hs : v.Settled) (hv : v.Sound) (hc : v.rename p q = some c) :
    c.2.Settled := Holds.rename (P := StoredFile.Settled) hs hv hc

theorem Settled.write (hs : v.Settled) (hc : v.write p text = .ok c) : c.2.Settled :=
  Holds.write (P := StoredFile.Settled) hs (StoredFile.ofText_settled text) hc

/-- What a write of the frontmatter leaves, and what it leaves alone. -/
theorem Settled.process_eq_ok (hs : v.Settled) {f : Object → Object} (hc : v.process p f = .ok c) :
    c.2.frontmatter? p = some (f ((v.frontmatter? p).getD [])) ∧
      ∀ q, q ≠ p → c.2.files.lookup q = v.files.lookup q := by
  obtain ⟨hp, note, hn, rfl⟩ := Vault.process_eq_ok hc
  obtain ⟨file, hfile⟩ := hasFile_iff.mp hp
  have hread : note.frontmatter.getD [] = (v.frontmatter? p).getD [] := by
    rw [text?, hfile] at hn
    rw [frontmatter?, hfile]
    exact hs p file hfile note hn
  refine ⟨?_, fun q hq => ?_⟩
  · rw [frontmatter?, lookup_putFile, if_pos rfl, ← hread]
    rfl
  · rw [lookup_putFile, if_neg hq]

theorem Settled.process (hs : v.Settled) {f : Object → Object} (hc : v.process p f = .ok c)
    (hf : ∀ fm, c.2.frontmatter? p = some fm → Note.Faithful fm ∧ fm ≠ []) : c.2.Settled := by
  obtain ⟨-, note, -, rfl⟩ := Vault.process_eq_ok hc
  obtain ⟨hfaith, hne⟩ := hf (f (note.frontmatter.getD []))
    (by rw [frontmatter?, lookup_putFile, if_pos rfl]; rfl)
  exact hs.putFile (StoredFile.render_settled hfaith hne note.body)

end Vault

end NoteForms
