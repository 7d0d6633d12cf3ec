import Mathlib.Data.List.Infix
import NoteForms.Proofs.Note.RoundTrip
import NoteForms.Proofs.Vault.Report

/-! What a write of the frontmatter does to the text of a note. The new text is the new
block, if any, in front of the body. Where the note had a mapping the body is what stood
after its block, and where it had no block the body is the whole note, so nothing is
lost. A block that holds a text or a list counts as no frontmatter, but it is cut off the
body all the same, and is lost unless the new block ends with the same characters. -/

namespace NoteForms

namespace Note

/-- A note that was taken apart had no block, or is divided where its body starts. -/
theorem parse_eq_some {text : String} {note : Note} (h : parse text = some note) :
    split text.toList = none ∧ note = ⟨none, text⟩ ∨
      ∃ opening yaml closing, Divides text.toList opening yaml closing note.body.toList ∧
        mapping yaml = some note.frontmatter := by
  unfold parse at h
  split at h
  · next hs => exact .inl ⟨hs, (Option.some.inj h).symm⟩
  · next yaml body hs =>
    obtain ⟨fm, hfm, rfl⟩ := Option.map_eq_some_iff.mp h
    obtain ⟨opening, closing, hd⟩ := split_eq_some_iff.mp hs
    exact .inr ⟨opening, yaml, closing, by simpa using hd, hfm⟩

theorem split_eq_none_iff {cs : List Char} :
    split cs = none ↔ ∀ opening yaml closing body, ¬ Divides cs opening yaml closing body := by
  constructor
  · intro hn opening yaml closing body hd
    rw [split_eq_some_iff.mpr ⟨opening, closing, hd⟩] at hn
    contradiction
  · intro h
    cases hs : split cs with
    | none => rfl
    | some parts =>
      obtain ⟨opening, closing, hd⟩ := split_eq_some_iff.mp hs
      exact absurd hd (h _ _ _ _)

/-- In front of the body, the whole note is there if its block is. -/
theorem Divides.suffix_iff {cs opening yaml closing body : List Char}
    (h : Divides cs opening yaml closing body) (before : List Char) :
    cs <:+ before ++ body ↔ opening ++ (yaml ++ closing) <:+ before := by
  have hcs : cs = (opening ++ (yaml ++ closing)) ++ body := by simp [h.whole]
  rw [hcs, List.suffix_append_self_iff]

end Note

namespace Vault

/-- A write of the frontmatter succeeds. The new text is the new block in front of the
body of the note. If the note had a mapping, the body is what stood after its block. If it
had no frontmatter, the whole note is there still exactly when it had no block either, or
when the new block ends with the old one. -/
theorem process_keeps_text_iff (v : Vault) (path : String) (f : Object → Object)
    (c : Event × Vault) (h : v.process path f = .ok c) :
    ∃ text note after, v.text? path = some text ∧ Note.parse text = some note ∧
      c.2.text? path = some after ∧
      after.toList = Note.front (f (note.frontmatter.getD [])) ++ note.body.toList ∧
      (∀ fm, note.frontmatter = some fm → ∃ opening yaml closing,
        Note.Divides text.toList opening yaml closing note.body.toList) ∧
      (note.frontmatter = none → (text.toList <:+ after.toList ↔
        (∀ opening yaml closing body, ¬ Note.Divides text.toList opening yaml closing body) ∨
        ∃ opening yaml closing, Note.Divides text.toList opening yaml closing note.body.toList ∧
          opening ++ (yaml ++ closing) <:+ Note.front (f []))) := by
  obtain ⟨hfile, note, hnote, rfl⟩ := process_eq_ok h
  obtain ⟨text, htext⟩ := text?_of_hasFile hfile
  rw [htext, Option.getD_some] at hnote
  have hafter : (v.putFile path ⟨Note.render (f (note.frontmatter.getD [])) note.body,
      some (f (note.frontmatter.getD []))⟩).text? path =
      some (Note.render (f (note.frontmatter.getD [])) note.body) := by
    rw [text?, lookup_putFile, if_pos rfl]
    rfl
  refine ⟨text, note, _, htext, hnote, hafter, Note.toList_render _ _, fun fm hfm => ?_, fun hnone => ?_⟩
  · rcases Note.parse_eq_some hnote with ⟨-, he⟩ | ⟨opening, yaml, closing, hd, -⟩
    · rw [he] at hfm
      contradiction
    · exact ⟨opening, yaml, closing, hd⟩
  · rw [Note.toList_render, hnone, Option.getD_none]
    rcases Note.parse_eq_some hnote with ⟨hs, rfl⟩ | ⟨opening, yaml, closing, hd, -⟩
    · exact ⟨fun _ => .inl (Note.split_eq_none_iff.mp hs), fun _ => List.suffix_append _ _⟩
    · rw [hd.suffix_iff]
      constructor
      · intro hsuffix
        exact .inr ⟨opening, yaml, closing, hd, hsuffix⟩
      · rintro (hno | ⟨opening', yaml', closing', hd', hsuffix⟩)
        · exact absurd hd (hno _ _ _ _)
        · rw [← hd'.suffix_iff] at hsuffix
          exact (hd.suffix_iff _).mp hsuffix

/-- A vault with one note, and what a write of one entry makes of its text. -/
def oneNote (text : String) : Vault := { files := [("n.md", .ofText text)] }

def rewritten? (text key : String) (n : Int) : Option String :=
  match (oneNote text).process "n.md" (·.put key (.int n)) with
  | .ok c => c.2.text? "n.md"
  | .error _ => none

theorem rewritten?_eq_some {text key after : String} {n : Int} (h : rewritten? text key n = some after) :
    ∃ c, (oneNote text).process "n.md" (·.put key (.int n)) = .ok c ∧ c.2.text? "n.md" = some after := by
  unfold rewritten? at h
  split at h
  · next c hc => exact ⟨c, hc, h⟩
  · contradiction

/-- A note with carriage returns, whose body has further lines of dashes. -/
def dashed : String := "---\r\na: 1\r\n---\r\n# B\n---\nx: 2\n---\n"

/-- All that stood after the block is there still. -/
theorem process_keeps_text_iff_dashed :
    ∃ c after, (oneNote dashed).process "n.md" (·.put "k" (.int 2)) = .ok c ∧
      c.2.text? "n.md" = some after ∧ "# B\n---\nx: 2\n---\n".toList <:+ after.toList := by
  have hw : rewritten? dashed "k" 2 = some "---\na: 1\nk: 2\n---\n# B\n---\nx: 2\n---\n" := by
    decide +kernel
  obtain ⟨c, hc, -⟩ := rewritten?_eq_some hw
  obtain ⟨text, note, after, htext, hnote, hafter, hfront, -⟩ := process_keeps_text_iff _ _ _ _ hc
  have hbody : (Note.parse dashed).map (·.body) = some "# B\n---\nx: 2\n---\n" := by decide +kernel
  have he : text = dashed := (Option.some.inj htext).symm
  rw [he] at hnote
  rw [hnote] at hbody
  refine ⟨c, after, hc, hafter, ?_⟩
  rw [hfront, ← Option.some.inj hbody]
  exact List.suffix_append _ _

/-- A note whose block holds a text has no frontmatter, and does not survive a write of
one: its block is gone. -/
theorem process_drops_block :
    ∃ c note after, (oneNote "---\njust a string\n---\nbody").process "n.md" (·.put "k" (.int 1)) =
        .ok c ∧
      Note.parse "---\njust a string\n---\nbody" = some note ∧ note.frontmatter = none ∧
      c.2.text? "n.md" = some after ∧
      ¬ "---\njust a string\n---\nbody".toList <:+ after.toList := by
  have hw : rewritten? "---\njust a string\n---\nbody" "k" 1 = some "---\nk: 1\n---\nbody" := by
    decide +kernel
  have hp : (Note.parse "---\njust a string\n---\nbody").map (·.frontmatter) = some none := by
    decide +kernel
  obtain ⟨c, hc, hafter⟩ := rewritten?_eq_some hw
  obtain ⟨note, hnote, hnone⟩ := Option.map_eq_some_iff.mp hp
  exact ⟨c, note, _, hc, hnote, hnone, hafter, by decide⟩

end Vault

end NoteForms
