import NoteForms.Proofs.Note.Block

/-! A note that is rendered and taken apart again. The block ends at the first
delimiting line, so the body may hold such lines, but the YAML text may not; it has to
end its last line, too. That it reads back is asked of each mapping that is written:
a mapping with a float that has no YAML text of its own would not. -/

namespace NoteForms.Note

/-! ### Blocks -/

/-- The YAML text of a mapping stands as a block: its last line ends, no line of it
ends the block, and it reads back. -/
structure Faithful (fm : Object) : Prop where
  ends : (Yaml.text (.obj fm)).toList.getLast? = some '\n'
  noDelimiter : ∀ line ∈ lines (Yaml.text (.obj fm)).toList, isDelimiter line = false
  reads : Yaml.read (Yaml.text (.obj fm)) = some (.obj fm)

instance (fm : Object) : Decidable (Faithful fm) :=
  decidable_of_iff ((Yaml.text (.obj fm)).toList.getLast? = some '\n' ∧
      (∀ line ∈ lines (Yaml.text (.obj fm)).toList, isDelimiter line = false) ∧
      Yaml.read (Yaml.text (.obj fm)) = some (.obj fm))
    ⟨fun ⟨h₁, h₂, h₃⟩ => ⟨h₁, h₂, h₃⟩, fun h => ⟨h.ends, h.noDelimiter, h.reads⟩⟩

/-- Every entry has a colon. -/
theorem not_isBlank_text {fm : Object} (h : fm ≠ []) :
    Text.isBlank (Yaml.text (.obj fm)).toList = false := by
  obtain ⟨⟨k, v⟩, es, rfl⟩ := List.exists_cons_of_ne_nil h
  have hc : ':' ∈ (Yaml.text (.obj ((k, v) :: es))).toList := by
    simp only [Yaml.text, String.toList_ofList, Yaml.nodeText, List.isEmpty_cons, Yaml.entriesText]
    by_cases hk : Yaml.isSimpleKey k = true <;> simp [hk]
  have hb : ¬ Text.isBlankChar ':' = true := by decide
  rw [Text.isBlank, List.all_eq_false]
  exact ⟨':', hc, hb⟩

theorem Faithful.mapping {fm : Object} (hf : Faithful fm) (hne : fm ≠ []) :
    mapping (Yaml.text (.obj fm)).toList = some (some fm) := by
  rw [Note.mapping, not_isBlank_text hne, String.ofList_toList, hf.reads]
  rfl

/-- What is written in front of a body. -/
def front (fm : Object) : List Char :=
  if fm.isEmpty then []
  else '-' :: '-' :: '-' :: '\n' :: ((Yaml.text (.obj fm)).toList ++ ['-', '-', '-', '\n'])

theorem toList_render (fm : Object) (body : String) :
    (render fm body).toList = front fm ++ body.toList := by
  unfold render front
  split <;> simp

/-- A faithful block ends where it was closed, whatever follows. -/
theorem Faithful.divides {fm : Object} (hf : Faithful fm) (hne : fm ≠ []) (body : List Char) :
    Divides (front fm ++ body) ['-', '-', '-', '\n'] (Yaml.text (.obj fm)).toList
      ['-', '-', '-', '\n'] body where
  whole := by simp [front, hne]
  opens := .inl rfl
  ends := .inr hf.ends
  noDelimiter := hf.noDelimiter
  closes := by decide
  line := by decide
  bodyAfter _ := .inr rfl

/-- What is rendered is taken apart into the same parts. -/
theorem parse_render {fm : Object} (hf : Faithful fm) (hne : fm ≠ []) (body : String) :
    parse (render fm body) = some ⟨some fm, body⟩ := by
  have hs : split (render fm body).toList = some ((Yaml.text (.obj fm)).toList, body.toList) := by
    rw [toList_render]
    exact split_eq_some_iff.mpr ⟨_, _, hf.divides hne body.toList⟩
  simp [parse, hs, hf.mapping hne]

end NoteForms.Note
