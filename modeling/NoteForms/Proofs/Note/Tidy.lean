import NoteForms.Proofs.Note.Block

/-! Lines that end no block. A line that holds any other character than dashes and ends of
lines is no delimiter, whatever else stands on it, and neither is an empty one. Text with
such lines only is put together from pieces: one that starts a line, and one that goes on
with a line that is marked already. -/

namespace NoteForms.Note

/-! ### Marked lines -/

def isMark (c : Char) : Bool := c ≠ '-' && c ≠ '\r' && c ≠ '\n'

/-- A line that is no delimiter, whatever is added to it. -/
def Marked (line : List Char) : Prop := ∃ c ∈ line, isMark c = true

theorem Marked.isDelimiter {line : List Char} (h : Marked line) : isDelimiter line = false := by
  obtain ⟨c, hc, hmark⟩ := h
  cases hd : Note.isDelimiter line with
  | false => rfl
  | true =>
    obtain ⟨breaks, rfl, hbreaks⟩ := isDelimiter_iff.mp hd
    have hend : c = '-' ∨ c = '\r' ∨ c = '\n' := by
      simp only [List.mem_cons] at hc
      rcases hc with h | h | h | h
      · exact .inl h
      · exact .inl h
      · exact .inl h
      · exact .inr (hbreaks c h)
    rcases hend with rfl | rfl | rfl <;> simp [isMark] at hmark

/-- All lines are marked or empty. -/
def Tidy (cs : List Char) : Prop := ∀ line ∈ lines cs, Marked line ∨ line = ['\n']

/-- Text that is tidy after anything that marks its line. -/
def Rest (cs : List Char) : Prop := ∀ p, '\n' ∉ p → Marked p → Tidy (p ++ cs)

theorem Tidy.noDelimiter {cs : List Char} (h : Tidy cs) :
    ∀ line ∈ lines cs, isDelimiter line = false := by
  intro line hline
  rcases h line hline with hm | rfl
  · exact hm.isDelimiter
  · decide

theorem tidy_nil : Tidy [] := by simp [Tidy, lines]

theorem tidy_feed {cs : List Char} (h : Tidy cs) : Tidy ('\n' :: cs) := by
  intro line hline
  rw [lines_cons, if_pos rfl] at hline
  rcases List.mem_cons.mp hline with rfl | hline
  · exact .inr rfl
  · exact h line hline

theorem Marked.append {p : List Char} (h : Marked p) (cs : List Char) : Marked (p ++ cs) := by
  obtain ⟨c, hc, hmark⟩ := h
  exact ⟨c, List.mem_append_left _ hc, hmark⟩

theorem Marked.ne_nil {p : List Char} (h : Marked p) : p ≠ [] := by
  rintro rfl
  obtain ⟨c, hc, -⟩ := h
  contradiction

/-- A marked line may go on with tidy text. -/
theorem Tidy.rest {cs : List Char} (h : Tidy cs) : Rest cs := by
  intro p hp hm line hline
  rw [lines_append_of_not_mem hp hm.ne_nil] at hline
  cases hl : lines cs with
  | nil =>
    rw [hl, List.mem_singleton] at hline
    exact .inl (hline ▸ hm)
  | cons l ls =>
    rw [hl] at hline
    rcases List.mem_cons.mp hline with rfl | hline
    · exact .inl (hm.append l)
    · exact h line (by rw [hl]; exact List.mem_cons_of_mem _ hline)

theorem Tidy.append {cs ds : List Char} (hc : Tidy cs) (hd : Tidy ds) : Tidy (cs ++ ds) := by
  -- only the line of `cs` that does not end, if any, is another one once `ds` follows
  obtain ⟨a, p, rfl, ha, hp⟩ := exists_ended_append cs
  rw [Tidy, List.append_assoc, lines_append ha]
  rw [Tidy, lines_append ha] at hc
  intro line hline
  rcases List.mem_append.mp hline with hline | hline
  · exact hc line (List.mem_append_left _ hline)
  · by_cases hne : p = []
    · subst hne
      exact hd line hline
    · have hlast := hc p (List.mem_append_right _ (by simp [lines_of_not_mem hp hne]))
      have hm : Marked p := hlast.resolve_right fun he => hp (by simp [he])
      exact hd.rest p hp hm line hline

theorem Rest.start {q cs : List Char} {c : Char} (h : Rest cs) (hq : '\n' ∉ q) (hc : c ∈ q)
    (hm : isMark c = true) : Tidy (q ++ cs) := h q hq ⟨c, hc, hm⟩

theorem Rest.feed {cs : List Char} (h : Tidy cs) : Rest ('\n' :: cs) := (tidy_feed h).rest

theorem Rest.prepend {q cs : List Char} (hq : '\n' ∉ q) (h : Rest cs) : Rest (q ++ cs) := by
  intro p hp hm
  rw [← List.append_assoc]
  refine h (p ++ q) (fun hmem => ?_) (hm.append q)
  exact (List.mem_append.mp hmem).elim hp hq

end NoteForms.Note
