import Mathlib.Data.List.TakeWhile
import NoteForms.Note.Frontmatter

/-! Where the block of a note is. A note has a block if it starts with a line of three
dashes and has another such line; the first of these ends the block, and the body starts
after it, whatever lines it has. The note is its opening, its YAML text, its closing line
and its body, one after the other. -/

namespace NoteForms.Note

/-! ### Lines -/

theorem lines_cons (c : Char) (cs : List Char) :
    lines (c :: cs) =
      if c = '\n' then [c] :: lines cs
      else match lines cs with
        | [] => [[c]]
        | l :: ls => (c :: l) :: ls := rfl

theorem lines_ne_nil {cs : List Char} (h : cs ≠ []) : lines cs ≠ [] := by
  intro hl
  have hf := flatten_lines cs
  rw [hl] at hf
  exact h hf.symm

/-- The last line of a text ends, if there is one. -/
def Ended (cs : List Char) : Prop := cs = [] ∨ cs.getLast? = some '\n'

theorem ended_nil : Ended [] := .inl rfl

theorem ended_cons {c : Char} {cs : List Char} (h : Ended cs) (hc : cs ≠ [] ∨ c = '\n') :
    Ended (c :: cs) := by
  cases cs with
  | nil => exact .inr (by simpa using hc)
  | cons d ds =>
    rcases h with h | h
    · contradiction
    · exact .inr (by rwa [List.getLast?_cons_cons])

/-- Text that ends its last line adds its lines. -/
theorem lines_append {cs : List Char} (h : Ended cs) (rest : List Char) :
    lines (cs ++ rest) = lines cs ++ lines rest := by
  induction cs with
  | nil => rfl
  | cons c cs ih =>
    rw [List.cons_append, lines_cons, lines_cons]
    have hcs : Ended cs := by
      cases cs with
      | nil => exact ended_nil
      | cons d ds =>
        rcases h with h | h
        · contradiction
        · exact .inr (by rwa [List.getLast?_cons_cons] at h)
    rw [ih hcs]
    split
    · rfl
    · next hc =>
      have hne : cs ≠ [] := by
        rintro rfl
        simp [Ended, hc] at h
      cases hl : lines cs with
      | nil => exact absurd hl (lines_ne_nil hne)
      | cons l ls => rfl

/-- Some of the first lines of a text are the lines of a text that ends, and so are
those after them. -/
theorem lines_eq_append {cs : List Char} {xs ys : List (List Char)} (h : lines cs = xs ++ ys) :
    lines xs.flatten = xs ∧ lines ys.flatten = ys ∧ (ys ≠ [] → Ended xs.flatten) := by
  induction cs generalizing xs ys with
  | nil =>
    obtain ⟨rfl, rfl⟩ : xs = [] ∧ ys = [] := by simpa [lines] using h.symm
    exact ⟨rfl, rfl, by simp⟩
  | cons c cs ih =>
    cases xs with
    | nil =>
      rw [List.nil_append] at h
      exact ⟨rfl, by rw [← h, flatten_lines], fun _ => ended_nil⟩
    | cons x xs =>
      rw [lines_cons, List.cons_append] at h
      split at h
      · next hc =>
        obtain ⟨rfl, hcs⟩ := List.cons.inj h
        obtain ⟨hxs, hys, hends⟩ := ih hcs
        refine ⟨by simp [lines_cons, hc, hxs], hys, fun hne => ?_⟩
        exact ended_cons (hends hne) (.inr hc)
      · next hc =>
        cases hl : lines cs with
        | nil =>
          rw [hl] at h
          obtain ⟨rfl, hrest⟩ := List.cons.inj h
          obtain ⟨rfl, rfl⟩ := List.append_eq_nil_iff.mp hrest.symm
          exact ⟨by simp [lines_cons, hc, lines], rfl, by simp⟩
        | cons l ls =>
          rw [hl] at h
          obtain ⟨rfl, rfl⟩ := List.cons.inj h
          have hl' : lines cs = (l :: xs) ++ ys := hl
          obtain ⟨hxs, hys, hends⟩ := ih hl'
          rw [List.flatten_cons] at hxs hends
          refine ⟨?_, hys, fun hne => ?_⟩
          · rw [List.flatten_cons, List.cons_append, lines_cons, if_neg hc, hxs]
          · refine ended_cons (hends hne) (.inl fun he => ?_)
            have he : l ++ xs.flatten = [] := he
            rw [he] at hxs
            contradiction

/-- The first line of a text goes on the line before it. -/
theorem lines_append_of_not_mem {p cs : List Char} (h : '\n' ∉ p) (hne : p ≠ []) :
    lines (p ++ cs) = match lines cs with
      | [] => [p]
      | l :: ls => (p ++ l) :: ls := by
  induction p with
  | nil => contradiction
  | cons c p ih =>
    have hc : c ≠ '\n' := fun he => h (he ▸ List.mem_cons_self)
    have hp : '\n' ∉ p := fun hm => h (List.mem_cons_of_mem _ hm)
    rw [List.cons_append, lines_cons, if_neg hc]
    cases p with
    | nil =>
      rw [List.nil_append]
      cases lines cs <;> rfl
    | cons d p =>
      rw [ih hp (by simp)]
      cases lines cs <;> rfl

theorem lines_of_not_mem {p : List Char} (h : '\n' ∉ p) (hne : p ≠ []) : lines p = [p] := by
  have hp : lines (p ++ []) = [p] := lines_append_of_not_mem h hne
  rwa [List.append_nil] at hp

/-- A line is a delimiter if it is three dashes and breaks. -/
theorem isDelimiter_iff {line : List Char} : isDelimiter line = true ↔
    ∃ breaks, line = '-' :: '-' :: '-' :: breaks ∧ ∀ c ∈ breaks, c = '\r' ∨ c = '\n' := by
  have hdef : isDelimiter line = true ↔ trimEnd line = ['-', '-', '-'] := by simp [isDelimiter]
  rw [hdef]
  constructor
  · intro htrim
    have hline : line = trimEnd line ++
        (line.reverse.takeWhile fun c => c = '\r' || c = '\n').reverse := by
      rw [trimEnd, ← List.reverse_append, List.takeWhile_append_dropWhile, List.reverse_reverse]
    rw [htrim] at hline
    refine ⟨_, hline, fun c hc => ?_⟩
    simpa using List.mem_takeWhile_imp (List.mem_reverse.mp hc)
  · rintro ⟨breaks, rfl, hbreaks⟩
    have hrev : ('-' :: '-' :: '-' :: breaks).reverse = breaks.reverse ++ ['-', '-', '-'] := by simp
    have hpos : ∀ c ∈ breaks.reverse, (c = '\r' || c = '\n') = true := by
      intro c hc
      simpa using hbreaks c (List.mem_reverse.mp hc)
    rw [trimEnd, hrev, List.dropWhile_append_of_pos hpos]
    rfl

/-- A text is lines that end, and a line that does not. -/
theorem exists_ended_append (cs : List Char) :
    ∃ a p, cs = a ++ p ∧ Ended a ∧ '\n' ∉ p := by
  induction cs with
  | nil => exact ⟨[], [], rfl, ended_nil, by simp⟩
  | cons c cs ih =>
    obtain ⟨a, p, rfl, ha, hp⟩ := ih
    by_cases hne : a ≠ [] ∨ c = '\n'
    · exact ⟨c :: a, p, rfl, ended_cons ha hne, hp⟩
    · rw [not_or, not_not] at hne
      obtain ⟨rfl, hc⟩ := hne
      exact ⟨[], c :: p, rfl, ended_nil, by simp [Ne.symm hc, hp]⟩

/-! ### Blocks -/

/-- The parts of a note that has a block. -/
structure Divides (cs opening yaml closing body : List Char) : Prop where
  whole : cs = opening ++ (yaml ++ (closing ++ body))
  opens : opening = ['-', '-', '-', '\n'] ∨ opening = ['-', '-', '-', '\r', '\n']
  ends : Ended yaml
  noDelimiter : ∀ line ∈ lines yaml, isDelimiter line = false
  closes : isDelimiter closing = true
  line : lines closing = [closing]
  bodyAfter : body ≠ [] → Ended closing

theorem opened?_eq_some_iff {cs rest : List Char} :
    opened? cs = some rest ↔ ∃ opening, cs = opening ++ rest ∧
      (opening = ['-', '-', '-', '\n'] ∨ opening = ['-', '-', '-', '\r', '\n']) := by
  constructor
  · intro h
    unfold opened? at h
    split at h
    · rw [← Option.some.inj h]
      exact ⟨['-', '-', '-', '\n'], rfl, .inl rfl⟩
    · rw [← Option.some.inj h]
      exact ⟨['-', '-', '-', '\r', '\n'], rfl, .inr rfl⟩
    · contradiction
  · rintro ⟨opening, rfl, rfl | rfl⟩ <;> rfl

/-- A line between a text that ends and what follows is one of the lines. -/
theorem lines_append_line {before line after : List Char} (hb : Ended before)
    (hl : lines line = [line]) (ha : after ≠ [] → Ended line) :
    lines (before ++ (line ++ after)) = lines before ++ line :: lines after := by
  have hrest : lines (line ++ after) = line :: lines after := by
    by_cases hne : after = []
    · simp [hne, hl, lines]
    · rw [lines_append (ha hne), hl, List.singleton_append]
  rw [lines_append hb, hrest]

/-- A block is cut where it ends, whatever follows. -/
theorem splitAtDelimiter_eq_some_iff {cs yaml body : List Char} :
    splitAtDelimiter cs = some (yaml, body) ↔ ∃ closing, cs = yaml ++ (closing ++ body) ∧
      Ended yaml ∧ (∀ line ∈ lines yaml, isDelimiter line = false) ∧ isDelimiter closing = true ∧
      lines closing = [closing] ∧ (body ≠ [] → Ended closing) := by
  constructor
  · intro h
    unfold splitAtDelimiter at h
    split at h
    · contradiction
    · next closing after hdrop =>
      obtain ⟨rfl, rfl⟩ := Prod.mk.inj (Option.some.inj h)
      have hl : lines cs = (lines cs).takeWhile (!isDelimiter ·) ++ closing :: after := by
        rw [← hdrop, List.takeWhile_append_dropWhile]
      obtain ⟨hbefore, hrest, hends⟩ := lines_eq_append hl
      have hrest' : lines (closing :: after).flatten = [closing] ++ after := hrest
      obtain ⟨hclosing, -, hclosed⟩ := lines_eq_append hrest'
      rw [List.flatten_singleton] at hclosing hclosed
      have hcs : cs =
          ((lines cs).takeWhile (!isDelimiter ·)).flatten ++ (closing ++ after.flatten) := by
        rw [← List.flatten_cons, ← List.flatten_append, ← hl, flatten_lines]
      have hdelim : (!isDelimiter closing) = false := by
        have hne : (lines cs).dropWhile (!isDelimiter ·) ≠ [] := by
          rw [hdrop]
          simp
        have hhead := List.head_dropWhile_not (!isDelimiter ·) hne
        simpa only [hdrop, List.head_cons] using hhead
      refine ⟨closing, hcs, hends (by simp), fun line hline => ?_, by simpa using hdelim, hclosing,
        fun hne => hclosed fun he => hne (by rw [he]; rfl)⟩
      rw [hbefore] at hline
      simpa using List.mem_takeWhile_imp hline
  · rintro ⟨closing, rfl, hy, hd, hc, hline, hbody⟩
    have hd' : ∀ line ∈ lines yaml, (!isDelimiter line) = true := by simpa using hd
    have hend : ¬ (!isDelimiter closing) = true := by simp [hc]
    rw [splitAtDelimiter, lines_append_line hy hline hbody, List.dropWhile_append_of_pos hd',
      List.takeWhile_append_of_pos hd', List.dropWhile_cons_of_neg (p := (!isDelimiter ·)) hend,
      List.takeWhile_cons_of_neg (p := (!isDelimiter ·)) hend, List.append_nil]
    simp [flatten_lines]

/-- A note is split into the YAML text and the body of its block. -/
theorem split_eq_some_iff {cs yaml body : List Char} :
    split cs = some (yaml, body) ↔ ∃ opening closing, Divides cs opening yaml closing body := by
  rw [split, Option.bind_eq_some_iff]
  constructor
  · rintro ⟨rest, hopen, hsplit⟩
    obtain ⟨opening, rfl, ho⟩ := opened?_eq_some_iff.mp hopen
    obtain ⟨closing, rfl, hy, hd, hc, hline, hbody⟩ := splitAtDelimiter_eq_some_iff.mp hsplit
    exact ⟨opening, closing, rfl, ho, hy, hd, hc, hline, hbody⟩
  · rintro ⟨opening, closing, h⟩
    exact ⟨_, opened?_eq_some_iff.mpr ⟨opening, h.whole, h.opens⟩,
      splitAtDelimiter_eq_some_iff.mpr
        ⟨closing, rfl, h.ends, h.noDelimiter, h.closes, h.line, h.bodyAfter⟩⟩

end NoteForms.Note
