import NoteForms.Proofs.Note.RoundTrip
import NoteForms.Proofs.Note.Tidy
import NoteForms.Proofs.Yaml.OneLine

/-! The lines of a YAML text that is printed. Each of them is empty or has a character
other than a dash: the colon of a key, the space after a mark, or the indentation of a
further line of a text. So no line ends a block before its time, and what is rendered
reads back as it was, if the YAML text does so and ends its last line. It may end with
another break of YAML instead, and then the closing line does not start a line. -/

namespace NoteForms.Note

open Yaml

/-! ### Scalars -/

theorem tidy_feedOnly : Tidy ['\n'] := tidy_feed tidy_nil

/-- The rest of a line, and its end. -/
theorem rest_line (line : List Char) (h : '\n' ∉ line) : Rest (line ++ ['\n']) :=
  tidy_feedOnly.rest.prepend h

/-- A break that a text may have and that is no line feed marks its line. -/
theorem isMark_of_isBreak {c : Char} (hp : isPrintable c = true) (hb : isBreak c = true)
    (hc : c ≠ '\n') : isMark c = true := by
  have hr : c ≠ '\r' := by
    rintro rfl
    contradiction
  have hd : c ≠ '-' := by
    rintro rfl
    contradiction
  simp [isMark, hr, hd, hc]

/-- The lines of a literal block are indented or empty. -/
theorem literalBody_lines {indent : Nat} (hi : 0 < indent) {cs : List Char}
    (hp : ∀ c ∈ cs, isPrintable c = true) :
    Tidy (literalBody indent true cs) ∧ Rest (literalBody indent false cs) := by
  induction cs with
  | nil => exact ⟨tidy_nil, tidy_feedOnly.rest⟩
  | cons c cs ih =>
    obtain ⟨htidy, hrest⟩ := ih fun d hd => hp d (List.mem_cons_of_mem _ hd)
    unfold literalBody
    by_cases hb : isBreak c = true
    · rw [if_pos hb, if_pos hb]
      by_cases hc : c = '\n'
      · exact hc ▸ ⟨tidy_feed htidy, Rest.feed htidy⟩
      · have hmark := isMark_of_isBreak (hp c List.mem_cons_self) hb hc
        have hmem : '\n' ∉ [c] := by simpa using Ne.symm hc
        exact ⟨htidy.rest.start hmem List.mem_cons_self hmark, htidy.rest.prepend hmem⟩
    · have hc : '\n' ∉ [c] := by
        rw [List.mem_singleton]
        rintro rfl
        exact hb (by decide)
      have hline : '\n' ∉ pad indent ++ [c] := by simpa [not_mem_pad] using hc
      have hspace : ' ' ∈ pad indent ++ [c] := by simp [pad, hi.ne']
      have hindented := hrest.start hline hspace (by decide)
      have hgoesOn := hrest.prepend hc
      exact ⟨by simpa [hb] using hindented, by simpa [hb] using hgoesOn⟩

theorem not_mem_literalHeader (cs : List Char) : '\n' ∉ literalHeader cs := by
  unfold literalHeader
  dsimp only
  split <;> split <;> (try split) <;> simp

theorem rest_scalarText {n : Nat} (hn : 0 < n) (s : String) :
    Rest (scalarText n s) := by
  by_cases hs : Style.ofText s.toList = .literal
  · have hp : ∀ c ∈ s.toList, isPrintable c = true := by
      have hholds := literalHolds_of_ofText hs
      rw [Style.literalHolds, Bool.and_eq_true, Bool.and_eq_true, List.all_eq_true] at hholds
      exact hholds.1.1
    unfold scalarText
    simp only [hs]
    exact (Rest.feed (literalBody_lines hn hp).1).prepend (not_mem_literalHeader s.toList)
  · obtain ⟨line, hline, ht⟩ := scalarText_eq_line n s hs
    rw [ht]
    exact rest_line line hline

theorem rest_atomText {indent : Nat} (hi : 0 < indent) (v : Json) : Rest (atomText indent v) := by
  cases v with
  | null => exact rest_line ['n', 'u', 'l', 'l'] (by decide)
  | bool b =>
    cases b with
    | true => exact rest_line ['t', 'r', 'u', 'e'] (by decide)
    | false => exact rest_line ['f', 'a', 'l', 's', 'e'] (by decide)
  | int n => exact rest_line _ (not_mem_intText n)
  | float x => exact rest_line _ (not_mem_render floatLayout x)
  | str s => exact rest_scalarText hi s
  | arr _ => exact tidy_feedOnly.rest
  | obj _ => exact tidy_feedOnly.rest

/-! ### Collections -/

theorem rest_emptyText (place : Yaml.Place) {brackets : List Char} (h : '\n' ∉ brackets) :
    Rest (emptyText place brackets) := by
  cases place with
  | here => exact rest_line brackets h
  | afterKey => exact rest_line (' ' :: brackets) (by simp [h])

/-- What holds no others goes on with the line of its item or key. -/
theorem rest_leaf (place : Yaml.Place) (n : Nat) (v : Json) : (place = .here → 0 < n) →
    Rest (match place with
      | .here => atomText n v
      | .afterKey => ' ' :: atomText (n + 2) v) := by
  intro hn
  cases place with
  | here => exact rest_atomText (hn rfl) v
  | afterKey => exact (rest_atomText (by omega) v).prepend (q := [' ']) (by decide)

mutual

theorem rest_nodeText (place : Yaml.Place) {n : Nat} (hn : place = .here → 0 < n) :
    (v : Json) → Rest (nodeText place n v)
  | .arr items => by
    unfold nodeText
    split
    · exact rest_emptyText place (by decide)
    · cases place with
      | here => exact (tidy_itemsText n true items).rest
      | afterKey => exact Rest.feed (tidy_itemsText n false items)
  | .obj fields => by
    unfold nodeText
    split
    · exact rest_emptyText place (by decide)
    · cases place with
      | here => exact (tidy_entriesText n true fields).rest
      | afterKey => exact Rest.feed (tidy_entriesText (n + 2) false fields)
  | .null => by
    unfold nodeText
    exact rest_leaf place n .null hn
  | .bool b => by
    unfold nodeText
    exact rest_leaf place n (.bool b) hn
  | .int i => by
    unfold nodeText
    exact rest_leaf place n (.int i) hn
  | .float x => by
    unfold nodeText
    exact rest_leaf place n (.float x) hn
  | .str s => by
    unfold nodeText
    exact rest_leaf place n (.str s) hn

/-- The space after its dash marks the line of an item. -/
theorem tidy_itemsText (n : Nat) (here : Bool) : (vs : List Json) → Tidy (itemsText n here vs)
  | [] => tidy_nil
  | v :: vs => by
    have hmem : '\n' ∉ (if here then [] else pad n) ++ ['-', ' '] := by
      cases here <;> simp [not_mem_pad]
    have hv := rest_nodeText .here (n := n + 2) (fun _ => by omega) v
    have hitem := hv.start hmem (c := ' ') (by simp) (by decide)
    simpa [itemsText] using hitem.append (tidy_itemsText n false vs)

/-- A key is marked by its colon, or by the space after its question mark. -/
theorem tidy_entriesText (n : Nat) (here : Bool) :
    (es : List (String × Json)) → Tidy (entriesText n here es)
  | [] => tidy_nil
  | (k, v) :: es => by
    have hes := tidy_entriesText n false es
    have hpad : '\n' ∉ (if here then [] else pad n) := by cases here <;> simp [not_mem_pad]
    unfold entriesText
    refine Tidy.append ?_ hes
    by_cases hk : isSimpleKey k = true
    · have hmem : '\n' ∉ (if here then [] else pad n) ++ simpleKeyText (n + 2) k ++ [':'] := by
        simp [hpad, not_mem_simpleKeyText (n + 2) hk]
      have hv := rest_nodeText .afterKey (n := n) (by simp) v
      have hentry := hv.start hmem (c := ':') (by simp) (by decide)
      simpa [hk] using hentry
    · -- a key that is not simple has a line of its own, and so has its value
      have hkeyMem : '\n' ∉ (if here then [] else pad n) ++ ['?', ' '] := by simp [hpad]
      have hkey := (rest_scalarText (n := n + 2) (by omega) k).start hkeyMem (c := ' ') (by simp) (by decide)
      have hmem : '\n' ∉ pad n ++ [':', ' '] := by simp [not_mem_pad]
      have hv := rest_nodeText .here (n := n + 2) (fun _ => by omega) v
      have hvalue := hv.start hmem (c := ' ') (by simp) (by decide)
      simpa [hk] using hkey.append hvalue

end

/-! ### The text of a mapping -/

/-- No line of a block that is written closes it. -/
theorem not_isDelimiter_text {fm : Object} (h : fm ≠ []) :
    ∀ line ∈ lines (Yaml.text (.obj fm)).toList, isDelimiter line = false := by
  have hne : fm.isEmpty = false := by simpa using h
  have htidy := tidy_entriesText 0 true fm
  rw [Yaml.text, String.toList_ofList, nodeText, if_neg (by simp [hne])]
  exact htidy.noDelimiter

/-- What is rendered reads back as it was, with the body as it was, and so renders to the
same text again. -/
theorem parse_render_of_reads (fm : Object) (body : String) (hne : fm ≠ [])
    (hends : (Yaml.text (.obj fm)).toList.getLast? = some '\n')
    (hreads : Yaml.read (Yaml.text (.obj fm)) = some (.obj fm)) :
    ∃ note, parse (render fm body) = some note ∧ note.frontmatter = some fm ∧ note.body = body ∧
      render (note.frontmatter.getD []) note.body = render fm body := by
  have hf : Faithful fm := ⟨hends, not_isDelimiter_text hne, hreads⟩
  exact ⟨⟨some fm, body⟩, parse_render hf hne body, rfl, rfl, rfl⟩

/-- Texts of dashes, on a line with others and on one of their own, and a key. -/
def dashes : Object := [("a", .arr [.str "---", .str "x\n---\n"]), ("---", .null)]

theorem parse_render_of_reads_dashes :
    ∃ note, parse (render dashes "---\r\nb\n---\n") = some note ∧
      note.frontmatter = some dashes ∧ note.body = "---\r\nb\n---\n" ∧
      render (note.frontmatter.getD []) note.body = render dashes "---\r\nb\n---\n" :=
  parse_render_of_reads dashes _ (by decide) (by decide +kernel) (by decide +kernel)

-- The last line of a literal block may end with a break that ends no line of a note.
example : (Yaml.text (.obj [("k", .str "a\nb\u2028")])).toList.getLast? = some '\u2028' := by
  decide +kernel

end NoteForms.Note
