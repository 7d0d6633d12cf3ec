import NoteForms.Proofs.Vault.Rewrite

/-! Where a note is cut. The closing line of a block is found by a scan of the lines that
counts bytes, and the text after the opening line is then sliced at two of the counts: the
YAML text is what is before the first, the body what is after the second. A count is at
any time the size of the lines that are behind, so both are positions of the text, however
wide its characters are and whether or not its last line ends. -/

namespace NoteForms.Note

/-! ### The scan -/

/-- Where the first delimiting line starts and where it ends, in bytes, with `offset` bytes
in front of the lines. -/
def closingFrom (offset : Nat) : List (List Char) → Option (Nat × Nat)
  | [] => none
  | line :: rest =>
    let stop := offset + (String.ofList line).utf8ByteSize
    if isDelimiter line then some (offset, stop) else closingFrom stop rest

/-- Where the closing line is in the text after an opening line. -/
def closing? (rest : String) : Option (Nat × Nat) := closingFrom 0 (lines rest.toList)

/-- With the lines of `behind` behind it, the scan stops in front of and after the first
delimiting line. -/
theorem closingFrom_eq (behind : List Char) (ls : List (List Char)) :
    closingFrom (String.ofList behind).utf8ByteSize ls =
      match ls.dropWhile (!isDelimiter ·) with
      | [] => none
      | closing :: _ =>
        let start := behind ++ (ls.takeWhile (!isDelimiter ·)).flatten
        some ((String.ofList start).utf8ByteSize,
          (String.ofList (start ++ closing)).utf8ByteSize) := by
  induction ls generalizing behind with
  | nil => rfl
  | cons line ls ih =>
    -- one step of the loop: the count is the size of what is behind, `line` included
    have hstop : (String.ofList behind).utf8ByteSize + (String.ofList line).utf8ByteSize =
        (String.ofList (behind ++ line)).utf8ByteSize := by
      rw [String.ofList_append, String.utf8ByteSize_append]
    rw [closingFrom]
    dsimp only
    rw [hstop]
    cases hd : isDelimiter line with
    | true => simp [hd]
    | false =>
      simp only [Bool.false_eq_true, if_false]
      rw [ih]
      simp [hd]

theorem closing?_eq (rest : String) :
    closing? rest = match (lines rest.toList).dropWhile (!isDelimiter ·) with
      | [] => none
      | closing :: _ =>
        let yaml := ((lines rest.toList).takeWhile (!isDelimiter ·)).flatten
        some ((String.ofList yaml).utf8ByteSize, (String.ofList (yaml ++ closing)).utf8ByteSize) :=
  closingFrom_eq [] (lines rest.toList)

/-! ### Slices -/

/-- A text in three parts is sliced between them at the sizes of the parts. -/
theorem slices_ofList {rest : String} {before line after : List Char}
    (h : rest.toList = before ++ (line ++ after)) :
    ∃ start stop : rest.Pos,
      start.offset.byteIdx = (String.ofList before).utf8ByteSize ∧
      stop.offset.byteIdx = (String.ofList (before ++ line)).utf8ByteSize ∧
      (rest.sliceTo start).copy = String.ofList before ∧
      (rest.sliceFrom stop).copy = String.ofList after := by
  have hstart : rest = String.ofList before ++ String.ofList (line ++ after) := by
    rw [← String.ofList_append, ← h, String.ofList_toList]
  have hstop : rest = String.ofList (before ++ line) ++ String.ofList after := by
    rw [← String.ofList_append, List.append_assoc, ← h, String.ofList_toList]
  have hsplits := String.Pos.splits_ofEqAppend hstart
  have hsplits' := String.Pos.splits_ofEqAppend hstop
  refine ⟨_, _, ?_, ?_, hsplits.copy_sliceTo_eq, hsplits'.copy_sliceFrom_eq⟩
  · rw [hsplits.offset_eq_rawEndPos, String.byteIdx_rawEndPos]
  · rw [hsplits'.offset_eq_rawEndPos, String.byteIdx_rawEndPos]

/-- The splitter cuts a text at the two offsets of the scan, which are positions of the
text. -/
theorem splitAtDelimiter_eq_slices (rest : String) :
    match closing? rest with
    | none => splitAtDelimiter rest.toList = none
    | some (i, j) => ∃ start stop : rest.Pos, start.offset.byteIdx = i ∧ stop.offset.byteIdx = j ∧
        splitAtDelimiter rest.toList =
          some ((rest.sliceTo start).copy.toList, (rest.sliceFrom stop).copy.toList) := by
  rw [closing?_eq]
  unfold splitAtDelimiter
  cases hdrop : (lines rest.toList).dropWhile (!isDelimiter ·) with
  | nil => rfl
  | cons closing after =>
    have hrest : rest.toList =
        ((lines rest.toList).takeWhile (!isDelimiter ·)).flatten ++ (closing ++ after.flatten) := by
      rw [← List.flatten_cons, ← hdrop, ← List.flatten_append, List.takeWhile_append_dropWhile,
        flatten_lines]
    obtain ⟨start, stop, hi, hj, hyaml, hbody⟩ := slices_ofList hrest
    refine ⟨start, stop, hi, hj, ?_⟩
    rw [hyaml, hbody, String.toList_ofList, String.toList_ofList]

theorem slices_of_splitAtDelimiter {rest : String} {yaml body : List Char}
    (h : splitAtDelimiter rest.toList = some (yaml, body)) :
    ∃ start stop : rest.Pos, closing? rest = some (start.offset.byteIdx, stop.offset.byteIdx) ∧
      (rest.sliceTo start).copy = String.ofList yaml ∧
      (rest.sliceFrom stop).copy = String.ofList body := by
  have hscan := splitAtDelimiter_eq_slices rest
  rw [h] at hscan
  cases hc : closing? rest with
  | none =>
    rw [hc] at hscan
    contradiction
  | some ends =>
    rw [hc] at hscan
    obtain ⟨start, stop, hi, hj, hslices⟩ := hscan
    obtain ⟨rfl, rfl⟩ := Prod.mk.inj (Option.some.inj hslices)
    refine ⟨start, stop, ?_, String.ofList_toList.symm, String.ofList_toList.symm⟩
    rw [hi, hj]

/-! ### Blocks of texts -/

theorem splitAtDelimiter_isSome_iff {cs : List Char} :
    (splitAtDelimiter cs).isSome = true ↔ ∃ line ∈ lines cs, isDelimiter line = true := by
  have hnone : splitAtDelimiter cs = none ↔ ∀ line ∈ lines cs, isDelimiter line = false := by
    unfold splitAtDelimiter
    cases hdrop : (lines cs).dropWhile (!isDelimiter ·) with
    | nil => simpa using List.dropWhile_eq_nil_iff.mp hdrop
    | cons closing after =>
      have hne : ¬ ∀ line ∈ lines cs, (!isDelimiter line) = true := by
        rw [← List.dropWhile_eq_nil_iff, hdrop]
        simp
      simpa using hne
  rw [← not_iff_not, Option.not_isSome_iff_eq_none, hnone]
  simp

theorem split_isSome_iff {cs : List Char} :
    (split cs).isSome = true ↔ ∃ opening rest, cs = opening ++ rest ∧
      (opening = ['-', '-', '-', '\n'] ∨ opening = ['-', '-', '-', '\r', '\n']) ∧
      ∃ line ∈ lines rest, isDelimiter line = true := by
  constructor
  · intro h
    obtain ⟨parts, hparts⟩ := Option.isSome_iff_exists.mp h
    obtain ⟨rest, hopen, hsplit⟩ := Option.bind_eq_some_iff.mp hparts
    obtain ⟨opening, hcs, ho⟩ := opened?_eq_some_iff.mp hopen
    exact ⟨opening, rest, hcs, ho, splitAtDelimiter_isSome_iff.mp (by rw [hsplit]; rfl)⟩
  · rintro ⟨opening, rest, hcs, ho, hline⟩
    rw [split, opened?_eq_some_iff.mpr ⟨opening, hcs, ho⟩, Option.bind_some]
    exact splitAtDelimiter_isSome_iff.mpr hline

/-- The lines after an opening line are those of the YAML text, the closing line and those
of the body, and the text after it is cut there. -/
theorem Divides.slices {text : String} {opening yaml closing body : List Char}
    (h : Divides text.toList opening yaml closing body) :
    ∃ rest, text = String.ofList opening ++ rest ∧
      lines rest.toList = lines yaml ++ closing :: lines body ∧
      ∃ start stop : rest.Pos, closing? rest = some (start.offset.byteIdx, stop.offset.byteIdx) ∧
        (rest.sliceTo start).copy = String.ofList yaml ∧
        (rest.sliceFrom stop).copy = String.ofList body := by
  have hrest : (String.ofList (yaml ++ (closing ++ body))).toList = yaml ++ (closing ++ body) :=
    String.toList_ofList
  refine ⟨String.ofList (yaml ++ (closing ++ body)), ?_, ?_, ?_⟩
  · rw [← String.ofList_append, ← h.whole, String.ofList_toList]
  · rw [hrest, lines_append_line h.ends h.line h.bodyAfter]
  · refine slices_of_splitAtDelimiter (splitAtDelimiter_eq_some_iff.mpr ?_)
    exact ⟨closing, hrest, h.ends, h.noDelimiter, h.closes, h.line, h.bodyAfter⟩

/-- A note has a block exactly when it starts with three dashes and an end of line and a
later line is three dashes, but for the breaks at its end. Without a block all of it is the
body. Otherwise the first such line closes the block: the note is its opening, its YAML
text, its closing line and its body, one after the other, and the offsets that the scan of
the lines counts are positions at which the text after the opening is sliced into them. -/
theorem parse_cuts_exactly (text : String) :
    ((split text.toList).isSome = true ↔ ∃ opening rest, text.toList = opening ++ rest ∧
      (opening = ['-', '-', '-', '\n'] ∨ opening = ['-', '-', '-', '\r', '\n']) ∧
      ∃ line ∈ lines rest, ∃ breaks, line = '-' :: '-' :: '-' :: breaks ∧
        ∀ c ∈ breaks, c = '\r' ∨ c = '\n') ∧
    (split text.toList = none → parse text = some ⟨none, text⟩) ∧
    ∀ yaml body, split text.toList = some (yaml, body) →
      parse text = (mapping yaml).map (⟨·, String.ofList body⟩) ∧
      ∃ opening closing rest, Divides text.toList opening yaml closing body ∧
        text = String.ofList opening ++ rest ∧
        lines rest.toList = lines yaml ++ closing :: lines body ∧
        ∃ start stop : rest.Pos,
          closing? rest = some (start.offset.byteIdx, stop.offset.byteIdx) ∧
          (rest.sliceTo start).copy = String.ofList yaml ∧
          (rest.sliceFrom stop).copy = String.ofList body := by
  refine ⟨?_, fun hnone => ?_, fun yaml body hsome => ⟨?_, ?_⟩⟩
  · simp only [split_isSome_iff, isDelimiter_iff]
  · rw [parse, hnone]
  · rw [parse, hsome]
  · obtain ⟨opening, closing, hdivides⟩ := split_eq_some_iff.mp hsome
    obtain ⟨rest, htext, hlines, hslices⟩ := hdivides.slices
    exact ⟨opening, closing, rest, hdivides, htext, hlines, hslices⟩

/-- A note of wide characters, whose last line does not end. -/
def accented : String := "---\r\nä: \"日\"\r\n---\r\n# ü\n---\nz"

/-- It is cut at its first closing line, and the line in its body that looks like one stays. -/
theorem parse_cuts_exactly_accented :
    ∃ opening closing rest, Divides accented.toList opening "ä: \"日\"\r\n".toList closing
        "# ü\n---\nz".toList ∧
      accented = String.ofList opening ++ rest ∧
      ∃ start stop : rest.Pos,
        closing? rest = some (start.offset.byteIdx, stop.offset.byteIdx) ∧
        (rest.sliceTo start).copy = "ä: \"日\"\r\n" ∧
        (rest.sliceFrom stop).copy = "# ü\n---\nz" := by
  have hsplit : split accented.toList =
      some ("ä: \"日\"\r\n".toList, "# ü\n---\nz".toList) := by decide +kernel
  obtain ⟨-, opening, closing, rest, hdivides, htext, -, start, stop, hends, hyaml, hbody⟩ :=
    (parse_cuts_exactly accented).2.2 _ _ hsplit
  rw [String.ofList_toList] at hyaml hbody
  exact ⟨opening, closing, rest, hdivides, htext, start, stop, hends, hyaml, hbody⟩

example : closing? "ä: \"日\"\r\n---\r\n# ü\n---\nz" = some (11, 16) := by decide +kernel

end NoteForms.Note
