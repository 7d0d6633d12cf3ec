import NoteForms.Yaml.Printer

/-! What is printed on one line. A number is, and so is a text with no line feed; a text
in double quotes is even if it has some, for they are escaped. Only a literal block takes
several lines. -/

namespace NoteForms.Yaml

/-! ### Numbers -/

theorem not_mem_toDigits (n : Nat) : '\n' ∉ Nat.toDigits 10 n := by
  intro h
  have hd : Char.isDigit '\n' = true := Nat.isDigit_of_mem_toDigits (by decide) (by decide) h
  contradiction

theorem not_mem_intText (n : Int) : '\n' ∉ Json.intText n := by
  unfold Json.intText
  split <;> simp [not_mem_toDigits]

theorem not_mem_zeros (n : Nat) : '\n' ∉ Decimal.Layout.zeros n := by
  simp [Decimal.Layout.zeros, List.mem_replicate]

theorem not_mem_exponentText (f : Decimal.Layout) (e : Int) : '\n' ∉ f.exponentText e := by
  unfold Decimal.Layout.exponentText
  split
  · simp [not_mem_toDigits]
  · split <;> simp [not_mem_toDigits]

theorem not_mem_place (f : Decimal.Layout) (d : Decimal.Numeral) : '\n' ∉ f.place d := by
  have hds := not_mem_toDigits d.digits
  have htake : ∀ n, '\n' ∉ (Nat.toDigits 10 d.digits).take n :=
    fun n h => hds (List.mem_of_mem_take h)
  have hdrop : ∀ n, '\n' ∉ (Nat.toDigits 10 d.digits).drop n :=
    fun n h => hds (List.mem_of_mem_drop h)
  unfold Decimal.Layout.place
  dsimp only
  split
  · split
    · simp [hds, not_mem_zeros]
    · split
      · simp [htake, hdrop]
      · simp [hds, not_mem_zeros]
  · split
    · next c h =>
      have hc : '\n' ≠ c := by simpa [h] using hds
      simp [hc, not_mem_exponentText]
    · next c rest _ h =>
      have hc : '\n' ≠ c ∧ '\n' ∉ rest := by simpa [h] using hds
      simp [hc, not_mem_exponentText]
    · simp

theorem not_mem_render (f : Decimal.Layout) (x : Double) : '\n' ∉ f.render x := by
  unfold Decimal.Layout.render
  split <;> split <;> simp [not_mem_place]

/-! ### Texts -/

theorem not_mem_pad (n : Nat) : '\n' ∉ pad n := by
  simp [pad, List.mem_replicate]

theorem not_mem_singleBody {indent : Nat} {broken : Bool} {cs : List Char} (h : '\n' ∉ cs) :
    '\n' ∉ singleBody indent broken cs := by
  induction cs generalizing broken with
  | nil => cases broken <;> simp [singleBody, not_mem_pad]
  | cons c cs ih =>
    have hc : '\n' ≠ c := fun he => h (he ▸ List.mem_cons_self)
    have hcs : '\n' ∉ cs := fun hm => h (List.mem_cons_of_mem _ hm)
    have hquote : '\n' ∉ (if c = '\x27' then [c, c] else [c]) := by split <;> simp [hc]
    unfold singleBody
    split
    · simp [hc, ih hcs]
    · cases broken <;> simp [hquote, ih hcs, not_mem_pad]

theorem not_mem_hexText (k n : Nat) : '\n' ∉ hexText k n := by
  have hdigit : ∀ d < 16, '\n' ≠ (Nat.digitChar d).toUpper := by decide
  induction k generalizing n with
  | zero => simp [hexText]
  | succ k ih => simp [hexText, ih, hdigit (n % 16) (Nat.mod_lt _ (by decide))]

theorem escapeLetter?_ne {c l : Char} (h : escapeLetter? c = some l) : '\n' ≠ l := by
  rintro rfl
  unfold escapeLetter? at h
  split at h <;> simp_all

theorem not_mem_doubleChar (c : Char) : '\n' ∉ doubleChar c := by
  unfold doubleChar
  split
  · next l h => simp [escapeLetter?_ne h]
  · next h =>
    have hc : '\n' ≠ c := by
      rintro rfl
      contradiction
    dsimp only
    split
    · simp [hc]
    · split
      · simp [not_mem_hexText]
      · split <;> simp [not_mem_hexText]

/-- A text that is neither escaped nor a block has no line feed. -/
theorem not_mem_of_ofText {cs : List Char} (h : Style.ofText cs = .plain ∨ Style.ofText cs = .single) :
    '\n' ∉ cs := by
  intro hmem
  have hc : cs.contains '\n' = true := by simpa using hmem
  rw [Style.ofText, if_pos hc] at h
  split at h <;> simp at h

theorem literalHolds_of_ofText {cs : List Char} (h : Style.ofText cs = .literal) :
    Style.literalHolds cs = true := by
  unfold Style.ofText at h
  split at h
  · split at h
    · assumption
    · contradiction
  · split at h
    · contradiction
    · split at h <;> contradiction

/-- A text is a line, unless it is a literal block. -/
theorem scalarText_eq_line (indent : Nat) (s : String) (h : Style.ofText s.toList ≠ .literal) :
    ∃ line, '\n' ∉ line ∧ scalarText indent s = line ++ ['\n'] := by
  unfold scalarText
  dsimp only
  cases hs : Style.ofText s.toList with
  | plain => exact ⟨s.toList, not_mem_of_ofText (.inl hs), rfl⟩
  | single =>
    have hbody : '\n' ∉ singleBody indent false s.toList :=
      not_mem_singleBody (not_mem_of_ofText (.inr hs))
    exact ⟨'\x27' :: singleBody indent false s.toList ++ ['\x27'], by simp [hbody], by simp⟩
  | double =>
    have hbody : '\n' ∉ s.toList.flatMap doubleChar := by
      simpa using fun c _ => not_mem_doubleChar c
    exact ⟨'\x22' :: s.toList.flatMap doubleChar ++ ['\x22'], by simp [hbody], by simp⟩
  | literal => contradiction

/-- A simple key is on one line. -/
theorem not_mem_simpleKeyText (indent : Nat) {key : String} (h : isSimpleKey key = true) :
    '\n' ∉ simpleKeyText indent key := by
  have hmem : '\n' ∉ key.toList := by
    intro hmem
    have hany : key.toList.any isBreak = true := List.any_eq_true.mpr ⟨'\n', hmem, by decide⟩
    simp [isSimpleKey, hany] at h
  have hs : Style.ofText key.toList ≠ .literal := by
    unfold Style.ofText
    rw [if_neg (by simpa using hmem)]
    split
    · simp
    · split <;> simp
  obtain ⟨line, hline, hk⟩ := scalarText_eq_line indent key hs
  rwa [simpleKeyText, hk, List.dropLast_concat]

end NoteForms.Yaml
