import NoteForms.Proofs.Yaml.OneLine

/-! The compact text of a value is one line. Numbers have no line feed, and one in a text or in
a key is escaped, at any depth. -/

namespace NoteForms.Json

/-! ### Texts -/

theorem shortEscape?_ne {c l : Char} (h : shortEscape? c = some l) : '\n' ≠ l := by
  rintro rfl
  unfold shortEscape? at h
  repeat' split at h
  all_goals simp_all

theorem not_mem_escapeChar (c : Char) : '\n' ∉ escapeChar c := by
  unfold escapeChar
  split
  · next l h => simp [shortEscape?_ne h]
  · next h =>
    have hc : '\n' ≠ c := by
      rintro rfl
      contradiction
    have hdigit : ∀ d < 16, '\n' ≠ Nat.digitChar d := by decide
    split
    · next hlow => simp [hdigit (c.toNat / 16) (by omega), hdigit (c.toNat % 16) (by omega)]
    · simp [hc]

theorem not_mem_quote (s : String) : '\n' ∉ quote s := by
  have hs : '\n' ∉ s.toList.flatMap escapeChar := by simpa using fun c _ => not_mem_escapeChar c
  simp [quote, hs]

/-! ### Values -/

theorem not_mem_atomText (v : Json) : '\n' ∉ v.atomText := by
  cases v with
  | null => decide
  | bool b => cases b <;> decide
  | int n => exact Yaml.not_mem_intText n
  | float x => exact Yaml.not_mem_render floatLayout x
  | str s => exact not_mem_quote s
  | arr | obj => exact List.not_mem_nil

mutual

theorem not_mem_compact : (v : Json) → '\n' ∉ v.compact
  | .arr items => by simp [compact, not_mem_compactItems items]
  | .obj fields => by simp [compact, not_mem_compactFields fields]
  | .null => by
    unfold compact
    exact not_mem_atomText .null
  | .bool b => by
    unfold compact
    exact not_mem_atomText (.bool b)
  | .int n => by
    unfold compact
    exact not_mem_atomText (.int n)
  | .float x => by
    unfold compact
    exact not_mem_atomText (.float x)
  | .str s => by
    unfold compact
    exact not_mem_atomText (.str s)

theorem not_mem_compactItems : (vs : List Json) → '\n' ∉ compactItems vs
  | [] => List.not_mem_nil
  | [v] => not_mem_compact v
  | v :: w :: vs => by simp [compactItems, not_mem_compact v, not_mem_compactItems (w :: vs)]

theorem not_mem_compactFields : (fs : List (String × Json)) → '\n' ∉ compactFields fs
  | [] => List.not_mem_nil
  | [(k, v)] => by simp [compactFields, not_mem_quote, not_mem_compact v]
  | (k, v) :: f :: fs => by
    simp [compactFields, not_mem_quote, not_mem_compact v, not_mem_compactFields (f :: fs)]

end

end NoteForms.Json
