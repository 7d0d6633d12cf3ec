import NoteForms.Edit.Editor

/-! Where the record on screen goes when it is submitted. It is appended while a new
one is made; otherwise it replaces the record of its page. -/

namespace NoteForms.Edit

/-- A record is put among others: at the end if it is new, else on a page, counted
from one. -/
inductive Placed (r : Record) (rs : List Record) : Bool → Nat → List Record → Prop where
  | appended (page : Nat) : Placed r rs true page (rs ++ [r])
  | replaced {i : Nat} (hi : i < rs.length) : Placed r rs false (i + 1) (rs.set i r)

/-- What is stored instead is known from the record, its page and the records. -/
theorem Placed.unique {r : Record} {rs rs₁ rs₂ : List Record} {creating : Bool} {page : Nat}
    (h₁ : Placed r rs creating page rs₁) (h₂ : Placed r rs creating page rs₂) : rs₁ = rs₂ := by
  cases h₁ <;> cases h₂ <;> rfl

namespace Editor

/-- There is a submission where there is a record on screen and a place for it. -/
theorem submission_eq_ok {e : Editor} {rs rs' : List Record} :
    e.submission rs = .ok rs' ↔ ∃ r, e.form? = some r ∧ Placed r rs e.creating e.page rs' := by
  unfold submission form? page
  cases hc : e.creating with
  | true =>
    simp only [if_true, Except.ok.injEq, Option.some.injEq]
    constructor
    · rintro rfl
      exact ⟨_, rfl, .appended _⟩
    · rintro ⟨r, rfl, hp⟩
      cases hp
      rfl
  | false =>
    simp only [Bool.false_eq_true, if_false]
    cases hv : e.pager.value with
    | none => simp
    | some i =>
      cases hd : e.drafts.get? i.toNat with
      | none => simp [hd]
      | some r =>
        by_cases hi : i.toNat < rs.length
        · simp only [hd, if_pos hi, Except.ok.injEq, Option.bind_some, Option.some.injEq]
          constructor
          · rintro rfl
            exact ⟨r, rfl, .replaced hi⟩
          · rintro ⟨_, rfl, hp⟩
            cases hp
            rfl
        · simp only [hd, if_neg hi, reduceCtorEq, Option.bind_some, Option.some.injEq, false_iff]
          rintro ⟨_, rfl, hp⟩
          cases hp
          contradiction

end Editor

end NoteForms.Edit
