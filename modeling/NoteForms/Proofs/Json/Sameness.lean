import NoteForms.Json.Equality
import NoteForms.Proofs.Json.Entries

/-! Sameness of values carries over, whatever their keys. -/

namespace NoteForms

theorem Double.same_trans {x y z : Double} (h₁ : x.same y = true) (h₂ : y.same z = true) :
    x.same z = true := by
  simp only [same, Bool.or_eq_true, beq_iff_eq, Bool.and_eq_true] at h₁ h₂ ⊢
  rcases h₁ with rfl | ⟨hx, hy⟩
  · exact h₂
  · rcases h₂ with rfl | ⟨-, hz⟩
    · exact .inr ⟨hx, hy⟩
    · exact .inr ⟨hx, hz⟩

namespace Json

theorem sameFields_cons {k : String} {x : Json} {xs ys : List (String × Json)} :
    sameFields ((k, x) :: xs) ys = true ↔
      (∃ y, ys.lookup k = some y ∧ same x y = true) ∧ sameFields xs ys = true := by
  rw [sameFields, Bool.and_eq_true]
  cases ys.lookup k <;> simp

theorem same_of_lookup {xs ys : List (String × Json)} (h : sameFields xs ys = true) {k : String}
    {x : Json} (hx : xs.lookup k = some x) : ∃ y, ys.lookup k = some y ∧ same x y = true := by
  induction xs with
  | nil => contradiction
  | cons e xs ih =>
    obtain ⟨k', x'⟩ := e
    obtain ⟨hhere, hrest⟩ := sameFields_cons.mp h
    rw [Entries.lookup_cons] at hx
    split at hx
    · next hk => rwa [hk, ← Option.some.inj hx]
    · exact ih hrest hx

mutual

theorem same_trans : {a b c : Json} → same a b = true → same b c = true → same a c = true
  | .null, b, c, h₁, h₂ => by cases b <;> simp [same] at h₁; exact h₂
  | .bool x, b, c, h₁, h₂ => by
    cases b <;> simp [same] at h₁
    rw [h₁]
    exact h₂
  | .int x, b, c, h₁, h₂ => by
    cases b <;> simp [same] at h₁
    rw [h₁]
    exact h₂
  | .float x, b, c, h₁, h₂ => by
    cases b <;> cases c <;> simp [same] at h₁ h₂ ⊢
    exact Double.same_trans h₁ h₂
  | .str x, b, c, h₁, h₂ => by
    cases b <;> simp [same] at h₁
    rw [h₁]
    exact h₂
  | .arr xs, b, c, h₁, h₂ => by
    cases b <;> cases c <;> simp [same] at h₁ h₂ ⊢
    exact sameItems_trans h₁ h₂
  | .obj xs, b, c, h₁, h₂ => by
    cases b <;> cases c <;> simp [same] at h₁ h₂ ⊢
    exact ⟨h₁.1.trans h₂.1, sameFields_trans h₁.2 h₂.2⟩

theorem sameItems_trans : {xs ys zs : List Json} → sameItems xs ys = true →
    sameItems ys zs = true → sameItems xs zs = true
  | [], ys, zs, h₁, h₂ => by
    cases ys <;> simp [sameItems] at h₁
    exact h₂
  | x :: xs, ys, zs, h₁, h₂ => by
    cases ys <;> cases zs <;> simp [sameItems] at h₁ h₂ ⊢
    exact ⟨same_trans h₁.1 h₂.1, sameItems_trans h₁.2 h₂.2⟩

theorem sameFields_trans : {xs ys zs : List (String × Json)} → sameFields xs ys = true →
    sameFields ys zs = true → sameFields xs zs = true
  | [], _, _, _, _ => rfl
  | (k, x) :: xs, ys, zs, h₁, h₂ => by
    obtain ⟨⟨y, hy, hxy⟩, hrest⟩ := sameFields_cons.mp h₁
    obtain ⟨z, hz, hyz⟩ := same_of_lookup h₂ hy
    exact sameFields_cons.mpr ⟨⟨z, hz, same_trans hxy hyz⟩, sameFields_trans hrest h₂⟩

end

end Json

namespace Object

variable {a b c : Object}

theorem same_trans (h₁ : a.same b = true) (h₂ : b.same c = true) : a.same c = true :=
  Json.same_trans h₁ h₂

/-- Two objects are one, or cannot be told apart. -/
def Same (a b : Object) : Prop := a = b ∨ a.same b = true

theorem Same.rfl : Same a a := .inl (Eq.refl a)

end Object

end NoteForms
