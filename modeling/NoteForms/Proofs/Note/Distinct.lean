import Mathlib.Logic.Basic
import NoteForms.Proofs.Json.Distinct
import NoteForms.Vault.Basic

/-! Frontmatter that is read has no key twice. Entries of a mapping are stored one over the other,
whatever their keys are written as and whichever aliases are followed, and so the frontmatter of a
text is of that kind, and what the vault keeps of it. -/

namespace NoteForms

namespace Yaml

/-! ### Scalars -/

namespace Scalar

theorem float?_isScalar {cs : List Char} {v : Json} (h : float? cs = some v) :
    v.isScalar = true := by
  unfold float? at h
  split at h
  · rw [← Option.some.inj h]
    rfl
  · split at h
    split at h
    · rw [← Option.some.inj h]
      rfl
    · obtain ⟨⟨m, e⟩, -, h⟩ := Option.bind_eq_some_iff.mp h
      obtain ⟨x, -, h⟩ := Option.bind_eq_some_iff.mp h
      rw [← Option.some.inj h]
      rfl

theorem plain_isScalar {cs : List Char} {v : Json} (h : plain cs = some v) :
    v.isScalar = true := by
  unfold plain at h
  split at h
  · rw [← Option.some.inj h]
    rfl
  · split at h
    · rw [← Option.some.inj h]
      rfl
    · rw [← Option.some.inj h]
      rfl
    · contradiction
    · split at h
      · rw [← Option.some.inj h]
        rfl
      · rw [← Option.some.inj h]
        cases hf : float? cs with
        | none => rfl
        | some x => exact float?_isScalar hf

theorem untagged_isScalar {isPlain : Bool} {cs : List Char} {v : Json}
    (h : untagged isPlain cs = some v) : v.isScalar = true := by
  unfold untagged at h
  split at h
  · exact plain_isScalar h
  · rw [← Option.some.inj h]
    rfl

/-- A scalar stands for no collection, whatever its tag. -/
theorem value_isScalar {tag : Option TagText} {isPlain : Bool} {cs : List Char} {v : Json}
    (h : value tag isPlain cs = some v) : v.isScalar = true := by
  unfold value at h
  split at h
  · exact untagged_isScalar h
  · next t =>
    rcases ite_eq_iff.mp h with ⟨-, h⟩ | ⟨-, h⟩
    · contradiction
    rcases ite_eq_iff.mp h with ⟨-, h⟩ | ⟨-, h⟩
    · exact untagged_isScalar h
    rcases ite_eq_iff.mp h with ⟨-, h⟩ | ⟨-, h⟩
    · obtain ⟨b, -, rfl⟩ := Option.map_eq_some_iff.mp h
      rfl
    rcases ite_eq_iff.mp h with ⟨-, h⟩ | ⟨-, h⟩
    · split at h
      · rw [← Option.some.inj h]
        rfl
      · contradiction
    rcases ite_eq_iff.mp h with ⟨-, h⟩ | ⟨-, h⟩
    · exact float?_isScalar h
    rcases ite_eq_iff.mp h with ⟨-, h⟩ | ⟨-, h⟩
    · split at h
      · rw [← Option.some.inj h]
        rfl
      · contradiction
    · rw [← Option.some.inj h]
      rfl

end Scalar

/-! ### Nodes -/

namespace Document

/-- What is read of nodes, if it is, has no key twice. -/
def Reads (inner : Inner) : Prop := ∀ node jumps v jumps', inner node jumps = some (v, jumps') → v.Distinct

variable {d : Document} {inner : Inner}

theorem items_distinct (hi : Reads inner) {nodes : List (Node Nat)} {jumps jumps' : Nat}
    {vs : List Json} (h : items inner nodes jumps = some (vs, jumps')) : ∀ v ∈ vs, v.Distinct := by
  induction nodes generalizing jumps jumps' vs with
  | nil =>
    obtain ⟨rfl, -⟩ := Prod.mk.inj (Option.some.inj h)
    exact nofun
  | cons node nodes ih =>
    obtain ⟨⟨x, j⟩, hx, h⟩ := Option.bind_eq_some_iff.mp h
    obtain ⟨⟨xs, j'⟩, hxs, h⟩ := Option.bind_eq_some_iff.mp h
    obtain ⟨rfl, -⟩ := Prod.mk.inj (Option.some.inj h)
    intro v hv
    rcases List.mem_cons.mp hv with rfl | hv
    · exact hi _ _ _ _ hx
    · exact ih hxs v hv

theorem entries_distinct (hi : Reads inner) {nodes : List (Node Nat × Node Nat)} {read : Object}
    (hr : read.Distinct) {jumps jumps' : Nat} {fields : Object}
    (h : d.entries inner nodes read jumps = some (fields, jumps')) : fields.Distinct := by
  induction nodes generalizing read jumps with
  | nil =>
    obtain ⟨rfl, -⟩ := Prod.mk.inj (Option.some.inj h)
    exact hr
  | cons e nodes ih =>
    obtain ⟨⟨k, j⟩, -, h⟩ := Option.bind_eq_some_iff.mp h
    obtain ⟨⟨x, j'⟩, hx, h⟩ := Option.bind_eq_some_iff.mp h
    exact ih (hr.put k (hi _ _ _ _ hx)) h

theorem content_reads {inner? : Option Inner} (hi : ∀ inner, inner? = some inner → Reads inner) :
    Reads (d.content inner?) := by
  intro node jumps v jumps' h
  obtain ⟨⟨node', j⟩, -, h⟩ := Option.bind_eq_some_iff.mp h
  dsimp only at h
  split at h
  · obtain ⟨x, hx, h⟩ := Option.bind_eq_some_iff.mp h
    obtain ⟨rfl, -⟩ := Prod.mk.inj (Option.some.inj h)
    exact .scalar (Scalar.value_isScalar hx)
  · split at h
    · contradiction
    · obtain ⟨⟨xs, j'⟩, hxs, h⟩ := Option.bind_eq_some_iff.mp h
      obtain ⟨rfl, -⟩ := Prod.mk.inj (Option.some.inj h)
      exact .arr (items_distinct (hi _ rfl) hxs)
  · split at h
    · contradiction
    · obtain ⟨⟨fields, j'⟩, hfields, h⟩ := Option.bind_eq_some_iff.mp h
      obtain ⟨rfl, -⟩ := Prod.mk.inj (Option.some.inj h)
      exact entries_distinct (hi _ rfl) Object.distinct_nil hfields
  · contradiction

theorem value_reads (d : Document) (depth : Nat) : Reads (d.value depth) := by
  induction depth with
  | zero => exact content_reads nofun
  | succ depth ih => exact content_reads fun inner he => Option.some.inj he ▸ ih

end Document

theorem read_distinct {text : String} {v : Json} (h : read text = some v) : v.Distinct := by
  obtain ⟨ts, -, h⟩ := Option.bind_eq_some_iff.mp h
  obtain ⟨tree, -, h⟩ := Option.bind_eq_some_iff.mp h
  obtain ⟨⟨tree', n⟩, -, h⟩ := Option.bind_eq_some_iff.mp h
  obtain ⟨⟨x, j⟩, hx, h⟩ := Option.bind_eq_some_iff.mp h
  rw [← Option.some.inj h]
  exact Document.value_reads _ _ _ _ _ _ hx

end Yaml

/-! ### Notes -/

namespace Note

theorem mapping_distinct {yaml : List Char} {fm : Object} (h : mapping yaml = some (some fm)) :
    fm.Distinct := by
  unfold mapping at h
  split at h
  · rw [← Option.some.inj (Option.some.inj h)]
    exact Object.distinct_nil
  · split at h
    · contradiction
    · next fields hr =>
      rw [← Option.some.inj (Option.some.inj h)]
      exact Yaml.read_distinct hr
    · rw [← Option.some.inj (Option.some.inj h)]
      exact Object.distinct_nil
    · exact absurd (Option.some.inj h) nofun

theorem parse_distinct {text : String} {note : Note} (h : parse text = some note) {fm : Object}
    (hfm : note.frontmatter = some fm) : fm.Distinct := by
  unfold parse at h
  split at h
  · rw [← Option.some.inj h] at hfm
    contradiction
  · obtain ⟨m, hm, rfl⟩ := Option.map_eq_some_iff.mp h
    subst hfm
    exact mapping_distinct hm

end Note

end NoteForms
