import NoteForms.Proofs.Edit.Run

/-! Working copies against the records. An editor that catches up with new records has a copy
of each of them as it is. Any other action replaces at most the copy on screen, so a copy that
none has replaced since is still its record. -/

namespace NoteForms.Edit

namespace Drafts

theorem lookup_numbered (n : Nat) (rs : List Record) (i : Nat) :
    (numbered n rs).lookup (n + i) = rs[i]? := by
  induction rs generalizing n i with
  | nil => rfl
  | cons r rs ih =>
    rw [numbered, List.lookup_cons]
    cases i with
    | zero => simp
    | succ i =>
      have hne : (n + (i + 1) == n) = false := beq_eq_false_iff_ne.mpr (by omega)
      rw [hne, Nat.add_comm i 1, ← Nat.add_assoc, ih]
      simp [Nat.add_comm 1 i]

theorem lookup_insert_of_ne {i j : Nat} (h : j ≠ i) (r : Record) (cs : List (Nat × Record)) :
    (insert i r cs).lookup j = cs.lookup j := by
  have hji : (j == i) = false := beq_eq_false_iff_ne.mpr h
  induction cs with
  | nil => simp [insert, List.lookup_cons, hji]
  | cons c cs ih =>
    obtain ⟨k, s⟩ := c
    rw [insert]
    split
    · simp [List.lookup_cons, hji]
    · split
      · next hik => simp [List.lookup_cons, ← hik, hji]
      · simp only [List.lookup_cons, ih]

end Drafts

namespace Editor

variable {e : Editor} {rs : List Record} {edited : List Nat} {a : Action}

/-- An action that brings no records. -/
def Action.Local : Action → Prop
  | .sync _ _ => False
  | _ => True

/-- The number of the copy that a local action replaces, if it does. -/
def touched? (e : Editor) : Action → Option Nat
  | .setForm _ | .clear => if e.creating then none else e.pager.value.map UInt64.toNat
  | _ => none

/-- There is a copy of each record; those that are not among the edited ones are as the
records. -/
structure Shows (e : Editor) (rs : List Record) (edited : List Nat) : Prop where
  kept : e.Kept
  count : e.count = rs.length
  unedited : ∀ i, i ∉ edited → e.drafts.get? i = rs[i]?

/-- New records are shown as they are. -/
theorem shows_sync {revision : Nat} (hr : e.drafts.revision ≠ some revision)
    (h : e.Kept ∨ e.drafts.revision = none ∧ e.pager.min = 0) (rs : List Record) :
    (e.sync revision rs).2.Shows rs [] := by
  refine ⟨sync_kept h revision rs, ?_, fun i _ => ?_⟩
  · rw [sync_eq_of_ne hr]
  · rw [sync_eq_of_ne hr]
    simpa [Drafts.get?] using Drafts.lookup_numbered 0 rs i

theorem start_shows (initial : Record) (revision : Nat) (rs : List Record) :
    (start initial revision rs).Shows rs [] :=
  shows_sync (by simp [Drafts.start]) (.inr ⟨rfl, rfl⟩) rs

theorem sync_revision (e : Editor) (revision : Nat) (rs : List Record) :
    (e.sync revision rs).2.drafts.revision = some revision := by
  by_cases hr : e.drafts.revision = some revision
  · rw [sync_eq_of_eq hr]
    exact hr
  · rw [sync_eq_of_ne hr]

theorem revision_act (ha : a.Local) : (e.act a).drafts.revision = e.drafts.revision := by
  cases a with
  | setCreating | toggle | move => rfl
  | goToPage page =>
    simp only [act, goToPage]
    split <;> rfl
  | setForm | clear =>
    simp only [act, clear, setForm]
    split
    · rfl
    · split <;> rfl
  | setInitial r =>
    simp only [act, setInitial]
    split
    · rfl
    · split <;> rfl
  | sync => exact False.elim ha

theorem count_act_local (ha : a.Local) : (e.act a).count = e.count := by
  rcases e.count_act a with he | ⟨revision, records, rfl, -⟩
  · exact he
  · exact False.elim ha

/-- A copy that is not touched stays. -/
theorem get?_setForm {i : Nat} (r : Record) (hi : e.touched? (.setForm r) ≠ some i) :
    (e.setForm r).2.drafts.get? i = e.drafts.get? i := by
  unfold touched? at hi
  unfold setForm
  cases hc : e.creating with
  | true => rfl
  | false =>
    cases hv : e.pager.value with
    | none => rfl
    | some j =>
      have hne : i ≠ j.toNat := fun he => hi (by simp [hc, hv, he])
      exact Drafts.lookup_insert_of_ne hne r _

theorem get?_act {i : Nat} (ha : a.Local) (hi : e.touched? a ≠ some i) :
    (e.act a).drafts.get? i = e.drafts.get? i := by
  cases a with
  | setCreating | toggle | move => rfl
  | goToPage page =>
    simp only [act, goToPage]
    split <;> rfl
  | setForm r => exact get?_setForm r hi
  | clear => exact get?_setForm e.initial hi
  | setInitial r =>
    simp only [act, setInitial]
    split
    · rfl
    · split <;> rfl
  | sync => exact False.elim ha

/-- A local action adds the copy that it touches to the edited ones. -/
theorem Shows.act (h : e.Shows rs edited) (ha : a.Local) :
    (e.act a).Shows rs ((e.touched? a).toList ++ edited) := by
  refine ⟨h.kept.act a, (count_act_local ha).trans h.count, fun i hi => ?_⟩
  rw [List.mem_append, Option.mem_toList, not_or] at hi
  rw [get?_act ha hi.1]
  exact h.unedited i hi.2

/-! ### The new record -/

/-- Catching up does not touch the new record. -/
theorem sync_created (e : Editor) (revision : Nat) (rs : List Record) :
    (e.sync revision rs).2.drafts.created = e.drafts.created ∧
      (e.sync revision rs).2.initial = e.initial := by
  by_cases hr : e.drafts.revision = some revision
  · rw [sync_eq_of_eq hr]
    exact ⟨rfl, rfl⟩
  · rw [sync_eq_of_ne hr]
    exact ⟨rfl, rfl⟩

/-- A new record follows what it starts from only if it is still that. -/
theorem setInitial_created (e : Editor) (r : Record) :
    (e.setInitial r).drafts.created = e.drafts.created ∨
      e.drafts.created.same e.initial = true ∧ (e.setInitial r).drafts.created = r ∧
        (e.setInitial r).initial = r := by
  unfold setInitial
  split
  · exact .inl rfl
  · split
    · next hs => exact .inr ⟨hs, rfl, rfl⟩
    · exact .inl rfl

end Editor

end NoteForms.Edit
