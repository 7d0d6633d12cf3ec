import NoteForms.Json.Value

/-! Removal from associations, and keys that are each there once. Storing under a key
and removing one keep the keys distinct; while they are, a removed key has no value, and the
order of the entries does not matter to what is found. Storing leaves the entries of other keys
as they are. -/

namespace NoteForms.Entries

variable {α : Type}

theorem keys_cons (k : String) (v : α) (es : Entries α) : keys ((k, v) :: es) = k :: keys es := rfl

theorem mem_keys_of_lookup {es : Entries α} {k : String} {v : α} (h : es.lookup k = some v) :
    k ∈ keys es := by
  induction es with
  | nil => simp at h
  | cons e es ih =>
    obtain ⟨k', v'⟩ := e
    rw [lookup_cons] at h
    rw [keys_cons, List.mem_cons]
    by_cases hk : k = k'
    · exact .inl hk
    · rw [if_neg hk] at h
      exact .inr (ih h)

theorem mem_of_lookup {es : Entries α} {k : String} {v : α} (h : es.lookup k = some v) :
    (k, v) ∈ es := by
  induction es with
  | nil => contradiction
  | cons e es ih =>
    obtain ⟨k', v'⟩ := e
    rw [lookup_cons] at h
    split at h
    · next hk => simp [hk, Option.some.inj h]
    · exact List.mem_cons_of_mem _ (ih h)

theorem exists_lookup_of_mem_keys {es : Entries α} {k : String} (h : k ∈ keys es) :
    ∃ v, es.lookup k = some v := by
  obtain ⟨e, he, rfl⟩ := List.mem_map.mp h
  exact Option.isSome_iff_exists.mp (List.lookup_isSome_iff.mpr ⟨e, he, beq_self_eq_true e.1⟩)

/-! ### Order -/

/-- Under distinct keys every entry is found. -/
theorem lookup_eq_some_iff {es : Entries α} (h : (keys es).Nodup) {k : String} {v : α} :
    es.lookup k = some v ↔ (k, v) ∈ es := by
  refine ⟨mem_of_lookup, fun hm => ?_⟩
  induction es with
  | nil => contradiction
  | cons e es ih =>
    obtain ⟨k', v'⟩ := e
    obtain ⟨hk', hes⟩ := List.nodup_cons.mp (keys_cons k' v' es ▸ h)
    rw [lookup_cons]
    rcases List.mem_cons.mp hm with he | hm
    · obtain ⟨rfl, rfl⟩ := Prod.mk.inj he
      rw [if_pos rfl]
    · have hne : k ≠ k' := fun he => hk' (he ▸ List.mem_map_of_mem hm)
      rw [if_neg hne, ih hes hm]

theorem lookup_perm {es es' : Entries α} (hp : es.Perm es') (h : (keys es).Nodup) (k : String) :
    es'.lookup k = es.lookup k := by
  have h' : (keys es').Nodup := (hp.map Prod.fst).nodup_iff.mp h
  refine Option.ext fun v => ?_
  rw [lookup_eq_some_iff h', lookup_eq_some_iff h, hp.mem_iff]

theorem lookup_eq_none_of_not_mem {es : Entries α} {k : String} (h : k ∉ keys es) :
    es.lookup k = none := by
  cases hl : es.lookup k with
  | none => rfl
  | some v => exact absurd (mem_keys_of_lookup hl) h

/-- Some of the entries, under their keys. -/
theorem keys_filterMap_sublist {β : Type} {f : String × α → Option (String × β)}
    (hf : ∀ e e', f e = some e' → e'.1 = e.1) (es : Entries α) :
    (keys (es.filterMap f)).Sublist (keys es) := by
  induction es with
  | nil => exact .slnil
  | cons e es ih =>
    rw [List.filterMap_cons]
    cases he : f e with
    | none => exact ih.cons e.1
    | some e' =>
      have hk : e.1 = e'.1 := (hf e e' he).symm
      show (e'.1 :: keys (es.filterMap f)).Sublist (e.1 :: keys es)
      rw [hk]
      exact ih.cons_cons e'.1

/-! ### Storing -/

theorem mem_keys_put {es : Entries α} {j k : String} {v : α} :
    j ∈ keys (put es k v) ↔ j = k ∨ j ∈ keys es := by
  induction es with
  | nil => simp [put, keys]
  | cons e es ih =>
    obtain ⟨k', v'⟩ := e
    by_cases hk : k' = k
    · subst hk
      simp [put, keys_cons]
    · simp only [put, hk, if_false, keys_cons, List.mem_cons, ih]
      exact ⟨fun h => by rcases h with h | h | h <;> simp [h],
        fun h => by rcases h with h | h | h <;> simp [h]⟩

theorem put_nodup {es : Entries α} (h : (keys es).Nodup) (k : String) (v : α) :
    (keys (put es k v)).Nodup := by
  induction es with
  | nil => simp [put, keys]
  | cons e es ih =>
    obtain ⟨k', v'⟩ := e
    obtain ⟨hk', hes⟩ := List.nodup_cons.mp (keys_cons k' v' es ▸ h)
    by_cases hk : k' = k
    · subst hk
      simpa only [put, if_true, keys_cons] using List.nodup_cons.mpr ⟨hk', hes⟩
    · simp only [put, hk, if_false, keys_cons]
      refine List.nodup_cons.mpr ⟨fun hm => ?_, ih hes⟩
      rcases mem_keys_put.mp hm with hm | hm
      · exact hk hm
      · exact hk' hm

theorem lookup_put (es : Entries α) (j k : String) (v : α) :
    (put es k v).lookup j = if j = k then some v else es.lookup j := by
  by_cases h : j = k
  · rw [if_pos h, h, lookup_put_self]
  · rw [if_neg h, lookup_put_of_ne h]

theorem eq_or_mem_of_mem_put {es : Entries α} {k : String} {v : α} {e : String × α}
    (h : e ∈ put es k v) : e = (k, v) ∨ e ∈ es := by
  induction es with
  | nil => exact .inl (List.mem_singleton.mp h)
  | cons d es ih =>
    obtain ⟨k', v'⟩ := d
    rw [put] at h
    split at h
    · rcases List.mem_cons.mp h with h | h
      · exact .inl h
      · exact .inr (List.mem_cons_of_mem _ h)
    · rcases List.mem_cons.mp h with h | h
      · exact .inr (h ▸ List.mem_cons_self)
      · exact (ih h).imp id (List.mem_cons_of_mem _)

/-- The entries of other keys, in their order. -/
def others (es : Entries α) (k : String) : Entries α := es.filter (·.1 ≠ k)

theorem others_put (es : Entries α) (k : String) (v : α) : others (put es k v) k = others es k := by
  induction es with
  | nil => simp [others, put]
  | cons e es ih =>
    obtain ⟨k', v'⟩ := e
    by_cases hk : k' = k
    · simp [others, put, hk]
    · simp only [others] at ih ⊢
      rw [put, if_neg hk, List.filter_cons, List.filter_cons, ih]

/-! ### Removal -/

theorem mem_keys_of_mem_remove {es : Entries α} {j k : String} (h : j ∈ keys (remove es k)) :
    j ∈ keys es := by
  induction es with
  | nil => simp [remove, keys] at h
  | cons e es ih =>
    obtain ⟨k', v'⟩ := e
    rw [keys_cons, List.mem_cons]
    by_cases hk : k' = k
    · simp only [remove, hk, if_true] at h
      exact .inr h
    · simp only [remove, hk, if_false, keys_cons, List.mem_cons] at h
      exact h.imp id ih

theorem mem_of_mem_remove {es : Entries α} {k : String} {e : String × α} (h : e ∈ remove es k) :
    e ∈ es := by
  induction es with
  | nil => contradiction
  | cons d es ih =>
    obtain ⟨k', v'⟩ := d
    rw [remove] at h
    split at h
    · exact List.mem_cons_of_mem _ h
    · rcases List.mem_cons.mp h with h | h
      · exact h ▸ List.mem_cons_self
      · exact List.mem_cons_of_mem _ (ih h)

theorem remove_nodup {es : Entries α} (h : (keys es).Nodup) (k : String) :
    (keys (remove es k)).Nodup := by
  induction es with
  | nil => simp [remove, keys]
  | cons e es ih =>
    obtain ⟨k', v'⟩ := e
    obtain ⟨hk', hes⟩ := List.nodup_cons.mp (keys_cons k' v' es ▸ h)
    by_cases hk : k' = k
    · simpa only [remove, hk, if_true] using hes
    · simp only [remove, hk, if_false, keys_cons]
      exact List.nodup_cons.mpr ⟨fun hm => hk' (mem_keys_of_mem_remove hm), ih hes⟩

theorem lookup_remove_of_ne {j k : String} (h : j ≠ k) (es : Entries α) :
    (remove es k).lookup j = es.lookup j := by
  induction es with
  | nil => rfl
  | cons e es ih =>
    obtain ⟨k', v'⟩ := e
    by_cases hk : k' = k
    · subst hk
      simp only [remove, if_true, lookup_cons, h, if_false]
    · simp only [remove, hk, if_false, lookup_cons, ih]

theorem lookup_remove_self {es : Entries α} (h : (keys es).Nodup) (k : String) :
    (remove es k).lookup k = none := by
  induction es with
  | nil => rfl
  | cons e es ih =>
    obtain ⟨k', v'⟩ := e
    obtain ⟨hk', hes⟩ := List.nodup_cons.mp (keys_cons k' v' es ▸ h)
    by_cases hk : k' = k
    · subst hk
      simp only [remove, if_true]
      exact lookup_eq_none_of_not_mem hk'
    · simp only [remove, hk, if_false, lookup_cons, Ne.symm hk, ih hes]

end NoteForms.Entries
