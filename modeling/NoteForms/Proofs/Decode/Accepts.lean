import NoteForms.Proofs.Decode.Siblings
import NoteForms.Proofs.Json.Entries

/-! What decoders accept, and as what, for each way to put one together. Nothing is said of what
they report otherwise. -/

namespace NoteForms.Decode

variable {α β : Type} {o : Object}

/-! ### Results -/

theorem map_eq_ok {r : Except Failures α} {f : α → β} {y : β} :
    r.map f = .ok y ↔ ∃ x, r = .ok x ∧ f x = y := by
  cases r <;> simp [Except.map]

theorem both_eq_ok {r : Except Failures α} {r' : Except Failures β} {x : α} {y : β} :
    both r r' = .ok (x, y) ↔ r = .ok x ∧ r' = .ok y := by
  cases r <;> cases r' <;> simp [both]

/-! ### Objects -/

theorem present?_cons {k : String} (k' : String) (v : Json) (o : Object) :
    present? ((k', v) :: o) k =
      if k = k' then if v.isNull then none else some v else present? o k := by
  unfold present?
  rw [Entries.lookup_cons]
  by_cases hk : k = k'
  · rw [if_pos hk, if_pos hk]
    cases v <;> rfl
  · rw [if_neg hk, if_neg hk]

theorem present?_of_not_mem {k : String} (h : k ∉ Entries.keys o) : present? o k = none :=
  present?_eq_none.mpr (.inl (Entries.lookup_eq_none_of_not_mem h))

theorem decode_record_eq_ok {v : Json} {r : Object} :
    Decoder.record.decode v = .ok r ↔ v = .obj r := by
  cases v <;> simp [Decoder.record, Decoder.ofPartial, Json.asObject?]

theorem required_eq_ok {key : String} {d : Decoder α} {x : α} :
    required o key d = .ok x ↔ ∃ v, o.lookup key = some v ∧ v ≠ .null ∧ d.decode v = .ok x := by
  unfold required
  cases hp : present? o key with
  | none =>
    refine ⟨nofun, fun ⟨v, hv, hne, _⟩ => ?_⟩
    rw [present?_eq_some.mpr ⟨hv, hne⟩] at hp
    contradiction
  | some w =>
    obtain ⟨hw, hne⟩ := present?_eq_some.mp hp
    rw [mapError_eq_ok]
    refine ⟨fun h => ⟨w, hw, hne, h⟩, fun ⟨v, hv, _, h⟩ => ?_⟩
    rwa [Option.some.inj (hw.symm.trans hv)]

theorem optional_eq_ok {key : String} {d : Decoder α} {x? : Option α} :
    optional o key d = .ok x? ↔ (present? o key = none ∧ x? = none) ∨
      ∃ x, required o key d = .ok x ∧ x? = some x := by
  unfold optional required
  cases hp : present? o key with
  | none => simp [eq_comm]
  | some v =>
    show ((d.decode v).map some).mapError _ = _ ↔ _
    simp only [mapError_eq_ok, reduceCtorEq, false_and, false_or]
    cases d.decode v <;> simp [Except.map, eq_comm]

/-- Fields make the same of objects of which each of them makes the same. -/
theorem overlay_congr {o' : Object} {fields : List (Field α)}
    (h : ∀ f ∈ fields, (present? o f.key).map f.apply = (present? o' f.key).map f.apply)
    (target : α) : overlay o fields target = overlay o' fields target := by
  induction fields generalizing target with
  | nil => rfl
  | cons f fs ih =>
    have hrest := ih fun g hg => h g (List.mem_cons_of_mem f hg)
    have hf := h f List.mem_cons_self
    rw [overlay, overlay]
    generalize present? o f.key = v, present? o' f.key = v' at hf
    cases v with
    | none =>
      cases v' with
      | none => exact hrest target
      | some w' => contradiction
    | some w =>
      cases v' with
      | none => contradiction
      | some w' =>
        have happly : f.apply w = f.apply w' := Option.some.inj hf
        simp only [happly, hrest]

theorem layered_eq_ok {defaults x : α} {fields : List (Field α)} :
    (layered defaults fields).decode (.obj o) = .ok x ↔ overlay o fields defaults = (x, []) := by
  rw [decode_layered]
  cases overlay o fields defaults with
  | mk target es => cases es <;> simp

/-! ### Variants -/

section Sum

variable {variants : List (Variant α)}

/-- What a sum makes of an object is known from the variants that are there. -/
theorem decode_sum (o : Object) : (sum variants).decode (.obj o) =
    match presentVariants o variants with
    | [] => .error (.root (.noVariant (variants.map (·.tag))))
    | [(c, p)] => (c.payload.decode p).mapError (.under (.variant c.tag))
    | cs => .error (.root (.ambiguous (cs.map (·.1.tag)))) := rfl

theorem sum_eq_ok {v : Json} {x : α} :
    (sum variants).decode v = .ok x ↔ ∃ o c p, v = .obj o ∧ presentVariants o variants = [(c, p)] ∧
      c.payload.decode p = .ok x := by
  constructor
  · intro h
    cases v with
    | null | bool | int | float | str | arr => contradiction
    | obj o =>
      rw [decode_sum] at h
      split at h
      · contradiction
      · next c p hp => exact ⟨o, c, p, rfl, hp, mapError_eq_ok.mp h⟩
      · contradiction
  · rintro ⟨o, c, p, rfl, hp, h⟩
    rw [decode_sum, hp]
    exact mapError_eq_ok.mpr h

end Sum

end NoteForms.Decode
