import Mathlib.Data.List.Forall2
import NoteForms.Proofs.Decode.Accepts
import NoteForms.Proofs.Json.Entries

/-! Objects whose entries stand in another order, with more of them under keys that nobody
declared, and with parts that are rearranged in the same way. A decoder that asks for the entries
of declared keys only cannot tell such objects apart: it gives the same result, or reports the
same failures. Nothing is said of decoders that list all entries. -/

namespace NoteForms.Decode

variable {α : Type} {declared : List String} {R : String → Json → Json → Prop}

/-- The entries are those of another object, in any order. Under each key stands a value that may
replace the one before; besides, there may be entries under keys that are not declared. -/
inductive Rearranged (declared : List String) (R : String → Json → Json → Prop) :
    Json → Json → Prop where
  | same (v : Json) : Rearranged declared R v v
  | entries {fields fields' : Object} (values more : Object)
      (replaced : List.Forall₂ (fun e e' => e.1 = e'.1 ∧ R e.1 e.2 e'.2) fields values)
      (order : (values ++ more).Perm fields') (undeclared : ∀ e ∈ more, e.1 ∉ declared)
      (distinct : (Entries.keys fields').Nodup) : Rearranged declared R (.obj fields) (.obj fields')

/-- The two objects have, under the key, values of which one may replace the other, or none. -/
def Alike (R : String → Json → Json → Prop) (o o' : Object) (key : String) : Prop :=
  Option.Rel (R key) (o.lookup key) (o'.lookup key)

theorem alike_of_replaced {fields values : Object}
    (h : List.Forall₂ (fun e e' => e.1 = e'.1 ∧ R e.1 e.2 e'.2) fields values) (key : String) :
    Alike R fields values key := by
  induction h with
  | nil => exact .none
  | @cons e e' es es' he _ ih =>
    obtain ⟨k, v⟩ := e
    obtain ⟨k', v'⟩ := e'
    obtain ⟨rfl, hr⟩ := he
    unfold Alike at ih ⊢
    rw [Entries.lookup_cons, Entries.lookup_cons]
    by_cases hk : key = k
    · rw [if_pos hk, if_pos hk, hk]
      exact .some hr
    · rw [if_neg hk, if_neg hk]
      exact ih

/-- What is found under declared keys does not depend on the order, nor on other entries. -/
theorem alike_of_entries {fields values more fields' : Object}
    (replaced : List.Forall₂ (fun e e' => e.1 = e'.1 ∧ R e.1 e.2 e'.2) fields values)
    (order : (values ++ more).Perm fields') (undeclared : ∀ e ∈ more, e.1 ∉ declared)
    (distinct : (Entries.keys fields').Nodup) {key : String} (hk : key ∈ declared) :
    Alike R fields fields' key := by
  have hnodup : (Entries.keys (values ++ more)).Nodup :=
    (order.map Prod.fst).nodup_iff.mpr distinct
  have hmore : List.lookup key more = none := by
    refine Entries.lookup_eq_none_of_not_mem fun hm => ?_
    obtain ⟨e, he, rfl⟩ := List.mem_map.mp hm
    exact undeclared e he hk
  have hlookup : fields'.lookup key = values.lookup key := by
    rw [Entries.lookup_perm order hnodup, List.lookup_append, hmore, Option.or_none]
  unfold Alike
  rw [hlookup]
  exact alike_of_replaced replaced key

/-! ### Decoders -/

/-- A value may be replaced without any difference to what it decodes to. -/
def Decoder.Respects (d : Decoder α) (R : Json → Json → Prop) : Prop :=
  ∀ v v', R v v' → d.decode v' = d.decode v

theorem respects_eq (d : Decoder α) : d.Respects Eq := fun v v' h => by rw [h]

theorem Decoder.Respects.map {β : Type} {d : Decoder α} {R : Json → Json → Prop}
    (h : d.Respects R) (f : α → β) : (d.map f).Respects R := fun v v' hr => by
  simp only [Decoder.map, h v v' hr]

/-- It is enough to look at objects that are alike under the declared keys. -/
theorem respects_rearranged {d : Decoder α} (h : ∀ {o o'},
    (∀ key ∈ declared, Alike R o o' key) → d.decode (.obj o') = d.decode (.obj o)) :
    d.Respects (Rearranged declared R) := by
  intro v v' hr
  cases hr with
  | same => rfl
  | entries values more hv hp hu hd => exact h fun key hk => alike_of_entries hv hp hu hd hk

/-! ### Variants -/

section Sum

variable {variants : List (Variant α)} {o o' : Object}

/-- The same variant, with payloads that it does not tell apart. -/
def SameVariant (p p' : Variant α × Json) : Prop :=
  p.1 = p'.1 ∧ p.1.payload.decode p'.2 = p.1.payload.decode p.2

theorem presentVariants_alike (ha : ∀ c ∈ variants, Alike R o o' c.tag)
    (hc : ∀ c ∈ variants, c.payload.Respects (R c.tag)) :
    List.Forall₂ SameVariant (presentVariants o variants) (presentVariants o' variants) := by
  induction variants with
  | nil => exact .nil
  | cons c cs ih =>
    have hrest := ih (fun c' hm => ha c' (List.mem_cons_of_mem _ hm))
      fun c' hm => hc c' (List.mem_cons_of_mem _ hm)
    have hhere := ha c List.mem_cons_self
    unfold Alike at hhere
    unfold presentVariants at hrest ⊢
    rw [List.filterMap_cons, List.filterMap_cons]
    generalize o.lookup c.tag = v, o'.lookup c.tag = v' at hhere
    cases hhere with
    | none => exact hrest
    | some hr => exact .cons ⟨rfl, hc c List.mem_cons_self _ _ hr⟩ hrest

theorem tags_eq {ps ps' : List (Variant α × Json)} (h : List.Forall₂ SameVariant ps ps') :
    ps'.map (·.1.tag) = ps.map (·.1.tag) := by
  induction h with
  | nil => rfl
  | cons h _ ih => rw [List.map_cons, List.map_cons, ih, h.1]

/-- A sum looks for its tags, and hands on what is under the one that is there. -/
theorem respects_sum (ht : ∀ c ∈ variants, c.tag ∈ declared)
    (hc : ∀ c ∈ variants, c.payload.Respects (R c.tag)) :
    (sum variants).Respects (Rearranged declared R) := by
  refine respects_rearranged fun {o o'} ha => ?_
  have hp := presentVariants_alike (fun c hm => ha c.tag (ht c hm)) hc
  rw [decode_sum, decode_sum]
  generalize presentVariants o variants = ps, presentVariants o' variants = ps' at hp
  have htags := tags_eq hp
  cases hp with
  | nil => rfl
  | @cons p p' ps ps' h hrest =>
    obtain ⟨c, v⟩ := p
    obtain ⟨c', v'⟩ := p'
    obtain ⟨rfl, hr⟩ := h
    cases hrest with
    | nil =>
      have hr : c.payload.decode v' = c.payload.decode v := hr
      simp only [hr]
    | cons _ _ => simp only [htags]

end Sum

/-! ### Entries that may be null -/

section Entries

variable {o o' : Object} {key : String}

/-- Only null replaces null. -/
def KeepsNull (R : Json → Json → Prop) : Prop := ∀ v v', R v v' → v'.isNull = v.isNull

theorem keepsNull_eq : KeepsNull Eq := fun v v' h => by rw [h]

theorem keepsNull_rearranged : KeepsNull (Rearranged declared R) := by
  rintro v v' h
  cases h <;> rfl

theorem present?_alike (ha : Alike R o o' key) (hn : KeepsNull (R key)) :
    Option.Rel (R key) (present? o key) (present? o' key) := by
  unfold Alike at ha
  unfold present?
  generalize o.lookup key = v, o'.lookup key = v' at ha
  cases ha with
  | none => exact .none
  | @some v v' hr =>
    have hnull := hn v v' hr
    cases v <;> cases v' <;> first | contradiction | exact .none | exact .some hr

theorem required_alike {d : Decoder α} (ha : Alike R o o' key) (hn : KeepsNull (R key))
    (hd : d.Respects (R key)) : required o' key d = required o key d := by
  have hp := present?_alike ha hn
  unfold required
  generalize present? o key = v, present? o' key = v' at hp
  cases hp with
  | none => rfl
  | some hr => simp only [hd _ _ hr]

theorem optional_alike {d : Decoder α} (ha : Alike R o o' key) (hn : KeepsNull (R key))
    (hd : d.Respects (R key)) : optional o' key d = optional o key d := by
  have hp := present?_alike ha hn
  unfold optional
  generalize present? o key = v, present? o' key = v' at hp
  cases hp with
  | none => rfl
  | some hr => simp only [hd _ _ hr]

/-- A field does not tell apart the values that may replace one another, and leaves its default
for both or for none. -/
structure Field.Respects (f : Field α) (R : Json → Json → Prop) : Prop where
  null : KeepsNull R
  apply : ∀ v v', R v v' → f.apply v' = f.apply v

theorem field_respects_eq (f : Field α) : f.Respects Eq := ⟨keepsNull_eq, fun v v' h => by rw [h]⟩

theorem overlay_alike {fields : List (Field α)} (ha : ∀ f ∈ fields, Alike R o o' f.key)
    (hf : ∀ f ∈ fields, f.Respects (R f.key)) (target : α) :
    overlay o' fields target = overlay o fields target := by
  refine overlay_congr (fun f hm => ?_) target
  have hr := hf f hm
  have hp := present?_alike (ha f hm) hr.null
  generalize present? o f.key = v, present? o' f.key = v' at hp
  cases hp with
  | none => rfl
  | some h => exact congrArg some (hr.apply _ _ h)

/-- Defaults are overridden under the keys of the fields. -/
theorem respects_layered {defaults : α} {fields : List (Field α)}
    (hk : ∀ f ∈ fields, f.key ∈ declared) (hf : ∀ f ∈ fields, f.Respects (R f.key)) :
    (layered defaults fields).Respects (Rearranged declared R) := by
  refine respects_rearranged fun {o o'} ha => ?_
  rw [decode_layered, decode_layered, overlay_alike (fun f hm => ha f.key (hk f hm)) hf]

end Entries

end NoteForms.Decode
