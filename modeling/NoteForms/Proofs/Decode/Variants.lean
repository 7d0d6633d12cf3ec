import NoteForms.Proofs.Decode.Pinpoint
import NoteForms.Proofs.Decode.Rearranged

/-! Sums in any order. Neither the order in which the variants are declared nor that of the entries
decides what is decoded: it is what the one declared tag carries, if there is exactly one. Tags that
are missing or too many are listed, and only the order of that list depends on the declaration. -/

namespace NoteForms.Decode

variable {α : Type} {variants variants' : List (Variant α)} {o : Object} {c : Variant α} {p : Json}

/-- The object has the tag of this variant, with a payload, and no other declared tag. -/
structure Alone (variants : List (Variant α)) (o : Object) (c : Variant α) (p : Json) : Prop where
  declared : c ∈ variants
  payload : o.lookup c.tag = some p
  only : ∀ c' ∈ variants, c'.tag ∈ Entries.keys o → c'.tag = c.tag

theorem Alone.perm (hp : variants.Perm variants') (h : Alone variants o c p) :
    Alone variants' o c p :=
  ⟨hp.mem_iff.mp h.declared, h.payload, fun c' hc' => h.only c' (hp.mem_iff.mpr hc')⟩

theorem presentTags_perm (hp : variants.Perm variants') (o : Object) :
    (presentTags variants o).Perm (presentTags variants' o) := (hp.map _).filter _

/-! ### One tag -/

/-- Of variants with distinct tags one is present exactly if its tag is there alone. -/
theorem presentVariants_eq_singleton (hd : (variants.map (·.tag)).Nodup) :
    presentVariants o variants = [(c, p)] ↔ Alone variants o c p := by
  constructor
  · intro h
    obtain ⟨hc, hp⟩ := mem_presentVariants.mp (h ▸ List.mem_singleton_self (c, p))
    refine ⟨hc, hp, fun c' hc' hk => ?_⟩
    obtain ⟨p', hp'⟩ := Entries.exists_lookup_of_mem_keys hk
    have hm : (c', p') ∈ presentVariants o variants := mem_presentVariants.mpr ⟨hc', hp'⟩
    rw [h, List.mem_singleton] at hm
    rw [(Prod.mk.inj hm).1]
  · intro h
    have hn : ((presentVariants o variants).map (·.1.tag)).Nodup := by
      rw [map_presentVariants]
      exact hd.filter _
    refine List.perm_singleton.mp ((List.perm_ext_iff_of_nodup (List.Nodup.of_map _ hn)
      (List.nodup_singleton (c, p))).mpr fun (c', p') => ?_)
    rw [mem_presentVariants, List.mem_singleton]
    constructor
    · rintro ⟨hc', hp'⟩
      have htag := h.only c' hc' (Entries.mem_keys_of_lookup hp')
      obtain rfl := List.inj_on_of_nodup_map hd hc' h.declared htag
      rw [Option.some.inj (hp'.symm.trans h.payload)]
    · intro he
      obtain ⟨rfl, rfl⟩ := Prod.mk.inj he
      exact ⟨h.declared, h.payload⟩

/-! ### What is decoded -/

theorem decode_sum_alone (hd : (variants.map (·.tag)).Nodup) (h : Alone variants o c p) :
    (sum variants).decode (.obj o) = (c.payload.decode p).mapError (.under (.variant c.tag)) := by
  rw [decode_sum, (presentVariants_eq_singleton hd).mpr h]

theorem decode_sum_none (h : presentTags variants o = []) :
    (sum variants).decode (.obj o) = .error (.root (.noVariant (variants.map (·.tag)))) := by
  rw [← map_presentVariants, List.map_eq_nil_iff] at h
  rw [decode_sum, h]

theorem decode_sum_several (h : 2 ≤ (presentTags variants o).length) :
    (sum variants).decode (.obj o) = .error (.root (.ambiguous (presentTags variants o))) := by
  rw [← map_presentVariants] at h ⊢
  rw [decode_sum]
  match hp : presentVariants o variants with
  | [] => simp [hp] at h
  | [_] => simp [hp] at h
  | _ :: _ :: _ => rfl

theorem sum_eq_ok_iff (hd : (variants.map (·.tag)).Nodup) {v : Json} {x : α} :
    (sum variants).decode v = .ok x ↔
      ∃ o c p, v = .obj o ∧ Alone variants o c p ∧ c.payload.decode p = .ok x := by
  simp only [sum_eq_ok, presentVariants_eq_singleton hd]

/-- What is declared in another order and written among other entries is decoded like that which is
declared and written here. -/
theorem decode_sum_rearranged (hp : variants.Perm variants') {v v' : Json}
    (hv : Rearranged (variants.map (·.tag)) (fun _ => Eq) v v') :
    (sum variants').decode v' = (sum variants').decode v :=
  respects_sum (fun _ hc => List.mem_map_of_mem (hp.mem_iff.mpr hc))
    (fun c _ => respects_eq c.payload) v v' hv

/-- The tags of some variants are distinct. The variants are declared in any order, and what is
decoded may have its entries in any order and more of them that are not declared. A result comes
of it exactly if there is one declared tag and its payload decodes, be it null, and the result is
that of the payload. If the payload does not decode, its failures are reported under the variant.
With no declared tag all tags are listed, and with several those that are present; the order of the
list is that of the declaration, and nothing else depends on the order. -/
theorem sum_never_guesses (hd : (variants.map (·.tag)).Nodup) (hp : variants.Perm variants')
    {v v' : Json} (hv : Rearranged (variants.map (·.tag)) (fun _ => Eq) v v') :
    (∀ x, (sum variants').decode v' = .ok x ↔
      ∃ o c p, v = .obj o ∧ Alone variants o c p ∧ c.payload.decode p = .ok x) ∧
    (∀ o c p fs, v = .obj o → Alone variants o c p → c.payload.decode p = .error fs →
      (sum variants').decode v' = .error (fs.under (.variant c.tag))) ∧
    (∀ o, v = .obj o → presentTags variants o = [] → ∃ tags, tags.Perm (variants.map (·.tag)) ∧
      tags = variants'.map (·.tag) ∧ (sum variants').decode v' = .error (.root (.noVariant tags))) ∧
    (∀ o, v = .obj o → 2 ≤ (presentTags variants o).length →
      ∃ tags, tags.Perm (presentTags variants o) ∧ tags = presentTags variants' o ∧
        (sum variants').decode v' = .error (.root (.ambiguous tags))) ∧
    ((∀ o, v ≠ .obj o) → (sum variants').decode v' = .error (.leaf "object" v)) := by
  have hd' : (variants'.map (·.tag)).Nodup := (hp.map _).nodup_iff.mp hd
  rw [decode_sum_rearranged hp hv]
  refine ⟨fun x => ?_, ?_, ?_, ?_, ?_⟩
  · rw [sum_eq_ok_iff hd']
    exact ⟨fun ⟨o, c, p, hv, ha, hx⟩ => ⟨o, c, p, hv, ha.perm hp.symm, hx⟩,
      fun ⟨o, c, p, hv, ha, hx⟩ => ⟨o, c, p, hv, ha.perm hp, hx⟩⟩
  · rintro o c p fs rfl ha hfs
    rw [decode_sum_alone hd' (ha.perm hp), hfs]
    rfl
  · rintro o rfl hnone
    have hnone' : presentTags variants' o = [] :=
      List.perm_nil.mp (hnone ▸ (presentTags_perm hp o).symm)
    exact ⟨_, (hp.map _).symm, rfl, decode_sum_none hnone'⟩
  · rintro o rfl hseveral
    have hperm := presentTags_perm hp o
    exact ⟨_, hperm.symm, rfl, decode_sum_several (hperm.length_eq ▸ hseveral)⟩
  · intro hno
    cases v with
    | obj o => exact absurd rfl (hno o)
    | null | bool | int | float | str | arr => rfl

/-- Three variants, one of them for payloads that may be null. -/
def optionalName : List (Variant (Option String)) :=
  [⟨"name", Decoder.string.nullable⟩, ⟨"none", ⟨fun _ => .ok none⟩⟩,
    ⟨"flag", Decoder.boolean.map fun _ => none⟩]

/-- A null payload is there, and is all there is. With a second tag it is refused. -/
theorem sum_never_guesses_null :
    (sum optionalName.reverse).decode (.obj [("note", .int 1), ("name", .null)]) = .ok none ∧
      ∃ tags, tags.Perm ["name", "flag"] ∧
        (sum optionalName.reverse).decode
          (.obj [("flag", .bool true), ("x", .null), ("name", .null)]) =
            .error (.root (.ambiguous tags)) := by
  have hd : (optionalName.map (·.tag)).Nodup := by decide
  have hp : optionalName.Perm optionalName.reverse := (List.reverse_perm _).symm
  have hone : Rearranged (optionalName.map (·.tag)) (fun _ => Eq) (.obj [("name", .null)])
      (.obj [("note", .int 1), ("name", .null)]) :=
    .entries _ [("note", .int 1)] (.cons ⟨rfl, rfl⟩ .nil) (by decide) (by decide) (by decide)
  have htwo : Rearranged (optionalName.map (·.tag)) (fun _ => Eq)
      (.obj [("name", .null), ("flag", .bool true)])
      (.obj [("flag", .bool true), ("x", .null), ("name", .null)]) :=
    .entries _ [("x", .null)] (.cons ⟨rfl, rfl⟩ (.cons ⟨rfl, rfl⟩ .nil))
      (by decide) (by decide) (by decide)
  have ha : Alone optionalName [("name", .null)] ⟨"name", Decoder.string.nullable⟩ .null :=
    ⟨List.mem_cons_self, rfl, by decide⟩
  refine ⟨((sum_never_guesses hd hp hone).1 none).mpr ⟨_, _, _, rfl, ha, rfl⟩, ?_⟩
  obtain ⟨tags, hperm, -, hdecode⟩ := (sum_never_guesses hd hp htwo).2.2.2.1 _ rfl (by decide)
  exact ⟨tags, hperm, hdecode⟩

end NoteForms.Decode
