import NoteForms.Proofs.Decode.Accepts
import NoteForms.Proofs.Decode.Pinpoint
import NoteForms.Proofs.Json.Entries

/-! Layers over layers. Defaults are overridden field by field, so an object laid over what another
one gave comes to the same as the one object written over the other, entry by entry, and laid over
the defaults. Only the entries of the fields that are not null have a part in it. -/

namespace NoteForms.Decode

variable {α : Type} {l : Layer α} {layers : List (Layer α)} {a b o o' : Object} {k : String}

/-! ### Objects over objects -/

/-- An object with the entries of another written over its own, but for those that are null. -/
def overridden (a b : Object) : Object :=
  b.foldl (fun o e => if e.2.isNull then o else Entries.put o e.1 e.2) a

theorem present?_put (o : Object) (k' : String) (v : Json) : present? (Entries.put o k' v) k =
    if k = k' then if v.isNull then none else some v else present? o k := by
  rw [← present?_cons]
  unfold present?
  rw [Entries.lookup_put, Entries.lookup_cons]

theorem present?_overridden (hb : (Entries.keys b).Nodup) (a : Object) (k : String) :
    present? (overridden a b) k = (present? b k).or (present? a k) := by
  induction b generalizing a with
  | nil => rfl
  | cons e b ih =>
    obtain ⟨k', v⟩ := e
    obtain ⟨hk', hb⟩ := List.nodup_cons.mp (Entries.keys_cons k' v b ▸ hb)
    have hstep : present? (overridden a ((k', v) :: b)) k = (present? b k).or
        (present? (if v.isNull then a else Entries.put a k' v) k) := ih hb _
    rw [hstep, present?_cons]
    by_cases hk : k = k'
    · -- the entry is the only one of its key
      rw [present?_of_not_mem (hk ▸ hk'), Option.none_or, if_pos hk]
      cases hv : v.isNull with
      | true => rfl
      | false => simp [present?_put, hk, hv]
    · cases hv : v.isNull with
      | true => simp [hk]
      | false => simp [present?_put, hk]

/-- Entries that are left out are not missed if they are null or of other keys. -/
theorem present?_filter (ho : (Entries.keys o).Nodup) {kept : String × Json → Bool}
    (h : ∀ e ∈ o, kept e = false → e.2 = .null ∨ e.1 ≠ k) :
    present? (o.filter kept) k = present? o k := by
  have hkept : (Entries.keys (o.filter kept)).Nodup := (List.filter_sublist.map _).nodup ho
  refine Option.ext fun v => ?_
  rw [present?_eq_some, present?_eq_some, Entries.lookup_eq_some_iff ho,
    Entries.lookup_eq_some_iff hkept, List.mem_filter]
  refine ⟨fun ⟨⟨hm, _⟩, hv⟩ => ⟨hm, hv⟩, fun ⟨hm, hv⟩ => ⟨⟨hm, ?_⟩, hv⟩⟩
  cases he : kept (k, v) with
  | true => rfl
  | false =>
    rcases h (k, v) hm he with hnull | hne
    · exact absurd hnull hv
    · exact absurd rfl hne

/-! ### What layers find -/

/-- The value that a layer finds, if it is there and can be decoded. -/
def Layer.value? (l : Layer α) (o : Object) : Option l.Value :=
  (present? o l.key).bind fun v => (l.decoder.decode v).toOption

/-- Stores what the layer finds. -/
def Layer.lay (l : Layer α) (o : Object) (target : α) : α :=
  (l.value? o).elim target fun x => l.store x target

/-- Every layer can decode what there is for it. -/
def Readable (layers : List (Layer α)) (o : Object) : Prop :=
  ∀ l ∈ layers, ∀ v, present? o l.key = some v → ∃ x, l.decoder.decode v = .ok x

/-- Each layer stores what it finds, one after the other. -/
def laid (layers : List (Layer α)) (o : Object) (target : α) : α :=
  layers.foldl (fun t l => l.lay o t) target

theorem laid_cons (l : Layer α) (layers : List (Layer α)) (o : Object) (target : α) :
    laid (l :: layers) o target = laid layers o (l.lay o target) := rfl

theorem lay_of_absent (h : present? o l.key = none) (target : α) : l.lay o target = target := by
  rw [Layer.lay, Layer.value?, h, Option.bind_none, Option.elim_none]

theorem lay_of_ok {v : Json} {x : l.Value} (h : present? o l.key = some v)
    (hx : l.decoder.decode v = .ok x) (target : α) : l.lay o target = l.store x target := by
  rw [Layer.lay, Layer.value?, h, Option.bind_some, hx]
  rfl

theorem lay_of_error {v : Json} {fs : Failures} (h : present? o l.key = some v)
    (hfs : l.decoder.decode v = .error fs) (target : α) : l.lay o target = target := by
  rw [Layer.lay, Layer.value?, h, Option.bind_some, hfs]
  rfl

theorem apply_field (l : Layer α) (v : Json) :
    l.field.apply v = (l.decoder.decode v).map l.store := rfl

theorem overlay_fst (layers : List (Layer α)) (o : Object) (target : α) :
    (overlay o (layers.map Layer.field) target).1 = laid layers o target := by
  induction layers generalizing target with
  | nil => rfl
  | cons l ls ih =>
    have hkey : l.field.key = l.key := rfl
    rw [List.map_cons, overlay, laid_cons, hkey]
    cases hp : present? o l.key with
    | none => rw [lay_of_absent hp, ih]
    | some v =>
      cases hd : l.decoder.decode v with
      | ok x =>
        rw [lay_of_ok hp hd, ← ih]
        simp only [apply_field, hd, Except.map]
      | error fs =>
        rw [lay_of_error hp hd, ← ih]
        simp only [apply_field, hd, Except.map]

theorem own_field_eq_none (l : Layer α) (o : Object) : l.field.own (present? o l.key) = none ↔
    ∀ v, present? o l.key = some v → ∃ x, l.decoder.decode v = .ok x := by
  cases present? o l.key with
  | none => simp [Field.own]
  | some v =>
    have hown : l.field.own (some v) = failed? (l.decoder.decode v) := failed?_map l.store _
    simp [hown, failed?_eq_none]

theorem overlay_snd_eq_nil (layers : List (Layer α)) (o : Object) (target : α) :
    (overlay o (layers.map Layer.field) target).2 = [] ↔ Readable layers o := by
  rw [(overlay_failures _ o target).1, fieldSiblings, List.map_map, List.forall_mem_map]
  exact forall₂_congr fun l _ => own_field_eq_none l o

/-- An object is accepted if it is readable, whatever the defaults are. -/
theorem decode_layers_eq_ok {defaults x : α} :
    (layered defaults (layers.map Layer.field)).decode (.obj o) = .ok x ↔
      Readable layers o ∧ laid layers o defaults = x := by
  rw [layered_eq_ok, Prod.ext_iff, overlay_fst, overlay_snd_eq_nil, and_comm]

/-- Nothing but what is present under the keys of the fields counts. -/
theorem decode_layered_congr {fields : List (Field α)}
    (h : ∀ f ∈ fields, present? o f.key = present? o' f.key) (defaults : α) :
    (layered defaults fields).decode (.obj o) = (layered defaults fields).decode (.obj o') := by
  have hmap : ∀ f ∈ fields, (present? o f.key).map f.apply = (present? o' f.key).map f.apply :=
    fun f hf => by rw [h f hf]
  rw [decode_layered, decode_layered, overlay_congr hmap]

theorem decode_layered_absent {fields : List (Field α)}
    (h : ∀ f ∈ fields, present? o f.key = none) (defaults : α) :
    (layered defaults fields).decode (.obj o) = .ok defaults := by
  have hnil : (layered defaults fields).decode (.obj o) =
      (layered defaults fields).decode (.obj []) := decode_layered_congr h defaults
  rw [hnil, ← layered_null]
  rfl

/-! ### Layers over layers -/

/-- Each layer overwrites a component of its own: the value that it stored last is all that is left
of those it stored, and what another layer stores can be stored before or after. -/
structure OwnComponents (layers : List (Layer α)) : Prop where
  overwrites : ∀ l ∈ layers, ∀ (x y : l.Value) (t : α), l.store y (l.store x t) = l.store y t
  apart : ∀ l ∈ layers, ∀ l' ∈ layers, l.key ≠ l'.key → ∀ (x : l.Value) (y : l'.Value) (t : α),
    l'.store y (l.store x t) = l.store x (l'.store y t)

theorem OwnComponents.lay_comm (h : OwnComponents layers) {l' : Layer α} (hl : l ∈ layers)
    (hl' : l' ∈ layers) (hne : l.key ≠ l'.key) (a b : Object) (t : α) :
    l'.lay b (l.lay a t) = l.lay a (l'.lay b t) := by
  unfold Layer.lay
  cases l.value? a with
  | none => rfl
  | some x =>
    cases l'.value? b with
    | none => rfl
    | some y => exact h.apart l hl l' hl' hne x y t

/-- A layer may store before or after layers of other keys. -/
theorem OwnComponents.laid_lay (h : OwnComponents layers) (hl : l ∈ layers) {ls : List (Layer α)}
    (hs : ls ⊆ layers) (hk : ∀ l' ∈ ls, l.key ≠ l'.key) (a b : Object) (t : α) :
    laid ls a (l.lay b t) = l.lay b (laid ls a t) := by
  induction ls generalizing t with
  | nil => rfl
  | cons l' ls ih =>
    have hl' : l' ∈ layers := hs List.mem_cons_self
    rw [laid_cons, laid_cons, h.lay_comm hl hl' (hk l' List.mem_cons_self)]
    exact ih (List.subset_of_cons_subset hs) (fun m hm => hk m (List.mem_cons_of_mem l' hm)) _

theorem OwnComponents.lay_overridden (h : OwnComponents layers) (hl : l ∈ layers)
    (hb : (Entries.keys b).Nodup) (hr : Readable layers b) (a : Object) (t : α) :
    l.lay (overridden a b) t = l.lay b (l.lay a t) := by
  have hp := present?_overridden hb a l.key
  cases hpb : present? b l.key with
  | none =>
    rw [hpb, Option.none_or] at hp
    rw [lay_of_absent hpb, Layer.lay, Layer.value?, hp]
    rfl
  | some v =>
    obtain ⟨x, hx⟩ := hr l hl v hpb
    rw [hpb, Option.some_or] at hp
    rw [lay_of_ok hp hx, lay_of_ok hpb hx, Layer.lay]
    cases l.value? a with
    | none => rfl
    | some y => exact (h.overwrites l hl y x t).symm

/-- Layers that each have a key of their own store what two objects hold in one run as in two. -/
theorem OwnComponents.laid_overridden (h : OwnComponents layers) (hb : (Entries.keys b).Nodup)
    (hr : Readable layers b) {ls : List (Layer α)} (hs : ls ⊆ layers)
    (hk : (ls.map Layer.key).Nodup) (a : Object) (t : α) :
    laid ls (overridden a b) t = laid ls b (laid ls a t) := by
  induction ls generalizing t with
  | nil => rfl
  | cons l ls ih =>
    have hl : l ∈ layers := hs List.mem_cons_self
    have hls : ls ⊆ layers := List.subset_of_cons_subset hs
    obtain ⟨hne, hk⟩ := List.nodup_cons.mp (List.map_cons ▸ hk)
    have hother : ∀ l' ∈ ls, l.key ≠ l'.key := fun l' hl' he =>
      hne (he ▸ List.mem_map_of_mem hl')
    calc laid (l :: ls) (overridden a b) t
      _ = laid ls (overridden a b) (l.lay b (l.lay a t)) := by
          rw [laid_cons, h.lay_overridden hl hb hr]
      _ = laid ls b (laid ls a (l.lay b (l.lay a t))) := ih hls hk _
      _ = laid ls b (l.lay b (laid ls a (l.lay a t))) := by rw [h.laid_lay hl hls hother]
      _ = laid (l :: ls) b (laid (l :: ls) a t) := by rw [laid_cons, laid_cons]

theorem readable_overridden (hb : (Entries.keys b).Nodup) (ha : Readable layers a)
    (hr : Readable layers b) : Readable layers (overridden a b) := by
  intro l hl v hv
  rw [present?_overridden hb, Option.or_eq_some_iff] at hv
  rcases hv with hv | ⟨-, hv⟩
  · exact hr l hl v hv
  · exact ha l hl v hv

/-- Some fields with distinct keys each overwrite a component of their own. If two objects are
accepted, then the second, decoded over what the first gave, gives the same record as the first with
the entries of the second that are not null written over it, decoded over the defaults. Null, and
any object that has nothing but null under the keys of the fields, gives the defaults. No result and
no failure depends on entries that are null or whose keys are not declared. -/
theorem layered_overridden (layers : List (Layer α)) (hk : (layers.map Layer.key).Nodup)
    (h : OwnComponents layers) (defaults : α) :
    (∀ a b x y, (Entries.keys b).Nodup →
      (layered defaults (layers.map Layer.field)).decode (.obj a) = .ok x →
      (layered defaults (layers.map Layer.field)).decode (.obj b) = .ok y →
      ∃ r, (layered x (layers.map Layer.field)).decode (.obj b) = .ok r ∧
        (layered defaults (layers.map Layer.field)).decode (.obj (overridden a b)) = .ok r) ∧
    ((layered defaults (layers.map Layer.field)).decode .null = .ok defaults ∧
      ∀ o, (∀ l ∈ layers, ∀ v, o.lookup l.key = some v → v = .null) →
        (layered defaults (layers.map Layer.field)).decode (.obj o) = .ok defaults) ∧
    ∀ (o : Object) (kept : String × Json → Bool), (Entries.keys o).Nodup →
      (∀ e ∈ o, kept e = false → e.2 = .null ∨ e.1 ∉ layers.map Layer.key) →
      (layered defaults (layers.map Layer.field)).decode (.obj (o.filter kept)) =
        (layered defaults (layers.map Layer.field)).decode (.obj o) := by
  refine ⟨fun a b x y hb hx hy => ?_, ⟨rfl, fun o hnull => ?_⟩, fun o kept ho hkept => ?_⟩
  · obtain ⟨ha, rfl⟩ := decode_layers_eq_ok.mp hx
    obtain ⟨hr, -⟩ := decode_layers_eq_ok.mp hy
    have hboth := h.laid_overridden hb hr (List.Subset.refl layers) hk a defaults
    exact ⟨_, decode_layers_eq_ok.mpr ⟨hr, rfl⟩,
      decode_layers_eq_ok.mpr ⟨readable_overridden hb ha hr, hboth⟩⟩
  · refine decode_layered_absent (fun f hf => ?_) defaults
    obtain ⟨l, hl, rfl⟩ := List.mem_map.mp hf
    refine present?_eq_none.mpr ?_
    cases hv : o.lookup l.key with
    | none => exact .inl hv
    | some v => exact .inr (hv.trans (congrArg some (hnull l hl v hv)))
  · refine decode_layered_congr (fun f hf => ?_) defaults
    obtain ⟨l, hl, rfl⟩ := List.mem_map.mp hf
    refine present?_filter ho fun e he hout => (hkept e he hout).imp_right fun hne heq => ?_
    exact hne (heq ▸ List.mem_map_of_mem hl)

/-- The path of a file and its key are set by themselves. -/
theorem ownComponents_fileKey : OwnComponents fileKeyLayers := by
  simp only [fileKeyLayers]
  constructor
  · intro l hl
    simp only [List.mem_cons, List.not_mem_nil, or_false] at hl
    rcases hl with rfl | rfl <;> exact fun _ _ _ => rfl
  · intro l hl l' hl' hne
    simp only [List.mem_cons, List.not_mem_nil, or_false] at hl hl'
    rcases hl with rfl | rfl <;> rcases hl' with rfl | rfl <;>
      first | exact absurd rfl hne | exact fun _ _ _ => rfl

def firstPath : Object := [("path", .str "./a.md"), ("frontmatter", .str "k")]

def secondPath : Object := [("frontmatter", .null), ("path", .str "b.md"), ("theme", .int 1)]

/-- A file with a key, given in two objects, of which the second says nothing of the key. Neither
does an object with a null path and an entry that is not declared say anything. -/
theorem layered_overridden_fileKey :
    ∃ r, (Setup.fileKey ⟨"a.md", "k"⟩).decode (.obj secondPath) = .ok r ∧
      (Setup.fileKey ⟨"n.md", "data"⟩).decode (.obj (overridden firstPath secondPath)) = .ok r ∧
      (Setup.fileKey ⟨"n.md", "data"⟩).decode (.obj [("theme", .int 1), ("path", .null)]) =
        .ok ⟨"n.md", "data"⟩ ∧ r = ⟨"b.md", "k"⟩ := by
  have hk : (fileKeyLayers.map Layer.key).Nodup := by decide
  obtain ⟨hover, ⟨-, hnull⟩, -⟩ :=
    layered_overridden fileKeyLayers hk ownComponents_fileKey ⟨"n.md", "data"⟩
  have hfirst : (Setup.fileKey ⟨"n.md", "data"⟩).decode (.obj firstPath) =
      .ok ⟨"a.md", "k"⟩ := by decide +kernel
  have hsecond : (Setup.fileKey ⟨"n.md", "data"⟩).decode (.obj secondPath) =
      .ok ⟨"b.md", "data"⟩ := by decide +kernel
  have hr : (Setup.fileKey ⟨"a.md", "k"⟩).decode (.obj secondPath) =
      .ok ⟨"b.md", "k"⟩ := by decide +kernel
  obtain ⟨r, hx, hboth⟩ := hover firstPath secondPath _ _ (by decide) hfirst hsecond
  exact ⟨r, hx, hboth, hnull _ (by decide), Except.ok.inj (hx.symm.trans hr)⟩

end NoteForms.Decode
