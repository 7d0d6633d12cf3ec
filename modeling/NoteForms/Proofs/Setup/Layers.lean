import NoteForms.Proofs.Json.Distinct
import NoteForms.Proofs.Setup.Agreement
import NoteForms.Proofs.Setup.Grammar

/-! Stored settings over the defaults, part by part. What is stored loses its null entries and is
laid over the written defaults as a whole, object over object; then the keys are taken from what
comes of that. Still each key depends only on what is said in its own part, if anything is. -/

namespace NoteForms.Setup.Settings

open Decode

variable {o o' fields : Object} {v : Json}

/-! ### Without null entries -/

theorem fieldsWithoutNulls_eq_filterMap (o : Object) : fieldsWithoutNulls o =
    o.filterMap fun e => if e.2.isNull then none else some (e.1, withoutNulls e.2) := by
  induction o with
  | nil => rw [fieldsWithoutNulls, List.filterMap_nil]
  | cons e o ih =>
    obtain ⟨k, v⟩ := e
    rw [fieldsWithoutNulls, List.filterMap_cons, ih]
    cases v.isNull <;> rfl

theorem keys_fieldsWithoutNulls_sublist (o : Object) :
    (Entries.keys (fieldsWithoutNulls o)).Sublist (Entries.keys o) := by
  rw [fieldsWithoutNulls_eq_filterMap]
  refine Entries.keys_filterMap_sublist (fun e e' he => ?_) o
  split at he
  · contradiction
  · rw [← Option.some.inj he]

theorem nodup_fieldsWithoutNulls (h : (Entries.keys o).Nodup) :
    (Entries.keys (fieldsWithoutNulls o)).Nodup := (keys_fieldsWithoutNulls_sublist o).nodup h

theorem fieldsWithoutNulls_perm (h : o.Perm o') :
    (fieldsWithoutNulls o).Perm (fieldsWithoutNulls o') := by
  rw [fieldsWithoutNulls_eq_filterMap, fieldsWithoutNulls_eq_filterMap]
  exact h.filterMap _

theorem lookup_fieldsWithoutNulls (h : (Entries.keys o).Nodup) (k : String) :
    (fieldsWithoutNulls o).lookup k = (present? o k).map withoutNulls := by
  induction o with
  | nil => rfl
  | cons e o ih =>
    obtain ⟨k', v⟩ := e
    obtain ⟨hk', ho⟩ := List.nodup_cons.mp (Entries.keys_cons k' v o ▸ h)
    rw [fieldsWithoutNulls, present?_cons]
    by_cases hk : k = k'
    · subst hk
      cases hv : v.isNull with
      | true => simp [ih ho, present?_of_not_mem hk']
      | false => simp
    · cases hv : v.isNull with
      | true => simp [ih ho, hk]
      | false => simp [Entries.lookup_cons, ih ho, hk]

theorem withoutNulls_of_not_obj (h : ∀ fields, v ≠ .obj fields) : withoutNulls v = v := by
  cases v with
  | obj fields => exact absurd rfl (h fields)
  | null | bool | int | float | str | arr => simp [withoutNulls]

theorem withoutNulls_obj (fields : Object) :
    withoutNulls (.obj fields) = .obj (fieldsWithoutNulls fields) := by rw [withoutNulls]

theorem withoutNulls_eq_str {s : String} : withoutNulls v = .str s ↔ v = .str s := by
  cases v <;> simp [withoutNulls]

theorem mem_fieldsWithoutNulls {e : String × Json} (h : e ∈ fieldsWithoutNulls o) :
    ∃ v, (e.1, v) ∈ o ∧ e.2 = withoutNulls v := by
  rw [fieldsWithoutNulls_eq_filterMap] at h
  obtain ⟨⟨k, v⟩, hm, he⟩ := List.mem_filterMap.mp h
  split at he
  · contradiction
  · rw [← Option.some.inj he]
    exact ⟨v, hm, rfl⟩

theorem distinct_withoutNulls (h : v.Distinct) : (withoutNulls v).Distinct := by
  induction h with
  | @scalar v h =>
    rw [withoutNulls_of_not_obj fun fields hv => by simp [hv, Json.isScalar] at h]
    exact .scalar h
  | arr h _ =>
    rw [withoutNulls_of_not_obj fun fields hv => by simp at hv]
    exact .arr h
  | obj hk _ ih =>
    rw [withoutNulls_obj]
    refine .obj (nodup_fieldsWithoutNulls hk) fun e he => ?_
    obtain ⟨v, hm, hv⟩ := mem_fieldsWithoutNulls he
    exact hv ▸ ih _ hm

/-! ### Parts -/

/-- What the settings have a key for. -/
inductive Part where
  | records
  | schema
  | uiSchema
  deriving DecidableEq

def Part.name : Part → String
  | .records => recordsName
  | .schema => schemaName
  | .uiSchema => uiSchemaName

def key (s : Settings) : Part → String
  | .records => s.records
  | .schema => s.schema
  | .uiSchema => s.uiSchema

theorem eq_of_key {s s' : Settings} (h : ∀ p, s.key p = s'.key p) : s = s' := by
  obtain ⟨records, schema, uiSchema⟩ := s
  obtain ⟨records', schema', uiSchema'⟩ := s'
  have hrecords : records = records' := h .records
  have hschema : schema = schema' := h .schema
  have huiSchema : uiSchema = uiSchema' := h .uiSchema
  rw [hrecords, hschema, huiSchema]

/-- One result for each part, the first that fails if one does. -/
def collect (r : Part → Except SettingsFault String) : Except SettingsFault Settings := do
  return { records := ← r .records, schema := ← r .schema, uiSchema := ← r .uiSchema }

theorem collect_eq_ok {r : Part → Except SettingsFault String} {s : Settings} :
    collect r = .ok s ↔ ∀ p, r p = .ok (s.key p) := by
  unfold collect
  constructor
  · intro h
    cases hr : r .records <;> cases hs : r .schema <;> cases hu : r .uiSchema <;>
      simp only [hr, hs, hu, bind, Except.bind, reduceCtorEq] at h
    rw [← Except.ok.inj h]
    rintro (_ | _ | _) <;> assumption
  · intro h
    have hr : r .records = .ok s.records := h .records
    have hs : r .schema = .ok s.schema := h .schema
    have hu : r .uiSchema = .ok s.uiSchema := h .uiSchema
    rw [hr, hs, hu]
    rfl

/-- A result that is not one of all parts is that of a part that fails. -/
theorem collect_eq_error {r : Part → Except SettingsFault String} {fault : SettingsFault}
    (h : collect r = .error fault) : ∃ p, r p = .error fault := by
  unfold collect at h
  cases hr : r .records with
  | error e => exact ⟨.records, by simpa [hr, bind, Except.bind] using h⟩
  | ok x =>
    cases hs : r .schema with
    | error e => exact ⟨.schema, by simpa [hr, hs, bind, Except.bind] using h⟩
    | ok y =>
      cases hu : r .uiSchema with
      | error e => exact ⟨.uiSchema, by simpa [hr, hs, hu, bind, Except.bind] using h⟩
      | ok z => simp [hr, hs, hu, bind, Except.bind, pure, Except.pure] at h

theorem exists_collect {r : Part → Except SettingsFault String} (h : ∀ p, ∃ x, r p = .ok x) :
    ∃ s, collect r = .ok s := by
  cases hc : collect r with
  | ok s => exact ⟨s, rfl⟩
  | error fault =>
    obtain ⟨p, hp⟩ := collect_eq_error hc
    obtain ⟨x, hx⟩ := h p
    rw [hx] at hp
    contradiction

theorem merged_obj (o : Object) : merged (some (.obj o)) =
    collect fun p => part (fieldsWithoutNulls o) p.name (({} : Settings).key p) := rfl

/-! ### What a part says -/

/-- What is said of the key of a part in stored settings: a text, or nothing. -/
inductive SaysKey (o : Object) (name : String) : Option String → Prop where
  | absent (h : o.lookup name = none) : SaysKey o name none
  | null (h : o.lookup name = some .null) : SaysKey o name none
  | entry {fields : Object} {key? : Option String} (h : o.lookup name = some (.obj fields))
    (key : Says fields keyName key?) : SaysKey o name key?
  | item {s : String} {rest : List Json} (h : o.lookup name = some (.arr (.str s :: rest))) :
    SaysKey o name (some s)

/-- A value that is no part: a scalar that is not null, an object whose key is neither null nor a
text, or a list that does not start with a text. -/
inductive Unfit : Json → Prop where
  | scalar {v : Json} (hv : v.isScalar = true) (hn : v ≠ .null) : Unfit v
  | entry {fields : Object} {w : Json} (hw : fields.lookup keyName = some w) (hn : w ≠ .null)
    (hs : ∀ s, w ≠ .str s) : Unfit (.obj fields)
  | item {vs : List Json} (h : ∀ s rest, vs ≠ .str s :: rest) : Unfit (.arr vs)

theorem says_or_bad (fields : Object) (name : String) : (∃ key?, Says fields name key?) ∨
    ∃ w, fields.lookup name = some w ∧ w ≠ .null ∧ ∀ s, w ≠ .str s := by
  cases hl : fields.lookup name with
  | none => exact .inl ⟨none, .absent hl⟩
  | some w =>
    cases w with
    | null => exact .inl ⟨none, .null hl⟩
    | str s => exact .inl ⟨some s, .text hl⟩
    | bool | int | float | arr | obj => exact .inr ⟨_, rfl, by simp, by simp⟩

/-- Each part says something of its key, or there is something else in its place. -/
theorem saysKey_or_unfit (o : Object) (name : String) :
    (∃ key?, SaysKey o name key?) ∨ ∃ v, o.lookup name = some v ∧ Unfit v := by
  cases hl : o.lookup name with
  | none => exact .inl ⟨none, .absent hl⟩
  | some v =>
    cases v with
    | null => exact .inl ⟨none, .null hl⟩
    | bool | int | float | str => exact .inr ⟨_, rfl, .scalar rfl (by simp)⟩
    | obj fields =>
      rcases says_or_bad fields keyName with ⟨key?, h⟩ | ⟨w, hw, hn, hs⟩
      · exact .inl ⟨key?, .entry hl h⟩
      · exact .inr ⟨_, rfl, .entry hw hn hs⟩
    | arr vs =>
      by_cases h : ∃ s rest, vs = .str s :: rest
      · obtain ⟨s, rest, rfl⟩ := h
        exact .inl ⟨some s, .item hl⟩
      · exact .inr ⟨_, rfl, .item fun s rest he => h ⟨s, rest, he⟩⟩

theorem part_of_present {name : String} (ho : (Entries.keys o).Nodup) (default : String) :
    part (fieldsWithoutNulls o) name default =
      (present? o name).elim (.ok default) fun v => partKey default (withoutNulls v) := by
  rw [part, lookup_fieldsWithoutNulls ho]
  cases present? o name <;> rfl

theorem partKey_of_says {key? : Option String} (hf : (Entries.keys fields).Nodup)
    (h : Says fields keyName key?) (default : String) :
    partKey default (withoutNulls (.obj fields)) = .ok (key?.getD default) := by
  rw [withoutNulls_obj, partKey, lookup_fieldsWithoutNulls hf, says_iff.mp h]
  cases key? with
  | none => rfl
  | some s => simp [withoutNulls]

theorem part_of_saysKey {name : String} {key? : Option String} (ho : o.Distinct)
    (h : SaysKey o name key?) (default : String) :
    part (fieldsWithoutNulls o) name default = .ok (key?.getD default) := by
  rw [part_of_present (Object.distinct_iff.mp ho).1]
  cases h with
  | absent h =>
    rw [present?_eq_none.mpr (.inl h)]
    rfl
  | null h =>
    rw [present?_eq_none.mpr (.inr h)]
    rfl
  | entry h key =>
    rw [present?_eq_some.mpr ⟨h, by simp⟩]
    exact partKey_of_says (Object.distinct_iff.mp (ho.lookup h)).1 key default
  | item h =>
    rw [present?_eq_some.mpr ⟨h, by simp⟩]
    simp [withoutNulls, partKey]

theorem partKey_of_unfit (hd : v.Distinct) (h : Unfit v) (default : String) :
    partKey default (withoutNulls v) = .error .shape := by
  cases h with
  | scalar hv hn => cases v <;> simp_all [Json.isScalar, withoutNulls, partKey]
  | @entry fields w hw hn hs =>
    have hp : present? fields keyName = some w := present?_eq_some.mpr ⟨hw, hn⟩
    rw [withoutNulls_obj, partKey, lookup_fieldsWithoutNulls (Object.distinct_iff.mp hd).1, hp]
    cases hw' : withoutNulls w with
    | str s => exact absurd (withoutNulls_eq_str.mp hw') (hs s)
    | null | bool | int | float | arr | obj => simp [hw']
  | @item vs h =>
    cases vs with
    | nil => simp [withoutNulls, partKey]
    | cons w rest =>
      cases w with
      | str s => exact absurd rfl (h s rest)
      | null | bool | int | float | arr | obj => simp [withoutNulls, partKey]

theorem part_of_unfit {name : String} (ho : o.Distinct) (hl : o.lookup name = some v) (h : Unfit v)
    (default : String) : part (fieldsWithoutNulls o) name default = .error .shape := by
  have hv : v ≠ .null := by
    rintro rfl
    cases h with
    | scalar _ hn => exact hn rfl
  rw [part_of_present (Object.distinct_iff.mp ho).1, present?_eq_some.mpr ⟨hl, hv⟩]
  exact partKey_of_unfit (ho.lookup hl) h default

/-- Parts fail in one way only. -/
theorem part_eq_error {name default : String} {fault : SettingsFault} (ho : o.Distinct)
    (h : part (fieldsWithoutNulls o) name default = .error fault) :
    fault = .shape ∧ ∃ v, o.lookup name = some v ∧ Unfit v := by
  rcases saysKey_or_unfit o name with ⟨key?, hs⟩ | ⟨v, hl, hu⟩
  · rw [part_of_saysKey ho hs] at h
    contradiction
  · rw [part_of_unfit ho hl hu] at h
    exact ⟨(Except.error.inj h).symm, v, hl, hu⟩

/-! ### Layers of values -/

mutual

/-- A later layer over an earlier one: of two objects the entries are laid over one another, and
anything else takes the place of what was there. -/
def layer : Json → Json → Json
  | .obj old, .obj new => .obj (layerFields old new)
  | _, new => new

def layerFields : List (String × Json) → List (String × Json) → List (String × Json)
  | old, [] => old
  | old, (k, v) :: new =>
    layerFields (Entries.put old k (match old.lookup k with | some w => layer w v | none => v)) new

end

/-- The text that a part has for its key; a list has it in its first item. -/
def textOf : Json → Except SettingsFault String
  | .obj fields =>
    match fields.lookup keyName with
    | some (.str s) => .ok s
    | _ => .error .shape
  | .arr (.str s :: _) => .ok s
  | _ => .error .shape

/-- The text of a part, which must be there. -/
def extractPart (v : Json) (name : String) : Except SettingsFault String :=
  match v.get? name with
  | some w => textOf w
  | none => .error .shape

/-- The settings in a value that has all parts. -/
def extract (v : Json) : Except SettingsFault Settings := collect fun p => extractPart v p.name

theorem lookup_layerFields {new : Object} (hn : (Entries.keys new).Nodup) (old : Object)
    (k : String) : (layerFields old new).lookup k = match new.lookup k with
      | some v => some (match old.lookup k with | some w => layer w v | none => v)
      | none => old.lookup k := by
  induction new generalizing old with
  | nil => simp [layerFields]
  | cons e new ih =>
    obtain ⟨k', v⟩ := e
    obtain ⟨hk', hnew⟩ := List.nodup_cons.mp (Entries.keys_cons k' v new ▸ hn)
    rw [layerFields, ih hnew, Entries.lookup_put, Entries.lookup_cons]
    by_cases hk : k = k'
    · subst hk
      rw [Entries.lookup_eq_none_of_not_mem hk', if_pos rfl, if_pos rfl]
    · rw [if_neg hk, if_neg hk]

/-- A part that says nothing of its key has that of the layer before. -/
theorem textOf_layer (hv : v.Distinct) (default : String) :
    textOf (layer (.obj [(keyName, .str default)]) v) = partKey default v := by
  cases v with
  | obj fields =>
    obtain ⟨hk, -⟩ := Object.distinct_iff.mp hv
    simp only [layer, textOf, partKey, lookup_layerFields hk, Entries.lookup_cons, if_true]
    cases fields.lookup keyName with
    | none => rfl
    | some w => cases w <;> rfl
  | arr vs =>
    cases vs with
    | nil => rfl
    | cons w vs => cases w <;> rfl
  | null | bool | int | float | str => rfl

/-- Written settings have all parts. -/
theorem toJson_eq (s : Settings) : ∃ fields : Object, s.toJson = .obj fields ∧
    ∀ p : Part, fields.lookup p.name = some (.obj [(keyName, .str (s.key p))]) :=
  ⟨_, rfl, fun p => by cases p <;> rfl⟩

theorem extractPart_layer (ho : o.Distinct) (s : Settings) (p : Part) :
    extractPart (layer s.toJson (.obj o)) p.name = part o p.name (s.key p) := by
  obtain ⟨fields, hfields, hkey⟩ := s.toJson_eq
  have hl := lookup_layerFields (Object.distinct_iff.mp ho).1 fields p.name
  have hget : (layer (.obj fields) (.obj o)).get? p.name =
      (layerFields fields o).lookup p.name := by
    rw [layer]
    rfl
  rw [hkey] at hl
  rw [hfields, extractPart, hget, part, hl]
  cases ho' : o.lookup p.name with
  | none => rfl
  | some v => exact textOf_layer (ho.lookup ho') (s.key p)

/-- Stored settings are merged as two layers, of which the later one has no null entries. -/
theorem merged_eq_extract (ho : o.Distinct) : merged (some (.obj o)) =
    extract (layer ({} : Settings).toJson (withoutNulls (.obj o))) := by
  have hd : (withoutNulls (.obj o)).Distinct := distinct_withoutNulls ho
  rw [withoutNulls_obj] at hd
  rw [merged_obj, withoutNulls_obj, extract]
  exact congrArg collect (funext fun p => (extractPart_layer hd {} p).symm)

/-! ### Parts of stored settings -/

theorem part_of_merged {s : Settings} (h : merged (some (.obj o)) = .ok s) (p : Part) :
    part (fieldsWithoutNulls o) p.name (({} : Settings).key p) = .ok (s.key p) :=
  collect_eq_ok.mp (merged_obj o ▸ h) p

theorem merged_of_saysKey (ho : o.Distinct) (h : ∀ p : Part, ∃ key?, SaysKey o p.name key?) :
    ∃ s, merged (some (.obj o)) = .ok s := by
  rw [merged_obj]
  refine exists_collect fun p => ?_
  obtain ⟨key?, hs⟩ := h p
  exact ⟨_, part_of_saysKey ho hs _⟩

theorem merged_eq_error (ho : o.Distinct) : merged (some (.obj o)) = .error .shape ↔
    ∃ (p : Part) (v : Json), o.lookup p.name = some v ∧ Unfit v := by
  constructor
  · intro h
    obtain ⟨p, hp⟩ := collect_eq_error (merged_obj o ▸ h)
    exact ⟨p, (part_eq_error ho hp).2⟩
  · rintro ⟨p, v, hl, hu⟩
    cases hm : merged (some (.obj o)) with
    | ok s =>
      have hp := part_of_merged hm p
      rw [part_of_unfit ho hl hu] at hp
      contradiction
    | error fault =>
      obtain ⟨q, hq⟩ := collect_eq_error (merged_obj o ▸ hm)
      rw [(part_eq_error ho hq).1]

/-! ### Stored settings in other words -/

/-- An object with the entries of another in any order, with more or fewer entries that are null or
have other names, and with values that stand for those of the other. -/
inductive Restated (names : List String) (R : Json → Json → Prop) : Object → Object → Prop where
  | same (o : Object) : Restated names R o o
  | order {o o' : Object} (hk : (Entries.keys o).Nodup) (h : o.Perm o') : Restated names R o o'
  | null {o : Object} {k : String} (hk : k ∉ Entries.keys o) : Restated names R o ((k, .null) :: o)
  | other {o : Object} {k : String} (v : Json) (hk : k ∉ Entries.keys o) (hn : k ∉ names) :
    Restated names R o ((k, v) :: o)
  | value {o : Object} {k : String} {v v' : Json} (hv : R v v') :
    Restated names R ((k, v) :: o) ((k, v') :: o)
  | symm {o o' : Object} (h : Restated names R o o') : Restated names R o' o
  | trans {o o' o'' : Object} (h : Restated names R o o') (h' : Restated names R o' o'') :
    Restated names R o o''

/-- The parts may be restated as well. -/
inductive RestatedPart : Json → Json → Prop where
  | entries {fields fields' : Object} (h : Restated [keyName] (fun _ _ => False) fields fields') :
    RestatedPart (.obj fields) (.obj fields')

def partNames : List String := [recordsName, schemaName, uiSchemaName]

theorem Part.name_mem (p : Part) : p.name ∈ partNames := by
  cases p <;> decide

/-- What is made of the value of a name is the same, if it is for values that stand for others. -/
theorem Restated.lookup {β : Type} {names : List String} {R : Json → Json → Prop}
    (h : Restated names R o o') (f : Json → β)
    (hR : ∀ v v', R v v' → v.isNull = v'.isNull ∧ f (withoutNulls v) = f (withoutNulls v'))
    {k : String} (hk : k ∈ names) :
    ((fieldsWithoutNulls o).lookup k).map f = ((fieldsWithoutNulls o').lookup k).map f := by
  induction h with
  | same o => rfl
  | order hn hp =>
    rw [Entries.lookup_perm (fieldsWithoutNulls_perm hp) (nodup_fieldsWithoutNulls hn)]
  | null _ => rw [fieldsWithoutNulls, Json.isNull, if_pos rfl]
  | @other o j v _ hj =>
    rw [fieldsWithoutNulls]
    cases v.isNull with
    | true => rfl
    | false =>
      have hne : k ≠ j := fun he => hj (he ▸ hk)
      simp [Entries.lookup_cons, hne]
  | @value o j v v' hv =>
    obtain ⟨hnull, hf⟩ := hR v v' hv
    rw [fieldsWithoutNulls, fieldsWithoutNulls, hnull]
    cases v'.isNull with
    | true => rfl
    | false =>
      by_cases hkj : k = j
      · simp [hkj, hf]
      · simp [Entries.lookup_cons, hkj]
  | symm _ ih => exact ih.symm
  | trans _ _ ih ih' => exact ih.trans ih'

theorem RestatedPart.partKey {v v' : Json} (h : RestatedPart v v') (default : String) :
    partKey default (withoutNulls v) = partKey default (withoutNulls v') := by
  obtain ⟨h⟩ := h
  have hl := h.lookup id (fun v v' hv => hv.elim) (List.mem_singleton_self keyName)
  rw [Option.map_id, id, id] at hl
  rw [withoutNulls_obj, withoutNulls_obj, Settings.partKey, Settings.partKey, hl]

theorem part_eq_getD (o : Object) (name default : String) :
    part o name default = ((o.lookup name).map (partKey default)).getD (.ok default) := by
  unfold part
  cases o.lookup name <;> rfl

theorem merged_restated (h : Restated partNames RestatedPart o o') :
    merged (some (.obj o)) = merged (some (.obj o')) := by
  rw [merged_obj, merged_obj]
  refine congrArg collect (funext fun p => ?_)
  rw [part_eq_getD, part_eq_getD, h.lookup _ (fun v v' hv => ⟨?_, hv.partKey _⟩) p.name_mem]
  cases hv
  rfl

/-- The key of a part is known from the entry of the part alone. -/
theorem key_eq_of_lookup (ho : o.Distinct) (ho' : o'.Distinct) {s s' : Settings}
    (h : merged (some (.obj o)) = .ok s) (h' : merged (some (.obj o')) = .ok s') {p : Part}
    (hl : o.lookup p.name = o'.lookup p.name) : s.key p = s'.key p := by
  have hp := part_of_merged h p
  have hp' := part_of_merged h' p
  rw [part_of_present (Object.distinct_iff.mp ho).1, present?, hl] at hp
  rw [part_of_present (Object.distinct_iff.mp ho').1, present?] at hp'
  exact Except.ok.inj (hp.symm.trans hp')

/-- Settings are stored in an object. It is laid over the written defaults, without null entries,
and the keys are those in what comes of that. If each part says a key or leaves it out, settings
come of it, with the key that is said or else the default; they are refused exactly if there is
something else in place of a part. A key depends on the entry of its own part only: any two objects
with the same entry give the same key. Neither the order of the entries counts, nor do entries that
are null or have other names, in the object and in the parts. What is merged can be written, and is
merged again to the same. -/
theorem merged_part_by_part (o : Object) (ho : o.Distinct) :
    merged (some (.obj o)) = extract (layer ({} : Settings).toJson (withoutNulls (.obj o))) ∧
    ((∀ p : Part, ∃ key?, SaysKey o p.name key?) → ∃ s, merged (some (.obj o)) = .ok s ∧
      ∀ p key?, SaysKey o p.name key? → s.key p = key?.getD (({} : Settings).key p)) ∧
    (merged (some (.obj o)) = .error .shape ↔
      ∃ (p : Part) (v : Json), o.lookup p.name = some v ∧ Unfit v) ∧
    (∀ (o' : Object) (s s' : Settings), o'.Distinct → merged (some (.obj o)) = .ok s →
      merged (some (.obj o')) = .ok s' →
        ∀ p : Part, o.lookup p.name = o'.lookup p.name → s.key p = s'.key p) ∧
    (∀ o', Restated partNames RestatedPart o o' →
      merged (some (.obj o)) = merged (some (.obj o'))) ∧
    ∀ s, merged (some (.obj o)) = .ok s → merged (some s.toJson) = .ok s := by
  refine ⟨merged_eq_extract ho, fun h => ?_, merged_eq_error ho, ?_, fun o' => merged_restated,
    fun s _ => merged_toJson s⟩
  · obtain ⟨s, hs⟩ := merged_of_saysKey ho h
    refine ⟨s, hs, fun p key? hk => ?_⟩
    have hp := part_of_merged hs p
    rw [part_of_saysKey ho hk] at hp
    exact (Except.ok.inj hp).symm
  · exact fun o' s s' ho' h h' p hl => key_eq_of_lookup ho ho' h h' hl

/-- One key is said, one is null, and one part is null. -/
def mixed : Object :=
  [(uiSchemaName, .obj [(keyName, .null), ("width", .int 1)]), ("theme", .str "dark"),
    (schemaName, .null), (recordsName, .obj [(keyName, .str "rows")])]

theorem mixed_distinct : Object.Distinct mixed := by
  refine .obj (by decide) fun e he => ?_
  simp only [mixed, List.mem_cons, List.not_mem_nil, or_false] at he
  have hscalar (k : String) {v : Json} (hv : v.isScalar = true) : Object.Distinct [(k, v)] :=
    .obj (List.nodup_singleton k) fun e he => by
      rw [List.mem_singleton.mp he]
      exact .scalar hv
  rcases he with rfl | rfl | rfl | rfl
  · exact (hscalar keyName (v := .null) rfl).put "width" (.scalar rfl)
  · exact .scalar rfl
  · exact .scalar rfl
  · exact hscalar keyName rfl

/-- The one that is said is meant. The other two are the defaults. -/
theorem merged_part_by_part_mixed : ∃ s, merged (some (.obj mixed)) = .ok s ∧
    s = { records := "rows" } ∧ merged (some s.toJson) = .ok s ∧
    merged (some (.obj (mixed.put schemaName (.int 1)))) = .error .shape := by
  obtain ⟨-, hok, -, -, -, hagain⟩ := merged_part_by_part mixed mixed_distinct
  obtain ⟨s, hs, hkey⟩ := hok fun p => match p with
    | .records => ⟨_, .entry rfl (.text rfl)⟩
    | .schema => ⟨_, .null rfl⟩
    | .uiSchema => ⟨_, .entry rfl (.null rfl)⟩
  have hwrong := (merged_part_by_part _ (mixed_distinct.put schemaName (.scalar rfl))).2.2.1.mpr
    ⟨.schema, .int 1, rfl, .scalar rfl (by simp)⟩
  refine ⟨s, hs, eq_of_key fun p => ?_, hagain s hs, hwrong⟩
  match p with
  | .records => exact hkey .records _ (.entry rfl (.text rfl))
  | .schema => exact hkey .schema _ (.null rfl)
  | .uiSchema => exact hkey .uiSchema _ (.entry rfl (.null rfl))

end NoteForms.Setup.Settings
