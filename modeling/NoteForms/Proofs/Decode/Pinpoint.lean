import NoteForms.Proofs.Decode.Siblings
import NoteForms.Proofs.Json.Entries

/-! Failures that point at what is wrong. Whatever decoders are put together, a decoding that
fails reports something, and the path of each failure leads from the decoded root to the
value that is meant: one of the wrong kind is rendered as it stands there, and an entry that
is missing is absent or null in the object that the rest of the path leads to. Where no tag
or several tags are found, the path leads to an object, and a sum stands at that path among
the decoders. It has none of the tags that this sum declares and all of them are listed, or
it has at least two and these are listed. Every combinator puts its own step in front of what
its parts report, and the step is one into the part. A record may be read of an object in any
manner: property by property up to the first that fails, or all of them with their failures
put together. -/

namespace NoteForms.Decode

/-! ### Walking -/

/-- The part of a value that a step leads to. -/
def Segment.enter : Segment → Json → Option Json
  | .key name, v | .variant name, v => v.get? name
  | .index n, v => v.asArray?.bind (·[n]?)

/-- What a path leads to. -/
def walk : List Segment → Json → Option Json
  | [], v => some v
  | s :: path, v => (s.enter v).bind (walk path)

theorem walk_cons {s : Segment} {v w : Json} (h : s.enter v = some w) (path : List Segment) :
    walk (s :: path) v = walk path w := by rw [walk, h, Option.bind_some]

/-! ### Failures that point -/

/-- Which tags are declared where: lists of tags, each at the paths at which a sum declares it. -/
abbrev Sums := List Segment → List String → Prop

/-- The sums of the part that a step leads to. -/
def Sums.under (S : Sums) (s : Segment) : Sums := fun path tags => S (s :: path) tags

/-- The failure says of a part of the value what is so. Tags that it lists are of a sum that
stands where it points. -/
inductive Pinpoints (S : Sums) (v : Json) : Failure → Prop where
  | mismatch {path : List Segment} {w : Json} (expected : String) (hw : walk path v = some w) :
    Pinpoints S v ⟨path, .mismatch expected (describe w)⟩
  | missing {path : List Segment} {o : Object} {key : String} (hw : walk path v = some (.obj o))
    (hk : o.lookup key = none ∨ o.lookup key = some .null) :
    Pinpoints S v ⟨path ++ [.key key], .missing⟩
  | noVariant {path : List Segment} {o : Object} {tags : List String} (hs : S path tags)
    (hw : walk path v = some (.obj o)) (ht : ∀ tag ∈ tags, o.lookup tag = none) :
    Pinpoints S v ⟨path, .noVariant tags⟩
  /-- Of the declared tags those are listed that the object has, two of them at least. -/
  | ambiguous {path : List Segment} {o : Object} {declared tags : List String}
    (hs : S path declared) (hw : walk path v = some (.obj o)) (hn : 2 ≤ tags.length)
    (ht : tags = declared.filter (· ∈ Entries.keys o)) : Pinpoints S v ⟨path, .ambiguous tags⟩

variable {S : Sums}

/-- What points into a part points into the whole after the step to the part. -/
theorem Pinpoints.into {s : Segment} {v w : Json} {f : Failure} (hs : s.enter v = some w)
    (h : Pinpoints (S.under s) w f) : Pinpoints S v ⟨s :: f.path, f.reason⟩ := by
  cases h with
  | mismatch expected hw => exact .mismatch expected (by rw [walk_cons hs, hw])
  | @missing path o key hw hk =>
    have hw' : walk (s :: path) v = some (.obj o) := by rw [walk_cons hs, hw]
    exact .missing hw' hk
  | noVariant hS hw ht => exact .noVariant hS (by rw [walk_cons hs, hw]) ht
  | ambiguous hS hw hn ht => exact .ambiguous hS (by rw [walk_cons hs, hw]) hn ht

/-- There is something reported, and all of it points. -/
structure Blames (S : Sums) (v : Json) (fs : Failures) : Prop where
  ne_nil : fs ≠ []
  all : ∀ f ∈ fs, Pinpoints S v f

theorem blames_root {v : Json} {reason : Reason} (h : Pinpoints S v ⟨[], reason⟩) :
    Blames S v (.root reason) :=
  ⟨List.cons_ne_nil _ _, fun f hf => by rwa [List.mem_singleton.mp hf]⟩

theorem blames_leaf (expected : String) (v : Json) : Blames S v (.leaf expected v) :=
  blames_root (.mismatch expected rfl)

theorem Blames.into {s : Segment} {v w : Json} {fs : Failures} (hs : s.enter v = some w)
    (h : Blames (S.under s) w fs) : Blames S v (fs.under s) := by
  refine ⟨fun he => h.ne_nil (List.map_eq_nil_iff.mp he), fun f hf => ?_⟩
  obtain ⟨g, hg, rfl⟩ := List.mem_map.mp hf
  exact (h.all g hg).into hs

theorem Blames.append {v : Json} {fs fs' : Failures} (h : Blames S v fs) (h' : Blames S v fs') :
    Blames S v (fs ++ fs') := by
  refine ⟨fun he => h.ne_nil (List.append_eq_nil_iff.mp he).1, fun f hf => ?_⟩
  rcases List.mem_append.mp hf with hf | hf
  · exact h.all f hf
  · exact h'.all f hf

/-- If each part that fails blames, seen from the container, the container does. -/
theorem Tells.blames {α : Type} {v : Json} {ss : List Sibling} {r : Except Failures α}
    {fs : Failures} (h : Tells ss r) (hr : r = .error fs)
    (hs : ∀ s ∈ ss, ∀ own, s.failed = some own → Blames S v (own.under s.step)) :
    Blames S v fs := by
  obtain rfl := h.error fs hr
  refine ⟨fun hnil => ?_, fun f hf => ?_⟩
  · -- nothing would be reported of a part that failed, so all parts decode
    have hok : ∀ s ∈ ss, s.failed = none := by
      intro s hm
      cases hf : s.failed with
      | none => rfl
      | some own =>
        have hseen : s.seen = [] := List.flatMap_eq_nil_iff.mp hnil s hm
        rw [Sibling.seen, hf, Option.getD_some] at hseen
        exact absurd hseen (hs s hm own hf).ne_nil
    obtain ⟨x, hx⟩ := h.ok.mpr hok
    rw [hr] at hx
    contradiction
  · obtain ⟨s, hm, own, hown, g, hg, rfl⟩ := Sibling.mem_report hf
    exact (hs s hm own hown).all _ (List.mem_map.mpr ⟨g, hg, rfl⟩)

/-! ### Records -/

/-- Reads a record of an object. -/
def Decoder.ofObject {α : Type} (read : Object → Except Failures α) : Decoder α :=
  ⟨fun v => do read (← Decoder.record.decode v)⟩

/-- Properties are read of an object, those of which something is so. -/
inductive Reading (D : Property → Prop) : {α : Type} → (Object → Except Failures α) → Prop where
  | done {α : Type} (x : α) : Reading D fun _ => .ok x
  | required {α : Type} {key : String} {d : Decoder α} (hp : D ⟨key, true, d⟩) :
    Reading D fun o => required o key d
  | optional {α : Type} {key : String} {d : Decoder α} (hp : D ⟨key, false, d⟩) :
    Reading D fun o => optional o key d
  /-- The failures of both are put together. -/
  | both {α β : Type} {r : Object → Except Failures α} {r' : Object → Except Failures β}
    (h : Reading D r) (h' : Reading D r') : Reading D fun o => both (r o) (r' o)
  /-- What is read next may depend on what was read; nothing is after a failure. -/
  | next {α β : Type} {r : Object → Except Failures α} {k : α → Object → Except Failures β}
    (h : Reading D r) (hk : ∀ x, Reading D (k x)) : Reading D fun o => (r o).bind fun x => k x o

/-! ### Decoders that point -/

/-- Whatever the decoder refuses, it says what is wrong with it. -/
def Decoder.Exact (S : Sums) {α : Type} (d : Decoder α) : Prop :=
  ∀ v fs, d.decode v = .error fs → Blames S v fs

section Exact

variable {α β γ : Type}

theorem exact_ofPartial (expected : String) (read : Json → Option α) :
    (Decoder.ofPartial expected read).Exact S := by
  intro v fs h
  unfold Decoder.ofPartial at h
  simp only at h
  split at h
  · contradiction
  · rw [← Except.error.inj h]
    exact blames_leaf expected v

theorem exact_unknown : Decoder.unknown.Exact S := by
  intro v fs h
  contradiction

theorem Decoder.Exact.map {d : Decoder α} (hd : d.Exact S) (f : α → β) :
    (d.map f).Exact S := by
  intro v fs h
  refine hd v fs ?_
  unfold Decoder.map at h
  cases hv : d.decode v with
  | ok x => simp [hv, Except.map] at h
  | error fs' => simpa [hv, Except.map] using h

theorem Decoder.Exact.nullable {d : Decoder α} (hd : d.Exact S) : d.nullable.Exact S := by
  intro v fs h
  unfold Decoder.nullable at h
  simp only at h
  split at h
  · contradiction
  · exact hd.map some v fs h

/-- Where an object is needed, anything else is to blame by itself. -/
theorem blames_of_object {v : Json} {fs : Failures} {k : Object → Except Failures α}
    (h : (Decoder.record.decode v >>= k) = .error fs)
    (hk : ∀ o, v = .obj o → k o = .error fs → Blames S v fs) : Blames S v fs := by
  cases hv : Decoder.record.decode v with
  | error fs' =>
    rw [hv] at h
    rw [← Except.error.inj h]
    exact exact_ofPartial _ _ v fs' hv
  | ok o =>
    rw [hv] at h
    refine hk o ?_ h
    cases v <;> simp_all [Decoder.record, Decoder.ofPartial, Json.asObject?]

theorem Decoder.Exact.array {d : Decoder α} (hd : ∀ i, d.Exact (S.under (.index i))) :
    d.array.Exact S := by
  intro v fs h
  cases v with
  | arr vs =>
    refine (gather_decodeItems_tells d 0 vs).blames h fun s hs own hown => ?_
    obtain ⟨⟨u, i⟩, hu, rfl⟩ := List.mem_map.mp hs
    have hi : vs[i]? = some u := List.mem_zipIdx_iff_getElem?.mp hu
    have hfail : d.decode u = .error own := failed?_eq_some.mp hown
    exact (hd i u own hfail).into (s := .index i) hi
  | null | bool | int | float | str | obj =>
    have hl : Failures.leaf "array" _ = fs := Except.error.inj h
    rw [← hl]
    exact blames_leaf "array" _

/-- What is to blame in the value of an entry. -/
theorem Blames.entry {o : Object} {key : String} {v : Json} {fs : Failures}
    (h : Blames (S.under (.key key)) v fs) (hv : present? o key = some v) :
    Blames S (.obj o) (fs.under (.key key)) :=
  h.into (s := .key key) (present?_eq_some.mp hv).1

theorem exact_layered (defaults : α) {fields : List (Field α)}
    (hf : ∀ f ∈ fields, ∀ v fs, f.apply v = .error fs → Blames (S.under (.key f.key)) v fs) :
    (layered defaults fields).Exact S := by
  intro v fs h
  cases v with
  | null => contradiction
  | obj o =>
    refine (layered_tells fields o defaults).blames h fun s hs own hown => ?_
    obtain ⟨f, hm, rfl⟩ := List.mem_map.mp hs
    obtain ⟨w, hw, hfail⟩ := Option.bind_eq_some_iff.mp hown
    exact (hf f hm w own (failed?_eq_some.mp hfail)).entry hw
  | bool | int | float | str | arr =>
    have hl : Failures.leaf "object" _ = fs := Except.error.inj h
    rw [← hl]
    exact blames_leaf "object" _

/-- An entry that is needed and has no value. -/
theorem blames_missing {o : Object} {key : String} (hk : present? o key = none) :
    Blames S (.obj o) ((Failures.root .missing).under (.key key)) := by
  refine ⟨List.cons_ne_nil _ _, fun f hf => ?_⟩
  rw [List.mem_singleton.mp hf]
  have hw : walk [] (.obj o) = some (.obj o) := rfl
  exact .missing hw (present?_eq_none.mp hk)

theorem Decoder.Exact.required {d : Decoder α} {o : Object} {key : String} {fs : Failures}
    (hd : d.Exact (S.under (.key key))) (h : Decode.required o key d = .error fs) :
    Blames S (.obj o) fs := by
  unfold Decode.required at h
  cases hv : present? o key with
  | none =>
    rw [hv] at h
    rw [← Except.error.inj h]
    exact blames_missing hv
  | some v =>
    rw [hv] at h
    obtain ⟨own, hown, rfl⟩ := mapError_eq_error.mp h
    exact (hd v own hown).entry hv

theorem Decoder.Exact.optional {d : Decoder α} {o : Object} {key : String} {fs : Failures}
    (hd : d.Exact (S.under (.key key))) (h : Decode.optional o key d = .error fs) :
    Blames S (.obj o) fs := by
  unfold Decode.optional at h
  cases hv : present? o key with
  | none =>
    rw [hv] at h
    contradiction
  | some v =>
    rw [hv] at h
    obtain ⟨own, hown, rfl⟩ := mapError_eq_error.mp h
    exact (hd v own (map_eq_error.mp hown)).entry hv

theorem Reading.blames {D : Property → Prop} {read : Object → Except Failures α}
    (hr : Reading D read) (hd : ∀ p, D p → p.decoder.Exact (S.under (.key p.key))) (o : Object)
    (fs : Failures) (h : read o = .error fs) : Blames S (.obj o) fs := by
  induction hr generalizing fs with
  | done x => contradiction
  | required hp => exact (hd _ hp).required h
  | optional hp => exact (hd _ hp).optional h
  | @both _ _ r r' _ _ ih ih' =>
    cases ho : r o with
    | ok x =>
      cases ho' : r' o with
      | ok y => simp [Decode.both, ho, ho'] at h
      | error fs' => exact ih' fs (by simpa [Decode.both, ho, ho'] using h)
    | error own =>
      cases ho' : r' o with
      | ok y => exact ih fs (by simpa [Decode.both, ho, ho'] using h)
      | error own' =>
        obtain rfl : own ++ own' = fs := by simpa [Decode.both, ho, ho'] using h
        exact (ih own ho).append (ih' own' ho')
  | @next _ _ r k _ _ ih ihk =>
    cases ho : r o with
    | ok x => exact ihk x fs (by simpa [Except.bind, ho] using h)
    | error own => exact ih fs (by simpa [Except.bind, ho] using h)

theorem Reading.exact {D : Property → Prop} {read : Object → Except Failures α}
    (hr : Reading D read) (hd : ∀ p, D p → p.decoder.Exact (S.under (.key p.key))) :
    (Decoder.ofObject read).Exact S := by
  intro v fs h
  refine blames_of_object h fun o hv ho => ?_
  subst hv
  exact hr.blames hd o fs ho

theorem mem_presentVariants {o : Object} {variants : List (Variant α)} {c : Variant α} {w : Json} :
    (c, w) ∈ presentVariants o variants ↔ c ∈ variants ∧ o.lookup c.tag = some w := by
  simp [presentVariants]

/-- The declared tags that an object has, in the order of their declaration. -/
def presentTags (variants : List (Variant α)) (o : Object) : List String :=
  (variants.map (·.tag)).filter (· ∈ Entries.keys o)

theorem map_presentVariants (variants : List (Variant α)) (o : Object) :
    (presentVariants o variants).map (·.1.tag) = presentTags variants o := by
  induction variants with
  | nil => rfl
  | cons c cs ih =>
    unfold presentVariants presentTags at ih ⊢
    rw [List.filterMap_cons, List.map_cons, List.filter_cons]
    cases hl : o.lookup c.tag with
    | none =>
      have hk : c.tag ∉ Entries.keys o := fun hk => by
        obtain ⟨v, hv⟩ := Entries.exists_lookup_of_mem_keys hk
        rw [hl] at hv
        contradiction
      simpa [hk] using ih
    | some p =>
      have hk : c.tag ∈ Entries.keys o := Entries.mem_keys_of_lookup hl
      simpa [hk] using ih

theorem exact_sum {variants : List (Variant α)} (hs : S [] (variants.map (·.tag)))
    (hd : ∀ c ∈ variants, c.payload.Exact (S.under (.variant c.tag))) :
    (sum variants).Exact S := by
  intro v fs h
  refine blames_of_object h fun o hv ho => ?_
  subst hv
  split at ho
  · next hnone =>
    rw [← Except.error.inj ho]
    refine blames_root (.noVariant hs rfl fun tag ht => ?_)
    obtain ⟨c, hc, rfl⟩ := List.mem_map.mp ht
    cases hl : o.lookup c.tag with
    | none => rfl
    | some w =>
      have hm := mem_presentVariants.mpr ⟨hc, hl⟩
      rw [hnone] at hm
      contradiction
  · next c w hone =>
    obtain ⟨hc, hl⟩ := mem_presentVariants.mp (hone ▸ List.mem_singleton_self (c, w))
    cases hw : c.payload.decode w with
    | ok x =>
      rw [hw] at ho
      contradiction
    | error own =>
      rw [hw] at ho
      rw [← Except.error.inj ho]
      exact (hd c hc w own hw).into (s := .variant c.tag) hl
  · next cs hnil hone =>
    rw [← Except.error.inj ho]
    refine blames_root (.ambiguous hs rfl ?_ (map_presentVariants variants o))
    rw [List.length_map]
    match hp : presentVariants o variants with
    | [] => exact absurd hp hnil
    | [(c, w)] => exact absurd hp (hone c w)
    | _ :: _ :: _ => simp

end Exact

/-! ### Compositions -/

/-- A field whose value a decoder reads. -/
structure Layer (α : Type) where
  key : String
  {Value : Type}
  decoder : Decoder Value
  store : Value → α → α

def Layer.field {α : Type} (l : Layer α) : Field α := .of l.key l.decoder l.store

/-- The decoder is put together by the combinators, to any depth. Each sum in it declares its
tags at the paths that lead to it. -/
inductive Composed : Sums → {α : Type} → Decoder α → Prop where
  | string {S : Sums} : Composed S .string
  | boolean {S : Sums} : Composed S .boolean
  | number {S : Sums} : Composed S .number
  | unknown {S : Sums} : Composed S .unknown
  | record {S : Sums} : Composed S .record
  | list {S : Sums} : Composed S .list
  | map {S : Sums} {α β : Type} {d : Decoder α} (f : α → β) (h : Composed S d) :
    Composed S (d.map f)
  | nullable {S : Sums} {α : Type} {d : Decoder α} (h : Composed S d) : Composed S d.nullable
  | array {S : Sums} {α : Type} {d : Decoder α} (h : ∀ i, Composed (S.under (.index i)) d) :
    Composed S d.array
  | sum {S : Sums} {α : Type} {variants : List (Variant α)} (hs : S [] (variants.map (·.tag)))
    (h : ∀ c ∈ variants, Composed (S.under (.variant c.tag)) c.payload) : Composed S (sum variants)
  | layered {S : Sums} {α : Type} (defaults : α) {layers : List (Layer α)}
    (h : ∀ l ∈ layers, Composed (S.under (.key l.key)) l.decoder) :
    Composed S (layered defaults (layers.map Layer.field))
  | ofObject {S : Sums} {α : Type} {D : Property → Prop} {read : Object → Except Failures α}
    (hr : Reading D read) (h : ∀ p, D p → Composed (S.under (.key p.key)) p.decoder) :
    Composed S (.ofObject read)

theorem Composed.exact {α : Type} {d : Decoder α} (h : Composed S d) : d.Exact S := by
  induction h with
  | string => exact exact_ofPartial _ _
  | boolean => exact exact_ofPartial _ _
  | number => exact exact_ofPartial _ _
  | unknown => exact exact_unknown
  | record => exact exact_ofPartial _ _
  | list => exact exact_ofPartial _ _
  | map f _ ih => exact ih.map f
  | nullable _ ih => exact ih.nullable
  | array _ ih => exact Decoder.Exact.array ih
  | sum hs _ ih => exact exact_sum hs ih
  | layered defaults _ ih =>
    refine exact_layered defaults fun f hf v fs h => ?_
    obtain ⟨l, hl, rfl⟩ := List.mem_map.mp hf
    exact (ih l hl).map l.store v fs h
  | ofObject hr _ ih => exact hr.exact ih

/-! ### Configurations -/

section Configuration

open Setup

/-- The fields of a file with a key. -/
def fileKeyLayers : List (Layer FileKey) :=
  [⟨"path", Decoder.string, fun path f => { f with path := normalizePath path }⟩,
    ⟨"frontmatter", Decoder.string, fun key f => { f with key }⟩]

theorem composed_fileKey (S : Sums) (default : FileKey) : Composed S (fileKey default) := by
  have hl : ∀ l ∈ fileKeyLayers, Composed (S.under (.key l.key)) l.decoder := by
    intro l hl
    simp only [fileKeyLayers, List.mem_cons, List.not_mem_nil, or_false] at hl
    rcases hl with rfl | rfl <;> exact .string
  exact .layered default hl

theorem composed_recordsFile (hs : S [] ["file"]) (default : FileKey) :
    Composed S (recordsFile default) := by
  refine .sum hs fun c hc => ?_
  rw [List.mem_singleton.mp hc]
  exact composed_fileKey _ default

theorem composed_source (hs : S [] ["inline", "file"]) (default : FileKey) :
    Composed S (source default) := by
  refine .sum hs fun c hc => ?_
  simp only [List.mem_cons, List.not_mem_nil, or_false] at hc
  rcases hc with rfl | rfl
  · exact .map _ .record
  · exact .map _ (composed_fileKey _ default)

/-- The tags that a configuration declares. -/
def configurationSums : Sums := fun path tags =>
  (path, tags) ∈ [([Segment.key Settings.recordsName], ["file"]),
    ([.key Settings.schemaName], ["inline", "file"]),
    ([.key Settings.uiSchemaName], ["inline", "file"])]

/-- Configurations are decoded by a composition. -/
theorem composed_configuration (d : Defaults) : Composed configurationSums (configuration d) := by
  have hrecords : configurationSums [.key Settings.recordsName] ["file"] := by
    simp [configurationSums]
  have hschema : configurationSums [.key Settings.schemaName] ["inline", "file"] := by
    simp [configurationSums]
  have huiSchema : configurationSums [.key Settings.uiSchemaName] ["inline", "file"] := by
    simp [configurationSums]
  have hparts : Reading (fun p => Composed (configurationSums.under (.key p.key)) p.decoder)
      fun o =>
        both (required o Settings.recordsName (recordsFile d.records))
          (both (required o Settings.schemaName (source d.schema))
            (optional o Settings.uiSchemaName (source d.uiSchema))) :=
    .both (.required (composed_recordsFile hrecords d.records))
      (.both (.required (composed_source hschema d.schema))
        (.optional (composed_source huiSchema d.uiSchema)))
  have hwhole := hparts.next (k := fun x _ => .ok (Configuration.mk x.1 x.2.1 x.2.2))
    fun x => .done _
  exact .ofObject hwhole fun p hp => hp

end Configuration

/-- Decoders are put together to any depth, and one of them refuses a value. Then it reports
something, and all that it reports points at a part of the value of which it is so. Tags that
it lists are those of the sum that stands there: `S` may be any account of where the sums of
the decoder stand, and so the closest one. -/
theorem composed_pinpoints {S : Sums} {α : Type} {d : Decoder α} (hd : Composed S d) (v : Json)
    (fs : Failures) (h : d.decode v = .error fs) : fs ≠ [] ∧ ∀ f ∈ fs, Pinpoints S v f := by
  have hb := hd.exact v fs h
  exact ⟨hb.ne_nil, hb.all⟩

/-- A configuration with two wrong values in one place, one that is missing, and two tags. -/
def misconfigured : Json :=
  .obj [("datasource", .obj [("file", .obj [("path", .int 1), ("frontmatter", .arr [])])]),
    ("uischema", .obj [("file", .null), ("inline", .obj [])])]

def plainDefaults : Setup.Defaults := ({} : Setup.Settings).defaults "n.md"

/-- What is reported of it. -/
def misconfiguredLines : List String :=
  ["datasource.file.path: expected string, found 1",
    "datasource.file.frontmatter: expected string, found []",
    "schema: required property is missing",
    "uischema: expected exactly one variant, found \"inline\", \"file\""]

theorem composed_pinpoints_misconfigured :
    ∃ fs, (Setup.configuration plainDefaults).decode misconfigured = .error fs ∧
      fs.lines = misconfiguredLines ∧ fs ≠ [] ∧
      ∀ f ∈ fs, Pinpoints configurationSums misconfigured f := by
  have hl : (failures ((Setup.configuration plainDefaults).decode misconfigured)).lines =
      misconfiguredLines := by decide +kernel
  cases h : (Setup.configuration plainDefaults).decode misconfigured with
  | ok c =>
    rw [h] at hl
    contradiction
  | error fs =>
    rw [h] at hl
    have hd := composed_configuration plainDefaults
    exact ⟨fs, rfl, hl, composed_pinpoints hd misconfigured fs h⟩

end NoteForms.Decode
