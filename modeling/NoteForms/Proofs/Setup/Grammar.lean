import NoteForms.Proofs.Decode.Rearranged

/-! How configurations are written. A grammar says for each part what is written for it, and what
is meant by that: an entry that is absent or null leaves the default of its own part, and only
that. The decoder accepts what the grammar derives, and nothing else, and it does not matter in
which order entries stand or what else is written beside them, not even to what is reported of a
configuration that is refused. -/

namespace NoteForms.Setup

open Decode

/-! ### Paths -/

/-- One dot in front of a path goes, with the slash after it if there is one. -/
inductive Stripped : List Char → List Char → Prop where
  | slash (cs : List Char) : Stripped ('.' :: '/' :: cs) cs
  | dot {cs : List Char} (h : cs.head? ≠ some '/') : Stripped ('.' :: cs) cs
  | plain {cs : List Char} (h : cs.head? ≠ some '.') : Stripped cs cs

theorem stripped_iff {cs ds : List Char} : Stripped cs ds ↔ normalizeChars cs = ds := by
  constructor
  · intro h
    cases h with
    | slash => rfl
    | dot h =>
      unfold normalizeChars
      split
      · next heq => simp [(List.cons.inj heq).2] at h
      · next heq => exact ((List.cons.inj heq).2).symm
      · next hne => exact absurd rfl (hne _)
    | plain h =>
      unfold normalizeChars
      split
      · simp at h
      · simp at h
      · rfl
  · rintro rfl
    unfold normalizeChars
    split
    · exact .slash _
    · next hne =>
      refine .dot fun h => ?_
      obtain ⟨ds, hds⟩ := List.head?_eq_some_iff.mp h
      exact hne ds hds
    · next hne =>
      refine .plain fun h => ?_
      obtain ⟨ds, hds⟩ := List.head?_eq_some_iff.mp h
      exact hne ds hds

theorem stripped_path_iff {path path' : String} :
    Stripped path.toList path'.toList ↔ normalizePath path = path' := by
  rw [stripped_iff, normalizePath, ← String.toList_inj, String.toList_ofList]

/-! ### The grammar -/

/-- What an entry says: a text, or nothing if it is absent or null. -/
inductive Says (fields : Object) (name : String) : Option String → Prop where
  | absent (h : fields.lookup name = none) : Says fields name none
  | null (h : fields.lookup name = some .null) : Says fields name none
  | text {s : String} (h : fields.lookup name = some (.str s)) : Says fields name (some s)

/-- A file: null for the default, or an object that may say another path and another key. -/
inductive WritesFile (default : FileKey) : Json → FileKey → Prop where
  | null : WritesFile default .null default
  | entries {fields : Object} {path? key? : Option String} (path : Says fields "path" path?)
      (key : Says fields "frontmatter" key?) :
    WritesFile default (.obj fields) ⟨path?.elim default.path normalizePath, key?.getD default.key⟩

/-- A document, written in place or kept in a file, but not both. -/
inductive WritesSource (default : FileKey) : Json → Source → Prop where
  | inline {fields document : Object} (here : fields.lookup "inline" = some (.obj document))
      (alone : fields.lookup "file" = none) : WritesSource default (.obj fields) (.inline document)
  | file {fields : Object} {payload : Json} {f : FileKey} (here : fields.lookup "file" = some payload)
      (alone : fields.lookup "inline" = none) (h : WritesFile default payload f) :
    WritesSource default (.obj fields) (.file f)

/-- A document that may be left out. -/
inductive WritesOption (default : FileKey) (fields : Object) (name : String) : Option Source → Prop where
  | absent (h : fields.lookup name = none) : WritesOption default fields name none
  | null (h : fields.lookup name = some .null) : WritesOption default fields name none
  | source {v : Json} {s : Source} (here : fields.lookup name = some v) (h : WritesSource default v s) :
    WritesOption default fields name (some s)

inductive Writes (d : Defaults) : Json → Configuration → Prop where
  | parts {fields tagged : Object} {payload document : Json} {c : Configuration}
      (records : fields.lookup "datasource" = some (.obj tagged))
      (file : tagged.lookup "file" = some payload) (written : WritesFile d.records payload c.records)
      (schema : fields.lookup "schema" = some document) (source : WritesSource d.schema document c.schema)
      (uiSchema : WritesOption d.uiSchema fields "uischema" c.uiSchema) :
    Writes d (.obj fields) c

/-! ### Decoding -/

variable {α β : Type} {o : Object}

theorem says_iff {name : String} {text? : Option String} :
    Says o name text? ↔ present? o name = text?.map .str := by
  constructor
  · intro h
    cases h with
    | absent h => exact present?_eq_none.mpr (.inl h)
    | null h => exact present?_eq_none.mpr (.inr h)
    | text h => exact present?_eq_some.mpr ⟨h, by simp⟩
  · intro h
    cases text? with
    | none => exact (present?_eq_none.mp h).elim .absent .null
    | some s => exact .text (present?_eq_some.mp h).1

/-- A field that is a text is laid over its default if it is said. -/
theorem overlay_text {name : String} {store : String → α → α} {fields : List (Decode.Field α)}
    {target x : α} :
    overlay o (.of name Decoder.string store :: fields) target = (x, []) ↔
      ∃ text?, Says o name text? ∧
        overlay o fields (text?.elim target fun s => store s target) = (x, []) := by
  simp only [says_iff, overlay, Field.of]
  cases present? o name with
  | none =>
    constructor
    · exact fun h => ⟨none, rfl, h⟩
    · rintro ⟨text?, ht, h⟩
      rwa [Option.map_eq_none_iff.mp ht.symm] at h
  | some v =>
    constructor
    · intro h
      cases v with
      | str s => exact ⟨some s, rfl, h⟩
      | null | bool | int | float | arr | obj => exact absurd (congrArg Prod.snd h) (List.cons_ne_nil _ _)
    · rintro ⟨text?, ht, h⟩
      obtain ⟨s, rfl, rfl⟩ := Option.map_eq_some_iff.mp ht.symm
      exact h

/-- What is said of the path and of the key is laid over the default in turn. -/
theorem laid_eq (default : FileKey) (path? key? : Option String) :
    (key?.elim (path?.elim default fun path => { default with path := normalizePath path })
      fun key => { path?.elim default (fun path => { default with path := normalizePath path }) with key }) =
    ⟨path?.elim default.path normalizePath, key?.getD default.key⟩ := by
  cases path? <;> cases key? <;> rfl

theorem fileKey_eq_ok {default f : FileKey} {v : Json} :
    (fileKey default).decode v = .ok f ↔ WritesFile default v f := by
  cases v with
  | null =>
    constructor
    · intro h
      rw [← Except.ok.inj h]
      exact .null
    · rintro ⟨⟩
      rfl
  | bool | int | float | str | arr => exact ⟨nofun, nofun⟩
  | obj fields =>
    rw [fileKey, layered_eq_ok, overlay_text]
    constructor
    · rintro ⟨path?, hp, h⟩
      obtain ⟨key?, hk, h⟩ := overlay_text.mp h
      have hf : key?.elim _ _ = f := congrArg Prod.fst h
      rw [← hf, laid_eq]
      exact .entries hp hk
    · intro h
      cases h with
      | @entries _ path? key? hp hk =>
        refine ⟨path?, hp, overlay_text.mpr ⟨key?, hk, ?_⟩⟩
        rw [laid_eq]
        rfl

theorem recordsFile_eq_ok {default f : FileKey} {v : Json} :
    (recordsFile default).decode v = .ok f ↔ ∃ tagged payload, v = .obj tagged ∧
      tagged.lookup "file" = some payload ∧ WritesFile default payload f := by
  rw [recordsFile, sum_eq_ok]
  constructor
  · rintro ⟨o, c, p, rfl, hp, h⟩
    cases hf : List.lookup "file" o with
    | none => simp [presentVariants, hf] at hp
    | some payload =>
      simp only [presentVariants, List.filterMap_cons, hf, Option.map_some, List.filterMap_nil] at hp
      obtain ⟨rfl, rfl⟩ := Prod.mk.inj (List.cons.inj hp).1
      exact ⟨o, payload, rfl, hf, fileKey_eq_ok.mp h⟩
  · rintro ⟨o, payload, rfl, hf, h⟩
    exact ⟨o, ⟨"file", fileKey default⟩, payload, rfl, by simp [presentVariants, hf], fileKey_eq_ok.mpr h⟩

theorem source_eq_ok {default : FileKey} {v : Json} {s : Source} :
    (source default).decode v = .ok s ↔ WritesSource default v s := by
  rw [source, sum_eq_ok]
  constructor
  · rintro ⟨o, c, p, rfl, hp, h⟩
    cases hi : List.lookup "inline" o <;> cases hf : List.lookup "file" o <;>
      simp only [presentVariants, List.filterMap_cons, hi, hf, Option.map_some, Option.map_none,
        List.filterMap_nil, reduceCtorEq, List.cons.injEq, and_true, and_false] at hp
    · obtain ⟨rfl, rfl⟩ := Prod.mk.inj hp
      obtain ⟨f, hd, rfl⟩ := map_eq_ok.mp h
      exact .file hf hi (fileKey_eq_ok.mp hd)
    · obtain ⟨rfl, rfl⟩ := Prod.mk.inj hp
      obtain ⟨document, hd, rfl⟩ := map_eq_ok.mp h
      rw [decode_record_eq_ok.mp hd] at hi
      exact .inline hi hf
  · intro h
    cases h with
    | @inline o document here alone =>
      exact ⟨o, ⟨"inline", Decoder.record.map .inline⟩, .obj document, rfl,
        by simp [presentVariants, here, alone], rfl⟩
    | @file o payload f here alone h =>
      exact ⟨o, ⟨"file", (fileKey default).map .file⟩, payload, rfl,
        by simp [presentVariants, here, alone], map_eq_ok.mpr ⟨f, fileKey_eq_ok.mpr h, rfl⟩⟩

theorem optional_source_eq_ok {default : FileKey} {name : String} {s? : Option Source} :
    Decode.optional o name (source default) = .ok s? ↔ WritesOption default o name s? := by
  rw [optional_eq_ok]
  constructor
  · rintro (⟨hp, rfl⟩ | ⟨s, hs, rfl⟩)
    · exact (present?_eq_none.mp hp).elim .absent .null
    · obtain ⟨v, hv, -, h⟩ := required_eq_ok.mp hs
      exact .source hv (source_eq_ok.mp h)
  · intro h
    cases h with
    | absent h => exact .inl ⟨present?_eq_none.mpr (.inl h), rfl⟩
    | null h => exact .inl ⟨present?_eq_none.mpr (.inr h), rfl⟩
    | @source v s here h =>
      refine .inr ⟨s, required_eq_ok.mpr ⟨v, here, ?_, source_eq_ok.mpr h⟩, rfl⟩
      rintro rfl
      cases h

theorem decode_configuration (d : Defaults) (fields : Object) :
    (configuration d).decode (.obj fields) =
      (both (required fields Settings.recordsName (recordsFile d.records))
        (both (required fields Settings.schemaName (source d.schema))
          (Decode.optional fields Settings.uiSchemaName (source d.uiSchema)))).map
        fun (records, schema, uiSchema) => ⟨records, schema, uiSchema⟩ := by
  show (both _ _).bind _ = _
  cases both (required fields Settings.recordsName (recordsFile d.records)) _ <;> rfl

/-- The decoder accepts what the grammar derives. -/
theorem configuration_eq_ok {d : Defaults} {v : Json} {c : Configuration} :
    (configuration d).decode v = .ok c ↔ Writes d v c := by
  constructor
  · intro h
    cases v with
    | null | bool | int | float | str | arr => contradiction
    | obj fields =>
      rw [decode_configuration] at h
      obtain ⟨⟨records, schema, uiSchema⟩, hparts, rfl⟩ := map_eq_ok.mp h
      obtain ⟨hrecords, hrest⟩ := both_eq_ok.mp hparts
      obtain ⟨hschema, hui⟩ := both_eq_ok.mp hrest
      obtain ⟨v, hv, -, hrecords⟩ := required_eq_ok.mp hrecords
      obtain ⟨tagged, payload, rfl, hfile, hwritten⟩ := recordsFile_eq_ok.mp hrecords
      obtain ⟨document, hdocument, -, hschema⟩ := required_eq_ok.mp hschema
      exact .parts hv hfile hwritten hdocument (source_eq_ok.mp hschema)
        (optional_source_eq_ok.mp hui)
  · intro h
    cases h with
    | @parts fields tagged payload document c records file written schema hsource uiSchema =>
      have hne : document ≠ .null := by
        rintro rfl
        cases hsource
      have hrecords := required_eq_ok.mpr ⟨_, records, nofun,
        recordsFile_eq_ok.mpr ⟨tagged, payload, rfl, file, written⟩⟩
      have hschema := required_eq_ok.mpr ⟨_, schema, hne, source_eq_ok.mpr hsource⟩
      have hui := optional_source_eq_ok.mpr uiSchema
      rw [decode_configuration]
      exact map_eq_ok.mpr ⟨(c.records, c.schema, c.uiSchema),
        both_eq_ok.mpr ⟨hrecords, both_eq_ok.mpr ⟨hschema, hui⟩⟩, rfl⟩

/-! ### Other ways to write the same -/

/-- A file whose entries are in another order, with others between them. -/
def FileRearranged : Json → Json → Prop := Rearranged ["path", "frontmatter"] fun _ => Eq

/-- A variant of the tags, with other entries in any order. A document in place stays as it is. -/
def VariantRearranged (tags : List String) : Json → Json → Prop :=
  Rearranged tags fun tag => if tag = "file" then FileRearranged else Eq

/-- A configuration with other entries, in any order, and variants that are rearranged. The records
are in a file always, so only that tag is one of theirs. -/
def ConfigurationRearranged : Json → Json → Prop :=
  Rearranged [Settings.recordsName, Settings.schemaName, Settings.uiSchemaName] fun part =>
    VariantRearranged (if part = Settings.recordsName then ["file"] else ["inline", "file"])

theorem fileKey_respects (default : FileKey) : (fileKey default).Respects FileRearranged := by
  refine respects_layered (fun f hf => ?_) fun f hf => field_respects_eq f
  simp only [List.mem_cons, List.not_mem_nil, or_false] at hf
  rcases hf with rfl | rfl <;> simp [Field.of]

theorem recordsFile_respects (default : FileKey) :
    (recordsFile default).Respects (VariantRearranged ["file"]) := by
  refine respects_sum (fun c hc => ?_) fun c hc => ?_
  · rw [List.mem_singleton.mp hc]
    exact List.mem_cons_self
  · rw [List.mem_singleton.mp hc]
    exact fileKey_respects default

theorem source_respects (default : FileKey) :
    (source default).Respects (VariantRearranged ["inline", "file"]) := by
  refine respects_sum (fun c hc => ?_) fun c hc => ?_
  · simp only [List.mem_cons, List.not_mem_nil, or_false] at hc
    rcases hc with rfl | rfl <;> simp
  · simp only [List.mem_cons, List.not_mem_nil, or_false] at hc
    rcases hc with rfl | rfl
    · exact respects_eq _
    · exact (fileKey_respects default).map Source.file

theorem configuration_respects (d : Defaults) :
    (configuration d).Respects ConfigurationRearranged := by
  refine respects_rearranged fun {o o'} ha => ?_
  rw [decode_configuration, decode_configuration,
    required_alike (ha Settings.recordsName (by simp)) keepsNull_rearranged (recordsFile_respects d.records),
    required_alike (ha Settings.schemaName (by simp)) keepsNull_rearranged (source_respects d.schema),
    optional_alike (ha Settings.uiSchemaName (by simp)) keepsNull_rearranged (source_respects d.uiSchema)]

/-- Any value is decoded with the defaults of any settings, in any note. It is accepted exactly as
what the grammar says is meant by it. A path that is written loses one dot in front, with the slash
after it, and nothing else. Whether the value is accepted or not, the same comes of it if its
entries, those of its variants or those of its files stand in another order or among others that
are not declared. -/
theorem configuration_decodes_iff_writes (s : Settings) (notePath : String) (v : Json) :
    (∀ c, (configuration (s.defaults notePath)).decode v = .ok c ↔ Writes (s.defaults notePath) v c) ∧
      (∀ path path' : String, normalizePath path = path' ↔ Stripped path.toList path'.toList) ∧
      ∀ v', ConfigurationRearranged v v' →
        (configuration (s.defaults notePath)).decode v' =
          (configuration (s.defaults notePath)).decode v :=
  ⟨fun _ => configuration_eq_ok, fun _ _ => stripped_path_iff.symm,
    fun v' h => configuration_respects _ v v' h⟩

/-- Records in a file whose path starts at the root, and a schema in place. -/
def plain : Json :=
  .obj [("datasource", .obj [("file", .obj [("path", .str "./a.md"), ("frontmatter", .null)])]),
    ("schema", .obj [("inline", .obj [("b", .int 1), ("a", .int 2)])]), ("uischema", .null)]

def tangledRecords : Json :=
  .obj [("inline", .int 1), ("file", .obj [("theme", .str "dark"), ("frontmatter", .null),
    ("path", .str "./a.md")])]

def tangledSchema : Json :=
  .obj [("x", .null), ("inline", .obj [("b", .int 1), ("a", .int 2)])]

/-- The same in another order, and with more entries in all places. -/
def tangled : Json :=
  .obj [("uischema", .null), ("note", .int 1), ("schema", tangledSchema),
    ("datasource", tangledRecords)]

theorem rearranged_tangled : ConfigurationRearranged plain tangled := by
  have hfile : FileRearranged (.obj [("path", .str "./a.md"), ("frontmatter", .null)])
      (.obj [("theme", .str "dark"), ("frontmatter", .null), ("path", .str "./a.md")]) :=
    .entries _ [("theme", .str "dark")] (.cons ⟨rfl, rfl⟩ (.cons ⟨rfl, rfl⟩ .nil))
      (by decide) (by decide) (by decide)
  have hrecords : VariantRearranged ["file"]
      (.obj [("file", .obj [("path", .str "./a.md"), ("frontmatter", .null)])]) tangledRecords :=
    .entries [("file", .obj [("theme", .str "dark"), ("frontmatter", .null), ("path", .str "./a.md")])]
      [("inline", .int 1)] (.cons ⟨rfl, by simpa using hfile⟩ .nil)
      (by decide) (by decide) (by decide)
  have hschema : VariantRearranged ["inline", "file"]
      (.obj [("inline", .obj [("b", .int 1), ("a", .int 2)])]) tangledSchema :=
    .entries _ [("x", .null)] (.cons ⟨rfl, rfl⟩ .nil) (by decide) (by decide) (by decide)
  exact .entries [("datasource", tangledRecords), ("schema", tangledSchema), ("uischema", .null)]
    [("note", .int 1)] (.cons ⟨rfl, hrecords⟩ (.cons ⟨rfl, hschema⟩ (.cons ⟨rfl, .same _⟩ .nil)))
    (by decide) (by decide) (by decide)

/-- The tangled configuration says the same, with the default key for the records. -/
theorem configuration_decodes_tangled :
    (configuration (({} : Settings).defaults "notes/n.md")).decode tangled =
      .ok ⟨⟨"a.md", "data"⟩, .inline [("b", .int 1), ("a", .int 2)], none⟩ := by
  obtain ⟨hiff, hpath, hsame⟩ := configuration_decodes_iff_writes {} "notes/n.md" plain
  have ha : normalizePath "./a.md" = "a.md" := (hpath _ _).mpr (.slash _)
  have hwrites : Writes (({} : Settings).defaults "notes/n.md") plain
      ⟨⟨normalizePath "./a.md", "data"⟩, .inline [("b", .int 1), ("a", .int 2)], none⟩ :=
    .parts rfl rfl (.entries (.text rfl) (.null rfl)) rfl (.inline rfl rfl) (.null rfl)
  rw [hsame tangled rearranged_tangled, ← ha]
  exact (hiff _).mpr hwrites

end NoteForms.Setup
