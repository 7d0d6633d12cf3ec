import NoteForms.Proofs.Decode.Pinpoint
import NoteForms.Proofs.Json.OneLine

/-! The message of a decoding that failed has a line for each failure. What a failure says is put
together from words that were declared with the decoder, from numbers of items and from renderings
of offending values, which are one line whatever is in them. No text of the input is a word: a key
that enters a path is one that was asked for, and a tag that is listed is one that was declared. -/

namespace NoteForms.Decode

/-! ### Words -/

section Words

variable (W : String → Prop)

inductive Segment.Uses : Segment → Prop where
  | key {name : String} (h : W name) : Uses (.key name)
  | variant {tag : String} (h : W tag) : Uses (.variant tag)
  | index (n : Nat) : Uses (.index n)

inductive Reason.Uses : Reason → Prop where
  | mismatch {expected : String} (h : W expected) (v : Json) :
    Uses (.mismatch expected (describe v))
  | missing : Uses .missing
  | noVariant {tags : List String} (h : ∀ tag ∈ tags, W tag) : Uses (.noVariant tags)
  | ambiguous {tags : List String} (h : ∀ tag ∈ tags, W tag) : Uses (.ambiguous tags)

/-- The failure is said in words of which something is so, and in renderings of values. -/
structure Failure.Uses (f : Failure) : Prop where
  path : ∀ s ∈ f.path, s.Uses W
  reason : f.reason.Uses W

/-- Whatever the decoder refuses, it says so in these words. -/
def Decoder.Speaks {α : Type} (d : Decoder α) : Prop :=
  ∀ v fs, d.decode v = .error fs → ∀ f ∈ fs, f.Uses W

end Words

/-! ### Decoders that speak -/

section Speaks

variable {W : String → Prop} {α β γ : Type}

theorem uses_root {reason : Reason} (h : reason.Uses W) : ∀ f ∈ Failures.root reason, f.Uses W := by
  intro f hf
  rw [List.mem_singleton.mp hf]
  exact ⟨fun s hs => absurd hs List.not_mem_nil, h⟩

theorem uses_leaf {expected : String} (h : W expected) (v : Json) :
    ∀ f ∈ Failures.leaf expected v, f.Uses W := uses_root (.mismatch h v)

theorem uses_under {s : Segment} {fs : Failures} (hs : s.Uses W) (h : ∀ f ∈ fs, f.Uses W) :
    ∀ f ∈ fs.under s, f.Uses W := by
  intro f hf
  obtain ⟨g, hg, rfl⟩ := List.mem_map.mp hf
  exact ⟨List.forall_mem_cons.mpr ⟨hs, (h g hg).path⟩, (h g hg).reason⟩

/-- A container says the steps to its parts and what these say. -/
theorem Tells.uses {ss : List Sibling} {r : Except Failures α} {fs : Failures} (h : Tells ss r)
    (hr : r = .error fs) (hsteps : ∀ s ∈ ss, s.step.Uses W)
    (hparts : ∀ s ∈ ss, ∀ own, s.failed = some own → ∀ f ∈ own, f.Uses W) :
    ∀ f ∈ fs, f.Uses W := by
  rw [h.error fs hr]
  intro f hf
  obtain ⟨s, hs, own, hown, g, hg, rfl⟩ := Sibling.mem_report hf
  exact uses_under (hsteps s hs) (hparts s hs own hown) _ (List.mem_map.mpr ⟨g, hg, rfl⟩)

theorem speaks_ofPartial {expected : String} (h : W expected) (read : Json → Option α) :
    (Decoder.ofPartial expected read).Speaks W := by
  intro v fs hv
  unfold Decoder.ofPartial at hv
  simp only at hv
  split at hv
  · contradiction
  · rw [← Except.error.inj hv]
    exact uses_leaf h v

theorem Decoder.Speaks.map {d : Decoder α} (hd : d.Speaks W) (f : α → β) : (d.map f).Speaks W :=
  fun v fs h => hd v fs (map_eq_error.mp h)

/-- Where an object is needed, anything else is refused by that name. -/
theorem uses_of_object (hobject : W "object") {v : Json} {fs : Failures}
    {k : Object → Except Failures α} (h : (Decoder.record.decode v >>= k) = .error fs)
    (hk : ∀ o, v = .obj o → k o = .error fs → ∀ f ∈ fs, f.Uses W) : ∀ f ∈ fs, f.Uses W := by
  cases v with
  | obj o => exact hk o rfl h
  | null | bool | int | float | str | arr =>
    have hl : Failures.leaf "object" _ = fs := Except.error.inj h
    rw [← hl]
    exact uses_leaf hobject _

theorem speaks_layered (hobject : W "object") (defaults : α) {fields : List (Field α)}
    (hkeys : ∀ f ∈ fields, W f.key)
    (hf : ∀ f ∈ fields, ∀ v fs, f.apply v = .error fs → ∀ g ∈ fs, g.Uses W) :
    (layered defaults fields).Speaks W := by
  intro v fs h
  have hdecode := h
  unfold layered at h
  simp only at h
  split at h
  · contradiction
  · refine uses_of_object hobject h fun o hv _ => ?_
    subst hv
    refine (layered_tells fields o defaults).uses hdecode (fun s hs => ?_) fun s hs own hown => ?_
    · obtain ⟨f, hm, rfl⟩ := List.mem_map.mp hs
      exact .key (hkeys f hm)
    · obtain ⟨f, hm, rfl⟩ := List.mem_map.mp hs
      obtain ⟨w, -, hfail⟩ := Option.bind_eq_some_iff.mp hown
      exact hf f hm w own (failed?_eq_some.mp hfail)

theorem speaks_sum (hobject : W "object") {variants : List (Variant α)}
    (htags : ∀ c ∈ variants, W c.tag) (hd : ∀ c ∈ variants, c.payload.Speaks W) :
    (sum variants).Speaks W := by
  intro v fs h
  refine uses_of_object hobject h fun o _ ho => ?_
  have hpresent {cs : List (Variant α × Json)} (hcs : presentVariants o variants = cs) :
      ∀ c ∈ cs, c.1 ∈ variants := fun c hc => (mem_presentVariants.mp (hcs ▸ hc)).1
  split at ho
  · rw [← Except.error.inj ho]
    refine uses_root (.noVariant fun tag ht => ?_)
    obtain ⟨c, hc, rfl⟩ := List.mem_map.mp ht
    exact htags c hc
  · next c p hone =>
    have hc := hpresent hone (c, p) List.mem_cons_self
    obtain ⟨own, hown, rfl⟩ := mapError_eq_error.mp ho
    exact uses_under (.variant (htags c hc)) (hd c hc p own hown)
  · rw [← Except.error.inj ho]
    refine uses_root (.ambiguous fun tag ht => ?_)
    obtain ⟨c, hc, rfl⟩ := List.mem_map.mp ht
    exact htags c.1 (hpresent rfl c hc)

/-- A property that is wrong is missing, or its decoder says what is wrong. -/
theorem Property.own_uses {p : Property} (hd : p.decoder.Speaks W) {v? : Option Json}
    {own : Failures} (h : p.own v? = some own) : ∀ f ∈ own, f.Uses W := by
  cases v? with
  | none =>
    have hmissing : own = .root .missing := by
      dsimp only [Property.own] at h
      split at h
      · exact (Option.some.inj h).symm
      · contradiction
    rw [hmissing]
    exact uses_root .missing
  | some v => exact hd v own (failed?_eq_some.mp h)

theorem speaks_record (hobject : W "object") {ps : Properties γ} (build : γ → α)
    (hkeys : ∀ p ∈ ps.toList, W p.key) (hd : ∀ p ∈ ps.toList, p.decoder.Speaks W) :
    (ps.decoder build).Speaks W := by
  intro v fs h
  refine uses_of_object hobject h fun o hv _ => ?_
  subst hv
  rw [Properties.decode_decoder] at h
  refine ((read_tells o ps).map build).uses h (fun s hs => ?_) fun s hs own hown => ?_
  · obtain ⟨p, hp, rfl⟩ := List.mem_map.mp hs
    exact .key (hkeys p hp)
  · obtain ⟨p, hp, rfl⟩ := List.mem_map.mp hs
    exact Property.own_uses (hd p hp) hown

end Speaks

/-! ### Words of configurations -/

section Configuration

open Setup

/-- The words in which a configuration is refused. -/
def configurationWords : List String :=
  ["object", "string", Settings.recordsName, Settings.schemaName, Settings.uiSchemaName, "file",
    "inline", "path", "frontmatter"]

/-- A word in which a configuration is refused. -/
abbrev ConfigurationWord (w : String) : Prop := w ∈ configurationWords

theorem speaks_fileKey (default : FileKey) : (fileKey default).Speaks ConfigurationWord := by
  have hstring : Decoder.string.Speaks ConfigurationWord := speaks_ofPartial (by decide) _
  refine speaks_layered (by decide) default ?_ fun f hf => ?_
  · have hkeys : ConfigurationWord "path" ∧ ConfigurationWord "frontmatter" := by decide
    simpa [Field.of] using hkeys
  · simp only [List.mem_cons, List.not_mem_nil, or_false] at hf
    rcases hf with rfl | rfl <;> exact hstring.map _

theorem speaks_recordsFile (default : FileKey) :
    (recordsFile default).Speaks ConfigurationWord := by
  refine speaks_sum (by decide) ?_ fun c hc => ?_
  · have htag : ConfigurationWord "file" := by decide
    simpa using htag
  · rw [List.mem_singleton.mp hc]
    exact speaks_fileKey default

theorem speaks_source (default : FileKey) : (source default).Speaks ConfigurationWord := by
  have hrecord : Decoder.record.Speaks ConfigurationWord := speaks_ofPartial (by decide) _
  refine speaks_sum (by decide) ?_ fun c hc => ?_
  · have htags : ConfigurationWord "inline" ∧ ConfigurationWord "file" := by decide
    simpa using htags
  · simp only [List.mem_cons, List.not_mem_nil, or_false] at hc
    rcases hc with rfl | rfl
    · exact hrecord.map _
    · exact (speaks_fileKey default).map _

theorem speaks_configuration (d : Defaults) : (configuration d).Speaks ConfigurationWord := by
  rw [configuration_eq]
  refine speaks_record (by decide) _ ?_ fun p hp => ?_
  · have hkeys : ConfigurationWord Settings.recordsName ∧ ConfigurationWord Settings.schemaName ∧
        ConfigurationWord Settings.uiSchemaName := by decide
    simpa [configurationProperties, Properties.toList] using hkeys
  · simp only [configurationProperties, Properties.toList, List.mem_cons, List.not_mem_nil,
      or_false] at hp
    rcases hp with rfl | rfl | rfl
    · exact speaks_recordsFile d.records
    · exact speaks_source d.schema
    · exact speaks_source d.uiSchema

end Configuration

/-! ### Lines -/

section Lines

variable {W : String → Prop}

theorem not_mem_describe (v : Json) : '\n' ∉ (describe v).toList := by
  have hv := Json.not_mem_compact v
  unfold describe
  dsimp only
  split
  · have htake : '\n' ∉ v.compact.take foundLimit := fun h => hv (List.mem_of_mem_take h)
    simp [htake]
  · simpa using hv

theorem not_mem_index (n : Nat) : '\n' ∉ (Segment.index n).text.toList := by
  have hn := Yaml.not_mem_toDigits n
  simp [Segment.text, hn]

theorem not_mem_intercalate {c : Char} {sep : String} {ss : List String} (hsep : c ∉ sep.toList)
    (h : ∀ s ∈ ss, c ∉ s.toList) : c ∉ (sep.intercalate ss).toList := by
  induction ss with
  | nil => simp
  | cons s ss ih =>
    obtain ⟨hs, hss⟩ := List.forall_mem_cons.mp h
    by_cases hne : ss = []
    · simpa [hne] using hs
    · rw [String.intercalate_cons_of_ne_nil hne, String.toList_append, String.toList_append,
        List.mem_append, List.mem_append, not_or, not_or]
      exact ⟨⟨hs, hsep⟩, ih hss⟩

theorem not_mem_quoted {tags : List String} (h : ∀ tag ∈ tags, '\n' ∉ tag.toList) :
    '\n' ∉ (quoted tags).toList := by
  refine not_mem_intercalate (by decide) fun s hs => ?_
  obtain ⟨tag, ht, rfl⟩ := List.mem_map.mp hs
  simp [h tag ht]

variable (hW : ∀ w, W w → '\n' ∉ w.toList)
include hW

theorem Segment.Uses.not_mem_text {s : Segment} (hs : s.Uses W) : '\n' ∉ s.text.toList := by
  cases hs with
  | key h => exact hW _ h
  | variant h => exact hW _ h
  | index n => exact not_mem_index n

theorem not_mem_join {path : List Segment} (hp : ∀ s ∈ path, s.Uses W) {written : String}
    (hw : '\n' ∉ written.toList) : '\n' ∉ (Segment.join written path).toList := by
  induction path generalizing written with
  | nil => exact hw
  | cons s path ih =>
    obtain ⟨hs, hpath⟩ := List.forall_mem_cons.mp hp
    have htext := hs.not_mem_text hW
    refine ih hpath ?_
    split <;> simp [hw, htext]

theorem not_mem_pathText {path : List Segment} (hp : ∀ s ∈ path, s.Uses W) :
    '\n' ∉ (pathText path).toList := by
  unfold pathText
  split
  · decide
  · exact not_mem_join hW hp (by decide)

theorem Reason.Uses.not_mem_text {reason : Reason} (h : reason.Uses W) :
    '\n' ∉ reason.text.toList := by
  cases h with
  | @mismatch expected h v =>
    show '\n' ∉ ("expected " ++ expected ++ ", found " ++ describe v).toList
    simp only [String.toList_append, List.mem_append, not_or]
    exact ⟨⟨⟨by decide, hW _ h⟩, by decide⟩, not_mem_describe v⟩
  | missing => decide
  | @noVariant tags h =>
    show '\n' ∉ ("expected exactly one of " ++ quoted tags ++ ", found none").toList
    simp only [String.toList_append, List.mem_append, not_or]
    exact ⟨⟨by decide, not_mem_quoted fun tag ht => hW tag (h tag ht)⟩, by decide⟩
  | @ambiguous tags h =>
    show '\n' ∉ ("expected exactly one variant, found " ++ quoted tags).toList
    simp only [String.toList_append, List.mem_append, not_or]
    exact ⟨by decide, not_mem_quoted fun tag ht => hW tag (h tag ht)⟩

/-- What is said in words that are one line is one line. -/
theorem Failure.Uses.not_mem_line {f : Failure} (h : f.Uses W) : '\n' ∉ f.line.toList := by
  simp [Failure.line, not_mem_pathText hW h.path, h.reason.not_mem_text hW]

end Lines

/-- A message splits at its line feeds into the lines of its failures, if these are lines. -/
theorem Failures.split_message {fs : Failures} (hne : fs ≠ [])
    (h : ∀ f ∈ fs, '\n' ∉ f.line.toList) :
    (fs.message.split '\n').toList.map (·.copy) = fs.lines := by
  have hlines : ∀ line ∈ fs.lines, '\n' ∉ line.toList := by
    intro line hline
    obtain ⟨f, hf, rfl⟩ := List.mem_map.mp hline
    exact h f hf
  have hfeed : fs.message = (String.singleton '\n').intercalate fs.lines := rfl
  have hne' : fs.lines ≠ [] := fun he => hne (List.map_eq_nil_iff.mp he)
  rw [hfeed, String.toList_split_intercalate hlines, if_neg hne']

/-- A configuration is refused for any reason, whatever texts, keys and values are in it. The
message then splits at its line feeds into the lines of the failures, in their order: into one for
each of them, and there is at least one. Each line is the path, a colon and a space, and the
reason. -/
theorem configuration_message_lines (d : Setup.Defaults) (v : Json) (fs : Failures)
    (h : (Setup.configuration d).decode v = .error fs) :
    fs ≠ [] ∧ (fs.message.split '\n').toList.map (·.copy) =
      fs.map fun f => pathText f.path ++ ": " ++ f.reason.text := by
  have hne := ((composed_configuration d).exact v fs h).ne_nil
  have hwords : ∀ w, ConfigurationWord w → '\n' ∉ w.toList := by decide
  have hlines : ∀ f ∈ fs, '\n' ∉ f.line.toList :=
    fun f hf => (speaks_configuration d v fs h f hf).not_mem_line hwords
  exact ⟨hne, Failures.split_message hne hlines⟩

/-- Line feeds and other control characters in texts and in keys, in places that are refused. -/
def broken : Json :=
  .obj [("data\nsource", .null), ("datasource", .str "a\nb\r"),
    ("schema", .obj [("inline", .arr [.obj [("\n", .str "\t")]])]),
    ("uischema", .obj [("\n", .null)])]

def brokenLines : List String :=
  ["datasource: expected object, found \"a\\nb\\r\"",
    "schema.inline: expected object, found [\x7b\"\\n\":\"\\t\"\x7d]",
    "uischema: expected exactly one of \"inline\", \"file\", found none"]

theorem configuration_message_lines_broken :
    ∃ fs, (Setup.configuration plainDefaults).decode broken = .error fs ∧ fs ≠ [] ∧
      (fs.message.split '\n').toList.map (·.copy) = brokenLines := by
  have hl : (failures ((Setup.configuration plainDefaults).decode broken)).map
      (fun f => pathText f.path ++ ": " ++ f.reason.text) = brokenLines := by decide +kernel
  cases h : (Setup.configuration plainDefaults).decode broken with
  | ok c =>
    rw [h] at hl
    contradiction
  | error fs =>
    rw [h] at hl
    obtain ⟨hne, hsplit⟩ := configuration_message_lines plainDefaults broken fs h
    exact ⟨fs, rfl, hne, hsplit.trans hl⟩

end NoteForms.Decode
