import NoteForms.Proofs.Setup.Grammar

/-! Configurations that are written and read again. Whatever the defaults are, all comes back as it
was but the paths of files, which are stripped once more. That is not without effect in general:
the path of a file may start with a dot, if it was stripped of another one before. -/

namespace NoteForms.Setup

open Decode

/-! ### Paths that are stripped again -/

theorem normalizePath_eq_self {path : String} :
    normalizePath path = path ↔ path.toList.head? ≠ some '.' := by
  rw [← stripped_path_iff]
  constructor
  · intro h
    generalize path.toList = cs at h ⊢
    -- nothing that is stripped is what it was
    cases h with
    | plain h => exact h
  · exact .plain

/-- The path is stripped once more. -/
def FileKey.normalized (f : FileKey) : FileKey := { f with path := normalizePath f.path }

def Source.normalized : Source → Source
  | .inline document => .inline document
  | .file f => .file f.normalized

def Configuration.normalized (c : Configuration) : Configuration :=
  ⟨c.records.normalized, c.schema.normalized, c.uiSchema.map Source.normalized⟩

/-- The files that a configuration names. -/
def Configuration.files (c : Configuration) : List FileKey :=
  c.records :: (c.schema.file?.toList ++ (c.uiSchema.bind Source.file?).toList)

/-- The path is one of the vault, with no dot in front. -/
def FileKey.Rooted (f : FileKey) : Prop := f.path.toList.head? ≠ some '.'

theorem FileKey.normalized_eq_self {f : FileKey} : f.normalized = f ↔ f.Rooted := by
  rw [FileKey.Rooted, ← normalizePath_eq_self]
  exact ⟨congrArg FileKey.path, fun h => by rw [normalized, h]⟩

theorem Source.normalized_eq_self {s : Source} : s.normalized = s ↔ ∀ f ∈ s.file?, f.Rooted := by
  cases s with
  | inline document => simp [normalized, file?]
  | file f => simp [normalized, file?, FileKey.normalized_eq_self]

theorem Configuration.normalized_eq_self {c : Configuration} :
    c.normalized = c ↔ ∀ f ∈ c.files, f.Rooted := by
  obtain ⟨records, schema, uiSchema⟩ := c
  cases uiSchema <;>
    simp [normalized, files, FileKey.normalized_eq_self, Source.normalized_eq_self, or_imp, forall_and]

/-! ### Written configurations -/

theorem FileKey.writes_toJson (f default : FileKey) : WritesFile default f.toJson f.normalized :=
  .entries (.text rfl) (.text rfl)

theorem Source.writes_toJson (s : Source) (default : FileKey) :
    WritesSource default s.toJson s.normalized := by
  cases s with
  | inline document => exact .inline rfl rfl
  | file f => exact .file rfl rfl (f.writes_toJson default)

theorem Configuration.writes_toJson (c : Configuration) (d : Defaults) :
    Writes d c.toJson c.normalized := by
  have hrecords := c.records.writes_toJson d.records
  have hschema := c.schema.writes_toJson d.schema
  obtain ⟨records, schema, uiSchema⟩ := c
  cases uiSchema with
  | none => exact .parts rfl rfl hrecords rfl hschema (.absent rfl)
  | some s => exact .parts rfl rfl hrecords rfl hschema (.source rfl (s.writes_toJson d.uiSchema))

theorem FileKey.toJson_injective {f f' : FileKey} (h : f.toJson = f'.toJson) : f = f' := by
  obtain ⟨path, key⟩ := f
  obtain ⟨path', key'⟩ := f'
  simpa [toJson] using h

theorem Source.toJson_injective {s s' : Source} (h : s.toJson = s'.toJson) : s = s' := by
  cases s <;> cases s' <;> simp [toJson] at h
  · rw [h]
  · rw [FileKey.toJson_injective h]

/-- Different configurations are written in different ways. -/
theorem Configuration.toJson_injective {c c' : Configuration} (h : c.toJson = c'.toJson) : c = c' := by
  obtain ⟨records, schema, uiSchema⟩ := c
  obtain ⟨records', schema', uiSchema'⟩ := c'
  cases uiSchema <;> cases uiSchema' <;> simp [toJson] at h
  · rw [FileKey.toJson_injective h.1, Source.toJson_injective h.2]
  · rw [FileKey.toJson_injective h.1, Source.toJson_injective h.2.1, Source.toJson_injective h.2.2]

/-- A configuration is written, and read with any defaults. It is accepted, and is what it was with
the path of each file stripped once more. So it is the same exactly if none of its files has a path
with a dot in front, and only then it is written in the same way again. -/
theorem decode_toJson (c : Configuration) (d : Defaults) :
    (configuration d).decode c.toJson = .ok c.normalized ∧
      ((configuration d).decode c.toJson = .ok c ↔ ∀ f ∈ c.files, f.Rooted) ∧
      (c.normalized.toJson = c.toJson ↔ ∀ f ∈ c.files, f.Rooted) := by
  have hdecode := configuration_eq_ok.mpr (c.writes_toJson d)
  refine ⟨hdecode, ?_, ?_⟩
  · rw [hdecode, Except.ok.injEq, Configuration.normalized_eq_self]
  · rw [← Configuration.normalized_eq_self]
    exact ⟨Configuration.toJson_injective, congrArg Configuration.toJson⟩

/-- A path with two dots in front is stripped of one. -/
example : normalizePath "../a.md" = "./a.md" := by decide

end NoteForms.Setup
