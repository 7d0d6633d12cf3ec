import NoteForms.Form.Plugin
import NoteForms.Proofs.Json.Entries

/-! Settings in memory against those that are stored. Data is read and written through calls
that may fail, and the data may be of any shape. A plugin that was loaded has the settings that
are stored, after any number of updates, whether they succeed or not, and no update touches what
else is stored. -/

namespace NoteForms

namespace Setup

/-! ### Storage that can be relied on -/

/-- The calls deal with the data that is kept, and a call that fails leaves it as it was. -/
structure Storage.Faithful {σ : Type} (k : Storage σ) (data : σ → Option Json) : Prop where
  loads : ∀ {c d}, (k.load c).1 = .ok d → d = data c
  load_keeps : ∀ c, data (k.load c).2 = data c
  saves : ∀ {c v}, (k.save v c).1 = .ok () → data (k.save v c).2 = some v
  fails : ∀ {c v fault}, (k.save v c).1 = .error fault → data (k.save v c).2 = data c

theorem DataStore.storage_faithful : DataStore.storage.Faithful DataStore.data where
  loads {c d} hd := by
    cases hf : c.failLoad with
    | true => simp [storage, hf] at hd
    | false =>
      simp only [storage, hf] at hd
      exact (Except.ok.inj hd).symm
  load_keeps c := by cases hf : c.failLoad <;> simp [storage, hf]
  saves {c v} hok := by
    cases hf : c.failSave with
    | true => simp [storage, hf] at hok
    | false => simp [storage, hf]
  fails {c v fault} he := by
    cases hf : c.failSave with
    | true => simp [storage, hf]
    | false => simp [storage, hf] at he

/-! ### Settings in data -/

namespace Settings

/-- Written settings read back, whatever the keys. -/
theorem merged_toJson (s : Settings) : merged (some s.toJson) = .ok s := rfl

/-- The settings in data of any shape. -/
def ofData (data : Option Json) : Except SettingsFault Settings :=
  merged (data.bind (·.get? storeKey))

/-- The entries of data, none unless it is an object. -/
def entriesOf (data : Option Json) : Object := (data.bind Json.asObject?).getD []

/-- The data is an object with the settings. All else in it was in other data before, with the
same values and in the same order. -/
def StoredBeside (s : Settings) (before after : Option Json) : Prop :=
  ∃ fields, after = some (.obj fields) ∧ fields.lookup storeKey = some s.toJson ∧
    Entries.others fields storeKey = Entries.others (entriesOf before) storeKey

theorem storedBeside_put (s : Settings) (before : Option Json) :
    s.StoredBeside before (some (.obj ((entriesOf before).put storeKey s.toJson))) :=
  ⟨_, rfl, Entries.lookup_put_self _ _ _, Entries.others_put _ _ _⟩

theorem StoredBeside.ofData {s : Settings} {before after : Option Json}
    (h : s.StoredBeside before after) : ofData after = .ok s := by
  obtain ⟨fields, rfl, hs, -⟩ := h
  have hget : (Json.obj fields).get? storeKey = some s.toJson := hs
  rw [Settings.ofData, Option.bind_some, hget, merged_toJson]

end Settings

namespace Storage

open Settings

variable {σ : Type} {k : Storage σ} {data : σ → Option Json}

/-- What is read are the settings in the data, unless that cannot be loaded. -/
theorem Faithful.settings (hk : k.Faithful data) (c : σ) : data (k.settings c).2 = data c ∧
    (k.settings c).1 = (k.load c).1.bind fun _ => ofData (data c) := by
  have hkeeps := hk.load_keeps c
  unfold Storage.settings
  cases hl : k.load c with
  | mk result c' =>
    rw [hl] at hkeeps
    cases result with
    | error fault => exact ⟨hkeeps, rfl⟩
    | ok d =>
      refine ⟨hkeeps, ?_⟩
      have hd : d = data c := hk.loads (by rw [hl])
      rw [hd]
      rfl

/-- Settings are stored beside all else, or nothing is. -/
theorem Faithful.putSettings (hk : k.Faithful data) (s : Settings) (c : σ) :
    ((k.putSettings s c).1 = .ok () ∧ data (k.putSettings s c).2 =
        some (.obj ((entriesOf (data c)).put storeKey s.toJson))) ∨
      (∃ fault, (k.putSettings s c).1 = .error fault) ∧ data (k.putSettings s c).2 = data c := by
  have hkeeps := hk.load_keeps c
  unfold Storage.putSettings
  cases hl : k.load c with
  | mk result c' =>
    rw [hl] at hkeeps
    cases result with
    | error fault => exact .inr ⟨⟨fault, rfl⟩, hkeeps⟩
    | ok d =>
      have hd : d = data c := hk.loads (by rw [hl])
      subst hd
      show ((k.save (.obj ((entriesOf (data c)).put storeKey s.toJson)) c').1 = .ok () ∧ _) ∨ _
      cases hs : (k.save (.obj ((entriesOf (data c)).put storeKey s.toJson)) c').1 with
      | ok u => exact .inl ⟨rfl, hk.saves hs⟩
      | error fault => exact .inr ⟨⟨fault, hs⟩, (hk.fails hs).trans hkeeps⟩

end Storage

end Setup

namespace Form.Plugin

open Setup Settings

variable {σ : Type} {k : Storage σ} {data : σ → Option Json} {p p' : Plugin} {c c' : σ}

/-- Settings are updated one after another, whether that succeeds or not. -/
def updates (k : Storage σ) (pc : Plugin × σ) (ss : List Settings) : Plugin × σ :=
  ss.foldl (fun pc s => (pc.1.updateIn k s pc.2).2) pc

/-- The settings of the plugin are those that are read, if the data can be loaded. -/
def Agrees (k : Storage σ) (p : Plugin) (c : σ) : Prop :=
  ∀ d, (k.load c).1 = .ok d → (k.settings c).1 = .ok p.settings

/-- What comes of an update: its result, the plugin and the storage. -/
def Updated (k : Storage σ) (data : σ → Option Json) (p : Plugin) (s : Settings) (c : σ) :
    Except SettingsFault Unit × Plugin × σ → Prop
  | (.ok (), p', c') => p' = { p with settings := s } ∧ Agrees k p' c' ∧
      s.StoredBeside (data c) (data c') ∧
      ((∀ fields, data c ≠ some (.obj fields)) → data c' = some (.obj [(storeKey, s.toJson)]))
  | (.error _, p', c') => p' = p ∧ Agrees k p' c' ∧ data c' = data c

theorem agrees_of_ofData (hk : k.Faithful data) (h : ofData (data c) = .ok p.settings) :
    Agrees k p c := by
  intro d hd
  rw [(hk.settings c).2, hd]
  exact h

/-- A plugin that was loaded has the settings in the data. -/
theorem loadFrom_eq_ok (hk : k.Faithful data) {c₀ : σ} (hl : loadFrom k c₀ = (.ok p, c)) :
    ofData (data c) = .ok p.settings := by
  obtain ⟨hdata, hset⟩ := hk.settings c₀
  have hc : (k.settings c₀).2 = c := congrArg Prod.snd hl
  have hp : (k.settings c₀).1.map (fun s => ({ settings := s } : Plugin)) = .ok p :=
    congrArg Prod.fst hl
  rw [hc] at hdata
  rw [hset] at hp
  cases hload : (k.load c₀).1 with
  | error fault =>
    rw [hload] at hp
    contradiction
  | ok d =>
    rw [hload] at hp
    cases hs : ofData (data c₀) with
    | error fault =>
      simp only [Except.bind, hs] at hp
      contradiction
    | ok s =>
      simp only [Except.bind, hs] at hp
      rw [hdata, hs, ← Except.ok.inj hp]

theorem entriesOf_eq_nil {d : Option Json} (hd : ∀ fields, d ≠ some (.obj fields)) :
    entriesOf d = [] := by
  cases d with
  | none => rfl
  | some v => cases v <;> first | rfl | exact absurd rfl (hd _)

/-- An update keeps memory and data together. -/
theorem updateIn_updated (hk : k.Faithful data) (h : ofData (data c) = .ok p.settings) (s : Settings) :
    Updated k data p s c (p.updateIn k s c) ∧
      ofData (data (p.updateIn k s c).2.2) = .ok (p.updateIn k s c).2.1.settings := by
  have hput := hk.putSettings s c
  unfold updateIn
  cases hr : k.putSettings s c with
  | mk result c' =>
    rw [hr] at hput
    rcases hput with ⟨hok, hdata⟩ | ⟨⟨fault, he⟩, hdata⟩
    · obtain rfl : result = .ok () := hok
      have hdata : data c' = some (.obj ((entriesOf (data c)).put storeKey s.toJson)) := hdata
      have hbeside : s.StoredBeside (data c) (data c') := hdata ▸ storedBeside_put s (data c)
      refine ⟨⟨rfl, agrees_of_ofData hk hbeside.ofData, hbeside, fun hno => ?_⟩, hbeside.ofData⟩
      rw [hdata, entriesOf_eq_nil hno]
      rfl
    · obtain rfl : result = .error fault := he
      have hdata : data c' = data c := hdata
      have h' : ofData (data c') = .ok p.settings := hdata ▸ h
      exact ⟨⟨rfl, agrees_of_ofData hk h', hdata⟩, h'⟩

theorem updates_ofData (hk : k.Faithful data) (h : ofData (data c) = .ok p.settings)
    (ss : List Settings) :
    ofData (data (updates k (p, c) ss).2) = .ok (updates k (p, c) ss).1.settings := by
  induction ss generalizing p c with
  | nil => exact h
  | cons s ss ih => exact ih (updateIn_updated hk h s).2

/-- A plugin is loaded from any storage that can be relied on, and its settings are updated any
number of times; each of the calls may fail. Then the plugin has the settings that are read, if
the data can be loaded. The next update, if it succeeds, brings the given settings to both and
leaves all else in the data as it was; data that is no object is replaced by an object with only
the settings. If it fails, neither the plugin nor the data changes. -/
theorem updates_agree (k : Storage σ) (data : σ → Option Json) (hk : k.Faithful data)
    (c₀ c : σ) (p : Plugin) (hl : loadFrom k c₀ = (.ok p, c)) (ss : List Settings) (p' : Plugin)
    (c' : σ) (hu : updates k (p, c) ss = (p', c')) :
    Agrees k p' c' ∧ ∀ s, Updated k data p' s c' (p'.updateIn k s c') := by
  have h := updates_ofData hk (loadFrom_eq_ok hk hl) ss
  rw [hu] at h
  exact ⟨agrees_of_ofData hk h, fun s => (updateIn_updated hk h s).1⟩

/-- Stored data with entries before and after the settings, which leave a key open. -/
def shared : DataStore where
  data := some (.obj [("version", .int 2),
    (storeKey, .obj [(schemaName, .obj [(keyName, .null)])]), ("theme", .str "dark")])

/-- The keys may be empty, or the same. The settings stay between the other entries. -/
theorem updates_agree_shared : ∃ p c, loadFrom DataStore.storage shared = (.ok p, c) ∧
    p.settings = {} ∧ ∃ p' c', updates DataStore.storage (p, c) [⟨"", "k", "k"⟩] = (p', c') ∧
      (DataStore.storage.settings c').1 = .ok ⟨"", "k", "k"⟩ ∧
      Updated DataStore.storage DataStore.data p' {} c' (p'.updateIn DataStore.storage {} c') ∧
      c'.data = some (.obj [("version", .int 2), (storeKey, (⟨"", "k", "k"⟩ : Settings).toJson),
        ("theme", .str "dark")]) := by
  refine ⟨{ settings := {} }, shared, rfl, rfl, _, _, rfl, ?_, ?_, rfl⟩
  · exact (updates_agree DataStore.storage _ DataStore.storage_faithful shared shared
      { settings := {} } rfl [⟨"", "k", "k"⟩] _ _ rfl).1 _ rfl
  · exact (updates_agree DataStore.storage _ DataStore.storage_faithful shared shared
      { settings := {} } rfl [⟨"", "k", "k"⟩] _ _ rfl).2 {}

end Form.Plugin

end NoteForms
