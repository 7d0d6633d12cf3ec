import NoteForms.Proofs.Form.Submit

/-! Submits to a JSON file. The whole text is written anew from the records that the
form knows, and these come from the last read of the file. A change from outside asks
for a read, but the read may still wait when the form is submitted: then the text of the
change is replaced by records that are older. A submit loses nothing exactly when the
record on screen goes among the stored records as it goes among the known ones; while
no read of the file waits, that is so. -/

namespace NoteForms

open Records Edit

/-- Text that is printed with a line for every item is not blank. -/
theorem not_isBlank_pretty (rs : List Record) : Text.isBlank (listed rs).pretty.toList = false := by
  have hb : ¬ Text.isBlankChar '[' = true := by decide
  have hm : '[' ∈ (listed rs).pretty.toList := by
    cases rs <;> simp [Json.pretty, listed, Json.prettyAt]
  rw [Text.isBlank, List.all_eq_false]
  exact ⟨'[', hm, hb⟩

theorem written_unique {text : String} {rs rs' : List Record} (h₁ : Written text rs)
    (h₂ : Written text rs') : rs = rs' := by
  have he := (ofText_eq_ok (f := ⟨text, text⟩)).mpr h₁
  rw [ofText_eq_ok.mpr h₂] at he
  exact (Except.ok.inj he).symm

namespace Form

/-- The records that one text holds are those of another with the record on screen
among them. -/
def View.Lossless (v : View) (before after : String) : Prop :=
  ∃ rs rs', Written before rs ∧ v.Places rs rs' ∧ Written after rs'

namespace View

variable {v : View} {before : String} {rs rs' : List Record}

/-- Of a text that reads back, the stored records have to lead to the same one. -/
theorem lossless_iff (hback : Json.read (listed rs').pretty = .ok (listed rs')) :
    v.Lossless before (listed rs').pretty ↔ ∃ stored, Written before stored ∧ v.Places stored rs' := by
  have hafter : Written (listed rs').pretty rs' := .list (not_isBlank_pretty rs') hback
  constructor
  · rintro ⟨stored, out, hw, hp, hout⟩
    exact ⟨stored, hw, written_unique hout hafter ▸ hp⟩
  · rintro ⟨stored, hw, hp⟩
    exact ⟨stored, rs', hw, hp, hafter⟩

/-- A record that is appended leads back to all the others. -/
theorem Places.creating {stored : List Record} (hc : v.controls.creating = true)
    (h₁ : v.Places rs rs') (h₂ : v.Places stored rs') : stored = rs := by
  obtain ⟨r₁, hf₁, hp₁⟩ := h₁
  obtain ⟨r₂, hf₂, hp₂⟩ := h₂
  rw [hc] at hp₁ hp₂
  cases hp₁
  generalize ho : rs ++ [r₁] = out at hp₂
  cases hp₂
  exact (List.append_inj_left' ho rfl).symm

end View

namespace Mounted

variable {f : Mounted} {h : Host}

/-- The known records are written, with the record on screen among them. -/
theorem submit_text (hs : Seated h f.store) (hj : f.store.file.isJson = true)
    (hok : (f.submit h).1 = .ok ()) :
    ∃ rs rs' before, f.store.records h = .ok rs ∧ (f.view h).1.Places rs rs' ∧
      h.vault.text? f.store.file.path = some before ∧
      (f.submit h).2.2.vault.text? f.store.file.path = some (listed rs').pretty := by
  obtain ⟨n, t, hid, hn, hp, -⟩ := hs.text hj
  obtain ⟨rs, rs', hrs, hplace, hpersist, hhost⟩ := submit_eq_ok hok
  obtain ⟨-, c, hc, hvault⟩ := persist_text hid hn hpersist
  obtain ⟨hfile, rfl⟩ := Vault.write_eq_ok hc
  obtain ⟨before, hbefore⟩ := Vault.text?_of_hasFile hfile
  refine ⟨rs, rs', before, hrs, hplace, hp ▸ hbefore, ?_⟩
  rw [hhost, hvault, Vault.text?, ← hp, Vault.lookup_putFile, if_pos rfl]
  rfl

/-- A store with no read to wait for knows the stored records. -/
theorem written_of_settled (hs : Seated h f.store) (hj : f.store.file.isJson = true)
    (hw : ∀ r ∈ h.pending, f.store.tracker ≠ .text r.tracker) (hok : (f.submit h).1 = .ok ())
    {rs : List Record} {before : String} (hrs : f.store.records h = .ok rs)
    (hb : h.vault.text? f.store.file.path = some before) : Written before rs := by
  obtain ⟨n, t, hid, hn, hp, hf⟩ := hs.text hj
  obtain ⟨-, rs', -, -, hpersist, -⟩ := submit_eq_ok hok
  obtain ⟨hopen, -⟩ := persist_text hid hn hpersist
  have hnone : h.waitingOf n = [] := by
    simp only [Host.waitingOf, List.map_eq_nil_iff, List.filter_eq_nil_iff, decide_eq_true_eq]
    intro r hr he
    exact hw r hr (by rw [hid, he])
  have hdata : t.data = some before := by
    have hfresh := hf.fresh hopen
    rw [hnone, hp, hb] at hfresh
    simpa using hfresh
  refine (ofText_eq_ok (f := f.store.file)).mp ?_
  simpa [Store.records, hid, hn, hdata] using hrs

end Mounted

namespace World

/-- Forms are mounted on a host and used, its vault is changed from outside, and reads
are run, in any order. A form whose records are in a JSON file is submitted, and that
succeeds. Then the file has the text of the records that the form knew, with the record
on screen among them. If that text reads back, nothing was lost exactly when the stored
records lead to the same ones; for a new record, when the stored records were the known
ones. No read of the file that waits is enough for that. -/
theorem submit_text_lossless_iff (as : List Action) (ha : ∀ a ∈ as, a.Steady) (w : World)
    (hw : w = ({} : World).run as) (n : Nat) (f : Mounted) (hf : w.form? n = some f)
    (path key : String) (hfile : f.configuration.records = ⟨path, key⟩)
    (hj : Setup.isJsonPath path = true) (hok : (f.submit w.host).1 = .ok ())
    (hback : ∀ rs rs', f.store.records w.host = .ok rs → (f.view w.host).1.Places rs rs' →
      Json.read (listed rs').pretty = .ok (listed rs')) :
    ∃ rs rs' before after, f.store.records w.host = .ok rs ∧ (f.view w.host).1.Places rs rs' ∧
      w.host.vault.text? path = some before ∧
      (w.act (.submit n)).host.vault.text? path = some after ∧ after = (listed rs').pretty ∧
      ((f.view w.host).1.Lossless before after ↔
        ∃ stored, Written before stored ∧ (f.view w.host).1.Places stored rs') ∧
      ((f.view w.host).1.controls.creating = true →
        ((f.view w.host).1.Lossless before after ↔ Written before rs)) ∧
      ((∀ r ∈ w.host.pending, f.store.tracker ≠ .text r.tracker) →
        (f.view w.host).1.Lossless before after) := by
  have hi : w.Intact := hw ▸ intact_empty.run ha
  have hstore : f.store.file = ⟨path, key⟩ := (hi.files hf).trans hfile
  have hj' : f.store.file.isJson = true := by rw [hstore]; exact hj
  have hact : (w.act (.submit n)).host = (f.submit w.host).2.2 := by
    simp only [World.act, hf]
    rfl
  obtain ⟨rs, rs', before, hrs, hplace, hbefore, hafter⟩ :=
    Mounted.submit_text (hi.seated hf) hj' hok
  have hiff : (f.view w.host).1.Lossless before (listed rs').pretty ↔
      ∃ stored, Written before stored ∧ (f.view w.host).1.Places stored rs' :=
    View.lossless_iff (hback rs rs' hrs hplace)
  refine ⟨rs, rs', before, _, hrs, hplace, by simpa [hstore] using hbefore,
    by simpa [hstore, hact] using hafter, rfl, hiff, fun hc => ?_, fun hnone => ?_⟩
  · rw [hiff]
    constructor
    · rintro ⟨stored, hwritten, hp⟩
      exact View.Places.creating hc hplace hp ▸ hwritten
    · intro hwritten
      exact ⟨rs, hwritten, hplace⟩
  · rw [hiff]
    exact ⟨rs, Mounted.written_of_settled (hi.seated hf) hj' hnone hok hrs hbefore, hplace⟩

/-- A form is mounted on an empty list, and then the list is changed from outside. The
read that the change asks for waits. -/
def overtaken : List Action :=
  [.host (.insert "people.json" "[]"), .mount ⟨⟨"people.json", "data"⟩, .inline [], none⟩,
    .host (.insert "people.json" "[\x7b\x22x\x22:1\x7d]")]

/-- The form knows no records and makes an empty one. -/
theorem overtaken_form : ∀ f ∈ (({} : World).run overtaken).form? 0,
    f.configuration.records = ⟨"people.json", "data"⟩ ∧
      (f.submit (({} : World).run overtaken).host).1 = .ok () ∧
      f.store.recordsOrNone (({} : World).run overtaken).host = [] ∧
      (f.view (({} : World).run overtaken).host).1.form = some [] ∧
      (f.view (({} : World).run overtaken).host).1.controls.creating = true := by
  decide +kernel

theorem View.Places.empty {v : View} {rs rs' : List Record} (hf : v.form = some [])
    (hc : v.controls.creating = true) (hp : v.Places rs rs') : rs' = rs ++ [[]] := by
  obtain ⟨r, hr, hplaced⟩ := hp
  rw [hc] at hplaced
  cases hplaced
  rw [← Option.some.inj (hf.symm.trans hr)]

theorem submit_text_lossless_iff_overtaken :
    ∃ f, (({} : World).run overtaken).form? 0 = some f ∧ ∃ rs rs' before after,
      f.store.records (({} : World).run overtaken).host = .ok rs ∧
      (f.view (({} : World).run overtaken).host).1.Places rs rs' ∧
      ((({} : World).run overtaken).act (.submit 0)).host.vault.text? "people.json" = some after ∧
      ((f.view (({} : World).run overtaken).host).1.Lossless before after ↔ Written before rs) := by
  obtain ⟨f, hf⟩ : ∃ f, (({} : World).run overtaken).form? 0 = some f :=
    Option.isSome_iff_exists.mp (by decide +kernel)
  obtain ⟨hfile, hok, hnone, hform, hc⟩ := overtaken_form f hf
  have hback : ∀ rs rs', f.store.records (({} : World).run overtaken).host = .ok rs →
      (f.view (({} : World).run overtaken).host).1.Places rs rs' →
      Json.read (listed rs').pretty = .ok (listed rs') := by
    intro rs rs' hrs hp
    have hrs' : rs = [] := by simpa [Store.recordsOrNone, hrs] using hnone
    rw [View.Places.empty hform hc hp, hrs']
    decide +kernel
  obtain ⟨rs, rs', before, after, hrs, hp, -, hafter, -, -, hnew, -⟩ :=
    submit_text_lossless_iff overtaken (by simp [overtaken, Action.Steady, Host.Action.stops])
      (({} : World).run overtaken) rfl 0 f hf "people.json" "data" hfile (by decide +kernel) hok hback
  exact ⟨f, hf, rs, rs', before, after, hrs, hp, hafter, hnew hc⟩

/-- The record that was stored from outside is lost. -/
theorem submit_overtaken_loses :
    ∃ f before after, (({} : World).run overtaken).form? 0 = some f ∧
      (f.submit (({} : World).run overtaken).host).1 = .ok () ∧
      (({} : World).run overtaken).host.vault.text? "people.json" = some before ∧
      ((({} : World).run overtaken).act (.submit 0)).host.vault.text? "people.json" = some after ∧
      ¬ (f.view (({} : World).run overtaken).host).1.Lossless before after := by
  obtain ⟨f, hf⟩ : ∃ f, (({} : World).run overtaken).form? 0 = some f :=
    Option.isSome_iff_exists.mp (by decide +kernel)
  obtain ⟨-, hok, -, hform, hc⟩ := overtaken_form f hf
  have hafter : ((({} : World).run overtaken).act (.submit 0)).host.vault.text? "people.json" =
      some (listed [[]]).pretty := by decide +kernel
  refine ⟨f, "[\x7b\x22x\x22:1\x7d]", _, hf, hok, by decide +kernel, hafter, ?_⟩
  rintro ⟨stored, out, hw, hp, hout⟩
  have hstored : Written "[\x7b\x22x\x22:1\x7d]" [[("x", .int 1)]] :=
    .list (by decide +kernel) (by decide +kernel)
  have hleft : Written (listed [[]]).pretty [[]] := .list (by decide +kernel) (by decide +kernel)
  have he : stored ++ [[]] = [[]] := (View.Places.empty hform hc hp).symm.trans (written_unique hout hleft)
  rw [written_unique hw hstored] at he
  simp at he

end World

end Form

end NoteForms
