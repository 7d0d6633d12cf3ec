import NoteForms.Proofs.Form.Current
import NoteForms.Proofs.Records.Stored
import NoteForms.Proofs.Track.Distinct

/-! Forms whose records have distinct keys. Records are read from frontmatter or from a text, are
made from the defaults of a schema, or are given to the editor; they are submitted to where they
were read. If what is given to a world has no key twice, nothing in it ever has. -/

namespace NoteForms

open Records Setup Edit

/-! ### Editors -/

namespace Edit

/-- Each of the records has distinct keys. -/
def AllDistinct (rs : List Record) : Prop := ∀ r ∈ rs, Object.Distinct r

namespace Drafts

theorem mem_of_mem_numbered {n : Nat} {rs : List Record} {c : Nat × Record}
    (hc : c ∈ numbered n rs) : c.2 ∈ rs := by
  induction rs generalizing n with
  | nil => contradiction
  | cons r rs ih =>
    rcases List.mem_cons.mp hc with rfl | hc
    · exact List.mem_cons_self
    · exact List.mem_cons_of_mem r (ih hc)

theorem eq_or_mem_of_mem_insert {i : Nat} {r : Record} {cs : List (Nat × Record)}
    {c : Nat × Record} (hc : c ∈ insert i r cs) : c = (i, r) ∨ c ∈ cs := by
  induction cs with
  | nil => exact .inl (List.mem_singleton.mp hc)
  | cons d cs ih =>
    obtain ⟨j, s⟩ := d
    rw [insert] at hc
    split at hc
    · exact List.mem_cons.mp hc
    · split at hc
      · exact (List.mem_cons.mp hc).imp id (List.mem_cons_of_mem _)
      · rcases List.mem_cons.mp hc with rfl | hc
        · exact .inr List.mem_cons_self
        · exact (ih hc).imp id (List.mem_cons_of_mem _)

end Drafts

namespace Editor

structure Distinct (e : Editor) : Prop where
  initial : Object.Distinct e.initial
  created : Object.Distinct e.drafts.created
  copies : ∀ c ∈ e.drafts.copies, Object.Distinct c.2

/-- What an action brings has no key twice. -/
def Action.Distinct : Action → Prop
  | .setForm r | .setInitial r => Object.Distinct r
  | .sync _ records => AllDistinct records
  | _ => True

variable {e : Editor} (hd : e.Distinct)

section Act

include hd

theorem Distinct.setForm {r : Record} (hr : Object.Distinct r) : (e.setForm r).2.Distinct := by
  unfold Editor.setForm
  split
  · exact ⟨hd.initial, hr, hd.copies⟩
  · split
    · refine ⟨hd.initial, hd.created, fun c hc => ?_⟩
      rcases Drafts.eq_or_mem_of_mem_insert hc with rfl | hc
      · exact hr
      · exact hd.copies c hc
    · exact hd

theorem Distinct.setInitial {r : Record} (hr : Object.Distinct r) : (e.setInitial r).Distinct := by
  unfold Editor.setInitial
  split
  · exact hd
  · split
    · exact ⟨hr, hr, hd.copies⟩
    · exact ⟨hr, hd.created, hd.copies⟩

theorem Distinct.sync (revision : Nat) {records : List Record} (hrs : AllDistinct records) :
    (e.sync revision records).2.Distinct := by
  by_cases hr : e.drafts.revision = some revision
  · rw [sync_eq_of_eq hr]
    exact hd
  · rw [sync_eq_of_ne hr]
    exact ⟨hd.initial, hd.created, fun c hc => hrs _ (Drafts.mem_of_mem_numbered hc)⟩

theorem Distinct.act {a : Action} (ha : a.Distinct) : (e.act a).Distinct := by
  cases a with
  | setCreating | toggle | move => exact ⟨hd.initial, hd.created, hd.copies⟩
  | goToPage page =>
    simp only [Editor.act, Editor.goToPage]
    split <;> exact ⟨hd.initial, hd.created, hd.copies⟩
  | setForm r => exact hd.setForm ha
  | clear => exact hd.setForm hd.initial
  | setInitial r => exact hd.setInitial ha
  | sync revision records => exact hd.sync revision ha

theorem Distinct.form? {r : Record} (hr : e.form? = some r) : Object.Distinct r := by
  unfold Editor.form? at hr
  split at hr
  · rw [← Option.some.inj hr]
    exact hd.created
  · obtain ⟨i, -, hr⟩ := Option.bind_eq_some_iff.mp hr
    obtain ⟨l₁, l₂, hl, -⟩ := List.lookup_eq_some_iff.mp hr
    exact hd.copies (i.toNat, r) (by simp [hl])

theorem Distinct.submission {rs rs' : List Record} (hrs : AllDistinct rs)
    (hs : e.submission rs = .ok rs') : AllDistinct rs' := by
  obtain ⟨r, hr, hp⟩ := submission_eq_ok.mp hs
  have hone := hd.form? hr
  intro s hs
  generalize e.creating = creating, e.page = page at hp
  cases hp with
  | appended =>
    rcases List.mem_append.mp hs with hs | hs
    · exact hrs s hs
    · rwa [List.mem_singleton.mp hs]
  | replaced hi =>
    rcases List.mem_or_eq_of_mem_set hs with hs | rfl
    · exact hrs s hs
    · exact hone

end Act

theorem start_distinct {initial : Record} (hi : Object.Distinct initial) (revision : Nat)
    {records : List Record} (hrs : AllDistinct records) :
    (start initial revision records).Distinct := by
  have hd : (⟨.start 0 none, .start initial, records.isEmpty, initial, 0⟩ : Editor).Distinct :=
    ⟨hi, hi, nofun⟩
  exact hd.sync revision hrs

end Editor

/-! ### Initial records -/

theorem propertyDefaults_distinct {schema : Json} (hs : schema.Distinct) :
    Object.Distinct (propertyDefaults schema) := by
  have hproperties : Object.Distinct
      (((schema.get? "properties").bind Json.asObject?).getD []) := by
    cases ho : (schema.get? "properties").bind Json.asObject? with
    | none => exact Object.distinct_nil
    | some o =>
      obtain ⟨v, hv, ho⟩ := Option.bind_eq_some_iff.mp ho
      exact (hs.get? hv).asObject? ho
  obtain ⟨hk, hall⟩ := Object.distinct_iff.mp hproperties
  refine .obj (hk.sublist (Entries.keys_filterMap_sublist (fun e e' he => ?_) _)) fun e he => ?_
  · obtain ⟨v, -, rfl⟩ := Option.map_eq_some_iff.mp he
    rfl
  · obtain ⟨d, hm, he⟩ := List.mem_filterMap.mp he
    obtain ⟨v, hv, rfl⟩ := Option.map_eq_some_iff.mp he
    exact (hall d hm).get? hv

theorem initialValue_distinct {schema : Json} (hs : schema.Distinct) :
    (initialValue schema).Distinct := by
  unfold initialValue
  split
  · next v hv => exact hs.get? hv
  · unfold emptyValue
    split
    · exact propertyDefaults_distinct hs
    · exact propertyDefaults_distinct hs
    · exact .scalar rfl
    · exact .scalar rfl
    · exact .scalar rfl
    · exact .scalar rfl
    · exact .arr nofun
    · exact .scalar rfl

theorem initialRecord_distinct {schema : Option Object} (hs : ∀ o ∈ schema, Object.Distinct o) :
    Object.Distinct (initialRecord schema) := by
  cases schema with
  | none => exact Object.distinct_nil
  | some fields =>
    have hv := initialValue_distinct (hs fields rfl)
    rw [initialRecord]
    cases ho : (initialValue (.obj fields)).asObject? with
    | none => exact Object.distinct_nil
    | some o => exact hv.asObject? ho

end Edit

/-! ### Stores and schemas -/

/-- A schema that is configured in place has no key twice. -/
def Setup.Configuration.Distinct (c : Configuration) : Prop :=
  ∀ o, c.schema = .inline o → Object.Distinct o

namespace Records

variable {h : Host}

theorem distinct_listed {rs : List Record} : (listed rs).Distinct ↔ AllDistinct rs := by
  rw [listed, Json.distinct_arr]
  exact List.forall_mem_map

/-- A schema that is written in place has no key twice. -/
def Document.Distinct : Document → Prop
  | .inline o => o.Distinct
  | .file _ _ => True

theorem data_distinct (hh : h.Distinct) (n : Nat) :
    Object.Distinct (((h.notes[n]?).bind (·.data)).getD []) := by
  cases hd : (h.notes[n]?).bind (·.data) with
  | none => exact Object.distinct_nil
  | some fields =>
    obtain ⟨t, ht, hfields⟩ := Option.bind_eq_some_iff.mp hd
    exact hh.notes n t ht fields hfields

theorem Document.resolved?_distinct {d : Document} (hd : d.Distinct) (hh : h.Distinct) :
    ∀ o ∈ d.resolved? h, o.Distinct := by
  intro o ho
  cases d with
  | inline o' =>
    rw [← Option.some.inj ho]
    exact hd
  | file f n =>
    obtain ⟨fields, hfields, ho⟩ := Option.bind_eq_some_iff.mp ho
    obtain ⟨v, hv, ho⟩ := Option.bind_eq_some_iff.mp ho
    have hdata := data_distinct hh n
    rw [hfields] at hdata
    exact (hdata.lookup hv).asObject? ho

theorem records_distinct {s : Store} (hh : h.Distinct) {rs : List Record}
    (hrs : s.records h = .ok rs) : AllDistinct rs := by
  unfold Store.records at hrs
  split at hrs
  · next n _ =>
    have hfields := data_distinct hh n
    cases ofFrontmatter_eq_ok.mp hrs with
    | list hl => exact distinct_listed.mp (hfields.lookup hl)
    | absent | null => exact nofun
  · cases ofText_eq_ok.mp hrs with
    | list _ hr => exact distinct_listed.mp (Json.read_distinct hr)
    | blank => exact nofun

theorem recordsOrNone_distinct (s : Store) (hh : h.Distinct) : AllDistinct (s.recordsOrNone h) := by
  unfold Store.recordsOrNone
  split
  · next rs hrs => exact records_distinct hh hrs
  · exact nofun

theorem persist_distinct (s : Store) (hh : h.Distinct) {rs : List Record} (hrs : AllDistinct rs) :
    (s.persist h rs).2.Distinct := by
  unfold Store.persist
  cases s.tracker with
  | note n =>
    exact hh.act (a := .modifyNote n (·.put s.file.key (listed rs)))
      fun o ho => ho.put s.file.key (distinct_listed.mpr hrs)
  | text n => exact hh.act (a := .writeText n (listed rs).pretty) trivial

end Records

/-! ### Forms -/

namespace Form

namespace Mounted

theorem initialOf_eq (d : Document) (h : Host) : initialOf d h = initialRecord (d.resolved? h) := by
  have hv := value_resolved d h
  rw [initialOf]
  cases hd : d.value h with
  | ok v =>
    rw [hd] at hv
    rw [← hv]
  | error fault =>
    rw [hd] at hv
    rw [← hv]

theorem initialOf_distinct {d : Document} {h : Host} (hd : d.Distinct) (hh : h.Distinct) :
    Object.Distinct (initialOf d h) := by
  rw [initialOf_eq]
  exact initialRecord_distinct (Document.resolved?_distinct hd hh)

structure Distinct (f : Mounted) : Prop where
  schema : f.schema.Distinct
  editor : f.editor.Distinct

variable {f : Mounted} {h : Host}

theorem Distinct.syncSchema (hf : f.Distinct) (hh : h.Distinct) : (f.syncSchema h).Distinct := by
  unfold Mounted.syncSchema
  simp only
  split
  · exact hf
  · exact ⟨hf.schema, hf.editor.setInitial (initialOf_distinct hf.schema hh)⟩

theorem Distinct.sync (hf : f.Distinct) (hh : h.Distinct) : (f.sync h).2.Distinct := by
  have hs := hf.syncSchema hh
  exact ⟨hs.schema, hs.editor.sync _ (recordsOrNone_distinct _ hh)⟩

theorem Distinct.edit (hf : f.Distinct) {a : Editor.Action} (ha : a.Distinct) :
    ({ f with editor := f.editor.act a } : Mounted).Distinct := ⟨hf.schema, hf.editor.act ha⟩

theorem Distinct.submit (hf : f.Distinct) (hh : h.Distinct) :
    (f.submit h).2.1.Distinct ∧ (f.submit h).2.2.Distinct := by
  have hs := hf.sync hh
  unfold Mounted.submit
  simp only
  split
  · exact ⟨hs, hh⟩
  · next rs hrs =>
    have hall : AllDistinct rs := by
      cases hstored : (f.sync h).2.store.records h with
      | error fault =>
        rw [hstored] at hrs
        contradiction
      | ok stored =>
        rw [hstored] at hrs
        exact hs.editor.submission (records_distinct hh hstored) hrs
    have hp := persist_distinct (f.sync h).2.store hh hall
    split
    · next h' he =>
      rw [he] at hp
      exact ⟨hs, hp⟩
    · next h' he =>
      rw [he] at hp
      exact ⟨hs.sync hp, hp⟩

end Mounted

/-! ### Worlds -/

/-- What is asked for opens or shares trackers, and writes nothing. -/
theorem enrols_distinct {h h' : Host} {r r' : Roster} {es : List (String × TrackerId)}
    (he : Enrols h r es h' r') (hh : h.Distinct) : h'.Distinct := by
  refine he.preserves hh (fun _ id hh => hh.act (a := .share id) trivial) fun _ k path hh => ?_
  cases k with
  | note => exact hh.act (a := .openNote path) trivial
  | text => exact hh.act (a := .openText path) trivial

theorem mount_distinct {c : Configuration} (hc : c.Distinct) {h : Host} (hh : h.Distinct)
    (r : Roster) : (Mounted.mount c h r).1.Distinct ∧ (Mounted.mount c h r).2.1.Distinct := by
  have hmounted := enrols_distinct (Mounted.mount_enrols c h r) hh
  have hschema : (Mounted.mount c h r).1.schema.Distinct := by
    show (Document.openSource c.schema _ _).1.Distinct
    cases hs : c.schema with
    | inline o => exact hc o hs
    | file f => trivial
  exact ⟨⟨hschema, Editor.start_distinct (Mounted.initialOf_distinct hschema hmounted) _
    (recordsOrNone_distinct _ hmounted)⟩, hmounted⟩

theorem unmount_distinct (f : Mounted) {h : Host} (hh : h.Distinct) : (f.unmount h).Distinct := by
  rw [f.unmount_eq]
  exact List.foldrRecOn f.holds _ (motive := Host.Distinct) hh
    fun _ hh id _ => hh.act (a := .drop id) trivial

theorem release_distinct (r : Roster) {h : Host} (hh : h.Distinct) (path : String) :
    (r.release h path).2.1.Distinct := by
  rw [Roster.release_eq]
  exact List.foldlRecOn _ _ (motive := Host.Distinct) hh
    fun _ hh id _ => hh.act (a := .unlisten id) trivial

theorem releaseAll_distinct (r : Roster) {h : Host} (hh : h.Distinct) :
    (r.releaseAll h).1.Distinct :=
  List.foldlRecOn _ _ (motive := fun (p : Host × Roster) => p.1.Distinct) hh
    fun p hh path _ => release_distinct p.2 hh path

namespace World

structure Distinct (w : World) : Prop where
  host : w.host.Distinct
  forms : ∀ f, some f ∈ w.forms → f.Distinct

/-- What is given to a world by a step has no key twice. -/
def Step.Distinct : Step → Prop
  | .act (.host a) => a.Distinct
  | .act (.mount c) => c.Distinct
  | .act (.edit _ a) => a.Distinct
  | _ => True

variable {w : World}

theorem mem_of_form? {n : Nat} {f : Mounted} (hf : w.form? n = some f) : some f ∈ w.forms :=
  List.mem_of_getElem? (Option.join_eq_some_iff.mp hf)

theorem distinct_empty : ({} : World).Distinct :=
  ⟨Host.distinct_empty, fun _ hf => absurd hf List.not_mem_nil⟩

theorem Distinct.setForm (hw : w.Distinct) {h : Host} (hh : h.Distinct) (n : Nat) {f : Mounted}
    (hf : f.Distinct) : ({ w with host := h }.setForm n f).Distinct := by
  refine ⟨hh, fun g hg => ?_⟩
  rcases List.mem_or_eq_of_mem_set hg with hg | he
  · exact hw.forms g hg
  · rwa [Option.some.inj he]

theorem Distinct.step (hw : w.Distinct) {s : Step} (hs : s.Distinct) : (w.step s).Distinct := by
  have hh := hw.host
  cases s with
  | setFailReads | setCanWait => exact ⟨⟨hh.vault, hh.notes⟩, hw.forms⟩
  | act a =>
    cases a with
    | host a => exact ⟨hh.act hs, hw.forms⟩
    | mount c =>
      obtain ⟨hf, hh'⟩ := mount_distinct hs hh w.roster
      refine ⟨hh', fun g hg => ?_⟩
      rcases List.mem_append.mp hg with hg | hg
      · exact hw.forms g hg
      · rwa [Option.some.inj (List.mem_singleton.mp hg)]
    | release path => exact ⟨release_distinct w.roster hh path, hw.forms⟩
    | releaseAll => exact ⟨releaseAll_distinct w.roster hh, hw.forms⟩
    | unmount n =>
      simp only [World.step, act]
      split
      · exact hw
      · next f _ =>
        refine ⟨unmount_distinct f hh, fun g hg => ?_⟩
        rcases List.mem_or_eq_of_mem_set hg with hg | he
        · exact hw.forms g hg
        · contradiction
    | edit n a =>
      simp only [World.step, act]
      split
      · exact hw
      · next f hf =>
        exact hw.setForm hh n (((hw.forms f (mem_of_form? hf)).sync hh).edit hs)
    | sync n | view n =>
      simp only [World.step, act]
      split
      · exact hw
      · next f hf => exact hw.setForm hh n ((hw.forms f (mem_of_form? hf)).sync hh)
    | submit n =>
      simp only [World.step, act]
      split
      · exact hw
      · next f hf =>
        obtain ⟨hf', hh'⟩ := (hw.forms f (mem_of_form? hf)).submit hh
        exact hw.setForm hh' n hf'

theorem Distinct.steps (hw : w.Distinct) {ss : List Step} (hs : ∀ s ∈ ss, s.Distinct) :
    (w.steps ss).Distinct := by
  induction ss generalizing w with
  | nil => exact hw
  | cons s ss ih =>
    exact ih (hw.step (hs s List.mem_cons_self)) fun t ht => hs t (List.mem_cons_of_mem s ht)

end World

end Form

end NoteForms
