import NoteForms.Proofs.Form.Site
import NoteForms.Proofs.Form.Submit

/-! What a view announces of a submit. When a form is shown without a banner about its records,
they were read, the record on screen has a place among them, and the tracker takes the file for
open. It may be wrong in that: a file that is deleted leaves the tracker open with nothing in
it, and a note whose frontmatter has faults is tracked as one without frontmatter. Whether the
submit succeeds is then up to the file, and to nothing else. -/

namespace NoteForms

open Records Setup Edit

/-! ### What a vault allows to write -/

namespace Vault

variable {v : Vault} {path : String}

theorem writeFault?_eq_none_iff :
    v.writeFault? path = none ↔ v.failWrites = false ∧ v.hasFile path = true := by
  refine ⟨writeFault?_eq_none, fun ⟨hf, hp⟩ => ?_⟩
  rw [writeFault?, hf, hp]
  rfl

theorem write_ok_iff (text : String) :
    (∃ c, v.write path text = .ok c) ↔ v.failWrites = false ∧ v.hasFile path = true := by
  rw [← writeFault?_eq_none_iff, write]
  cases v.writeFault? path <;> simp

/-- A note is rewritten if its frontmatter can be read. -/
theorem process_ok_iff (f : Object → Object) : (∃ c, v.process path f = .ok c) ↔
    (v.failWrites = false ∧ v.hasFile path = true) ∧
      (Note.parse ((v.text? path).getD "")).isSome = true := by
  rw [← writeFault?_eq_none_iff, process]
  cases v.writeFault? path with
  | some fault => simp
  | none => cases Note.parse ((v.text? path).getD "") <;> simp

end Vault

/-- The file is there, and if it is a note, its frontmatter can be read. -/
def Vault.Writable (v : Vault) (f : FileKey) : Prop :=
  ∃ text, v.text? f.path = some text ∧ (f.isJson = true ∨ (Note.parse text).isSome = true)

theorem Vault.writable_iff {v : Vault} {f : FileKey} : v.Writable f ↔ v.hasFile f.path = true ∧
    (f.isJson = true ∨ (Note.parse ((v.text? f.path).getD "")).isSome = true) := by
  simp only [Writable, hasFile, text?]
  cases v.files.lookup f.path <;> simp

/-! ### Banners -/

namespace Form

/-- The banner is about a part of the form. -/
def Banner.About (part : String) (b : Banner) : Prop := ∃ text, b.message = part ++ ": " ++ text

namespace Mounted

variable {f : Mounted} {h : Host}

/-- Without a banner about the records, the file has no fault that is known, and the records
were read. -/
theorem view_quiet (hq : ∀ b ∈ (f.view h).1.banners, ¬ b.About Settings.recordsName) :
    f.store.fault? h = none ∧ ∃ rs, f.store.records h = .ok rs := by
  have hstore := (f.sync_same h).store
  simp only [view, viewOf, hstore] at hq
  constructor
  · cases hf : f.store.fault? h with
    | none => rfl
    | some fault =>
      refine absurd ⟨fault.message, rfl⟩ (hq (.ofFile Settings.recordsName fault) ?_)
      simp [fileBanner, hf]
  · cases hr : f.store.records h with
    | ok rs => exact ⟨rs, rfl⟩
    | error fault =>
      refine absurd ⟨fault.message, rfl⟩ (hq (.ofRecords Settings.recordsName fault) ?_)
      simp [recordsBanner, hr]

/-! ### Submits -/

theorem submit_ok_iff {rs : List Record} (hr : f.store.records h = .ok rs) :
    (f.submit h).1 = .ok () ↔
      ∃ rs', (f.view h).1.Places rs rs' ∧ (f.store.persist h rs').1 = .ok () := by
  constructor
  · intro hok
    obtain ⟨rs₀, rs', hr₀, hp, hw, -⟩ := submit_eq_ok hok
    obtain rfl : rs = rs₀ := Except.ok.inj (hr.symm.trans hr₀)
    exact ⟨rs', hp, hw⟩
  · rintro ⟨rs', hp, hw⟩
    have hs : (f.sync h).2.editor.submission rs = .ok rs' := Editor.submission_eq_ok.mpr hp
    simp only [submit, (f.sync_same h).store, hr, hs, bind, Except.bind]
    cases hpersist : f.store.persist h rs' with
    | mk result h' =>
      rw [hpersist] at hw
      obtain rfl : result = .ok () := hw
      rfl

/-- A store whose file has no fault that is known writes if the file allows it. -/
theorem persist_ok_iff {s : Store} (hs : Sited h s) (hn : s.fault? h = none) (rs : List Record) :
    (s.persist h rs).1 = .ok () ↔ h.vault.failWrites = false ∧ h.vault.Writable s.file := by
  obtain ⟨state, hne, t, ht, hpath, rfl⟩ := hs.at'
  -- the path was looked up, so no fault means that the file was found
  have hopen : t.state.isOpen = true := by
    rw [Store.fault?, Host.ask_eq_map (k := Snapshot.fault?) (fun _ _ => rfl), ht] at hn
    have hfault : t.state.fault? t.path = none := hn
    cases hst : t.state <;> rw [hst] at hne hfault <;> first | rfl | contradiction
  have hw : h.snapshot? (s.write rs).tracker = some t := by rw [Store.write_tracker, ht]
  rw [Store.persist_eq, Decode.mapError_eq_ok, Host.perform_ok_iff hw hopen, hpath,
    Vault.writable_iff]
  cases hid : s.tracker with
  | text n =>
    have hj : s.file.isJson = true := hs.flavour.mpr ⟨n, hid⟩
    simp only [Store.write, hid, Host.Write.outcome, Vault.write_ok_iff, hj, true_or, and_true]
  | note n =>
    have hj : s.file.isJson = false := by
      cases hj : s.file.isJson with
      | false => rfl
      | true =>
        obtain ⟨m, hm⟩ := hs.flavour.mp hj
        rw [hid] at hm
        contradiction
    simp only [Store.write, hid, Host.Write.outcome, Vault.process_ok_iff, hj, and_assoc,
      Bool.false_eq_true, false_or]

end Mounted

/-- A record on screen has a place among the records of an editor that is up to date. -/
theorem InLine.places {h : Host} {f : Mounted} {l : Ledger} (hi : InLine h f l) {rs : List Record}
    (hr : f.store.records h = .ok rs) (hform : (f.view h).1.form.isSome = true) :
    ∃ rs', (f.view h).1.Places rs rs' := by
  obtain ⟨r, hr'⟩ := Option.isSome_iff_exists.mp hform
  have hkept := hi.sync.1.shows.kept
  have hcount : (f.sync h).2.editor.count = rs.length := by
    have hc := hi.sync_upToDate.count
    rw [(f.sync_same h).store, Store.recordsOrNone, hr] at hc
    exact hc
  have hshown : (f.sync h).2.editor.form? = some r := hr'
  obtain ⟨rs', hp⟩ : ∃ rs', Placed r rs (f.sync h).2.editor.creating (f.sync h).2.editor.page rs' := by
    unfold Editor.form? at hshown
    cases hc : (f.sync h).2.editor.creating with
    | true => exact ⟨_, .appended _⟩
    | false =>
      cases hv : (f.sync h).2.editor.pager.value with
      | none => simp [hc, hv] at hshown
      | some i =>
        rw [Editor.page, hv]
        exact ⟨_, .replaced (hcount ▸ hkept.pager.within i hv)⟩
  exact ⟨rs', r, hr', hp⟩

namespace World

variable {w : World} {n : Nat}

/-- A form keeps up with its store from the step by which it is mounted. -/
theorem step_keepsUp (hk : n < w.forms.length → ∃ l, KeepsUp n w l) {s : Step}
    (hs : ¬ s.Bypasses n) (hn : n < (w.step s).forms.length) : ∃ l, KeepsUp n (w.step s) l := by
  by_cases hlt : n < w.forms.length
  · obtain ⟨l, hl⟩ := hk hlt
    exact ⟨_, hl.step hs⟩
  · cases s with
    | setFailReads | setCanWait => exact absurd hn hlt
    | act a =>
      cases a with
      | mount c =>
        obtain rfl : n = w.forms.length := by
          have hlen : n < (w.forms ++ [some (Mounted.mount c w.host w.roster).1]).length := hn
          rw [List.length_append, List.length_singleton] at hlen
          omega
        exact ⟨_, mount_keepsUp w c⟩
      | host | release | releaseAll => exact absurd hn hlt
      | unmount m | edit m a | sync m | view m | submit m =>
        refine absurd ?_ hlt
        simp only [step, act] at hn
        split at hn
        · exact hn
        · simpa [setForm] using hn

theorem steps_keepsUp (hk : n < w.forms.length → ∃ l, KeepsUp n w l) {ss : List Step}
    (hs : ∀ s ∈ ss, ¬ s.Bypasses n) (hn : n < (w.steps ss).forms.length) :
    ∃ l, KeepsUp n (w.steps ss) l := by
  induction ss generalizing w with
  | nil => exact hk hn
  | cons s ss ih =>
    exact ih (step_keepsUp hk (hs s List.mem_cons_self))
      (fun s' hs' => hs s' (List.mem_cons_of_mem _ hs')) hn

/-- In any run, on a vault that does not reject writes, a form is shown without a banner about
its records. Then a submit succeeds exactly if the file of the records can be written and the
record on screen has a place among them; it has one unless other records were given to the
editor directly. -/
theorem steps_submit_ok_iff (ss : List Step) (n : Nat) (w : World) (f : Mounted)
    (hw : w = ({} : World).steps ss) (hf : w.form? n = some f)
    (hwrites : w.host.vault.failWrites = false) (hform : (f.view w.host).1.form.isSome = true)
    (hq : ∀ b ∈ (f.view w.host).1.banners, ¬ b.About Settings.recordsName) :
    ∃ rs, f.store.records w.host = .ok rs ∧
      ((f.submit w.host).1 = .ok () ↔ w.host.vault.Writable f.configuration.records ∧
        ∃ rs', (f.view w.host).1.Places rs rs') ∧
      ((∀ s ∈ ss, ¬ s.Bypasses n) → ∃ rs', (f.view w.host).1.Places rs rs') := by
  have hsited : w.Sited := hw ▸ sited_empty.steps ss
  obtain ⟨hfault, rs, hr⟩ := Mounted.view_quiet hq
  refine ⟨rs, hr, ?_, fun hs => ?_⟩
  · have hpersist := Mounted.persist_ok_iff (hsited.stores hf) hfault
    rw [hsited.files hf] at hpersist
    simp only [Mounted.submit_ok_iff hr, hpersist, hwrites, true_and]
    exact ⟨fun ⟨rs', hp, hv⟩ => ⟨hv, rs', hp⟩, fun ⟨hv, rs', hp⟩ => ⟨rs', hp, hv⟩⟩
  · subst hw
    obtain ⟨l, hl⟩ := steps_keepsUp (w := {}) (by simp) hs (lt_of_form? hf)
    exact (hl.inLine f hf).places hr hform

/-- A form of a note without records, which are to be under the key `people`. -/
def openedForm : List Step := [.act (.host (.insert "n.md" "body")),
  .act (.mount ⟨⟨"n.md", "people"⟩, .inline [], none⟩)]

/-- The note is deleted. The form of a new record is shown with no banner at all, its tracker
listens and no read waits, and writes are not rejected, but the submit fails. -/
theorem submit_unannounced : ∃ w f,
    w = ({} : World).steps (openedForm ++ [.act (.host (.delete "n.md"))]) ∧
    w.form? 0 = some f ∧ w.host.Subscribed f.store.tracker ∧ w.host.pending = [] ∧
    w.host.vault.failWrites = false ∧ (f.view w.host).1.form = some [] ∧
    (f.view w.host).1.banners = [] ∧
    (f.submit w.host).1 = .error (.file (.unmodified "n.md")) := by
  obtain ⟨w, hw⟩ : ∃ w, w = ({} : World).steps (openedForm ++ [.act (.host (.delete "n.md"))]) :=
    ⟨_, rfl⟩
  have hform : ∀ f ∈ w.form? 0, w.host.Subscribed f.store.tracker ∧ w.host.pending = [] ∧
      w.host.vault.failWrites = false ∧ (f.view w.host).1.form = some [] ∧
      (f.view w.host).1.banners = [] ∧
      (f.submit w.host).1 = .error (.file (.unmodified "n.md")) := by
    rw [hw]
    decide +kernel
  obtain ⟨f, hf⟩ : ∃ f, w.form? 0 = some f := Option.isSome_iff_exists.mp (by
    rw [hw]
    decide +kernel)
  exact ⟨w, f, hw, hf, hform f hf⟩

/-- The note is deleted and made anew. -/
def remadeNote : List Step := openedForm ++ [.act (.host (.delete "n.md")),
  .act (.host (.insert "n.md" "---\nk: 1\n---\n"))]

/-- The record on screen can be submitted again. -/
theorem steps_submit_ok_iff_remade : ∃ f, (({} : World).steps remadeNote).form? 0 = some f ∧
    (f.submit (({} : World).steps remadeNote).host).1 = .ok () := by
  obtain ⟨w, hw⟩ : ∃ w, w = ({} : World).steps remadeNote := ⟨_, rfl⟩
  have hform : ∀ f ∈ w.form? 0, f.configuration.records = ⟨"n.md", "people"⟩ ∧
      (f.view w.host).1.form.isSome = true ∧ (f.view w.host).1.banners = [] := by
    rw [hw]
    decide +kernel
  have hv : w.host.vault.Writable ⟨"n.md", "people"⟩ := by
    rw [hw]
    exact ⟨"---\nk: 1\n---\n", by decide +kernel, .inr (by decide +kernel)⟩
  have hwrites : w.host.vault.failWrites = false := by
    rw [hw]
    decide +kernel
  rw [← hw]
  obtain ⟨f, hf⟩ : ∃ f, w.form? 0 = some f := Option.isSome_iff_exists.mp (by
    rw [hw]
    decide +kernel)
  obtain ⟨hrecords, hshown, hbanners⟩ := hform f hf
  obtain ⟨rs, -, hiff, hplace⟩ := steps_submit_ok_iff remadeNote 0 w f hw hf hwrites hshown
    (by simp [hbanners])
  exact ⟨f, hf, hiff.mpr ⟨hrecords ▸ hv, hplace (by simp [remadeNote, openedForm, Step.Bypasses])⟩⟩

end World

end Form

end NoteForms
