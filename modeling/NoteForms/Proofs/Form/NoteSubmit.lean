import NoteForms.Proofs.Form.Submit
import NoteForms.Proofs.Vault.Settled

/-! Submits to a note lose nothing. Several forms may store their records in one note,
and the vault may be changed from outside in between. When a submit succeeds, the note
holds the records that were in the vault just before, with the record on screen among
them, under the key of the form; all its other keys and all other files are as they
were. Records are read from the frontmatter that a tracker knows, but written into the
one that the text of the note reads as: the two are the same throughout. -/

namespace NoteForms

/-! ### Plain actions -/

/-- An action that stops no tracker and writes no frontmatter. -/
def Host.Action.Plain : Host.Action → Prop
  | .process _ _ | .modifyNote _ _ | .drop _ | .unlisten _ => False
  | _ => True

theorem Host.Action.Plain.stops {a : Host.Action} (ha : a.Plain) : a.stops = none := by
  cases a <;> first | rfl | exact absurd ha id

theorem Host.act_settled {h : Host} (hr : h.Ready) (hs : h.vault.Settled) {a : Host.Action}
    (ha : a.Plain) : (h.act a).vault.Settled := by
  cases a with
  | insert p text => simpa [act, Host.insert, changed] using hs.insert p text
  | createFolder p => simpa [act, Host.createFolder, changed] using hs.createFolder p
  | delete p =>
    simp only [act, Host.delete]
    split
    · exact hs
    · next hc => simpa [changed] using hs.delete hr.sound hc
  | rename source target =>
    simp only [act, Host.rename]
    split
    · exact hs
    · next hc => simpa [changed] using hs.rename hr.sound hc
  | write p text =>
    simp only [act, Host.write]
    split
    · exact hs
    · next hc => simpa [changed] using hs.write hc
  | setFailWrites fail => exact hs.congr rfl
  | runRead i =>
    have hq : Quiet none h (h.runReadAt i) := quiet_runReadAt h i
    exact hs.congr hq.files
  | openNote p => simpa [act, Host.openNote] using hs
  | openText p => simpa [act, Host.openText] using hs
  | share id => simpa [act, Host.share] using hs
  | listen id => simpa [act] using hs
  | refresh id =>
    have hq : Quiet none h (h.refresh id) := quiet_refresh h id
    exact hs.congr hq.files
  | writeText n text =>
    simp only [act, Host.writeText]
    split
    · exact hs
    · rw [settle_vault h _ (keepText n text) fun _ => rfl]
      split
      · exact hs
      · next hc => exact hs.write hc
  | process p f => exact absurd ha id
  | modifyNote n f => exact absurd ha id
  | drop id' => exact absurd ha id
  | unlisten id' => exact absurd ha id

namespace Form

open Edit Records

/-! ### One submit -/

namespace Mounted

variable {f : Mounted} {h : Host}

/-- The records are those in the vault, and so are all other entries that are written
along with them. -/
theorem submit_note (hs : Seated h f.store) (hj : f.store.file.isJson = false)
    (hv : h.vault.Settled) (hok : (f.submit h).1 = .ok ()) :
    ∃ rs rs', Stored ((h.vault.frontmatter? f.store.file.path).getD []) f.store.file.key rs ∧
      (f.view h).1.Places rs rs' ∧
      (f.submit h).2.2.vault.frontmatter? f.store.file.path =
        some (((h.vault.frontmatter? f.store.file.path).getD []).put f.store.file.key (listed rs')) ∧
      ∀ q, q ≠ f.store.file.path →
        (f.submit h).2.2.vault.files.lookup q = h.vault.files.lookup q := by
  obtain ⟨n, t, hid, hn, hp, hf⟩ := hs.note hj
  obtain ⟨rs, rs', hrs, hplace, hpersist, hhost⟩ := submit_eq_ok hok
  obtain ⟨hopen, c, hc, hvault⟩ := persist_note hid hn hpersist
  have hdata : t.data = h.vault.frontmatter? f.store.file.path := hp ▸ hf.fresh hopen
  have hafter : (f.submit h).2.2.vault = c.2 := by rw [hhost, hvault]
  rw [hp] at hc
  obtain ⟨hfm, hother⟩ := hv.process_eq_ok hc
  refine ⟨rs, rs', ?_, hplace, by rw [hafter, hfm], fun q hq => by rw [hafter, hother q hq]⟩
  rw [← hdata]
  refine ofFrontmatter_eq_ok.mp ?_
  simpa [Store.records, hid, hn] using hrs

theorem put_ne_nil (fm : Object) (k : String) (v : Json) : fm.put k v ≠ [] := by
  intro he
  have hl := Entries.lookup_put_self fm k v
  rw [he] at hl
  contradiction

/-- A submit keeps the frontmatter that the vault keeps in line with the texts, if what
it leaves reads back. -/
theorem submit_settled (hs : Seated h f.store) (hv : h.vault.Settled)
    (hf : f.store.file.isJson = false → (f.submit h).1 = .ok () →
      ∀ fm ∈ (f.submit h).2.2.vault.frontmatter? f.store.file.path, Note.Faithful fm) :
    (f.submit h).2.2.vault.Settled := by
  cases hok : (f.submit h).1 with
  | error fault => rw [submit_error hok]; exact hv
  | ok u =>
    cases u
    obtain ⟨rs, rs', -, -, hpersist, hhost⟩ := submit_eq_ok hok
    cases hj : f.store.file.isJson with
    | true =>
      obtain ⟨n, t, hid, hn, -, -⟩ := hs.text hj
      obtain ⟨-, c, hc, hvault⟩ := persist_text hid hn hpersist
      rw [hhost, hvault]
      exact hv.write hc
    | false =>
      obtain ⟨n, t, hid, hn, hp, -⟩ := hs.note hj
      obtain ⟨-, c, hc, hvault⟩ := persist_note hid hn hpersist
      have hafter : (f.submit h).2.2.vault = c.2 := by rw [hhost, hvault]
      rw [hafter] at hf ⊢
      rw [hp] at hc
      refine hv.process hc fun fm hfm => ⟨hf hj hok fm hfm, ?_⟩
      rw [(hv.process_eq_ok hc).1] at hfm
      rw [← Option.some.inj hfm]
      exact put_ne_nil _ _ _

end Mounted

/-! ### Runs -/

namespace World

/-- An action that stops no tracker and writes no frontmatter but by a submit. -/
def Action.Plain : Action → Prop
  | .host a => a.Plain
  | .unmount _ | .release _ | .releaseAll => False
  | _ => True

theorem Action.Plain.steady {a : Action} (ha : a.Plain) : a.Steady := by
  cases a with
  | host a => exact Host.Action.Plain.stops ha
  | unmount n => exact absurd ha id
  | release path => exact absurd ha id
  | releaseAll => exact absurd ha id
  | mount c => trivial
  | edit n a => trivial
  | sync n => trivial
  | view n => trivial
  | submit n => trivial

/-- The frontmatter that an action leaves in a note, if it is a submit, reads back. -/
def Legible (w : World) : Action → Prop
  | .submit n => ∀ f ∈ w.form? n, f.store.file.isJson = false → (f.submit w.host).1 = .ok () →
      ∀ fm ∈ (f.submit w.host).2.2.vault.frontmatter? f.store.file.path, Note.Faithful fm
  | _ => True

instance (w : World) (a : Action) : Decidable (w.Legible a) :=
  match a with
  | .submit n => inferInstanceAs (Decidable (∀ f ∈ w.form? n, f.store.file.isJson = false →
      (f.submit w.host).1 = .ok () →
      ∀ fm ∈ (f.submit w.host).2.2.vault.frontmatter? f.store.file.path, Note.Faithful fm))
  | .host _ | .mount _ | .unmount _ | .release _ | .releaseAll | .edit _ _ | .sync _ | .view _ =>
    .isTrue trivial

/-- So it is for all submits of a run. -/
def LegibleRun : World → List Action → Prop
  | _, [] => True
  | w, a :: as => w.Legible a ∧ LegibleRun (w.act a) as

instance LegibleRun.decidable : (w : World) → (as : List Action) → Decidable (w.LegibleRun as)
  | _, [] => .isTrue trivial
  | w, a :: as =>
    haveI := decidable (w.act a) as
    inferInstanceAs (Decidable (w.Legible a ∧ LegibleRun (w.act a) as))

variable {w : World}

theorem act_settled (hi : w.Intact) (hv : w.host.vault.Settled) {a : Action} (ha : a.Plain)
    (hl : w.Legible a) : (w.act a).host.vault.Settled := by
  cases a with
  | host a => exact Host.act_settled hi.roster.ready hv ha
  | mount c =>
    have hvault := (mount_opened hi.roster c).1.vault
    simpa only [World.act, hvault] using hv
  | unmount n => exact absurd ha id
  | release path => exact absurd ha id
  | releaseAll => exact absurd ha id
  | edit n a =>
    simp only [World.act]
    split <;> exact hv
  | sync n =>
    simp only [World.act]
    split <;> exact hv
  | view n =>
    simp only [World.act]
    split <;> exact hv
  | submit n =>
    simp only [World.act]
    split
    · exact hv
    · next f hf => exact Mounted.submit_settled (hi.seated hf) hv (hl f hf)

theorem run_settled (hi : w.Intact) (hv : w.host.vault.Settled) {as : List Action}
    (ha : ∀ a ∈ as, a.Plain) (hl : w.LegibleRun as) : (w.run as).host.vault.Settled := by
  induction as generalizing w with
  | nil => exact hv
  | cons a as ih =>
    have hplain := ha a List.mem_cons_self
    exact ih (hi.act hplain.steady) (act_settled hi hv hplain hl.1)
      (fun b hb => ha b (List.mem_cons_of_mem _ hb)) hl.2

/-- Forms are mounted on a host and used, and its vault is changed from outside, in any
order. A form whose records are in a note is submitted, and that succeeds. Then the
note holds, under the key of the form, the records that were there just before, with
the record on screen appended or in place of the one on its page. Its other entries and
all other files are what they were. -/
theorem submit_note_loses_nothing (as : List Action) (ha : ∀ a ∈ as, a.Plain)
    (hl : ({} : World).LegibleRun as) (w : World) (hw : w = ({} : World).run as) (n : Nat)
    (f : Mounted) (hf : w.form? n = some f) (path key : String)
    (hfile : f.configuration.records = ⟨path, key⟩) (hj : Setup.isJsonPath path = false)
    (hok : (f.submit w.host).1 = .ok ()) :
    ∃ rs rs' fm, Stored ((w.host.vault.frontmatter? path).getD []) key rs ∧
      (f.view w.host).1.Places rs rs' ∧
      (w.act (.submit n)).host.vault.frontmatter? path = some fm ∧
      fm.lookup key = some (listed rs') ∧
      (∀ k, k ≠ key → fm.lookup k = ((w.host.vault.frontmatter? path).getD []).lookup k) ∧
      ∀ q, q ≠ path →
        (w.act (.submit n)).host.vault.files.lookup q = w.host.vault.files.lookup q := by
  have hi : w.Intact := hw ▸ intact_empty.run fun a hm => (ha a hm).steady
  have hv : w.host.vault.Settled := hw ▸ run_settled intact_empty (fun p f hf => by simp at hf) ha hl
  have hstore : f.store.file = ⟨path, key⟩ := (hi.files hf).trans hfile
  have hj' : f.store.file.isJson = false := by rw [hstore]; exact hj
  have hact : (w.act (.submit n)).host = (f.submit w.host).2.2 := by
    simp only [World.act, hf]
    rfl
  obtain ⟨rs, rs', hrs, hplace, hfm, hother⟩ := Mounted.submit_note (hi.seated hf) hj' hv hok
  rw [hstore] at hrs hfm hother
  rw [hact]
  exact ⟨rs, rs', _, hrs, hplace, hfm, Entries.lookup_put_self _ _ _,
    fun k hk => Entries.lookup_put_of_ne hk _ _, hother⟩

/-- Two forms on one note: the second one changes the record, and then the first one
makes another. -/
def sharing : List Action :=
  [.host (.insert "n.md" "---\nk:\n- a: 1\nother: 2\n---\nbody"),
    .mount ⟨⟨"n.md", "k"⟩, .inline [], none⟩, .mount ⟨⟨"n.md", "k"⟩, .inline [], none⟩,
    .edit 0 .toggle, .edit 0 (.setForm [("a", .int 3)]), .edit 1 (.setForm [("a", .int 2)]), .submit 1]

/-- The first form keeps what the second one stored. -/
theorem submit_note_loses_nothing_sharing :
    ∃ rs rs' fm, ∃ w : World, w = ({} : World).run sharing ∧
      Stored ((w.host.vault.frontmatter? "n.md").getD []) "k" rs ∧
      (w.act (.submit 0)).host.vault.frontmatter? "n.md" = some fm ∧
      fm.lookup "k" = some (listed rs') ∧ fm.lookup "other" = some (.int 2) := by
  have ha : ∀ a ∈ sharing, a.Plain := by simp [sharing, Action.Plain, Host.Action.Plain]
  have hl : ({} : World).LegibleRun sharing := by decide +kernel
  have hother : (((({} : World).run sharing).host.vault.frontmatter? "n.md").getD []).lookup "other" =
      some (.int 2) := by decide +kernel
  obtain ⟨f, hf⟩ : ∃ f, (({} : World).run sharing).form? 0 = some f :=
    Option.isSome_iff_exists.mp (by decide +kernel)
  have hform : ∀ f ∈ (({} : World).run sharing).form? 0, f.configuration.records = ⟨"n.md", "k"⟩ ∧
      (f.submit (({} : World).run sharing).host).1 = .ok () := by decide +kernel
  obtain ⟨hfile, hok⟩ := hform f hf
  obtain ⟨rs, rs', fm, hrs, -, hfm, hk, hkeep, -⟩ :=
    submit_note_loses_nothing sharing ha hl _ rfl 0 f hf "n.md" "k" hfile (by decide +kernel) hok
  exact ⟨rs, rs', fm, _, rfl, hrs, hfm, hk, (hkeep "other" (by decide)).trans hother⟩

end World

end Form

end NoteForms
