import NoteForms.Proofs.Edit.Run
import NoteForms.Proofs.Form.Request
import NoteForms.Proofs.Track.Attends

/-! A host with a roster of trackers and the forms that were mounted on it. Whatever
is done that stops no tracker, each form's store has a tracker of its file that is
held, listens, and knows the file. -/

namespace NoteForms

namespace Form

open Records Setup

structure World where
  host : Host := {}
  roster : Roster := {}
  /-- The forms in the order in which they were mounted, none where one was unmounted. -/
  forms : List (Option Mounted) := []

namespace World

inductive Action where
  | host (a : Host.Action)
  | mount (c : Configuration)
  | unmount (n : Nat)
  | release (path : String)
  | releaseAll
  /-- A form catches up, and then its editor does something. -/
  | edit (n : Nat) (a : Edit.Editor.Action)
  | sync (n : Nat)
  | view (n : Nat)
  | submit (n : Nat)

def form? (w : World) (n : Nat) : Option Mounted := (w.forms[n]?).join

def setForm (w : World) (n : Nat) (f : Mounted) : World := { w with forms := w.forms.set n (some f) }

def act (w : World) : Action → World
  | .host a => { w with host := w.host.act a }
  | .mount c =>
    let (f, host, roster) := Mounted.mount c w.host w.roster
    ⟨host, roster, w.forms ++ [some f]⟩
  | .unmount n =>
    match w.form? n with
    | none => w
    | some f => { w with host := f.unmount w.host, forms := w.forms.set n none }
  | .release path =>
    let (_, host, roster) := w.roster.release w.host path
    { w with host, roster }
  | .releaseAll =>
    let (host, roster) := w.roster.releaseAll w.host
    { w with host, roster }
  | .edit n a =>
    match w.form? n with
    | none => w
    | some f =>
      let f := (f.sync w.host).2
      w.setForm n { f with editor := f.editor.act a }
  | .sync n =>
    match w.form? n with
    | none => w
    | some f => w.setForm n (f.sync w.host).2
  | .view n =>
    match w.form? n with
    | none => w
    | some f => w.setForm n (f.view w.host).2
  | .submit n =>
    match w.form? n with
    | none => w
    | some f =>
      let (_, f, host) := f.submit w.host
      { w with host }.setForm n f

def run (w : World) (as : List Action) : World := as.foldl act w

/-- An action that stops no tracker and lets go of none. -/
def Action.Steady : Action → Prop
  | .host a => a.stops = none
  | .unmount _ | .release _ | .releaseAll => False
  | _ => True

end World

/-! ### Steady hosts -/

/-- A host comes about from another one without stopping a tracker. -/
inductive Steadily (h : Host) : Host → Prop where
  | stay : Steadily h h
  | act {h' : Host} (hs : Steadily h h') {a : Host.Action} (ha : a.stops = none) :
    Steadily h (h'.act a)

variable {h h' h'' : Host} {id : TrackerId} {path : String}

theorem Steadily.single {a : Host.Action} (ha : a.stops = none) : Steadily h (h.act a) := .act .stay ha

theorem Steadily.trans (h₁ : Steadily h h') (h₂ : Steadily h' h'') : Steadily h h'' := by
  induction h₂ with
  | stay => exact h₁
  | act _ ha ih => exact .act ih ha

theorem Steadily.ready (hs : Steadily h h') (hr : h.Ready) : h'.Ready := by
  induction hs with
  | stay => exact hr
  | act _ _ ih => exact ih.act _

theorem Steadily.attends (hs : Steadily h h') (hr : h.Ready) (ha : h.Attends id path) :
    h'.Attends id path := by
  induction hs with
  | stay => exact ha
  | act hs hstop ih => exact ih.act (hs.ready hr) (by simp [hstop])

/-! ### Rosters -/

/-- Each tracker of a roster knows the file at the path under which it is entered. -/
structure Intact (h : Host) (r : Roster) : Prop where
  ready : h.Ready
  notes : ∀ {path n}, r.notes.lookup path = some n → h.Attends (.note n) path
  texts : ∀ {path n}, r.texts.lookup path = some n → h.Attends (.text n) path

theorem Intact.steadily {r : Roster} (hi : Intact h r) (hs : Steadily h h') : Intact h' r :=
  ⟨hs.ready hi.ready, fun hl => hs.attends hi.ready (hi.notes hl),
    fun hl => hs.attends hi.ready (hi.texts hl)⟩

theorem live?_eq_some {entries : Entries Nat} {flavour : Nat → TrackerId} {n : Nat}
    (hl : Roster.live? h flavour entries path = some n) : entries.lookup path = some n :=
  (Option.filter_eq_some_iff.mp hl).1

/-- What a roster hands out. -/
structure Handed (h : Host) (id : TrackerId) (path : String) (h' : Host) (r' : Roster) : Prop where
  steadily : Steadily h h'
  vault : h'.vault = h.vault
  intact : Intact h' r'
  attends : h'.Attends id path

/-- A tracker that is shared is the one that was there. -/
theorem Intact.share {r : Roster} (hi : Intact h r) (ha : h.Attends id path) :
    Handed h id path (h.share id) r := by
  have hs : Steadily h (h.share id) := .single (a := .share id) rfl
  exact ⟨hs, by simp [Host.share], hi.steadily hs, hs.attends hi.ready ha⟩

/-- A tracker that is opened attends to its file. -/
theorem openAs_attends (hr : h.Ready) (k : Flavour) (path : String) :
    Steadily h (h.openAs k path).2 ∧ (h.openAs k path).2.vault = h.vault ∧
      (h.openAs k path).2.Attends (h.openAs k path).1 path := by
  cases k with
  | note =>
    have hs : Steadily h (h.openNote path).2 := .single (a := .openNote path) rfl
    exact ⟨hs, by simp [Host.openAs, Host.openNote], h.openNote_attends path⟩
  | text =>
    have hs : Steadily h (h.openText path).2 := .single (a := .openText path) rfl
    exact ⟨hs, by simp [Host.openAs, Host.openText], hr.openText_attends path⟩

theorem Intact.entered {r : Roster} {k : Flavour} (hi : Intact h r)
    (he : r.entered? k path = some id) : h.Attends id path := by
  cases k with
  | note =>
    obtain ⟨n, hl, rfl⟩ := Option.map_eq_some_iff.mp he
    exact hi.notes hl
  | text =>
    obtain ⟨n, hl, rfl⟩ := Option.map_eq_some_iff.mp he
    exact hi.texts hl

theorem Intact.enter {r : Roster} (hi : Intact h r) (ha : h.Attends id path) :
    Intact h (r.enter path id) := by
  cases id with
  | note n =>
    refine ⟨hi.ready, fun {p m} hl => ?_, hi.texts⟩
    rw [Roster.enter, Entries.lookup_put] at hl
    split at hl
    · next hp => rwa [hp, ← Option.some.inj hl]
    · exact hi.notes hl
  | text n =>
    refine ⟨hi.ready, hi.notes, fun {p m} hl => ?_⟩
    rw [Roster.enter, Entries.lookup_put] at hl
    split at hl
    · next hp => rwa [hp, ← Option.some.inj hl]
    · exact hi.texts hl

theorem request_handed {r : Roster} (hi : Intact h r) (k : Flavour) (path : String) :
    Handed h (r.request h k path).1 path (r.request h k path).2.1 (r.request h k path).2.2 := by
  rw [Roster.request_eq]
  cases hh : r.held? h k path with
  | some id => exact hi.share (hi.entered (Option.filter_eq_some_iff.mp hh).1)
  | none =>
    obtain ⟨hs, hv, ha⟩ := openAs_attends hi.ready k path
    exact ⟨hs, hv, (hi.steadily hs).enter ha, ha⟩

/-! ### Forms -/

/-- A store has a tracker of the flavour of its file, and the tracker knows the file. -/
structure Seated (h : Host) (s : Store) : Prop where
  flavour : s.file.isJson = true ↔ ∃ n, s.tracker = .text n
  attends : h.Attends s.tracker s.file.path

theorem Seated.steadily {s : Store} (hs : Seated h s) (hr : h.Ready) (hh : Steadily h h') :
    Seated h' s := ⟨hs.flavour, hh.attends hr hs.attends⟩

theorem Seated.note {s : Store} (hs : Seated h s) (hj : s.file.isJson = false) :
    ∃ n t, s.tracker = .note n ∧ h.notes[n]? = some t ∧ t.path = s.file.path ∧
      t.FollowsNote h.vault := by
  have ht := hs.attends.tracks
  cases hid : s.tracker with
  | text n =>
    have := hs.flavour.mpr ⟨n, hid⟩
    simp [hj] at this
  | note n =>
    rw [hid] at ht
    obtain ⟨t, hn, hp, hf⟩ := ht
    exact ⟨n, t, rfl, hn, hp, hf⟩

theorem Seated.text {s : Store} (hs : Seated h s) (hj : s.file.isJson = true) :
    ∃ n t, s.tracker = .text n ∧ h.texts[n]? = some t ∧ t.path = s.file.path ∧
      t.FollowsText (h.waitingOf n) h.vault := by
  obtain ⟨n, hid⟩ := hs.flavour.mp hj
  have ht := hs.attends.tracks
  rw [hid] at ht
  obtain ⟨t, hn, hp, hf⟩ := ht
  exact ⟨n, t, hid, hn, hp, hf⟩

/-- What is opened leaves all else as it was. -/
structure Opened (h h' : Host) (r' : Roster) : Prop where
  steadily : Steadily h h'
  vault : h'.vault = h.vault
  intact : Intact h' r'

theorem Opened.trans {r' r'' : Roster} (h₁ : Opened h h' r') (h₂ : Opened h' h'' r'') :
    Opened h h'' r'' := ⟨h₁.steadily.trans h₂.steadily, h₂.vault.trans h₁.vault, h₂.intact⟩

/-- Whatever is asked for is handed out, and stays. -/
theorem Intact.enrols {r r' : Roster} {es : List (String × TrackerId)} (hi : Intact h r)
    (he : Enrols h r es h' r') :
    Opened h h' r' ∧ ∀ {path id}, (path, id) ∈ es → h'.Attends id path := by
  induction he with
  | none => exact ⟨⟨.stay, rfl, hi⟩, nofun⟩
  | request _ k p ih =>
    obtain ⟨ho, hat⟩ := ih
    have hh := request_handed ho.intact k p
    refine ⟨ho.trans ⟨hh.steadily, hh.vault, hh.intact⟩, fun hm => ?_⟩
    rcases List.mem_cons.mp hm with heq | hm
    · obtain ⟨rfl, rfl⟩ := Prod.mk.inj heq
      exact hh.attends
    · exact hh.steadily.attends ho.intact.ready (hat hm)

/-- A form that is mounted is seated where its configuration says. -/
theorem mount_opened {r : Roster} (hi : Intact h r) (c : Configuration) :
    Opened h (Mounted.mount c h r).2.1 (Mounted.mount c h r).2.2 ∧
      Seated (Mounted.mount c h r).2.1 (Mounted.mount c h r).1.store ∧
      (Mounted.mount c h r).1.store.file = c.records := by
  obtain ⟨hflavour, hfile⟩ := Mounted.mount_store c h r
  obtain ⟨ho, hat⟩ := hi.enrols (Mounted.mount_enrols c h r)
  exact ⟨ho, ⟨hflavour, hat (Mounted.mem_requests _)⟩, hfile⟩

namespace Mounted

variable (f : Mounted) (h : Host)

/-- The configuration of a form and its store stay what they were. -/
structure Same (f f' : Mounted) : Prop where
  configuration : f'.configuration = f.configuration
  store : f'.store = f.store

theorem sync_same : Same f (f.sync h).2 := by
  unfold sync syncSchema
  simp only
  split <;> exact ⟨rfl, rfl⟩

theorem submit_same : Same f (f.submit h).2.1 := by
  have hs := f.sync_same h
  unfold submit
  simp only
  split
  · exact hs
  · split
    · exact hs
    · next h' _ =>
      have hs' := (f.sync h).2.sync_same h'
      exact ⟨hs'.configuration.trans hs.configuration, hs'.store.trans hs.store⟩

theorem persist_steadily (s : Store) (rs : List Edit.Record) : Steadily h (s.persist h rs).2 := by
  unfold Store.persist
  cases s.tracker with
  | note n => exact .single (a := .modifyNote n _) rfl
  | text n => exact .single (a := .writeText n _) rfl

/-- A submit that gets as far as to write does all by that, and succeeds if that does. -/
theorem submit_host : (f.submit h).2.2 = h ∨ ∃ rs, (f.submit h).2.2 = (f.store.persist h rs).2 ∧
    ((f.store.persist h rs).1 = .ok () → (f.submit h).1 = .ok ()) := by
  have hstore := (f.sync_same h).store
  unfold submit
  simp only [hstore]
  split
  · exact .inl rfl
  · next rs _ =>
    refine .inr ⟨rs, ?_⟩
    split <;> next he => simp [he]

theorem submit_steadily : Steadily h (f.submit h).2.2 := by
  rcases f.submit_host h with he | ⟨rs, he, -⟩ <;> rw [he]
  · exact .stay
  · exact persist_steadily h f.store rs

end Mounted

namespace World

variable {w : World} {n : Nat} {f : Mounted}

/-- All is intact, and all forms are seated where their configurations say. -/
structure Intact (w : World) : Prop where
  roster : Form.Intact w.host w.roster
  seated : ∀ {n f}, w.form? n = some f → Seated w.host f.store
  files : ∀ {n f}, w.form? n = some f → f.store.file = f.configuration.records

theorem lt_of_form? (hf : w.form? n = some f) : n < w.forms.length := by
  unfold form? at hf
  cases hw : w.forms[n]? with
  | none => simp [hw] at hf
  | some _ => exact (List.getElem?_eq_some_iff.mp hw).1

theorem form?_setForm {f' : Mounted} (hf : w.form? n = some f) (m : Nat) :
    (w.setForm n f').form? m = if n = m then some f' else w.form? m := by
  have hn := lt_of_form? hf
  by_cases hm : n = m
  · subst hm
    simp [form?, setForm, hn]
  · simp [form?, setForm, hm]

theorem form?_setForm_self (hf : w.form? n = some f) (h : Host) (f' : Mounted) :
    ({ w with host := h }.setForm n f').form? n = some f' := by
  have hf' : ({ w with host := h } : World).form? n = some f := hf
  rw [form?_setForm hf', if_pos rfl]

theorem eq_of_setForm {h : Host} {f' g : Mounted} (hf : w.form? n = some f)
    (hg : ({ w with host := h }.setForm n f').form? n = some g) : g = f' :=
  Option.some.inj (hg.symm.trans (form?_setForm_self hf h f'))

theorem Intact.setForm {f' : Mounted} (hi : w.Intact) (hf : w.form? n = some f)
    (hs : Mounted.Same f f') : (w.setForm n f').Intact := by
  refine ⟨hi.roster, fun {m g} hg => ?_, fun {m g} hg => ?_⟩ <;> rw [form?_setForm hf] at hg
  · split at hg
    · rw [← Option.some.inj hg, hs.store]
      exact hi.seated hf
    · exact hi.seated hg
  · split at hg
    · rw [← Option.some.inj hg, hs.store, hs.configuration]
      exact hi.files hf
    · exact hi.files hg

theorem Intact.steadily (hi : w.Intact) {h : Host} (hs : Steadily w.host h) :
    { w with host := h }.Intact :=
  ⟨hi.roster.steadily hs, fun hf => (hi.seated hf).steadily hi.roster.ready hs, hi.files⟩

theorem intact_empty : ({} : World).Intact :=
  ⟨⟨Host.ready_empty, by simp, by simp⟩, by simp [form?], by simp [form?]⟩

theorem form?_mount {c : Configuration} {m : Nat} {g : Mounted}
    (hg : (w.act (.mount c)).form? m = some g) :
    w.form? m = some g ∨ g = (Mounted.mount c w.host w.roster).1 := by
  simp only [World.act, form?, List.getElem?_append] at hg
  split at hg
  · exact .inl hg
  · right
    cases hk : m - w.forms.length with
    | zero => simpa [hk, eq_comm] using hg
    | succ k => simp [hk] at hg

/-- A form that is mounted comes after all others. -/
theorem form?_mount_self (w : World) (c : Configuration) :
    (w.act (.mount c)).form? w.forms.length = some (Mounted.mount c w.host w.roster).1 := by
  simp [World.act, form?]

/-- An action by which a form at most catches up and is edited. -/
def Action.Edits : Action → Prop
  | .edit _ _ | .sync _ | .view _ => True
  | _ => False

theorem act_edits {a : Action} (ha : a.Edits) :
    w.act a = w ∨ ∃ n f f', w.form? n = some f ∧ Mounted.Same f f' ∧ w.act a = w.setForm n f' := by
  cases a with
  | edit n a =>
    simp only [World.act]
    split
    · exact .inl rfl
    · next f hf =>
      have hs := f.sync_same w.host
      refine .inr ⟨n, f, _, hf, ?_, rfl⟩
      exact ⟨hs.configuration, hs.store⟩
  | sync n | view n =>
    simp only [World.act]
    split
    · exact .inl rfl
    · next f hf => exact .inr ⟨n, f, _, hf, f.sync_same w.host, rfl⟩
  | _ => exact absurd ha id

theorem act_roster {a : Action} (ha : a.Steady) (hm : ∀ c, a ≠ .mount c) :
    (w.act a).roster = w.roster := by
  cases a with
  | host a => rfl
  | mount c => exact absurd rfl (hm c)
  | edit | sync | view | submit =>
    simp only [World.act]
    split <;> rfl
  | unmount | release | releaseAll => exact False.elim ha

theorem act_submit {n : Nat} {f : Mounted} (hf : w.form? n = some f) :
    (w.act (.submit n)).host = (f.submit w.host).2.2 := by
  simp only [World.act, hf]
  rfl

/-- Whatever steady action is done. -/
theorem Intact.act (hi : w.Intact) {a : Action} (ha : a.Steady) : (w.act a).Intact := by
  have hedits : a.Edits → (w.act a).Intact := by
    intro he
    rcases act_edits he with he | ⟨n, f, f', hf, hs, he⟩ <;> rw [he]
    · exact hi
    · exact hi.setForm hf hs
  cases a with
  | host a => exact hi.steadily (.single ha)
  | mount c =>
    obtain ⟨ho, hseat, hfile⟩ := mount_opened hi.roster c
    have hw := hi.steadily ho.steadily
    refine ⟨ho.intact, fun hg => ?_, fun hg => ?_⟩
    · rcases form?_mount hg with hg | rfl
      · exact hw.seated hg
      · exact hseat
    · rcases form?_mount hg with hg | rfl
      · exact hi.files hg
      · exact hfile
  | edit | sync | view => exact hedits trivial
  | submit n =>
    simp only [World.act]
    split
    · exact hi
    · next f hf =>
      exact (hi.steadily (f.submit_steadily w.host)).setForm hf (f.submit_same w.host)
  | unmount | release | releaseAll => exact False.elim ha

theorem Intact.run (hi : w.Intact) {as : List Action} (ha : ∀ a ∈ as, a.Steady) :
    (w.run as).Intact := by
  induction as generalizing w with
  | nil => exact hi
  | cons a as ih =>
    exact ih (hi.act (ha a List.mem_cons_self)) fun b hb => ha b (List.mem_cons_of_mem _ hb)

end World

end Form

end NoteForms
