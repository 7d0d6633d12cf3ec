import NoteForms.Proofs.Track.TextTracking
import NoteForms.Proofs.Track.Write

/-! Whether a tracker that listens takes a file that is at its path. Where it stands comes
from the events it heard, not from a look at the vault. Every change that brings a file to
the path resolves it, but for one: a file that is renamed onto its own path is heard of as
one that has left, and is there all the same. -/

namespace NoteForms

/-! ### Reads -/

namespace Tracker

/-- A read closes a tracker only if it found no file. -/
theorem loadText_state (t : Tracker String) (v : Vault) (epoch : Nat) :
    (t.loadText v.read epoch).state = t.state ∨ v.hasFile t.path = false := by
  unfold loadText
  split
  · cases hf : v.hasFile t.path with
    | false => exact .inr rfl
    | true =>
      obtain ⟨text, -, hread⟩ := read_of_hasFile hf
      rw [hread]
      exact .inl rfl
  · exact .inl rfl

end Tracker

namespace Host

open Tracker (Change)

variable {h h' : Host} {id : TrackerId} {path : String} {state : FileState} {a : Action}

/-- What holds of every action of a run and the host that it is done in. -/
def Each (P : Host → Action → Prop) : Host → List Action → Prop
  | _, [] => True
  | h, a :: as => P h a ∧ Each P (h.act a) as

/-- A file that is there is renamed onto its own path. -/
def Action.Loops (path : String) (h : Host) (a : Action) : Prop :=
  a = .rename path path ∧ h.vault.hasFile path = true

/-- A file at the path can be read and written through the tracker, as far as that knows. -/
def Admits (h : Host) (id : TrackerId) (path : String) : Prop :=
  ∃ state, h.Stands id path state ∧ (h.vault.hasFile path = true → state.isOpen = true)

/-! ### Changes -/

/-- What has left was renamed. -/
theorem Action.change?_left {v : Vault} {c : Event × Vault} {target : String}
    (hc : a.change? v = some c) (hl : Change.of path c.1 = .left target) :
    a = .rename path target ∧ v.hasFile path = true := by
  cases a with
  | insert p text =>
    rw [← Option.some.inj hc] at hl
    simp only [Vault.insert] at hl
    split at hl <;> simp only [Change.of] at hl <;> split at hl <;> contradiction
  | createFolder p =>
    rw [← Option.some.inj hc] at hl
    simp only [Vault.createFolder, Change.of] at hl
    split at hl <;> contradiction
  | delete p =>
    rw [Action.change?, Vault.delete] at hc
    split at hc
    · contradiction
    all_goals
      rw [← Option.some.inj hc] at hl
      simp only [Change.of] at hl
      split at hl <;> contradiction
  | rename source target' =>
    obtain ⟨f, hf, rfl⟩ := Option.map_eq_some_iff.mp hc
    simp only [Change.of] at hl
    split at hl
    · next hs =>
      subst hs
      exact ⟨by rw [← Change.left.inj hl]; rfl, Vault.hasFile_iff.mpr ⟨f, hf⟩⟩
    · split at hl <;> contradiction
  | write p text =>
    obtain ⟨-, rfl⟩ := Vault.write_eq_ok (toOption_eq_some hc)
    simp only [Change.of] at hl
    split at hl <;> contradiction
  | process p f =>
    obtain ⟨-, note, -, rfl⟩ := Vault.process_eq_ok (toOption_eq_some hc)
    simp only [Change.of] at hl
    split at hl <;> contradiction
  | _ => contradiction

/-- Where an action leaves a tracker if a file is at its path then: it is open, or in the state
in which it was with the file before, or the file was renamed onto itself. -/
def Leaves (h : Host) (path : String) (state : FileState) (a : Action) (state' : FileState) : Prop :=
  state'.isOpen = true ∨ (state' = state ∧ h.vault.hasFile path = true) ∨
    (a.Loops path h ∧ state' = .renamed path path)

/-- Where a change leaves a tracker that hears of it. -/
theorem leaves_after {c : Event × Vault} (hv : h.vault.Sound) (hc : a.change? h.vault = some c)
    (hf : c.2.hasFile path = true) (state : FileState) :
    Leaves h path state a (state.after path c.2 (.of path c.1)) := by
  have ht := (Action.change?_reports hv hc).told path
  cases hch : Change.of path c.1 with
  | unrelated =>
    rw [hch] at ht
    exact .inr (.inl ⟨rfl, Vault.hasFile_congr ht ▸ hf⟩)
  | arrived =>
    rw [FileState.after, Vault.lookup_ne_none_of_hasFile hf]
    exact .inl rfl
  | modified =>
    rw [hch] at ht
    exact .inr (.inl ⟨rfl, ht.1⟩)
  | deleted => exact .inl rfl
  | left target =>
    rw [hch] at ht
    -- no file is left where one has left, unless it has come back at once
    have hself : target = path := Classical.byContradiction fun hne => by
      rw [ht hne] at hf
      contradiction
    subst hself
    exact .inr (.inr ⟨Action.change?_left hc hch, rfl⟩)

/-! ### Loads -/

theorem Stands.modifyTexts {f : Tracker String → Tracker String} {P : Prop}
    (hs : h.Stands id path state) (n : Nat) (hp : ∀ t, (f t).path = t.path)
    (hf : ∀ t : Tracker String, t.path = path → (f t).state = t.state ∨ P) :
    ∃ state', { h with texts := h.texts.modify n f }.Stands id path state' ∧
      (state' = state ∨ P) := by
  obtain ⟨s, hs, rfl, rfl⟩ := hs
  cases id with
  | note m => exact ⟨s.state, ⟨s, hs, rfl, rfl⟩, .inl rfl⟩
  | text m =>
    obtain ⟨t, ht, rfl⟩ := Option.map_eq_some_iff.mp hs
    refine ⟨(if n = m then f t else t).state, ⟨(if n = m then f t else t).snapshot .text, ?_, ?_, rfl⟩, ?_⟩
    · simp only [snapshot?, List.getElem?_modify, ht]
      split <;> rfl
    · split
      · exact hp t
      · rfl
    · split
      · exact hf t rfl
      · exact .inl rfl

theorem Stands.runReadAt (hs : h.Stands id path state) (hr : h.failReads = false) (i : Nat) :
    ∃ state', (h.runReadAt i).Stands id path state' ∧
      (state' = state ∨ h.vault.hasFile path = false) := by
  unfold Host.runReadAt
  split
  · exact ⟨state, hs, .inl rfl⟩
  · next r _ =>
    have hs' : ({ h with pending := h.pending.eraseIdx i } : Host).Stands id path state := hs
    have hread : ({ h with pending := h.pending.eraseIdx i } : Host).read = h.vault.read :=
      read_eq hr
    refine hs'.modifyTexts r.tracker (fun t => ?_) fun t ht => ?_ <;> split
    · exact (t.loadText_sameSite _ _).path
    · rfl
    · rw [hread, ← ht]
      exact t.loadText_state h.vault r.epoch
    · exact .inl rfl

theorem Stands.refresh (hs : h.Stands id path state) (hr : h.failReads = false) (id' : TrackerId) :
    ∃ state', (h.refresh id').Stands id path state' ∧
      (state' = state ∨ h.vault.hasFile path = false) := by
  cases id' with
  | note n =>
    refine ⟨state, ?_, .inl rfl⟩
    rw [stands_iff] at hs ⊢
    have hn := ask_modifyNotes (g := fun t => (t.path, t.state)) h n
      (f := (·.loadNote h.vault)) (fun t => by
        rw [(t.loadNote_sameSite h.vault).path, t.loadNote_state]) id
    exact hn.trans hs
  | text n =>
    refine hs.modifyTexts n (fun t => (t.loadText_sameSite _ _).path) fun t ht => ?_
    rw [read_eq hr, ← ht]
    exact t.loadText_state h.vault t.epoch

/-! ### Steps -/

/-- The host after an action, as far as it matters to the tracker. -/
def Reaches (h : Host) (id : TrackerId) (path : String) (state : FileState) (a : Action)
    (h' : Host) : Prop :=
  ∃ state', h'.Stands id path state' ∧
    (h'.vault.hasFile path = true → Leaves h path state a state')

/-- What neither makes a file nor closes the tracker while there is one. -/
theorem Reaches.of_hasFile_eq (hv : h'.vault.hasFile path = h.vault.hasFile path)
    (hs : ∃ state', h'.Stands id path state' ∧ (state' = state ∨ h.vault.hasFile path = false)) :
    h.Reaches id path state a h' := by
  obtain ⟨state', hs', he⟩ := hs
  refine ⟨state', hs', fun hf => ?_⟩
  rw [hv] at hf
  rcases he with rfl | hn
  · exact .inr (.inl ⟨rfl, hf⟩)
  · rw [hn] at hf
    contradiction

/-- What shows nowhere. -/
theorem Reaches.of_eq (hs : h.Stands id path state) (hv : h'.vault = h.vault)
    (he : h'.snapshot? id = h.snapshot? id) : h.Reaches id path state a h' := by
  refine .of_hasFile_eq (by rw [hv]) ⟨state, ?_, .inl rfl⟩
  rwa [Stands, he]

theorem reaches_outside (hs : h.Stands id path state) (hr : h.Ready) (hl : h.Listens id)
    (ha : a.Outside) : h.Reaches id path state a (h.act a) := by
  rcases h.act_outside ha with he | ⟨c, hc, he⟩ <;> rw [he]
  · exact .of_eq hs rfl rfl
  · refine ⟨_, hr.stands_changed hl hs c, fun hf => ?_⟩
    rw [Host.changed, emit_vault] at hf
    exact leaves_after hr.sound hc hf state

theorem reaches_perform (hs : h.Stands id path state) (w : Write) :
    h.Reaches id path state a (h.perform w).2 := by
  obtain ⟨state', hs', ho | rfl⟩ := hs.perform w
  · exact ⟨state', hs', fun _ => .inl ho⟩
  · exact .of_hasFile_eq ((perform_vault_confined h w).hasFile path) ⟨state', hs', .inl rfl⟩

/-- Whatever is done while the tracker listens. -/
theorem reaches_act (hs : h.Stands id path state) (hr : h.Ready) (hl : h.Listens id) (a : Action) :
    h.Reaches id path state a (h.act a) := by
  have hthere : ∃ s, h.snapshot? id = some s := hs.imp fun _ hs => hs.1
  cases a with
  | insert | createFolder | delete | rename | write | process => exact reaches_outside hs hr hl trivial
  | setFailWrites fail => exact .of_hasFile_eq rfl ⟨state, hs, .inl rfl⟩
  | runRead i => exact .of_hasFile_eq (by simp [Host.act]) (hs.runReadAt hr.failReads i)
  | refresh id' => exact .of_hasFile_eq (by cases id' <;> rfl) (hs.refresh hr.failReads id')
  | openNote p =>
    obtain ⟨s, hid⟩ := hthere
    refine .of_eq hs (by simp [Host.act, openNote]) ?_
    rw [Host.act, openNote_eq, snapshot?_listen, snapshot?_addNote hid, hid]
  | openText p =>
    obtain ⟨s, hid⟩ := hthere
    refine .of_eq hs (by simp [Host.act, openText]) ?_
    rw [Host.act, openText_eq, snapshot?_listen, snapshot?_addText hid, hid]
  | share id' => exact .of_eq hs (by simp [Host.act, share]) (snapshot?_share h id' id)
  | drop id' => exact .of_eq hs (by simp [Host.act]) (snapshot?_drop h id' id)
  | listen id' => exact .of_eq hs (by simp [Host.act]) (snapshot?_listen h id' id)
  | unlisten id' => exact .of_eq hs (by simp [Host.act]) (snapshot?_unlisten h id' id)
  | modifyNote n f => exact reaches_perform hs (.note n f)
  | writeText n text => exact reaches_perform hs (.text n text)

/-- A file that was renamed onto itself is there, and the tracker has heard that it left. -/
theorem Action.Loops.spoils (ha : a.Loops path h) (hr : h.Ready) (hl : h.Listens id)
    (hs : h.Stands id path state) :
    (h.act a).Stands id path (.renamed path path) ∧ (h.act a).vault.hasFile path = true := by
  obtain ⟨rfl, hf⟩ := ha
  obtain ⟨f, hf⟩ := Vault.hasFile_iff.mp hf
  have hc : h.act (.rename path path) = h.changed (.rename (.file path) path,
      { h.vault with files := (h.vault.files.remove path).put path f }) := by
    simp only [Host.act, Host.rename, Vault.rename, hf, Option.map_some]
  rw [hc]
  constructor
  · have hst := hr.stands_changed hl hs (.rename (.file path) path,
      { h.vault with files := (h.vault.files.remove path).put path f })
    rwa [Change.of, if_pos rfl] at hst
  · rw [Host.changed, emit_vault]
    exact Vault.hasFile_iff.mpr ⟨f, Entries.lookup_put_self _ _ _⟩

theorem Admits.act (ha : h.Admits id path) (hr : h.Ready) (hl : h.Listens id)
    (hn : ¬ a.Loops path h) : (h.act a).Admits id path := by
  obtain ⟨state, hs, hopen⟩ := ha
  obtain ⟨state', hs', hleaves⟩ := reaches_act hs hr hl a
  refine ⟨state', hs', fun hf => ?_⟩
  rcases hleaves hf with ho | ⟨rfl, hfile⟩ | ⟨hloop, -⟩
  · exact ho
  · exact hopen hfile
  · exact absurd hloop hn

/-- A file at the path is admitted, or was renamed onto itself. -/
def AdmitsButLoops (h : Host) (id : TrackerId) (path : String) : Prop :=
  ∃ state, h.Stands id path state ∧
    (h.vault.hasFile path = true → state.isOpen = true ∨ state = .renamed path path)

theorem AdmitsButLoops.act (ha : h.AdmitsButLoops id path) (hr : h.Ready) (hl : h.Listens id) :
    (h.act a).AdmitsButLoops id path := by
  obtain ⟨state, hs, hopen⟩ := ha
  obtain ⟨state', hs', hleaves⟩ := reaches_act hs hr hl a
  refine ⟨state', hs', fun hf => ?_⟩
  rcases hleaves hf with ho | ⟨rfl, hfile⟩ | ⟨-, rfl⟩
  · exact .inl ho
  · exact hopen hfile
  · exact .inr rfl

/-! ### Runs -/

/-- What each action preserves while a tracker listens. -/
theorem throughout_of_act {P : Host → Prop} {Q : Host → Action → Prop}
    (hact : ∀ {h a}, h.Ready → h.Listens id → Q h a → P h → P (h.act a)) {as : List Action}
    (hr : h.Ready) (hl : Throughout (·.Listens id) h as) (hq : Each Q h as) (hp : P h) :
    Throughout P h as := by
  induction as generalizing h with
  | nil => exact hp
  | cons a as ih => exact ⟨hp, ih (hr.act a) hl.2 hq.2 (hact hr hl.1 hq.1 hp)⟩

theorem each_of_forall {Q : Host → Action → Prop} (hq : ∀ h a, Q h a) (h : Host)
    (as : List Action) : Each Q h as := by
  induction as generalizing h with
  | nil => trivial
  | cons a as ih => exact ⟨hq h a, ih _⟩

theorem Throughout.head {P : Host → Prop} {as : List Action} (hp : Throughout P h as) : P h := by
  cases as with
  | nil => exact hp
  | cons a as => exact hp.1

/-- A tracker that admits its file all the time has heard of no file that was renamed onto
itself. -/
theorem each_not_loops {as : List Action} (hr : h.Ready) (hl : Throughout (·.Listens id) h as)
    (ha : Throughout (·.Admits id path) h as) : Each (fun h a => ¬ a.Loops path h) h as := by
  induction as generalizing h with
  | nil => trivial
  | cons a as ih =>
    refine ⟨fun hloop => ?_, ih (hr.act a) hl.2 ha.2⟩
    -- the file is there after that, but the state of the tracker is not open
    obtain ⟨state, hs, -⟩ := ha.1
    obtain ⟨⟨s, hs, -, hst⟩, hf⟩ := hloop.spoils hr hl.1 hs
    obtain ⟨state', ⟨s', hs', -, hst'⟩, hopen⟩ := ha.2.head
    have ho := hopen hf
    rw [← hst', Option.some.inj (hs'.symm.trans hs), hst] at ho
    contradiction

/-- The tracker that is opened at a path, of either flavour, and the host after that. -/
inductive Opens (h : Host) (path : String) : TrackerId → Host → Prop where
  | note : Opens h path (.note (h.openNote path).1) (h.openNote path).2
  | text : Opens h path (.text (h.openText path).1) (h.openText path).2

variable {start : Host}

theorem Opens.ready (ho : h.Opens path id start) (hr : h.Ready) : start.Ready := by
  cases ho with
  | note => exact hr.act (.openNote path)
  | text => exact hr.act (.openText path)

theorem ofPlace_isOpen {v : Vault} (hf : v.hasFile path = true) :
    (FileState.ofPlace (v.lookup path)).isOpen = true := by
  rw [Vault.lookup_ne_none_of_hasFile hf]
  rfl

theorem Opens.admits (ho : h.Opens path id start) (hr : h.failReads = false) :
    start.Admits id path := by
  cases ho with
  | note =>
    refine ⟨_, ⟨(Tracker.forNote h.vault path).snapshot .frontmatter, ?_,
      (Tracker.forNote_sameSite h.vault path).path, rfl⟩, fun hf => ?_⟩
    · rw [openNote_eq, snapshot?_listen, snapshot?, addNote, List.getElem?_concat_length]
      rfl
    · simp only [openNote, listen_vault] at hf
      simpa [Tracker.snapshot, Tracker.forNote] using ofPlace_isOpen hf
  | text =>
    refine ⟨_, ⟨(Tracker.forText h.vault h.read path).snapshot .text, ?_,
      (Tracker.forText_sameSite h.vault h.read path).path, rfl⟩, fun hf => ?_⟩
    · rw [openText_eq, snapshot?_listen, snapshot?, addText, List.getElem?_concat_length]
      rfl
    · simp only [openText, listen_vault] at hf
      rw [read_eq hr]
      rcases (({ path } : Tracker String).resolve h.vault).loadText_state h.vault 0 with hs | hn
      · rw [Tracker.snapshot, Tracker.forText, hs, Tracker.resolve_state]
        exact ofPlace_isOpen hf
      · rw [Tracker.resolve_path, hf] at hn
        contradiction

/-- A tracker of either flavour is opened in any host that was reached and listens from then
on. All the time, a file at its path can be read and written through it, just if no file there
was renamed onto itself meanwhile. Even then the tracker takes a file that is there, or says
that it was renamed onto itself. -/
theorem throughout_admits_iff (before after : List Action) (path : String) (id : TrackerId)
    (start : Host) (ho : (({} : Host).run before).Opens path id start)
    (hl : Throughout (·.Listens id) start after) :
    (Throughout (·.Admits id path) start after ↔
        Each (fun h a => ¬ a.Loops path h) start after) ∧
      Throughout (·.AdmitsButLoops id path) start after := by
  have hr := ho.ready (ready_empty.run before)
  have ha := ho.admits (ready_empty.run before).failReads
  refine ⟨⟨each_not_loops hr hl, fun hn => ?_⟩, ?_⟩
  · exact throughout_of_act (fun hr hl hn ha => ha.act hr hl hn) hr hl hn ha
  · obtain ⟨state, hs, hopen⟩ := ha
    have hb : start.AdmitsButLoops id path := ⟨state, hs, fun hf => .inl (hopen hf)⟩
    exact throughout_of_act (fun hr hl _ hb => hb.act hr hl) hr hl
      (each_of_forall (Q := fun _ _ => True) (fun _ _ => trivial) start after) hb

/-- A file is deleted, makes room for a folder, is made again, and leaves and comes back. -/
def comesBack : List Action :=
  [.delete "n.md", .createFolder "n.md", .insert "n.md" "two", .rename "n.md" "m.md",
    .rename "m.md" "n.md"]

/-- Its tracker goes along with all of that. -/
theorem throughout_admits_comesBack :
    Throughout (·.Admits (.text 0) "n.md")
      ((({} : Host).run [.insert "n.md" "one"]).openText "n.md").2 comesBack := by
  have hl : Throughout (·.Listens (.text 0))
      ((({} : Host).run [.insert "n.md" "one"]).openText "n.md").2 comesBack := by decide +kernel
  refine (throughout_admits_iff [.insert "n.md" "one"] comesBack "n.md" (.text 0) _ .text hl).1.mpr ?_
  simp [comesBack, Each, Action.Loops]

/-- A note, and a tracker of it. -/
def openedNote : Host := (({} : Host).run [.insert "n.md" "---\nk: v\n---\n"]).openNote "n.md" |>.2

/-- The note is renamed onto itself, and the tracker does not take it any more. -/
theorem act_loops_refuses :
    (({} : Host).run [.insert "n.md" "---\nk: v\n---\n"]).Opens "n.md" (.note 0) openedNote ∧
      Throughout (·.Listens (.note 0)) openedNote [.rename "n.md" "n.md"] ∧
      ∃ h, h = openedNote.act (.rename "n.md" "n.md") ∧ h.vault.hasFile "n.md" = true ∧
        h.Stands (.note 0) "n.md" (.renamed "n.md" "n.md") ∧ ¬ h.Admits (.note 0) "n.md" := by
  obtain ⟨h, hh⟩ : ∃ h, h = openedNote.act (.rename "n.md" "n.md") := ⟨_, rfl⟩
  have hf : h.vault.hasFile "n.md" = true := by
    rw [hh]
    decide +kernel
  have hs : h.snapshot? (.note 0) =
      some ⟨"n.md", .renamed "n.md" "n.md", some (.frontmatter [("k", .str "v")]), 1⟩ := by
    rw [hh]
    decide +kernel
  refine ⟨.note, by decide +kernel, h, hh, hf, ⟨_, hs, rfl, rfl⟩, ?_⟩
  rintro ⟨state, ⟨s, hs', -, rfl⟩, hopen⟩
  have ho := hopen hf
  rw [← Option.some.inj (hs.symm.trans hs')] at ho
  contradiction

end Host

end NoteForms
