import NoteForms.Proofs.Note.Distinct
import NoteForms.Proofs.Track.Run

/-! Frontmatter with distinct keys, as it is kept and tracked. What is put in a vault from outside
is text, so its frontmatter has no key twice. It stays so whatever is done, if those who write
frontmatter keep to it, and then no tracker ever has data with a key twice. -/

namespace NoteForms

/-! ### Vaults -/

/-- The frontmatter that is kept of a file has no key twice. -/
def StoredFile.Distinct (f : StoredFile) : Prop := ∀ fm, f.frontmatter = some fm → fm.Distinct

theorem StoredFile.ofText_distinct (text : String) : (ofText text).Distinct := fun _ hfm => by
  obtain ⟨note, hn, hfm⟩ := Option.bind_eq_some_iff.mp hfm
  exact Note.parse_distinct hn hfm

namespace Vault

def Distinct (v : Vault) : Prop := ∀ e ∈ v.files, e.2.Distinct

variable {v : Vault} {path : String}

theorem Distinct.putFile (hv : v.Distinct) {f : StoredFile} (hf : f.Distinct) :
    (v.putFile path f).Distinct := fun e he => by
  rcases Entries.eq_or_mem_of_mem_put he with rfl | he
  · exact hf
  · exact hv e he

theorem Distinct.remove (hv : v.Distinct) :
    ({ v with files := v.files.remove path } : Vault).Distinct :=
  fun e he => hv e (Entries.mem_of_mem_remove he)

theorem Distinct.frontmatter? (hv : v.Distinct) {fm : Object}
    (hfm : v.frontmatter? path = some fm) : fm.Distinct := by
  obtain ⟨f, hf, hfm⟩ := Option.bind_eq_some_iff.mp hfm
  exact hv _ (Entries.mem_of_lookup hf) fm hfm

theorem Distinct.write (hv : v.Distinct) {text : String} {c : Event × Vault}
    (hc : v.write path text = .ok c) : c.2.Distinct := by
  obtain ⟨-, rfl⟩ := write_eq_ok hc
  exact hv.putFile (StoredFile.ofText_distinct text)

theorem Distinct.process (hv : v.Distinct) {f : Object → Object}
    (hf : ∀ o : Object, o.Distinct → (f o).Distinct) {c : Event × Vault}
    (hc : v.process path f = .ok c) : c.2.Distinct := by
  obtain ⟨-, note, hn, rfl⟩ := process_eq_ok hc
  refine hv.putFile fun fm hfm => ?_
  rw [← Option.some.inj hfm]
  refine hf _ ?_
  cases hnote : note.frontmatter with
  | none => exact Object.distinct_nil
  | some fm' => exact Note.parse_distinct hn hnote

end Vault

/-! ### Trackers -/

namespace Tracker

def Distinct (t : Tracker Object) : Prop := ∀ fm, t.data = some fm → fm.Distinct

variable {t : Tracker Object} {v : Vault}

theorem Distinct.of_data {t' : Tracker Object} (ht : t.Distinct) (hd : t'.data = t.data) :
    t'.Distinct := by rwa [Distinct, hd]

theorem Distinct.loadNote (ht : t.Distinct) (hv : v.Distinct) : (t.loadNote v).Distinct := by
  unfold Tracker.loadNote
  split
  · exact fun _ => hv.frontmatter?
  · exact ht

theorem Distinct.react (ht : t.Distinct) (c : Change) : (t.react v c).1.Distinct := by
  cases c with
  | unrelated | modified => exact ht
  | arrived => exact ht.of_data (t.setState_data _)
  | deleted => exact nofun
  | left target => exact ht.of_data (setState_data t.invalidate _)

theorem Distinct.hearNote (ht : t.Distinct) (hv : v.Distinct) (e : Event) :
    (t.hearNote v e).Distinct := by
  simp only [Tracker.hearNote]
  split
  · exact (ht.react _).loadNote hv
  · exact ht.react _

theorem forNote_distinct (hv : v.Distinct) (path : String) : (forNote v path).Distinct := by
  have ht : ({ path } : Tracker Object).Distinct := nofun
  exact (ht.of_data (setState_data _ _)).loadNote hv

end Tracker

/-! ### Hosts -/

namespace Host

/-- Keys are distinct in what the vault keeps, and in what trackers of frontmatter know. -/
structure Distinct (h : Host) : Prop where
  vault : h.vault.Distinct
  notes : ∀ (n : Nat) (t : Tracker Object), h.notes[n]? = some t → t.Distinct

/-- If an action writes frontmatter, it makes no key twice. -/
def Action.Distinct : Action → Prop
  | .process _ f | .modifyNote _ f => ∀ o : Object, o.Distinct → (f o).Distinct
  | _ => True

theorem distinct_empty : ({} : Host).Distinct := ⟨nofun, nofun⟩

theorem Action.change?_distinct {v : Vault} (hv : v.Distinct) {a : Action} (ha : a.Distinct)
    {c : Event × Vault} (hc : a.change? v = some c) : c.2.Distinct := by
  cases a with
  | insert path text =>
    rw [← Option.some.inj hc]
    exact hv.putFile (StoredFile.ofText_distinct text)
  | createFolder path =>
    rw [← Option.some.inj hc]
    show ∀ e ∈ (v.addFolder path).files, e.2.Distinct
    rwa [Vault.addFolder_files]
  | delete path =>
    simp only [Action.change?, Vault.delete] at hc
    split at hc
    · contradiction
    · rw [← Option.some.inj hc]
      exact hv.remove
    · rw [← Option.some.inj hc]
      exact hv
  | rename source target =>
    obtain ⟨f, hf, rfl⟩ := Option.map_eq_some_iff.mp hc
    exact hv.remove.putFile (hv _ (Entries.mem_of_lookup hf))
  | write path text => exact hv.write (toOption_eq_some hc)
  | process path f => exact hv.process ha (toOption_eq_some hc)
  | _ => contradiction

variable {h : Host}

theorem Distinct.modifyNotes (hd : h.Distinct) (n : Nat) {f : Tracker Object → Tracker Object}
    (hf : ∀ t : Tracker Object, t.Distinct → (f t).Distinct) :
    ({ h with notes := h.notes.modify n f } : Host).Distinct := by
  refine ⟨hd.vault, fun m t ht => ?_⟩
  simp only [List.getElem?_modify] at ht
  obtain ⟨t', ht', rfl⟩ := Option.map_eq_some_iff.mp ht
  split
  · exact hf t' (hd.notes m t' ht')
  · exact hd.notes m t' ht'

theorem Distinct.adjust (hd : h.Distinct) (id : TrackerId) {f : Adjustment}
    (hf : ∀ t : Tracker Object, (f t).data = t.data) : (h.adjust id f).Distinct := by
  cases id with
  | note n => exact hd.modifyNotes n fun t ht => ht.of_data (hf t)
  | text n => exact ⟨hd.vault, hd.notes⟩

theorem distinct_indifferent : Indifferent Host.Distinct where
  bus _ hd := ⟨hd.vault, hd.notes⟩
  adjust id _ hf hd := hd.adjust id fun t => (hf t).2.2.1

theorem Distinct.deliver (hd : h.Distinct) (e : Event) (r : Receiver) :
    (deliver e h r).Distinct := by
  match r with
  | .recorder => exact ⟨hd.vault, hd.notes⟩
  | .tracker (.note n) => exact hd.modifyNotes n fun t ht => ht.hearNote hd.vault e
  | .tracker (.text n) =>
    simp only [Host.deliver]
    split
    · exact hd
    · exact ⟨hd.vault, hd.notes⟩

theorem Distinct.changed (hd : h.Distinct) {c : Event × Vault} (hc : c.2.Distinct) :
    (h.changed c).Distinct := by
  have hv : ({ h with vault := c.2 } : Host).Distinct := ⟨hc, hd.notes⟩
  exact List.foldlRecOn _ _ (motive := Host.Distinct) hv fun _ hd r _ => hd.deliver c.1 r

theorem Distinct.addNote (hd : h.Distinct) {t : Tracker Object} (ht : t.Distinct) :
    (h.addNote t).Distinct := by
  refine ⟨hd.vault, fun n u hu => ?_⟩
  rcases List.mem_append.mp (List.mem_of_getElem? hu) with hm | hm
  · obtain ⟨m, hm⟩ := List.getElem?_of_mem hm
    exact hd.notes m u hm
  · rwa [List.mem_singleton.mp hm]

theorem Distinct.settle (hd : h.Distinct) (id : TrackerId) {keep : Host → Host}
    (hk : ∀ {h : Host}, h.Distinct → (keep h).Distinct)
    {outcome : Except VaultFault (Event × Vault)} (ho : ∀ c, outcome = .ok c → c.2.Distinct) :
    (h.settle id keep outcome).2.Distinct := by
  cases outcome with
  | error fault => exact hd.adjust id fun t => t.setState_data _
  | ok c =>
    refine (hk (hd.changed (ho c rfl))).adjust id fun t => ?_
    unfold Tracker.writeSucceeded
    split
    · exact t.setState_data _
    · rfl

/-- Whatever is done. -/
theorem Distinct.act (hd : h.Distinct) {a : Action} (ha : a.Distinct) : (h.act a).Distinct := by
  have houtside : a.Outside → (h.act a).Distinct := fun ho => by
    rcases act_outside h ho with he | ⟨c, hc, he⟩ <;> rw [he]
    · exact hd
    · exact hd.changed (Action.change?_distinct hd.vault ha hc)
  have hi := distinct_indifferent
  cases a with
  | insert | createFolder | delete | rename | write | process => exact houtside trivial
  | setFailWrites fail => exact ⟨hd.vault, hd.notes⟩
  | runRead i =>
    simp only [Host.act, runReadAt]
    split <;> exact ⟨hd.vault, hd.notes⟩
  | openNote path =>
    exact hi.listen (hd.addNote (Tracker.forNote_distinct hd.vault path)) _
  | openText path =>
    have ht (t : Tracker String) : (h.addText t).Distinct := ⟨hd.vault, hd.notes⟩
    exact hi.listen (ht _) _
  | share id => exact hi.share hd id
  | drop id => exact hi.drop hd id
  | listen id => exact hi.listen hd id
  | unlisten id => exact hi.unlisten hd id
  | refresh id =>
    cases id with
    | note n => exact hd.modifyNotes n fun t ht => ht.loadNote hd.vault
    | text n => exact ⟨hd.vault, hd.notes⟩
  | modifyNote n f =>
    simp only [Host.act, modifyNote]
    split
    · exact hd
    · exact hd.settle _ id fun c hc => hd.vault.process ha hc
  | writeText n text =>
    simp only [Host.act, writeText]
    split
    · exact hd
    · have hk {h : Host} (hd : h.Distinct) : (keepText n text h).Distinct := ⟨hd.vault, hd.notes⟩
      exact hd.settle _ hk fun c hc => hd.vault.write hc

end Host

end NoteForms
