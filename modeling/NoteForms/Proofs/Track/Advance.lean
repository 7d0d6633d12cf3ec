import NoteForms.Proofs.Track.Run

/-! Revisions of trackers. Whatever happens to a host, a tracker that is there stays there and
keeps its path, its revision never falls, and its data is what it was as long as its revision
is. So whoever has seen the data at a revision knows it at the same revision later on. Nor does
a tracker that has looked its path up forget that. Nothing is asked of the host here: reads may
be left out or be rejected, and listeners may be missing. -/

namespace NoteForms

namespace Tracker

variable {α : Type}

/-- The revision has not fallen, and if it is the same, so is the data. The path is the same, and
it stays looked up. -/
structure Advances (t t' : Tracker α) : Prop where
  revision : t.revision ≤ t'.revision
  data : t'.revision = t.revision → t'.data = t.data
  path : t'.path = t.path
  lookedUp : t.state ≠ .unresolved → t'.state ≠ .unresolved

/-- Nothing of the data was replaced. -/
theorem advances_of_eq {t t' : Tracker α} (hr : t'.revision = t.revision) (hd : t'.data = t.data)
    (hp : t'.path = t.path) (hs : t.state ≠ .unresolved → t'.state ≠ .unresolved) :
    Advances t t' := ⟨Nat.le_of_eq hr.symm, fun _ => hd, hp, hs⟩

theorem Advances.rfl {t : Tracker α} : Advances t t :=
  advances_of_eq (Eq.refl _) (Eq.refl _) (Eq.refl _) id

theorem Advances.trans {t t' t'' : Tracker α} (h₁ : Advances t t') (h₂ : Advances t' t'') :
    Advances t t'' := by
  refine ⟨Nat.le_trans h₁.revision h₂.revision, fun he => ?_, h₂.path.trans h₁.path,
    fun hs => h₂.lookedUp (h₁.lookedUp hs)⟩
  -- the revision in between lies between the same two
  have hle₁ := h₁.revision
  have hle₂ := h₂.revision
  exact (h₂.data (by omega)).trans (h₁.data (by omega))

section Steps

variable (t : Tracker α) (s : FileState) (d : Option α) (v : Vault) (c : Change)

theorem setState_advances (hs : s ≠ .unresolved) : Advances t (t.setState s) := by
  unfold setState
  split
  · exact .rfl
  · exact advances_of_eq rfl rfl rfl fun _ => hs

theorem setData_advances : Advances t (t.setData d) :=
  ⟨Nat.le_succ _, fun he => absurd he (Nat.succ_ne_self _), rfl, id⟩

theorem invalidate_advances : Advances t t.invalidate := advances_of_eq rfl rfl rfl id

/-- Whatever is found at the path, it is looked up. -/
theorem ofPlace_ne_unresolved (p : Option Place) : FileState.ofPlace p ≠ .unresolved := by
  match p with
  | none | some (.file _) | some (.folder _) => nofun

theorem react_advances : Advances t (t.react v c).1 := by
  cases c with
  | unrelated => exact .rfl
  | arrived => exact t.setState_advances _ (ofPlace_ne_unresolved _)
  | modified => exact .rfl
  | deleted =>
    exact (t.invalidate_advances.trans (setState_advances _ .resolved nofun)).trans
      (setData_advances _ none)
  | left target => exact t.invalidate_advances.trans (setState_advances _ _ nofun)

theorem writeFailed_advances : Advances t t.writeFailed := t.setState_advances _ nofun

theorem writeSucceeded_advances : Advances t t.writeSucceeded := by
  unfold writeSucceeded
  split
  · exact t.setState_advances _ nofun
  · exact .rfl

end Steps

theorem loadNote_advances (t : Tracker Object) (v : Vault) : Advances t (t.loadNote v) := by
  unfold loadNote
  split
  · exact t.setData_advances _
  · exact .rfl

theorem hearNote_advances (v : Vault) (e : Event) (t : Tracker Object) :
    Advances t (t.hearNote v e) := by
  have hr := t.react_advances v (.of t.path e)
  simp only [hearNote]
  split
  · exact hr.trans (loadNote_advances _ _)
  · exact hr

section Text

variable (t : Tracker String) (read : String → Except VaultFault String) (epoch : Nat)

theorem takeText_advances (result : Except VaultFault String) : Advances t (t.takeText result) := by
  unfold takeText
  split
  · exact t.setData_advances _
  · split
    · exact .rfl
    · exact t.setState_advances _ nofun
    · exact t.setState_advances _ nofun

theorem loadText_advances : Advances t (t.loadText read epoch) := by
  unfold loadText
  split
  · exact t.takeText_advances _
  · exact .rfl

theorem keepText_advances (text : String) : Advances t (t.invalidate.setData (some text)) :=
  t.invalidate_advances.trans (setData_advances _ _)

end Text

/-! ### Lists of trackers -/

/-- Each tracker of the first list has advanced to the one at its place in the second. -/
def AllAdvance (ts ts' : List (Tracker α)) : Prop :=
  ∀ (n : Nat) (t : Tracker α), ts[n]? = some t → ∃ t', ts'[n]? = some t' ∧ Advances t t'

variable {ts ts' ts'' : List (Tracker α)}

theorem AllAdvance.rfl : AllAdvance ts ts := fun _ t ht => ⟨t, ht, .rfl⟩

theorem AllAdvance.trans (h₁ : AllAdvance ts ts') (h₂ : AllAdvance ts' ts'') :
    AllAdvance ts ts'' := by
  intro n t ht
  obtain ⟨t', ht', ha⟩ := h₁ n t ht
  obtain ⟨t'', ht'', ha'⟩ := h₂ n t' ht'
  exact ⟨t'', ht'', ha.trans ha'⟩

theorem AllAdvance.at (h : AllAdvance ts ts') {n : Nat} (hn : n < ts.length) :
    ((ts[n]?).map (·.revision)).getD 0 ≤ ((ts'[n]?).map (·.revision)).getD 0 ∧
      (((ts'[n]?).map (·.revision)).getD 0 = ((ts[n]?).map (·.revision)).getD 0 →
        (ts'[n]?).bind (·.data) = (ts[n]?).bind (·.data)) := by
  have ht := List.getElem?_eq_getElem hn
  obtain ⟨t', ht', ha⟩ := h n _ ht
  rw [ht, ht']
  exact ⟨ha.revision, ha.data⟩

theorem allAdvance_modify (n : Nat) {f : Tracker α → Tracker α} (hf : ∀ t, Advances t (f t)) :
    AllAdvance ts (ts.modify n f) := by
  intro m t ht
  refine ⟨if n = m then f t else t, ?_, ?_⟩
  · rw [List.getElem?_modify, ht]
    rfl
  · split
    · exact hf t
    · exact .rfl

theorem allAdvance_set {n : Nat} {t t' : Tracker α} (ht : ts[n]? = some t) (ha : Advances t t') :
    AllAdvance ts (ts.set n t') := by
  intro m u hu
  by_cases hn : n = m
  · subst hn
    rw [← Option.some.inj (ht.symm.trans hu)]
    exact ⟨t', by rw [List.getElem?_set_self (List.getElem?_eq_some_iff.mp ht).1], ha⟩
  · exact ⟨u, by rw [List.getElem?_set_ne hn, hu], .rfl⟩

theorem allAdvance_append (t : Tracker α) : AllAdvance ts (ts ++ [t]) := fun _ u hu =>
  ⟨u, by rw [List.getElem?_append_left (List.getElem?_eq_some_iff.mp hu).1, hu], .rfl⟩

end Tracker

namespace Host

open Tracker (AllAdvance)

/-- All trackers are there still, and have advanced. -/
structure Advances (h h' : Host) : Prop where
  notes : AllAdvance h.notes h'.notes
  texts : AllAdvance h.texts h'.texts

variable {h h' h'' : Host} {id : TrackerId}

/-- At most other parts of the host have changed. -/
theorem advances_of_eq (hn : h'.notes = h.notes) (ht : h'.texts = h.texts) : Advances h h' :=
  ⟨hn ▸ .rfl, ht ▸ .rfl⟩

theorem Advances.rfl : Advances h h := ⟨.rfl, .rfl⟩

theorem Advances.trans (h₁ : Advances h h') (h₂ : Advances h' h'') : Advances h h'' :=
  ⟨h₁.notes.trans h₂.notes, h₁.texts.trans h₂.texts⟩

theorem Advances.knows (ha : Advances h h') (hk : h.Knows id) : h'.Knows id := by
  cases id with
  | note n =>
    obtain ⟨t, ht, -⟩ := ha.notes n _ (List.getElem?_eq_getElem hk)
    exact (List.getElem?_eq_some_iff.mp ht).1
  | text n =>
    obtain ⟨t, ht, -⟩ := ha.texts n _ (List.getElem?_eq_getElem hk)
    exact (List.getElem?_eq_some_iff.mp ht).1

/-! ### Trackers changed one by one -/

theorem modifyNotes_advances (h : Host) (n : Nat) {f : Tracker Object → Tracker Object}
    (hf : ∀ t, Tracker.Advances t (f t)) : Advances h { h with notes := h.notes.modify n f } :=
  ⟨Tracker.allAdvance_modify n hf, .rfl⟩

theorem modifyTexts_advances (h : Host) (n : Nat) {f : Tracker String → Tracker String}
    (hf : ∀ t, Tracker.Advances t (f t)) : Advances h { h with texts := h.texts.modify n f } :=
  ⟨.rfl, Tracker.allAdvance_modify n hf⟩

theorem adjust_advances (h : Host) (id : TrackerId) {f : Adjustment}
    (hf : ∀ {α : Type} (t : Tracker α), Tracker.Advances t (f t)) : Advances h (h.adjust id f) := by
  cases id with
  | note n => exact modifyNotes_advances h n hf
  | text n => exact modifyTexts_advances h n hf

/-! ### Events -/

theorem deliver_advances (e : Event) (h : Host) (r : Receiver) : Advances h (deliver e h r) := by
  match r with
  | .recorder => exact advances_of_eq rfl rfl
  | .tracker (.note n) => exact modifyNotes_advances h n fun t => t.hearNote_advances h.vault e
  | .tracker (.text n) =>
    simp only [deliver]
    split
    · exact .rfl
    · next t ht => exact ⟨.rfl, Tracker.allAdvance_set ht (t.react_advances h.vault _)⟩

theorem emit_advances (h : Host) (e : Event) : Advances h (h.emit e) :=
  List.foldlRecOn _ _ .rfl fun h' ha r _ => ha.trans (deliver_advances e h' r)

theorem changed_advances (h : Host) (c : Event × Vault) : Advances h (h.changed c) := by
  have hv : Advances h { h with vault := c.2 } := advances_of_eq rfl rfl
  exact hv.trans (emit_advances _ c.1)

/-! ### Actions -/

theorem rewired_advances (h : Host) (bus : Bus) (id : TrackerId) (ids : List Nat) :
    Advances h ({ h with bus }.adjust id fun t => { t with listeners := ids }) := by
  have hb : Advances h { h with bus } := advances_of_eq rfl rfl
  exact hb.trans (adjust_advances _ id fun _ => Tracker.advances_of_eq rfl rfl rfl fun hs => hs)

theorem listen_advances (h : Host) (id : TrackerId) : Advances h (h.listen id) := by
  unfold Host.listen
  split
  · exact rewired_advances h _ id _
  · exact .rfl

theorem unlisten_advances (h : Host) (id : TrackerId) : Advances h (h.unlisten id) :=
  rewired_advances h _ id []

theorem share_advances (h : Host) (id : TrackerId) : Advances h (h.share id) :=
  adjust_advances h id fun _ => Tracker.advances_of_eq rfl rfl rfl fun hs => hs

theorem drop_advances (h : Host) (id : TrackerId) : Advances h (h.drop id) := by
  have ha : Advances h (h.adjust id fun t => { t with handles := t.handles - 1 }) :=
    adjust_advances h id fun _ => Tracker.advances_of_eq rfl rfl rfl fun hs => hs
  simp only [Host.drop]
  split
  · exact ha
  · exact ha.trans (unlisten_advances _ id)

theorem openNote_advances (h : Host) (path : String) : Advances h (h.openNote path).2 := by
  have ha : Advances h (h.addNote (.forNote h.vault path)) := ⟨Tracker.allAdvance_append _, .rfl⟩
  exact ha.trans (listen_advances _ _)

theorem openText_advances (h : Host) (path : String) : Advances h (h.openText path).2 := by
  have ha : Advances h (h.addText (.forText h.vault h.read path)) :=
    ⟨.rfl, Tracker.allAdvance_append _⟩
  exact ha.trans (listen_advances _ _)

theorem runReadAt_advances (h : Host) (i : Nat) : Advances h (h.runReadAt i) := by
  unfold runReadAt
  split
  · exact .rfl
  · have hp : Advances h { h with pending := h.pending.eraseIdx i } := advances_of_eq rfl rfl
    refine hp.trans (modifyTexts_advances _ _ fun t => ?_)
    split
    · exact t.loadText_advances _ _
    · exact .rfl

theorem refresh_advances (h : Host) (id : TrackerId) : Advances h (h.refresh id) := by
  cases id with
  | note n => exact modifyNotes_advances h n fun t => t.loadNote_advances h.vault
  | text n => exact modifyTexts_advances h n fun t => t.loadText_advances h.read t.epoch

theorem settle_advances (h : Host) (id : TrackerId) {keep : Host → Host}
    (hk : ∀ h, Advances h (keep h)) (outcome : Except VaultFault (Event × Vault)) :
    Advances h (h.settle id keep outcome).2 := by
  cases outcome with
  | error fault => exact adjust_advances h id fun t => t.writeFailed_advances
  | ok c =>
    have ha := (changed_advances h c).trans (hk _)
    exact ha.trans (adjust_advances _ id fun t => t.writeSucceeded_advances)

theorem modifyNote_advances (h : Host) (n : Nat) (f : Object → Object) :
    Advances h (h.modifyNote n f).2 := by
  unfold modifyNote
  split
  · exact .rfl
  · exact settle_advances h _ (fun _ => .rfl) _

theorem writeText_advances (h : Host) (n : Nat) (text : String) :
    Advances h (h.writeText n text).2 := by
  unfold writeText
  split
  · exact .rfl
  · exact settle_advances h _ (fun h => modifyTexts_advances h n fun t => t.keepText_advances text) _

/-- Whatever is done, and however the host stands. -/
theorem act_advances (h : Host) (a : Action) : Advances h (h.act a) := by
  cases a with
  | insert path text => exact changed_advances h _
  | createFolder path => exact changed_advances h _
  | delete path =>
    simp only [act, delete]
    split
    · exact .rfl
    · exact changed_advances h _
  | rename source target =>
    simp only [act, rename]
    split
    · exact .rfl
    · exact changed_advances h _
  | write path text =>
    simp only [act, write]
    split
    · exact .rfl
    · exact changed_advances h _
  | process path f =>
    simp only [act, process]
    split
    · exact .rfl
    · exact changed_advances h _
  | setFailWrites fail => exact advances_of_eq rfl rfl
  | runRead i => exact runReadAt_advances h i
  | openNote path => exact openNote_advances h path
  | openText path => exact openText_advances h path
  | share id => exact share_advances h id
  | drop id => exact drop_advances h id
  | listen id => exact listen_advances h id
  | unlisten id => exact unlisten_advances h id
  | refresh id => exact refresh_advances h id
  | modifyNote n f => exact modifyNote_advances h n f
  | writeText n text => exact writeText_advances h n text

end Host

end NoteForms
