import NoteForms.Proofs.Vault.Report

/-! What a tracker knows of its file, one event at a time. A tracker of frontmatter
whose file may be read has what the vault keeps with the file. A tracker of text may
lag behind, but then a read of its own epoch waits; a read that waits in that epoch
finds a file. Both survive every event that tells of a change, whatever the tracker
stood at before. -/

namespace NoteForms.Tracker

variable {α : Type}

/-! ### Fields -/

/-- Two trackers are at one path, with the same listeners and as many users. -/
structure SameSite (t t' : Tracker α) : Prop where
  path : t'.path = t.path
  listeners : t'.listeners = t.listeners
  handles : t'.handles = t.handles

theorem SameSite.rfl {t : Tracker α} : SameSite t t := ⟨Eq.refl _, Eq.refl _, Eq.refl _⟩

theorem SameSite.trans {t t' t'' : Tracker α} (h₁ : SameSite t t') (h₂ : SameSite t' t'') :
    SameSite t t'' :=
  ⟨h₂.path.trans h₁.path, h₂.listeners.trans h₁.listeners, h₂.handles.trans h₁.handles⟩

section Fields

variable (t : Tracker α) (s : FileState) (d : Option α) (v : Vault) (c : Change)

theorem setState_sameSite : SameSite t (t.setState s) := by
  unfold setState
  split <;> exact ⟨rfl, rfl, rfl⟩

theorem setData_sameSite : SameSite t (t.setData d) := ⟨rfl, rfl, rfl⟩

theorem invalidate_sameSite : SameSite t t.invalidate := ⟨rfl, rfl, rfl⟩

theorem react_sameSite : SameSite t (t.react v c).1 := by
  have hi := t.invalidate_sameSite
  cases c with
  | unrelated => exact .rfl
  | arrived => exact t.setState_sameSite _
  | modified => exact .rfl
  | deleted => exact (hi.trans (setState_sameSite _ _)).trans (setData_sameSite _ _)
  | left target => exact hi.trans (setState_sameSite _ _)

theorem writeFailed_sameSite : SameSite t t.writeFailed := t.setState_sameSite _

theorem writeSucceeded_sameSite : SameSite t t.writeSucceeded := by
  unfold writeSucceeded
  split
  · exact t.setState_sameSite _
  · exact .rfl

@[simp] theorem setState_state : (t.setState s).state = s := by
  unfold setState
  split <;> simp_all

@[simp] theorem setState_path : (t.setState s).path = t.path := (t.setState_sameSite s).path

@[simp] theorem setState_data : (t.setState s).data = t.data := by unfold setState; split <;> rfl

@[simp] theorem setState_epoch : (t.setState s).epoch = t.epoch := by unfold setState; split <;> rfl

@[simp] theorem setData_state : (t.setData d).state = t.state := rfl

@[simp] theorem setData_path : (t.setData d).path = t.path := rfl

@[simp] theorem setData_data : (t.setData d).data = d := rfl

@[simp] theorem setData_epoch : (t.setData d).epoch = t.epoch := rfl

@[simp] theorem resolve_state : (t.resolve v).state = .ofPlace (v.lookup t.path) := by simp [resolve]

@[simp] theorem resolve_path : (t.resolve v).path = t.path := by simp [resolve]

@[simp] theorem resolve_data : (t.resolve v).data = t.data := by simp [resolve]

@[simp] theorem resolve_epoch : (t.resolve v).epoch = t.epoch := by simp [resolve]

@[simp] theorem writeSucceeded_path : t.writeSucceeded.path = t.path := t.writeSucceeded_sameSite.path

@[simp] theorem writeSucceeded_data : t.writeSucceeded.data = t.data := by
  unfold writeSucceeded; split <;> simp

@[simp] theorem writeSucceeded_epoch : t.writeSucceeded.epoch = t.epoch := by
  unfold writeSucceeded; split <;> simp

@[simp] theorem writeSucceeded_isOpen : t.writeSucceeded.state.isOpen = t.state.isOpen := by
  unfold writeSucceeded
  split
  · next hs => rw [setState_state, hs]; rfl
  · rfl

end Fields

theorem loadNote_sameSite (t : Tracker Object) (v : Vault) : SameSite t (t.loadNote v) := by
  unfold loadNote
  split
  · exact t.setData_sameSite _
  · exact .rfl

section Text

variable (t : Tracker String) (result : Except VaultFault String)
  (read : String → Except VaultFault String) (epoch : Nat)

theorem takeText_sameSite : SameSite t (t.takeText result) := by
  unfold takeText
  split
  · exact t.setData_sameSite _
  · split
    · exact .rfl
    · exact t.setState_sameSite _
    · exact t.setState_sameSite _

@[simp] theorem takeText_epoch : (t.takeText result).epoch = t.epoch := by
  unfold takeText
  split
  · rfl
  · split <;> simp

theorem loadText_sameSite : SameSite t (t.loadText read epoch) := by
  unfold loadText
  split
  · exact t.takeText_sameSite _
  · exact .rfl

end Text

/-! ### Frontmatter -/

/-- A tracker of frontmatter agrees with the vault. -/
structure FollowsNote (v : Vault) (t : Tracker Object) : Prop where
  fresh : t.state.isOpen = true → t.data = v.frontmatter? t.path
  missing : t.state = .notFound → v.hasFile t.path = false ∧ t.data = none

/-- What a tracker of frontmatter makes of an event. -/
def hearNote (v : Vault) (e : Event) (t : Tracker Object) : Tracker Object :=
  let (t, load) := t.react v (.of t.path e)
  if load then t.loadNote v else t

theorem hearNote_sameSite (v : Vault) (e : Event) (t : Tracker Object) :
    SameSite t (t.hearNote v e) := by
  have hr := t.react_sameSite v (.of t.path e)
  simp only [hearNote]
  split
  · exact hr.trans (loadNote_sameSite _ v)
  · exact hr

theorem FollowsNote.congr {v v' : Vault} {t : Tracker Object} (h : t.FollowsNote v)
    (hv : v'.files.lookup t.path = v.files.lookup t.path) : t.FollowsNote v' where
  fresh ho := by rw [h.fresh ho, Vault.frontmatter?, Vault.frontmatter?, hv]
  missing hs := by rw [Vault.hasFile_congr hv]; exact h.missing hs

/-- Only the path, the state and the data matter. -/
theorem FollowsNote.alike {v : Vault} {t t' : Tracker Object} (h : t.FollowsNote v)
    (hp : t'.path = t.path) (hs : t'.state = t.state) (hd : t'.data = t.data) :
    t'.FollowsNote v where
  fresh ho := by rw [hd, hp]; exact h.fresh (hs ▸ ho)
  missing hn := by rw [hd, hp]; exact h.missing (hs ▸ hn)

/-- A load makes a tracker agree, unless it stands at no file. -/
theorem loadNote_follows {v : Vault} {t : Tracker Object}
    (hm : t.state = .notFound → v.hasFile t.path = false ∧ t.data = none) :
    (t.loadNote v).FollowsNote v := by
  by_cases ho : t.state.isOpen = true
  · refine ⟨fun _ => by simp [loadNote, ho], fun hs => ?_⟩
    have hs' : t.state = .notFound := by simpa [loadNote, ho] using hs
    simp [hs', FileState.isOpen] at ho
  · have he : t.loadNote v = t := by simp [loadNote, ho]
    rw [he]
    exact ⟨fun ho' => absurd ho' ho, hm⟩

theorem ofPlace_ne_notFound {v : Vault} {p : String} (h : v.lookup p ≠ none) :
    FileState.ofPlace (v.lookup p) ≠ .notFound := by
  cases hp : v.lookup p with
  | none => exact absurd hp h
  | some place => cases place <;> simp [FileState.ofPlace]

theorem hearNote_follows {v v' : Vault} {t : Tracker Object} {e : Event} (h : t.FollowsNote v)
    (hr : Vault.Reports e v v') : (t.hearNote v' e).FollowsNote v' := by
  have ht := hr.told t.path
  unfold hearNote
  cases hc : Change.of t.path e with
  | unrelated =>
    rw [hc] at ht
    exact h.congr ht
  | arrived =>
    rw [hc] at ht
    refine loadNote_follows fun hs => ?_
    exact absurd (by simpa using hs) (ofPlace_ne_notFound ht)
  | modified =>
    rw [hc] at ht
    refine loadNote_follows fun hs => ?_
    have hn := (h.missing hs).1
    rw [ht.1] at hn
    contradiction
  | deleted =>
    rw [hc] at ht
    refine ⟨fun _ => ?_, fun hs => by simp [react] at hs⟩
    simpa [react, invalidate] using (Vault.frontmatter?_of_not_hasFile ht).symm
  | left target => exact ⟨fun ho => by simp [react, FileState.isOpen] at ho, fun hs => by simp [react] at hs⟩

/-- The tracker of frontmatter that is opened at a path. -/
def forNote (v : Vault) (p : String) : Tracker Object :=
  (({ path := p } : Tracker Object).resolve v).loadNote v

theorem forNote_sameSite (v : Vault) (p : String) : SameSite { path := p } (forNote v p) :=
  (setState_sameSite _ _).trans (loadNote_sameSite _ v)

/-- An opened tracker agrees. -/
theorem forNote_follows (v : Vault) (p : String) : (forNote v p).FollowsNote v := by
  refine loadNote_follows fun hs => ?_
  rw [resolve_state] at hs
  rw [resolve_path, resolve_data]
  refine ⟨?_, rfl⟩
  cases hf : v.hasFile p with
  | false => rfl
  | true => exact absurd hs (ofPlace_ne_notFound (by simp [Vault.lookup_ne_none_of_hasFile hf]))

theorem FollowsNote.writeFailed {v : Vault} {t : Tracker Object} (h : t.FollowsNote v)
    (ho : t.state.isOpen = true) : t.writeFailed.FollowsNote v where
  fresh _ := by simpa [Tracker.writeFailed] using h.fresh ho
  missing hs := by simp [Tracker.writeFailed] at hs

theorem FollowsNote.writeSucceeded {v : Vault} {t : Tracker Object} (h : t.FollowsNote v) :
    t.writeSucceeded.FollowsNote v where
  fresh ho := by simpa using h.fresh (by simpa using ho)
  missing hs := by
    unfold Tracker.writeSucceeded at hs ⊢
    split at hs
    · simp at hs
    · exact h.missing hs

/-! ### Text -/

/-- A tracker of text agrees with the vault, as far as the reads allow that wait in
the given epochs. -/
structure FollowsText (waiting : List Nat) (v : Vault) (t : Tracker String) : Prop where
  bound : ∀ epoch ∈ waiting, epoch ≤ t.epoch
  held : t.state.isOpen = true → t.epoch ∈ waiting → v.hasFile t.path = true
  fresh : t.state.isOpen = true → t.data = v.text? t.path ∨ t.epoch ∈ waiting

/-- What a tracker of text makes of an event, and whether it asks for a read. -/
def hearText (v : Vault) (e : Event) (t : Tracker String) : Tracker String × Bool :=
  t.react v (.of t.path e)

/-- The epochs in which reads wait after an event. -/
def waitingAfter (waiting : List Nat) (r : Tracker String × Bool) : List Nat :=
  if r.2 then waiting ++ [r.1.epoch] else waiting

theorem FollowsText.congr {waiting : List Nat} {v v' : Vault} {t : Tracker String}
    (h : t.FollowsText waiting v) (hv : v'.files.lookup t.path = v.files.lookup t.path) :
    t.FollowsText waiting v' where
  bound := h.bound
  held ho he := by rw [Vault.hasFile_congr hv]; exact h.held ho he
  fresh ho := by
    rw [Vault.text?, hv]
    exact h.fresh ho

theorem FollowsText.alike {waiting : List Nat} {v : Vault} {t t' : Tracker String}
    (h : t.FollowsText waiting v) (hp : t'.path = t.path) (hs : t'.state = t.state)
    (hd : t'.data = t.data) (he : t'.epoch = t.epoch) : t'.FollowsText waiting v where
  bound := by rw [he]; exact h.bound
  held ho := by rw [he, hp]; exact h.held (hs ▸ ho)
  fresh ho := by rw [hd, he, hp]; exact h.fresh (hs ▸ ho)

theorem hearText_follows {waiting : List Nat} {v v' : Vault} {t : Tracker String} {e : Event}
    (h : t.FollowsText waiting v) (hr : Vault.Reports e v v') :
    (t.hearText v' e).1.FollowsText (waitingAfter waiting (t.hearText v' e)) v' := by
  have ht := hr.told t.path
  have hnew : ∀ epoch ∈ waiting ++ [t.epoch], epoch ≤ t.epoch := by
    intro epoch he
    rcases List.mem_append.mp he with he | he
    · exact h.bound epoch he
    · exact Nat.le_of_eq (List.mem_singleton.mp he)
  unfold hearText
  cases hc : Change.of t.path e with
  | unrelated =>
    rw [hc] at ht
    exact h.congr ht
  | arrived =>
    refine ⟨by simpa [waitingAfter, react] using hnew, fun ho _ => ?_, fun _ => .inr (by simp [waitingAfter, react])⟩
    have ho' : (FileState.ofPlace (v'.lookup t.path)).isOpen = true := by simpa [react] using ho
    simpa [react] using Vault.ofPlace_lookup_isOpen ho'
  | modified =>
    rw [hc] at ht
    exact ⟨by simpa [waitingAfter, react] using hnew, fun _ _ => ht.2, fun _ => .inr (by simp [waitingAfter, react])⟩
  | deleted =>
    rw [hc] at ht
    -- no read waits in the new epoch
    have hlt : ∀ epoch ∈ waiting, epoch < t.epoch + 1 := fun epoch he => by
      have := h.bound epoch he
      omega
    refine ⟨fun epoch he => ?_, fun _ he => ?_, fun _ => .inl ?_⟩
    · simpa [react, invalidate] using Nat.le_of_lt (hlt epoch he)
    · have := hlt _ he
      simp [react, invalidate] at this
    · simpa [react, invalidate] using (Vault.text?_of_not_hasFile ht).symm
  | left target =>
    refine ⟨fun epoch he => ?_, fun ho _ => ?_, fun ho => ?_⟩
    · have := h.bound epoch he
      simp only [react, invalidate, setState_epoch]
      omega
    · simp [react, FileState.isOpen] at ho
    · simp [react, FileState.isOpen] at ho

theorem read_of_hasFile {v : Vault} {p : String} (h : v.hasFile p = true) :
    ∃ text, v.text? p = some text ∧ v.read p = .ok text := by
  obtain ⟨f, hf⟩ := Vault.hasFile_iff.mp h
  exact ⟨f.text, by simp [Vault.text?, hf], by simp [Vault.read, hf]⟩

/-- Once one of the reads that wait was run, the others do. -/
theorem loadText_follows {before after : List Nat} {v : Vault} {t : Tracker String} {epoch : Nat}
    (h : t.FollowsText (before ++ epoch :: after) v) :
    (t.loadText v.read epoch).FollowsText (before ++ after) v := by
  have hsub : ∀ e ∈ before ++ after, e ∈ before ++ epoch :: after := by
    intro e he
    rcases List.mem_append.mp he with he | he <;> simp [he]
  have hb : ∀ e ∈ before ++ after, e ≤ t.epoch := fun e he => h.bound e (hsub e he)
  by_cases hc : t.state.isOpen = true ∧ t.epoch = epoch
  · obtain ⟨text, ht, hread⟩ := read_of_hasFile (h.held hc.1 (by simp [hc.2]))
    have he : t.loadText v.read epoch = t.setData (some text) := by
      rw [loadText, if_pos hc, hread]
      rfl
    rw [he]
    exact ⟨hb, fun ho hm => h.held ho (hsub _ hm), fun _ => .inl ht.symm⟩
  · rw [loadText, if_neg hc]
    refine ⟨hb, fun ho hm => h.held ho (hsub _ hm), fun ho => ?_⟩
    refine (h.fresh ho).imp id fun hm => ?_
    have hne : t.epoch ≠ epoch := fun he => hc ⟨ho, he⟩
    simpa [hne] using hm

/-- A read on demand leaves the reads that wait as they are. -/
theorem refresh_followsText {waiting : List Nat} {v : Vault} {t : Tracker String}
    (h : t.FollowsText waiting v) : (t.loadText v.read t.epoch).FollowsText waiting v := by
  by_cases ho : t.state.isOpen = true
  · rw [loadText, if_pos ⟨ho, rfl⟩]
    cases hf : v.hasFile t.path with
    | true =>
      obtain ⟨text, ht, hread⟩ := read_of_hasFile hf
      rw [hread]
      exact ⟨h.bound, fun _ _ => hf, fun _ => .inl ht.symm⟩
    | false =>
      have hl := Vault.hasFile_eq_false_iff.mp hf
      have hclosed : (t.takeText (v.read t.path)).state.isOpen = false := by
        simp only [Vault.read, hl]
        split <;> simp [takeText, VaultFault.fileFault?, FileState.isOpen]
      refine ⟨by simpa using h.bound, fun ho' => ?_, fun ho' => ?_⟩ <;> simp [hclosed] at ho'
  · rw [loadText, if_neg fun hc => ho hc.1]
    exact h

/-- The tracker of text that is opened at a path. -/
def forText (v : Vault) (read : String → Except VaultFault String) (p : String) : Tracker String :=
  (({ path := p } : Tracker String).resolve v).loadText read 0

theorem forText_sameSite (v : Vault) (read : String → Except VaultFault String) (p : String) :
    SameSite { path := p } (forText v read p) :=
  (setState_sameSite _ _).trans (loadText_sameSite _ read 0)

theorem forText_follows (v : Vault) (p : String) : (forText v v.read p).FollowsText [] v := by
  have h : (({ path := p } : Tracker String).resolve v).FollowsText ([] ++ 0 :: []) v := by
    refine ⟨by simp, fun ho _ => ?_, fun _ => .inr (by simp)⟩
    rw [resolve_path]
    exact Vault.ofPlace_lookup_isOpen (by simpa using ho)
  exact loadText_follows h

/-- A tracker's own write drops the reads that wait and keeps the text. -/
theorem keep_followsText {waiting : List Nat} {v : Vault} {t : Tracker String} {text : String}
    (h : t.FollowsText waiting v) (ht : v.text? t.path = some text) :
    (t.invalidate.setData (some text)).FollowsText waiting v := by
  have hlt : ∀ epoch ∈ waiting, epoch < t.epoch + 1 := fun epoch he => by
    have := h.bound epoch he
    omega
  refine ⟨fun epoch he => Nat.le_of_lt (hlt epoch he), fun _ he => ?_, fun _ => .inl ht.symm⟩
  exact absurd (hlt _ he) (Nat.lt_irrefl _)

theorem FollowsText.writeFailed {waiting : List Nat} {v : Vault} {t : Tracker String}
    (h : t.FollowsText waiting v) (ho : t.state.isOpen = true) :
    t.writeFailed.FollowsText waiting v where
  bound := by simpa [Tracker.writeFailed] using h.bound
  held _ he := by
    have hh := h.held ho
    simp only [Tracker.writeFailed, setState_epoch, setState_path] at he ⊢
    exact hh he
  fresh _ := by simpa [Tracker.writeFailed] using h.fresh ho

theorem FollowsText.writeSucceeded {waiting : List Nat} {v : Vault} {t : Tracker String}
    (h : t.FollowsText waiting v) : t.writeSucceeded.FollowsText waiting v where
  bound := by simpa using h.bound
  held ho he := by
    simp only [writeSucceeded_isOpen, writeSucceeded_epoch, writeSucceeded_path] at ho he ⊢
    exact h.held ho he
  fresh ho := by
    simp only [writeSucceeded_isOpen, writeSucceeded_epoch, writeSucceeded_path, writeSucceeded_data] at ho ⊢
    exact h.fresh ho

end NoteForms.Tracker
