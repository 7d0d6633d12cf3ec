import NoteForms.Proofs.Track.Snapshot

/-! Writes through trackers. A tracker that is not open refuses, and nothing is done. One
that is open asks the vault for the write at its path, and the vault decides: it replaces
what is in the file there, or it answers with a fault and stays as it is. What the tracker
believes of the file does not matter to that, so no write makes a file or touches another
one, whatever was missed. -/

namespace NoteForms

/-! ### Confined changes of a vault -/

namespace Vault

/-- At most the contents of the file at a path differ, and only if there is one. -/
structure Confined (path : String) (v v' : Vault) : Prop where
  elsewhere : ∀ p, p ≠ path → v'.files.lookup p = v.files.lookup p
  hasFile : ∀ p, v'.hasFile p = v.hasFile p
  folders : v'.folders = v.folders
  failWrites : v'.failWrites = v.failWrites
  missing : v.hasFile path = false → v' = v

variable {v : Vault} {path : String}

theorem Confined.rfl : Confined path v v :=
  ⟨fun _ _ => Eq.refl _, fun _ => Eq.refl _, Eq.refl _, Eq.refl _, fun _ => Eq.refl _⟩

theorem confined_putFile (hp : v.hasFile path = true) (f : StoredFile) :
    Confined path v (v.putFile path f) where
  elsewhere p hne := by rw [lookup_putFile, if_neg hne]
  hasFile p := by
    by_cases hpp : p = path
    · rw [hpp, hasFile_putFile, hp]
    · exact hasFile_congr (by rw [lookup_putFile, if_neg hpp])
  folders := Eq.refl _
  failWrites := Eq.refl _
  missing hn := by rw [hp] at hn; contradiction

end Vault

/-! ### Confirmed writes -/

/-- A write that succeeds makes up for one that failed. -/
def FileState.written : FileState → FileState
  | .failed _ => .resolved
  | s => s

namespace FileState

theorem written_of_isOpen {s : FileState} (ho : s.isOpen = true) : s.written = .resolved := by
  cases s <;> first | rfl | contradiction

theorem written_isOpen (s : FileState) : s.written.isOpen = true ∨ s.written = s := by
  cases s <;> first | exact .inl rfl | exact .inr rfl

end FileState

theorem Tracker.snapshot_writeSucceeded {α : Type} (of : α → Contents) (t : Tracker α) :
    t.writeSucceeded.snapshot of = { t.snapshot of with state := t.state.written } := by
  unfold Tracker.writeSucceeded
  split
  · next hs => rw [Tracker.snapshot_setState, hs, FileState.written]
  · next hs =>
    have hw : t.state.written = t.state := by
      cases hst : t.state <;> first | rfl | exact absurd hst (hs _)
    rw [hw]
    rfl

namespace Host

/-! ### Settling -/

section Settle

variable {h : Host} {id : TrackerId} {keep : Host → Host}
  {outcome : Except VaultFault (Event × Vault)}

theorem settle_vault (h : Host) (id : TrackerId) (keep : Host → Host)
    (hk : ∀ h, (keep h).vault = h.vault) (outcome : Except VaultFault (Event × Vault)) :
    (h.settle id keep outcome).2.vault = match outcome with
      | .error _ => h.vault
      | .ok c => c.2 := by
  cases outcome with
  | error fault => simp [settle]
  | ok c => simp [settle, hk, changed]

/-- A write that fails is noted by its tracker, and nothing else happens. -/
theorem settle_error {fault : FileFault} (he : (h.settle id keep outcome).1 = .error fault) :
    (h.settle id keep outcome).2 = h.adjust id Tracker.writeFailed := by
  cases outcome with
  | error fault => rfl
  | ok c => simp [settle] at he

theorem settle_eq_ok (hok : (h.settle id keep outcome).1 = .ok ()) : ∃ c, outcome = .ok c := by
  cases outcome with
  | error fault => simp [settle] at hok
  | ok c => exact ⟨c, rfl⟩

end Settle

/-! ### Writes of either flavour -/

inductive Write where
  | note (n : Nat) (f : Object → Object)
  | text (n : Nat) (text : String)

namespace Write

def tracker : Write → TrackerId
  | .note n _ => .note n
  | .text n _ => .text n

/-- What the vault answers that is asked for the write at a path. -/
def outcome (v : Vault) (path : String) : Write → Except VaultFault (Event × Vault)
  | .note _ f => v.process path f
  | .text _ contents => v.write path contents

/-- What the tracker keeps of the write itself. -/
def keep : Write → Host → Host
  | .note _ _ => id
  | .text n contents => keepText n contents

variable {w : Write} {v : Vault} {path : String}

/-- The vault writes into a file that is there, and tells of it. -/
theorem outcome_eq_ok {c : Event × Vault} (hc : w.outcome v path = .ok c) :
    v.hasFile path = true ∧ ∃ f, c = (.modify (.file path), v.putFile path f) := by
  cases w with
  | note n f =>
    obtain ⟨hp, note, -, rfl⟩ := Vault.process_eq_ok hc
    exact ⟨hp, _, rfl⟩
  | text n contents =>
    obtain ⟨hp, rfl⟩ := Vault.write_eq_ok hc
    exact ⟨hp, _, rfl⟩

@[simp] theorem keep_vault (w : Write) (h : Host) : (w.keep h).vault = h.vault := by
  cases w <;> rfl

end Write

/-- A write through its tracker. -/
def perform (h : Host) : Write → Except FileFault Unit × Host
  | .note n f => h.modifyNote n f
  | .text n text => h.writeText n text

variable {h h' : Host} {w : Write} {s : Snapshot} {path : String} {state : FileState}

theorem perform_eq (h : Host) (w : Write) : h.perform w = match h.refusal? w.tracker with
    | some fault => (.error fault, h)
    | none => h.settle w.tracker w.keep (w.outcome h.vault (h.path w.tracker)) := by
  cases w <;> rfl

theorem perform_of_snapshot (hs : h.snapshot? w.tracker = some s) :
    h.perform w = if s.state.isOpen then h.settle w.tracker w.keep (w.outcome h.vault s.path)
      else (.error (s.state.refusal s.path), h) := by
  rw [perform_eq, refusal?_eq hs, path_eq hs]
  cases s.state.isOpen <;> rfl

theorem perform_error {fault : FileFault} (he : (h.perform w).1 = .error fault) :
    (h.perform w).2 = h ∨ (h.perform w).2 = h.adjust w.tracker Tracker.writeFailed := by
  rw [perform_eq] at he ⊢
  split at he
  · exact .inl rfl
  · exact .inr (settle_error he)

/-- A tracker that wrote stood open, and the vault did the writing. -/
theorem perform_eq_ok (hs : h.snapshot? w.tracker = some s) (hok : (h.perform w).1 = .ok ()) :
    s.state.isOpen = true ∧ ∃ c, w.outcome h.vault s.path = .ok c ∧ (h.perform w).2.vault = c.2 := by
  rw [perform_of_snapshot hs] at hok ⊢
  split at hok
  · next ho =>
    obtain ⟨c, hc⟩ := settle_eq_ok hok
    refine ⟨ho, c, hc, ?_⟩
    rw [if_pos ho, settle_vault h _ w.keep w.keep_vault, hc]
  · contradiction

/-- An open tracker leaves it to the vault whether it writes. -/
theorem perform_ok_iff (hs : h.snapshot? w.tracker = some s) (ho : s.state.isOpen = true) :
    (h.perform w).1 = .ok () ↔ ∃ c, w.outcome h.vault s.path = .ok c := by
  rw [perform_of_snapshot hs, if_pos ho]
  constructor
  · exact settle_eq_ok
  · rintro ⟨c, hc⟩
    rw [hc]
    rfl

/-- The vault changes at the path of the tracker only. -/
theorem perform_vault_confined (h : Host) (w : Write) :
    h.vault.Confined (h.path w.tracker) (h.perform w).2.vault := by
  rw [perform_eq]
  split
  · exact .rfl
  · rw [settle_vault h _ w.keep w.keep_vault]
    split
    · exact .rfl
    · next c hc =>
      obtain ⟨hp, f, rfl⟩ := Write.outcome_eq_ok hc
      exact Vault.confined_putFile hp f

/-! ### What becomes of the trackers -/

theorem snapshot?_writeFailed (h : Host) (id id' : TrackerId) :
    (h.adjust id Tracker.writeFailed).snapshot? id' =
      (h.snapshot? id').map fun s => if id = id' then { s with state := .failed s.path } else s :=
  snapshot?_adjust (k := fun s => { s with state := .failed s.path })
    (fun t of => t.snapshot_setState of _) h id id'

theorem snapshot?_writeSucceeded (h : Host) (id id' : TrackerId) :
    (h.adjust id Tracker.writeSucceeded).snapshot? id' =
      (h.snapshot? id').map fun s => if id = id' then { s with state := s.state.written } else s :=
  snapshot?_adjust (k := fun s => { s with state := s.state.written })
    (fun t of => t.snapshot_writeSucceeded of) h id id'

section Stands

variable {id : TrackerId}

theorem Stands.keep (hs : h.Stands id path state) (w : Write) : (w.keep h).Stands id path state := by
  cases w with
  | note n f => exact hs
  | text n text =>
    rw [stands_iff] at hs ⊢
    have hk := ask_modifyTexts (g := fun t => (t.path, t.state)) h n
      (f := fun t => t.invalidate.setData (some text)) (fun _ => rfl) id
    exact hk.trans hs

theorem Stands.writeSucceeded (hs : h.Stands id path state) (id' : TrackerId) :
    (h.adjust id' Tracker.writeSucceeded).Stands id path
      (if id' = id then state.written else state) := by
  obtain ⟨s, hs, rfl, rfl⟩ := hs
  refine ⟨_, by rw [snapshot?_writeSucceeded, hs, Option.map_some], ?_, ?_⟩ <;> split <;> rfl

/-- The event of a write that succeeds leaves all trackers in their states, and so does what
its tracker keeps. -/
theorem Stands.settle_ok (hs : h.Stands id path state) {c : Event × Vault} {p : String}
    (hc : w.outcome h.vault p = .ok c) :
    (h.settle w.tracker w.keep (.ok c)).2.Stands id path
      (if w.tracker = id then state.written else state) := by
  obtain ⟨-, f, rfl⟩ := Write.outcome_eq_ok hc
  have hv : ({ h with vault := h.vault.putFile p f } : Host).Stands id path state := hs
  exact ((hv.emit_modify _).keep w).writeSucceeded w.tracker

/-- A write opens a tracker or leaves it in its state. -/
theorem Stands.perform (hs : h.Stands id path state) (w : Write) :
    ∃ state', (h.perform w).2.Stands id path state' ∧ (state'.isOpen = true ∨ state' = state) := by
  rw [perform_eq]
  split
  · -- the write is refused
    exact ⟨state, hs, .inr rfl⟩
  · cases hc : w.outcome h.vault (h.path w.tracker) with
    | ok c =>
      refine ⟨_, hs.settle_ok hc, ?_⟩
      split
      · exact state.written_isOpen
      · exact .inr rfl
    | error fault =>
      obtain ⟨s, hs, rfl, rfl⟩ := hs
      have hf : (h.settle w.tracker w.keep (.error fault)).2.snapshot? id = some
          (if w.tracker = id then { s with state := .failed s.path } else s) := by
        rw [settle, snapshot?_writeFailed, hs]
        rfl
      refine ⟨_, ⟨_, hf, ?_, rfl⟩, ?_⟩
      · split <;> rfl
      · split
        · exact .inl rfl
        · exact .inr rfl

end Stands

/-! ### Results -/

/-- What comes of a write that the vault is asked for: its result and the host after it. -/
def Write.Settled (w : Write) (s : Snapshot) (h : Host) (r : Except FileFault Unit × Host) : Prop :=
  match w.outcome h.vault s.path with
  | .error _ => r.1 = .error (.unmodified s.path) ∧ r.2.vault = h.vault ∧
      r.2.snapshot? w.tracker = some { s with state := .failed s.path }
  | .ok c => r.1 = .ok () ∧ r.2.vault = c.2 ∧ r.2.Stands w.tracker s.path .resolved

/-- What comes of a write by a tracker in any state. -/
def Write.Answered (w : Write) (s : Snapshot) (h : Host) (r : Except FileFault Unit × Host) : Prop :=
  match s.state with
  | .unresolved | .notFound => r = (.error (.notFound s.path), h)
  | .notAFile => r = (.error (.notAFile s.path), h)
  | .renamed source target => r = (.error (.renamed source target), h)
  | .resolved | .failed _ => w.Settled s h r

theorem settle_settled (hs : h.snapshot? w.tracker = some s) (ho : s.state.isOpen = true) :
    w.Settled s h (h.settle w.tracker w.keep (w.outcome h.vault s.path)) := by
  have hv := settle_vault h w.tracker w.keep w.keep_vault (w.outcome h.vault s.path)
  unfold Write.Settled
  cases hc : w.outcome h.vault s.path with
  | error fault =>
    rw [hc] at hv
    refine ⟨by rw [settle, path_eq hs], hv, ?_⟩
    rw [settle, snapshot?_writeFailed, hs, Option.map_some, if_pos rfl]
  | ok c =>
    rw [hc] at hv
    have hst : h.Stands w.tracker s.path s.state := ⟨s, hs, rfl, rfl⟩
    have hw := hst.settle_ok hc
    rw [if_pos rfl, FileState.written_of_isOpen ho] at hw
    exact ⟨rfl, hv, hw⟩

/-- A tracker of either flavour writes, in any host that may be. At most the contents of the
file at its path change, and only if there is one. A tracker that is not open says why, and
nothing is done. Otherwise the write succeeds just if the vault allows it. If not, the tracker
is known to have failed and all it knows stays; a write that succeeds resolves it. -/
theorem perform_confined (h : Host) (w : Write) (s : Snapshot)
    (hs : h.snapshot? w.tracker = some s) :
    h.vault.Confined s.path (h.perform w).2.vault ∧ w.Answered s h (h.perform w) := by
  refine ⟨path_eq hs ▸ perform_vault_confined h w, ?_⟩
  have hsettled := settle_settled hs
  rw [perform_of_snapshot hs]
  unfold Write.Answered
  cases hst : s.state with
  | unresolved | notFound | notAFile | renamed source target => rfl
  | resolved | failed p =>
    rw [hst] at hsettled
    exact hsettled rfl

/-- A tracker of a note whose last write was rejected. -/
def rejected : Host := ({} : Host).run [.insert "a.md" "---\nk: 1\n---\n", .openNote "a.md",
  .setFailWrites true, .modifyNote 0 id, .setFailWrites false]

/-- The next write gets through and resolves it. -/
theorem perform_confined_rejected : ∃ h, h = rejected ∧
    h.snapshot? (.note 0) =
      some ⟨"a.md", .failed "a.md", some (.frontmatter [("k", .int 1)]), 1⟩ ∧
    (h.perform (.note 0 (·.put "k" (.int 2)))).1 = .ok () ∧
    (h.perform (.note 0 (·.put "k" (.int 2)))).2.Stands (.note 0) "a.md" .resolved := by
  -- the host stays a name, so that nothing but `decide` runs it
  obtain ⟨h, hh⟩ : ∃ h, h = rejected := ⟨_, rfl⟩
  have hs : h.snapshot? (.note 0) =
      some ⟨"a.md", .failed "a.md", some (.frontmatter [("k", .int 1)]), 1⟩ := by
    rw [hh]
    decide +kernel
  have hok : (Write.outcome h.vault "a.md" (.note 0 (·.put "k" (.int 2)))).toOption.isSome = true := by
    rw [hh]
    decide +kernel
  refine ⟨h, hh, hs, ?_⟩
  obtain ⟨-, ha⟩ := perform_confined h (.note 0 (·.put "k" (.int 2))) _ hs
  simp only [Write.Answered, Write.Settled] at ha
  split at ha
  · next hc =>
    rw [hc] at hok
    contradiction
  · exact ⟨ha.1, ha.2.2⟩

end Host

end NoteForms
