import NoteForms.Proofs.Form.Custody

/-! Accounts of listeners. In all runs the listeners of the bus are just those of the trackers
that someone holds and that listen, four for each. What the roster hands out for a path is one
tracker as long as it is held and not released. -/

namespace NoteForms.Form.Custody

variable {c : Custody} {m : Move}

/-! ### Released trackers -/

/-- The tracker that is told to listen. -/
def Move.woken : Move → Option TrackerId
  | .listen id => some id
  | _ => none

theorem release_wakes (c : Custody) (woken : Option TrackerId) (path : String) :
    Host.Wakes woken c.world.host (c.release path).world.host := by
  simp only [release, World.act, Roster.release_eq]
  exact Host.unlistens_wakes _ _

theorem move_wakes (c : Custody) (m : Move) :
    Host.Wakes m.woken c.world.host (c.move m).world.host := by
  have hasks : m.Asks → Host.Wakes m.woken c.world.host (c.move m).world.host := fun hm =>
    Host.wakes_of_enrols (c.move_asked hm).enrols
  cases m with
  | openAs k path => exact c.world.host.openAs_wakes k path
  | request | mount | block => exact hasks trivial
  | share id =>
    simp only [move]
    split
    · exact Host.share_wakes _ id
    · exact .rfl
  | drop id =>
    simp only [move]
    split
    · exact Host.drop_wakes _ id
    · exact .rfl
  | listen id =>
    simp only [move]
    split
    · exact Host.listen_wakes _ id
    · exact .rfl
  | unlisten id =>
    simp only [move]
    split
    · exact Host.unlisten_wakes _ id
    · exact .rfl
  | unmount n =>
    simp only [move, World.act]
    split
    · exact .rfl
    · next f _ =>
      rw [f.unmount_eq]
      exact List.foldrRecOn f.holds _ (motive := fun h' => Host.Wakes none c.world.host h') .rfl
        fun h' ha id _ => ha.trans (h'.drop_wakes id)
  | release path => exact c.release_wakes none path
  | releaseAll =>
    exact releaseAll_rec (P := fun c' => Host.Wakes none c.world.host c'.world.host) .rfl
      fun c' path ha => ha.trans (c'.release_wakes none path)
  | plain s hs =>
    exact (World.step_keepsWires hs).1.wakes (World.step_advances c.world s)

/-- What was released does not listen. -/
def Silent (c : Custody) : Prop := ∀ id ∈ c.released, ¬ c.world.host.Listens id

/-- Nobody tells a released tracker to listen. -/
def Unrevived : Custody → List Move → Prop
  | _, [] => True
  | c, m :: ms => (∀ id ∈ c.released, m.woken ≠ some id) ∧ Unrevived (c.move m) ms

instance decidableUnrevived : (c : Custody) → (ms : List Move) → Decidable (Unrevived c ms)
  | _, [] => inferInstanceAs (Decidable True)
  | c, m :: ms =>
    have := decidableUnrevived (c.move m) ms
    inferInstanceAs (Decidable (_ ∧ _))

theorem Silent.release (hs : c.Silent) (hb : c.Balanced) (path : String) :
    (c.release path).Silent := fun id hid hl => by
  rcases List.mem_append.mp hid with hid | hid
  · simp only [Custody.release, World.act, Roster.release_eq] at hl
    rw [Host.Listens, Host.listenersOf_unlistens, if_pos hid] at hl
    contradiction
  · have hne := (Option.some_ne_none id).symm
    exact hs id hid ((c.release_wakes none path).quiet id (hb.known hid) hne hl)

theorem Silent.move (hs : c.Silent) (hb : c.Balanced) {m : Move}
    (hm : ∀ id ∈ c.released, m.woken ≠ some id) : (c.move m).Silent := by
  have hkept : (c.move m).released = c.released → (c.move m).Silent := fun he id hid hl => by
    rw [he] at hid
    exact hs id hid ((c.move_wakes m).quiet id (hb.known hid) (hm id hid) hl)
  have hasks : m.Asks → (c.move m).Silent := fun hm => hkept (c.move_asked hm).released
  cases m with
  | openAs | unmount | plain => exact hkept rfl
  | request | mount | block => exact hasks trivial
  | share | drop | listen | unlisten =>
    refine hkept ?_
    simp only [Custody.move]
    split <;> rfl
  | release path => exact hs.release hb path
  | releaseAll =>
    exact (releaseAll_rec (P := fun c => c.Balanced ∧ c.Silent) ⟨hb, hs⟩
      fun _ path hc => ⟨hc.1.release path, hc.2.release hc.1 path⟩).2

theorem Silent.run (hs : c.Silent) (hb : c.Balanced) {ms : List Move} (hm : c.Unrevived ms) :
    (c.run ms).Silent := by
  induction ms generalizing c with
  | nil => exact hs
  | cons m ms ih => exact ih (hs.move hb hm.1) (hb.move m) hm.2

/-! ### The same tracker -/

/-- A move by which the trackers of a path are released. -/
def Move.Releases (path : String) : Move → Prop
  | .release p => p = path
  | .releaseAll => True
  | _ => False

/-- What was handed out for a path. -/
theorem enrolled_move (c : Custody) (m : Move) :
    (c.move m).enrolled = c.requested m ++ c.enrolled := by
  cases m with
  | request | mount | block => rfl
  | share | drop | listen | unlisten =>
    simp only [move, requested, List.nil_append]
    split <;> rfl
  | releaseAll =>
    exact releaseAll_rec (P := fun c' => c'.enrolled = c.enrolled) rfl fun _ _ he => he
  | openAs | unmount | release | plain => rfl

theorem enrolled_run (c : Custody) (ms : List Move) : c.enrolled ⊆ (c.run ms).enrolled := by
  induction ms generalizing c with
  | nil => exact fun _ hm => hm
  | cons m ms ih =>
    refine fun e he => ih (c.move m) ?_
    rw [enrolled_move]
    exact List.mem_append_right _ he

/-- Only trackers of the path are released with it. -/
theorem Balanced.not_released (hb : c.Balanced) {path : String} {id : TrackerId}
    (hat : c.world.host.At id path) (hid : id ∉ c.released) {p : String} (hp : p ≠ path) :
    id ∉ (c.release p).released := fun hm => by
  rcases List.mem_append.mp hm with hm | hm
  · have he := (Option.filter_eq_some_iff.mp (Roster.mem_releasing.mp hm)).1
    exact hp ((hb.sited.at' he).path_eq.symm.trans hat.path_eq)
  · exact hid hm

theorem Balanced.unreleased (hb : c.Balanced) {path : String} {id : TrackerId}
    (hat : c.world.host.At id path) (hid : id ∉ c.released) (hm : ¬ m.Releases path) :
    id ∉ (c.move m).released := by
  cases m with
  | openAs | unmount | plain | request | mount | block => exact hid
  | share | drop | listen | unlisten =>
    simp only [Custody.move]
    split <;> exact hid
  | release p => exact hb.not_released hat hid hm
  | releaseAll => exact absurd trivial hm

theorem Balanced.unreleased_run (hb : c.Balanced) {path : String} {id : TrackerId}
    (hat : c.world.host.At id path) (hid : id ∉ c.released) {ms : List Move}
    (hms : ∀ m ∈ ms, ¬ m.Releases path) : id ∉ (c.run ms).released := by
  induction ms generalizing c with
  | nil => exact hid
  | cons m ms ih =>
    have hnot := hb.unreleased hat hid (hms m List.mem_cons_self)
    exact ih (hb.move m) (hat.advances (c.move_wakes m).advances) hnot fun m' hm' =>
      hms m' (List.mem_cons_of_mem _ hm')

/-- What is handed out is held from then on, and was not released. -/
theorem Balanced.requested (hb : c.Balanced) {e : String × TrackerId} (he : e ∈ c.requested m) :
    e.2 ∈ (c.move m).holders ∧ e.2 ∉ (c.move m).released := by
  have ha := c.move_asked (asks_of_requested he)
  refine ⟨ha.holders.mem_iff.mpr ?_, ?_⟩
  · exact List.mem_append_left _ (List.mem_map_of_mem he)
  · rw [ha.released]
    exact (NoteForms.Balanced.enrols hb ha.enrols).2 e he

theorem Balanced.same (hb : c.Balanced) {path : String} {id id' : TrackerId}
    (he : (path, id) ∈ c.enrolled) (he' : (path, id') ∈ c.enrolled) (hk : id.flavour = id'.flavour)
    (hid : id ∈ c.holders ∧ id ∉ c.released) (hid' : id' ∈ c.holders ∧ id' ∉ c.released) :
    id = id' := by
  have hentry := hb.entered he hid.1 hid.2
  rw [hk, hb.entered he' hid'.1 hid'.2] at hentry
  exact (Option.some.inj hentry).symm

/-! ### Runs -/

/-- All listeners of a bus are accounted for by those who hold trackers. -/
structure Accounted (h : Host) (holders : List TrackerId) : Prop where
  live : ∀ id, h.isLive id = true ↔ id ∈ holders
  subscribed : ∀ id, id ∈ h.subscribers ↔ id ∈ holders ∧ h.Listens id
  distinct : h.subscribers.Nodup
  /-- One for each kind of event. -/
  four : h.bus.listeners.length = 4 * h.subscribers.length
  /-- The bus lists each subscriber once for events of a kind, and nobody else. -/
  receivers : ∀ kind, (h.bus.receivers kind).Perm (h.subscribers.map .tracker)
  /-- When the vault changes, the event that is emitted is heard by each subscriber once, and by
  nobody else. -/
  once : ∀ c, Host.Heard c.1 h.subscribers { h with vault := c.2 } (h.changed c)
  none : holders = [] → h.bus.listeners = []

theorem accounted (hb : c.Balanced) : Accounted c.world.host c.holders := by
  have hfour := hb.held.length_listeners
  refine ⟨fun id => hb.held.isLive_iff, fun id => hb.held.mem_subscribers,
    c.world.host.subscribers_nodup, hfour, hb.held.receivers_perm, hb.held.heard_changed,
    fun hnone => ?_⟩
  -- whoever listens is held, so with no holder nobody does
  have hempty : c.world.host.subscribers = [] := List.eq_nil_iff_forall_not_mem.mpr fun id hid => by
    have hh := (hb.held.mem_subscribers.mp hid).1
    rw [hnone] at hh
    contradiction
  rw [hempty] at hfour
  exact List.length_eq_zero_iff.mp hfour

theorem enrolled_of_requested {e : String × TrackerId} (he : e ∈ c.requested m) :
    e ∈ (c.move m).enrolled := by
  rw [enrolled_move]
  exact List.mem_append_left _ he

/-- No path has two trackers of one flavour that were handed out and are subscribed. -/
theorem Balanced.one_each (hb : c.Balanced) (hs : c.Silent) {path : String} {id id' : TrackerId}
    (he : (path, id) ∈ c.enrolled) (he' : (path, id') ∈ c.enrolled) (hk : id.flavour = id'.flavour)
    (hid : id ∈ c.world.host.subscribers) (hid' : id' ∈ c.world.host.subscribers) : id = id' := by
  have hplace : ∀ {id}, id ∈ c.world.host.subscribers → id ∈ c.holders ∧ id ∉ c.released :=
    fun {id} hid => by
      obtain ⟨hheld, hl⟩ := hb.held.mem_subscribers.mp hid
      exact ⟨hheld, fun hr => hs id hr hl⟩
  exact hb.same he he' hk (hplace hid) (hplace hid')

/-- What was handed out for a path before is handed out again. -/
theorem Balanced.again (hb : c.Balanced) {path : String} {id id' : TrackerId}
    (he : (path, id) ∈ c.enrolled) (hid : id ∈ c.holders ∧ id ∉ c.released)
    (he' : (path, id') ∈ c.requested m) (hk : id'.flavour = id.flavour) : id' = id := by
  have ha := c.move_asked (asks_of_requested he')
  have hmem : (path, id) ∈ (c.move m).enrolled := by
    rw [enrolled_move]
    exact List.mem_append_right _ he
  have hheld : id ∈ (c.move m).holders := ha.holders.mem_iff.mpr (List.mem_append_right _ hid.1)
  exact (hb.move m).same (enrolled_of_requested he') hmem hk (hb.requested he')
    ⟨hheld, ha.released ▸ hid.2⟩

/-- In all runs the listeners are accounted for. While nobody tells released trackers to listen,
no two trackers of one flavour that were handed out for a path are subscribed. A path that is
asked for twice, while what was handed out first is held and is not released, is given the same
tracker again. -/
theorem run_accounted (ms : List Move) (c : Custody) (hc : c = ({} : Custody).run ms) :
    Accounted c.world.host c.holders ∧
    (Unrevived {} ms → ∀ path id id', (path, id) ∈ c.enrolled → (path, id') ∈ c.enrolled →
      id.flavour = id'.flavour → id ∈ c.world.host.subscribers → id' ∈ c.world.host.subscribers →
      id = id') ∧
    ∀ m path id, (path, id) ∈ c.requested m →
      (∀ id', (path, id') ∈ c.requested m → id'.flavour = id.flavour → id' = id) ∧
      ∀ between, (∀ m' ∈ between, ¬ m'.Releases path) →
        id ∈ ((c.move m).run between).holders →
        ∀ m' id', (path, id') ∈ ((c.move m).run between).requested m' →
          id'.flavour = id.flavour → id' = id := by
  have hb : c.Balanced := hc ▸ balanced_empty.run ms
  refine ⟨accounted hb, fun hms path id id' he he' hk hid hid' => ?_, fun m path id he =>
    ⟨fun id' he' hk => ?_, fun between hbetween hheld m' id' he' hk => ?_⟩⟩
  · have hs := Silent.run (c := {}) nofun balanced_empty hms
    rw [← hc] at hs
    exact hb.one_each hs he he' hk hid hid'
  · exact (hb.move m).same (enrolled_of_requested he') (enrolled_of_requested he) hk
      (hb.requested he') (hb.requested he)
  · have hb' := hb.move m
    have hmem := enrolled_of_requested he
    have hnot := hb'.unreleased_run (hb'.at' hmem) (hb.requested he).2 hbetween
    exact (hb'.run between).again (enrolled_run _ between hmem) ⟨hheld, hnot⟩ he' hk

/-- A note is tracked, a block is rejected, the note is released, and it is tracked anew. -/
def reopened : List Move := [
  .plain (.act (.host (.insert "n.md" "---\np: []\n---\n"))) trivial,
  .request .note "n.md", .block {} "json-data-entry" "" "n.md", .release "n.md",
  .request .note "n.md", .listen (.note 1)]

def formOfNote : Move := .mount ⟨⟨"n.md", "p"⟩, .inline [], none⟩

/-- The new tracker stops for a while, and another path is released. -/
def meanwhile : List Move := [.unlisten (.note 1), .release "o.md", .listen (.note 1)]

/-- The note is written anew. -/
def rewritten (h : Host) : Host := h.changed (h.vault.insert "n.md" "---\np: [1]\n---\n")

/-- How often the data of a tracker of frontmatter was loaded. -/
def loads (h : Host) (n : Nat) : Option Nat := (h.notes[n]?).map (·.revision)

/-- The tracker that was released is held, but only the other one listens: when the note is
written, that one loads it once more, and the released one stays as it is. A form is given the
one that listens, and so is the next who asks. -/
theorem run_accounted_reopened : ∃ c, c = ({} : Custody).run reopened ∧
    c.handles = [.note 1, .note 0] ∧ c.world.host.subscribers = [.note 1] ∧
    c.world.host.bus.listeners.length = 4 ∧
    (rewritten c.world.host).notes[0]? = c.world.host.notes[0]? ∧
    loads c.world.host 1 = some 1 ∧ loads (rewritten c.world.host) 1 = some 2 ∧
    (∀ id, ("n.md", id) ∈ c.enrolled → id.flavour = .note → id ∈ c.world.host.subscribers →
      id = .note 1) ∧
    ∀ id, ("n.md", id) ∈ ((c.move formOfNote).run meanwhile).requested (.request .note "n.md") →
      id.flavour = .note → id = .note 1 := by
  obtain ⟨c, hc⟩ : ∃ c, c = ({} : Custody).run reopened := ⟨_, rfl⟩
  have hs : c.handles = [.note 1, .note 0] ∧ c.world.host.subscribers = [.note 1] ∧
      ("n.md", .note 1) ∈ c.enrolled ∧ ("n.md", .note 1) ∈ c.requested formOfNote ∧
      TrackerId.note 1 ∈ ((c.move formOfNote).run meanwhile).holders := by
    rw [hc]
    decide +kernel
  obtain ⟨change, hchange⟩ : ∃ change,
      change = c.world.host.vault.insert "n.md" "---\np: [1]\n---\n" := ⟨_, rfl⟩
  have hloads : loads c.world.host 1 = some 1 ∧
      ((c.world.host.notes[1]?).map (·.hearNote change.2 change.1)).map (·.revision) = some 2 := by
    rw [hchange, hc]
    decide +kernel
  have hm : Unrevived {} reopened := by decide +kernel
  have hbetween : ∀ m ∈ meanwhile, ¬ m.Releases "n.md" := by simp [meanwhile, Move.Releases]
  obtain ⟨hhandles, hsub, henrolled, hrequested, hheld⟩ := hs
  obtain ⟨haccounted, hone, hagain⟩ := run_accounted reopened c hc
  have hheard := haccounted.once change
  refine ⟨c, hc, hhandles, hsub, ?_, ?_, hloads.1, ?_, fun id he hk hid => ?_, fun id he hk => ?_⟩
  · rw [haccounted.four, hsub]
    rfl
  · rw [rewritten, ← hchange, hheard.notes 0, hsub]
    rfl
  · rw [loads, rewritten, ← hchange, hheard.notes 1, hsub]
    exact hloads.2
  · exact hone hm "n.md" id (.note 1) he henrolled hk hid (by simp [hsub])
  · exact (hagain _ "n.md" (.note 1) hrequested).2 meanwhile hbetween hheld _ id he hk

end NoteForms.Form.Custody
