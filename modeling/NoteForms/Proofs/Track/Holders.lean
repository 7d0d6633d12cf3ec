import Mathlib.Data.List.Count
import Mathlib.Data.List.Nodup
import NoteForms.Proofs.Track.Write

/-! Who holds trackers, and who listens. A tracker counts its users, and the one who lets go of
it last stops it. While only those who hold a tracker tell it to listen, all listeners of a bus
are accounted for: there are four for each tracker that is held and listens, one for each kind
of event, and no others. -/

namespace NoteForms.Host

variable {h h' h'' : Host} {id id' : TrackerId} {holders : List TrackerId}

/-! ### What is asked of a tracker -/

theorem map_ask {β γ : Type} (h : Host) (id : TrackerId) (g : {α : Type} → Tracker α → β)
    (k : β → γ) : (h.ask id g).map k = h.ask id fun t => k (g t) := by
  cases id <;> simp only [ask, Option.map_map] <;> rfl

/-- How many users a tracker has, none if it is not there. -/
def handlesOf (h : Host) (id : TrackerId) : Nat := (h.ask id Tracker.handles).getD 0

theorem isLive_iff : h.isLive id = true ↔ h.handlesOf id ≠ 0 := by
  have hm := map_ask h id Tracker.handles fun n => decide (n ≠ 0)
  have hl : h.isLive id = ((h.ask id Tracker.handles).map fun n => decide (n ≠ 0)).getD false := by
    rw [hm]
    rfl
  rw [hl, handlesOf]
  cases h.ask id Tracker.handles <;> simp

theorem handlesOf_of_not_knows (hk : ¬ h.Knows id) : h.handlesOf id = 0 := by
  cases id with
  | note n => simp [handlesOf, ask, List.getElem?_eq_none (Nat.not_lt.mp hk)]
  | text n => simp [handlesOf, ask, List.getElem?_eq_none (Nat.not_lt.mp hk)]

/-! ### The same wires -/

/-- The same trackers listen, and are held by as many. -/
structure SameWires (h h' : Host) : Prop where
  bus : h'.bus = h.bus
  sites : ∀ id, h'.ask id (fun t => (t.handles, t.listeners)) =
    h.ask id fun t => (t.handles, t.listeners)

theorem SameWires.rfl : SameWires h h := ⟨Eq.refl _, fun _ => Eq.refl _⟩

theorem SameWires.trans (h₁ : SameWires h h') (h₂ : SameWires h' h'') : SameWires h h'' :=
  ⟨h₂.bus.trans h₁.bus, fun id => (h₂.sites id).trans (h₁.sites id)⟩

theorem SameWires.handlesOf (hs : SameWires h h') (id : TrackerId) :
    h'.handlesOf id = h.handlesOf id := by
  have he := congrArg (Option.map Prod.fst) (hs.sites id)
  rw [map_ask, map_ask] at he
  exact congrArg (·.getD 0) he

theorem SameWires.listenersOf (hs : SameWires h h') (id : TrackerId) :
    h'.listenersOf id = h.listenersOf id := by
  have he := congrArg (Option.map Prod.snd) (hs.sites id)
  rw [map_ask, map_ask] at he
  exact congrArg (·.getD []) he

theorem sameSite_pair {α : Type} {t t' : Tracker α} (hs : t.SameSite t') :
    (t'.handles, t'.listeners) = (t.handles, t.listeners) := Prod.ext hs.handles hs.listeners

theorem sameWires_modifyNotes (h : Host) (n : Nat) {f : Tracker Object → Tracker Object}
    (hf : ∀ t, Tracker.SameSite t (f t)) : SameWires h { h with notes := h.notes.modify n f } :=
  ⟨rfl, ask_modifyNotes h n fun t => sameSite_pair (hf t)⟩

theorem sameWires_modifyTexts (h : Host) (n : Nat) {f : Tracker String → Tracker String}
    (hf : ∀ t, Tracker.SameSite t (f t)) : SameWires h { h with texts := h.texts.modify n f } :=
  ⟨rfl, ask_modifyTexts h n fun t => sameSite_pair (hf t)⟩

theorem sameWires_adjust (h : Host) (id : TrackerId) {f : Adjustment}
    (hf : ∀ {α : Type} (t : Tracker α), t.SameSite (f t)) : SameWires h (h.adjust id f) :=
  ⟨adjust_bus h id f, ask_adjust h id fun t => sameSite_pair (hf t)⟩

theorem sameWires_changed (h : Host) (c : Event × Vault) : SameWires h (h.changed c) := by
  refine ⟨emit_bus _ _, fun id => ?_⟩
  exact ask_emit (fun t v => sameSite_pair (t.hearNote_sameSite v _))
    (fun t v => sameSite_pair (t.react_sameSite v _)) _ id

theorem sameWires_perform (h : Host) (w : Write) : SameWires h (h.perform w).2 := by
  rw [perform_eq]
  split
  · exact .rfl
  · cases w.outcome h.vault (h.path w.tracker) with
    | error fault => exact sameWires_adjust h _ fun t => t.writeFailed_sameSite
    | ok c =>
      have hkeep : ∀ h : Host, SameWires h (w.keep h) := fun h => by
        cases w with
        | note n f => exact .rfl
        | text n text => exact sameWires_modifyTexts h n fun _ => ⟨rfl, rfl, rfl⟩
      exact ((sameWires_changed h c).trans (hkeep _)).trans
        (sameWires_adjust _ _ fun t => t.writeSucceeded_sameSite)

/-- An action by which nobody takes hold of a tracker or lets go of it, starts or stops it. -/
def Action.KeepsWires : Action → Prop
  | .openNote _ | .openText _ | .share _ | .drop _ | .listen _ | .unlisten _ => False
  | _ => True

theorem act_sameWires (h : Host) {a : Action} (ha : a.KeepsWires) : SameWires h (h.act a) := by
  have houtside : a.Outside → SameWires h (h.act a) := by
    intro ho
    rcases h.act_outside ho with he | ⟨c, -, he⟩ <;> rw [he]
    · exact .rfl
    · exact sameWires_changed h c
  cases a with
  | insert | createFolder | delete | rename | write | process => exact houtside trivial
  | setFailWrites fail => exact ⟨rfl, fun _ => rfl⟩
  | runRead i =>
    simp only [act, runReadAt]
    split
    · exact .rfl
    · next r _ =>
      have hp : SameWires h { h with pending := h.pending.eraseIdx i } := ⟨rfl, fun _ => rfl⟩
      refine hp.trans (sameWires_modifyTexts _ r.tracker fun t => ?_)
      split
      · exact t.loadText_sameSite _ _
      · exact .rfl
  | refresh id =>
    cases id with
    | note n => exact sameWires_modifyNotes h n fun t => t.loadNote_sameSite h.vault
    | text n => exact sameWires_modifyTexts h n fun t => t.loadText_sameSite h.read t.epoch
  | modifyNote n f => exact sameWires_perform h (.note n f)
  | writeText n text => exact sameWires_perform h (.text n text)
  | openNote | openText | share | drop | listen | unlisten => exact False.elim ha

/-! ### Holders -/

/-- The trackers are held just by those in a list, as often as they are in it. Nobody but
trackers listens, and of these only such as are held. -/
structure HeldBy (h : Host) (holders : List TrackerId) : Prop where
  wired : h.Wired
  trackers : ∀ l ∈ h.bus.listeners, ∃ id, l.receiver = .tracker id
  counted : ∀ id, h.handlesOf id = holders.count id
  held : ∀ id, h.Listens id → id ∈ holders

theorem heldBy_empty : ({} : Host).HeldBy [] where
  wired := wired_empty
  trackers := by simp
  counted id := by cases id <;> simp [handlesOf, ask]
  held id hl := by cases id <;> simp [Listens, listenersOf, ask] at hl

theorem HeldBy.congr (hh : h.HeldBy holders) (hs : SameWires h h') : h'.HeldBy holders where
  wired := hh.wired.congr hs.bus hs.listenersOf
  trackers := by rw [hs.bus]; exact hh.trackers
  counted id := (hs.handlesOf id).trans (hh.counted id)
  held id hl := hh.held id (by rwa [Listens, hs.listenersOf] at hl)

theorem HeldBy.perm {holders' : List TrackerId} (hh : h.HeldBy holders)
    (hp : holders.Perm holders') : h.HeldBy holders' where
  wired := hh.wired
  trackers := hh.trackers
  counted id := (hh.counted id).trans (hp.count_eq id)
  held id hl := hp.mem_iff.mp (hh.held id hl)

theorem HeldBy.isLive_iff (hh : h.HeldBy holders) : h.isLive id = true ↔ id ∈ holders := by
  rw [Host.isLive_iff, hh.counted, Ne, List.count_eq_zero, Decidable.not_not]

theorem HeldBy.knows (hh : h.HeldBy holders) (hid : id ∈ holders) : h.Knows id := by
  refine Classical.byContradiction fun hk => ?_
  have hc := hh.counted id
  rw [handlesOf_of_not_knows hk] at hc
  exact List.count_eq_zero.mp hc.symm hid

/-! ### Taking hold and letting go -/

/-- An adjustment as something that is asked of its tracker shows it. -/
theorem ask_adjust_eq {β : Type} {g : {α : Type} → Tracker α → β} {f : Adjustment} {k : β → β}
    (hf : ∀ {α : Type} (t : Tracker α), g (f t) = k (g t)) (h : Host) (id id' : TrackerId) :
    (h.adjust id f).ask id' g = (h.ask id' g).map fun x => if id = id' then k x else x := by
  cases id with
  | note n =>
    cases id' with
    | text m => simp [adjust, ask, Function.comp_def]
    | note m =>
      simp only [adjust, ask, List.getElem?_modify, Option.map_eq_map, Option.map_map]
      congr 1
      funext t
      by_cases hn : n = m <;> simp [hn, hf]
  | text n =>
    cases id' with
    | note m => simp [adjust, ask, Function.comp_def]
    | text m =>
      simp only [adjust, ask, List.getElem?_modify, Option.map_eq_map, Option.map_map]
      congr 1
      funext t
      by_cases hn : n = m <;> simp [hn, hf]

theorem handlesOf_adjust (h : Host) (id : TrackerId) {f : Adjustment}
    (hf : ∀ {α : Type} (t : Tracker α), (f t).handles = t.handles) (id' : TrackerId) :
    (h.adjust id f).handlesOf id' = h.handlesOf id' := by
  rw [handlesOf, ask_adjust h id hf, handlesOf]

theorem listenersOf_adjust (h : Host) (id : TrackerId) {f : Adjustment}
    (hf : ∀ {α : Type} (t : Tracker α), (f t).listeners = t.listeners) (id' : TrackerId) :
    (h.adjust id f).listenersOf id' = h.listenersOf id' := by
  rw [listenersOf, ask_adjust h id hf, listenersOf]

@[simp] theorem handlesOf_listen (h : Host) (id id' : TrackerId) :
    (h.listen id).handlesOf id' = h.handlesOf id' := by
  unfold Host.listen
  split
  · generalize h.bus.registerAll (.tracker id) = wires
    exact handlesOf_adjust { h with bus := wires.2 } id (f := fun t => { t with listeners := wires.1 })
      (fun _ => rfl) id'
  · rfl

@[simp] theorem handlesOf_unlisten (h : Host) (id id' : TrackerId) :
    (h.unlisten id).handlesOf id' = h.handlesOf id' :=
  handlesOf_adjust { h with bus := _ } id (f := fun t => { t with listeners := [] }) (fun _ => rfl) id'

theorem ask_handles_of_knows (hk : h.Knows id) :
    h.ask id Tracker.handles = some (h.handlesOf id) := by
  cases id with
  | note n => simp [handlesOf, ask, List.getElem?_eq_getElem hk]
  | text n => simp [handlesOf, ask, List.getElem?_eq_getElem hk]

theorem handlesOf_share (hk : h.Knows id) (id' : TrackerId) :
    (h.share id).handlesOf id' = h.handlesOf id' + if id = id' then 1 else 0 := by
  rw [share, handlesOf, ask_adjust_eq (f := fun t => { t with handles := t.handles + 1 })
    (k := (· + 1)) fun _ => rfl]
  by_cases hid : id = id'
  · subst hid
    simp [ask_handles_of_knows hk]
  · simp [hid, handlesOf]

theorem HeldBy.share (hh : h.HeldBy holders) (hid : id ∈ holders) :
    (h.share id).HeldBy (id :: holders) := by
  have hl := listenersOf_adjust h id (f := fun t => { t with handles := t.handles + 1 }) fun _ => rfl
  refine ⟨hh.wired.congr (adjust_bus h id _) hl, ?_, fun id' => ?_, fun id' hl' => ?_⟩
  · rw [Host.share, adjust_bus]
    exact hh.trackers
  · rw [handlesOf_share (hh.knows hid), hh.counted, List.count_cons]
    simp
  · rw [Listens, Host.share, hl] at hl'
    exact List.mem_cons_of_mem _ (hh.held id' hl')

theorem HeldBy.unlisten (hh : h.HeldBy holders) (id : TrackerId) : (h.unlisten id).HeldBy holders := by
  have hb : (h.unlisten id).bus = h.bus.remove (h.listenersOf id) := adjust_bus _ _ _
  refine ⟨hh.wired.unlisten id, fun l hl => ?_, fun id' => ?_, fun id' hl => ?_⟩
  · rw [hb] at hl
    exact hh.trackers l (List.mem_filter.mp hl).1
  · rw [handlesOf_unlisten, hh.counted]
  · rw [Listens, listenersOf_unlisten] at hl
    split at hl
    · contradiction
    · exact hh.held id' hl

theorem HeldBy.listen (hh : h.HeldBy holders) (hid : id ∈ holders) : (h.listen id).HeldBy holders := by
  refine ⟨hh.wired.listen id, ?_, fun id' => ?_, fun id' hl => ?_⟩
  · unfold Host.listen
    split
    · intro l hl
      rw [adjust_bus] at hl
      rcases mem_listeners_registerAll _ _ hl with hl | ⟨hr, -⟩
      · exact hh.trackers l hl
      · exact ⟨id, hr⟩
    · exact hh.trackers
  · rw [handlesOf_listen, hh.counted]
  · rcases listenersOf_listen h id id' with he | ⟨rfl, -⟩
    · rw [Listens, he] at hl
      exact hh.held id' hl
    · exact hid

/-- The last one who lets go of a tracker stops it. -/
theorem HeldBy.drop (hh : h.HeldBy holders) (hid : id ∈ holders) :
    (h.drop id).HeldBy (holders.erase id) := by
  obtain ⟨g, hg⟩ : ∃ g, g = h.adjust id fun t => { t with handles := t.handles - 1 } := ⟨_, rfl⟩
  have hcounted : ∀ id', g.handlesOf id' = (holders.erase id).count id' := fun id' => by
    rw [hg, handlesOf, ask_adjust_eq (f := fun t => { t with handles := t.handles - 1 })
      (k := (· - 1)) fun _ => rfl, List.count_erase, ← hh.counted]
    by_cases he : id = id'
    · subst he
      simp [ask_handles_of_knows (hh.knows hid)]
    · simp [he, handlesOf]
  have hl : ∀ id', g.listenersOf id' = h.listenersOf id' := by
    rw [hg]
    exact listenersOf_adjust h id (f := fun t => { t with handles := t.handles - 1 }) fun _ => rfl
  have hbus : g.bus = h.bus := hg ▸ adjust_bus h id _
  have hdrop : h.drop id = if g.isLive id then g else g.unlisten id := by rw [Host.drop, hg]
  have hothers : ∀ id', g.Listens id' → id' = id ∨ id' ∈ holders.erase id := fun id' hl' => by
    rw [Listens, hl] at hl'
    by_cases he : id' = id
    · exact .inl he
    · exact .inr ((List.mem_erase_of_ne he).mpr (hh.held id' hl'))
  rw [hdrop]
  split
  · next hlive =>
    refine ⟨hh.wired.congr hbus hl, by rw [hbus]; exact hh.trackers, hcounted, fun id' hl' => ?_⟩
    rcases hothers id' hl' with rfl | hm
    · rw [Host.isLive_iff, hcounted] at hlive
      exact List.count_pos_iff.mp (Nat.pos_of_ne_zero hlive)
    · exact hm
  · have hw : g.Wired := hh.wired.congr hbus hl
    have hb : (g.unlisten id).bus = g.bus.remove (g.listenersOf id) := adjust_bus _ _ _
    refine ⟨hw.unlisten id, fun l hm => ?_, fun id' => ?_, fun id' hl' => ?_⟩
    · rw [hb] at hm
      exact hh.trackers l (hbus ▸ (List.mem_filter.mp hm).1)
    · rw [handlesOf_unlisten, hcounted]
    · rw [Listens, listenersOf_unlisten] at hl'
      split at hl'
      · contradiction
      · next hne => exact (hothers id' hl').resolve_left fun he => hne he.symm

/-- A tracker that was not there is held once. -/
theorem HeldBy.add {g : Host} (hh : h.HeldBy holders) (hnew : ¬ h.Knows id) (hbus : g.bus = h.bus)
    (hl : ∀ id', g.listenersOf id' = h.listenersOf id')
    (hc : ∀ id', g.handlesOf id' = if id' = id then 1 else h.handlesOf id') :
    g.HeldBy (id :: holders) := by
  refine ⟨hh.wired.congr hbus hl, by rw [hbus]; exact hh.trackers, fun id' => ?_, fun id' hl' => ?_⟩
  · rw [hc, List.count_cons]
    by_cases he : id' = id
    · have hzero : holders.count id' = 0 := by
        rw [← hh.counted, he, handlesOf_of_not_knows hnew]
      simp [he ▸ hzero, he]
    · simp [he, Ne.symm he, hh.counted]
  · rw [Listens, hl] at hl'
    exact List.mem_cons_of_mem _ (hh.held id' hl')

theorem handlesOf_addNote (h : Host) (t : Tracker Object) (id : TrackerId) :
    (h.addNote t).handlesOf id = if id = .note h.notes.length then t.handles else h.handlesOf id := by
  cases id with
  | text m => simp [handlesOf, ask, addNote]
  | note m =>
    simp only [handlesOf, ask, addNote, List.getElem?_append, TrackerId.note.injEq]
    split
    · next hm => rw [if_neg (Nat.ne_of_lt hm)]
    · next hm =>
      rw [List.getElem?_eq_none (Nat.not_lt.mp hm)]
      by_cases he : m = h.notes.length
      · simp [he]
      · have hk : m - h.notes.length = m - h.notes.length - 1 + 1 := by omega
        rw [hk]
        simp [he]

theorem handlesOf_addText (h : Host) (t : Tracker String) (id : TrackerId) :
    (h.addText t).handlesOf id = if id = .text h.texts.length then t.handles else h.handlesOf id := by
  cases id with
  | note m => simp [handlesOf, ask, addText]
  | text m =>
    simp only [handlesOf, ask, addText, List.getElem?_append, TrackerId.text.injEq]
    split
    · next hm => rw [if_neg (Nat.ne_of_lt hm)]
    · next hm =>
      rw [List.getElem?_eq_none (Nat.not_lt.mp hm)]
      by_cases he : m = h.texts.length
      · simp [he]
      · have hk : m - h.texts.length = m - h.texts.length - 1 + 1 := by omega
        rw [hk]
        simp [he]

theorem HeldBy.openNote (hh : h.HeldBy holders) (path : String) :
    (h.openNote path).2.HeldBy (.note (h.openNote path).1 :: holders) := by
  have hs := Tracker.forNote_sameSite h.vault path
  have hq : Quiet none h (h.addNote (.forNote h.vault path)) := quiet_addNote h hs.listeners
  have hadd : (h.addNote (.forNote h.vault path)).HeldBy (.note h.notes.length :: holders) :=
    hh.add (by simp [Knows]) hq.bus hq.listenersOf fun id => by rw [handlesOf_addNote, hs.handles]
  rw [openNote_eq]
  exact hadd.listen List.mem_cons_self

theorem HeldBy.openText (hh : h.HeldBy holders) (path : String) :
    (h.openText path).2.HeldBy (.text (h.openText path).1 :: holders) := by
  have hs := Tracker.forText_sameSite h.vault h.read path
  have hq : Quiet none h (h.addText (.forText h.vault h.read path)) := quiet_addText h hs.listeners
  have hadd : (h.addText (.forText h.vault h.read path)).HeldBy (.text h.texts.length :: holders) :=
    hh.add (by simp [Knows]) hq.bus hq.listenersOf fun id => by rw [handlesOf_addText, hs.handles]
  rw [openText_eq]
  exact hadd.listen List.mem_cons_self

/-! ### Accounts -/

/-- All trackers of a host. -/
def ids (h : Host) : List TrackerId :=
  (List.range h.notes.length).map .note ++ (List.range h.texts.length).map .text

/-- The trackers that are held and listen. -/
def subscribers (h : Host) : List TrackerId := h.ids.filter fun id => h.Subscribed id

theorem mem_ids : id ∈ h.ids ↔ h.Knows id := by
  cases id <;> simp [ids, Knows]

theorem ids_nodup (h : Host) : h.ids.Nodup := by
  refine List.Nodup.append ?_ ?_ (by simp [List.disjoint_left])
  · exact List.nodup_range.map fun _ _ he => TrackerId.note.inj he
  · exact List.nodup_range.map fun _ _ he => TrackerId.text.inj he

theorem subscribers_nodup (h : Host) : h.subscribers.Nodup := (ids_nodup h).filter _

theorem HeldBy.mem_subscribers (hh : h.HeldBy holders) :
    id ∈ h.subscribers ↔ id ∈ holders ∧ h.Listens id := by
  rw [subscribers, List.mem_filter, mem_ids, decide_eq_true_eq, Subscribed, hh.isLive_iff]
  exact ⟨And.right, fun hs => ⟨hh.knows hs.1, hs⟩⟩

theorem HeldBy.mem_subscribers_iff (hh : h.HeldBy holders) : id ∈ h.subscribers ↔ h.Listens id :=
  hh.mem_subscribers.trans ⟨And.right, fun hl => ⟨hh.held id hl, hl⟩⟩

/-- Among those who hear an event is each tracker that is held and listens, once, and nobody
else. -/
theorem HeldBy.receivers_perm (hh : h.HeldBy holders) (kind : Event.Kind) :
    (h.bus.receivers kind).Perm (h.subscribers.map .tracker) := by
  refine List.perm_iff_count.mpr fun r => ?_
  cases r with
  | recorder =>
    rw [List.count_eq_zero.mpr, List.count_eq_zero.mpr]
    · simp
    · exact recorder_not_mem_receivers hh.trackers kind
  | tracker id =>
    have hc := hh.wired.once id kind
    rw [hears] at hc
    rw [hc, List.count_map_of_injective _ _ (fun _ _ he => Receiver.tracker.inj he)]
    by_cases hl : h.Listens id
    · have hm : id ∈ h.subscribers := hh.mem_subscribers_iff.mpr hl
      rw [if_neg hl, List.count_eq_one_of_mem h.subscribers_nodup hm]
    · have hm : id ∉ h.subscribers := fun hm => hl (hh.mem_subscribers_iff.mp hm)
      rw [if_pos (Classical.not_not.mp hl), List.count_eq_zero.mpr hm]

/-- The event of a change reaches each tracker that is held and listens, and reaches it once. -/
theorem HeldBy.heard_changed (hh : h.HeldBy holders) (c : Event × Vault) :
    Heard c.1 h.subscribers { h with vault := c.2 } (h.changed c) :=
  (hh.wired.withVault c.2).heard_emit hh.trackers (fun _ => hh.mem_subscribers_iff) c.1

/-- Each listener is one for some kind of event. -/
theorem length_receivers (b : Bus) : b.listeners.length = (b.receivers .create).length +
    (b.receivers .delete).length + (b.receivers .modify).length + (b.receivers .rename).length := by
  simp only [Bus.receivers, List.length_map]
  induction b.listeners with
  | nil => rfl
  | cons l ls ih =>
    simp only [List.filter_cons, List.length_cons, ih]
    cases l.kind <;> simp <;> omega

theorem HeldBy.length_listeners (hh : h.HeldBy holders) :
    h.bus.listeners.length = 4 * h.subscribers.length := by
  have hl : ∀ kind, (h.bus.receivers kind).length = h.subscribers.length := fun kind => by
    rw [(hh.receivers_perm kind).length_eq, List.length_map]
  rw [length_receivers, hl, hl, hl, hl]
  omega

end NoteForms.Host
