import NoteForms.Proofs.Track.Follow
import NoteForms.Track.Host

/-! How events reach the trackers. The bus gives every listener a number of its own
and keeps for each tracker the numbers that the tracker keeps too, so a tracker that
listens hears each event once, and one that does not hears none. -/

namespace NoteForms

/-! ### Wires -/

namespace Host

variable {h h' : Host} {e : Event} {r : Receiver} {n : Nat}

def listenersOf (h : Host) (id : TrackerId) : List Nat := (h.ask id Tracker.listeners).getD []

/-- How often a tracker hears of an event of a kind. -/
def hears (h : Host) (id : TrackerId) (kind : Event.Kind) : Nat :=
  (h.bus.receivers kind).count (.tracker id)

/-- The bus and the trackers agree on who listens. -/
structure Wired (h : Host) : Prop where
  numbered : ∀ l ∈ h.bus.listeners, l.id < h.bus.next
  kept : ∀ id, ∀ x ∈ h.listenersOf id, x < h.bus.next
  owned : ∀ l ∈ h.bus.listeners, ∀ id, l.receiver = .tracker id ↔ l.id ∈ h.listenersOf id
  once : ∀ id kind, h.hears id kind = if h.listenersOf id = [] then 0 else 1

theorem Wired.congr (hw : h.Wired) (hb : h'.bus = h.bus)
    (hl : ∀ id, h'.listenersOf id = h.listenersOf id) : h'.Wired where
  numbered := by rw [hb]; exact hw.numbered
  kept id := by rw [hb, hl]; exact hw.kept id
  owned l h id := by rw [hl]; exact hw.owned l (hb ▸ h) id
  once id kind := by rw [hears, hb, hl]; exact hw.once id kind

/-- The vault has no part in the wires. -/
theorem Wired.withVault (hw : h.Wired) (v : Vault) : { h with vault := v }.Wired :=
  hw.congr rfl fun _ => rfl

theorem wired_empty : ({} : Host).Wired where
  numbered := by simp
  kept id := by cases id <;> simp [listenersOf, ask]
  owned := by simp
  once id kind := by cases id <;> simp [listenersOf, ask, hears, Bus.receivers]

section Ask

variable {β : Type} {g : {α : Type} → Tracker α → β}

theorem ask_modifyNotes (h : Host) (n : Nat) {f : Tracker Object → Tracker Object}
    (hf : ∀ t, g (f t) = g t) (id : TrackerId) :
    ({ h with notes := h.notes.modify n f } : Host).ask id g = h.ask id g := by
  cases id with
  | text m => rfl
  | note m =>
    simp only [ask, List.getElem?_modify, Option.map_eq_map, Option.map_map]
    congr 1
    funext t
    by_cases hn : n = m <;> simp [hn, hf]

theorem ask_modifyTexts (h : Host) (n : Nat) {f : Tracker String → Tracker String}
    (hf : ∀ t, g (f t) = g t) (id : TrackerId) :
    ({ h with texts := h.texts.modify n f } : Host).ask id g = h.ask id g := by
  cases id with
  | note m => rfl
  | text m =>
    simp only [ask, List.getElem?_modify, Option.map_eq_map, Option.map_map]
    congr 1
    funext t
    by_cases hn : n = m <;> simp [hn, hf]

theorem ask_adjust (h : Host) (id : TrackerId) {f : Adjustment}
    (hf : ∀ {α : Type} (t : Tracker α), g (f t) = g t) (id' : TrackerId) :
    (h.adjust id f).ask id' g = h.ask id' g := by
  cases id with
  | note n => exact ask_modifyNotes h n hf id'
  | text n => exact ask_modifyTexts h n hf id'

end Ask

/-! ### Listening -/

section RegisterAll

variable (b : Bus) (r : Receiver)

theorem registerAll_eq :
    b.registerAll r = ([b.next, b.next + 1, b.next + 2, b.next + 3],
      ⟨b.listeners ++ [⟨b.next, .create, r⟩, ⟨b.next + 1, .delete, r⟩, ⟨b.next + 2, .modify, r⟩,
        ⟨b.next + 3, .rename, r⟩], b.next + 4⟩) := by
  simp [Bus.registerAll, Bus.register, Event.Kind.all]

@[simp] theorem next_registerAll : (b.registerAll r).2.next = b.next + 4 := by rw [registerAll_eq]

theorem mem_ids_registerAll {x : Nat} :
    x ∈ (b.registerAll r).1 ↔ b.next ≤ x ∧ x < b.next + 4 := by
  simp only [registerAll_eq, List.mem_cons, List.not_mem_nil, or_false]
  omega

theorem mem_listeners_registerAll {l : Listener} (hl : l ∈ (b.registerAll r).2.listeners) :
    l ∈ b.listeners ∨ l.receiver = r ∧ b.next ≤ l.id ∧ l.id < b.next + 4 := by
  simp only [registerAll_eq, List.mem_append, List.mem_cons, List.not_mem_nil, or_false] at hl
  rcases hl with hl | rfl | rfl | rfl | rfl
  · exact .inl hl
  all_goals exact .inr ⟨rfl, by simp⟩

theorem hears_registerAll (id : TrackerId) (kind : Event.Kind) :
    ((b.registerAll r).2.receivers kind).count (.tracker id) =
      (b.receivers kind).count (.tracker id) + if r = .tracker id then 1 else 0 := by
  rw [registerAll_eq]
  cases kind <;> simp [Bus.receivers, List.count_append, List.count_singleton, beq_iff_eq]

end RegisterAll

/-- The tracker is there. -/
def Knows (h : Host) : TrackerId → Prop
  | .note n => n < h.notes.length
  | .text n => n < h.texts.length

theorem ask_isListening_eq_some {id : TrackerId} {b : Bool}
    (hb : h.ask id Tracker.isListening = some b) : h.Knows id ∧ b = !(h.listenersOf id).isEmpty := by
  cases id with
  | note n =>
    obtain ⟨t, ht, rfl⟩ := Option.map_eq_some_iff.mp hb
    exact ⟨(List.getElem?_eq_some_iff.mp ht).1, by simp [listenersOf, ask, ht, Tracker.isListening]⟩
  | text n =>
    obtain ⟨t, ht, rfl⟩ := Option.map_eq_some_iff.mp hb
    exact ⟨(List.getElem?_eq_some_iff.mp ht).1, by simp [listenersOf, ask, ht, Tracker.isListening]⟩

section Adjust

variable (h : Host) (id : TrackerId) (f : Adjustment)

@[simp] theorem adjust_bus : (h.adjust id f).bus = h.bus := by cases id <;> rfl

@[simp] theorem adjust_vault : (h.adjust id f).vault = h.vault := by cases id <;> rfl

@[simp] theorem adjust_canWait : (h.adjust id f).canWait = h.canWait := by cases id <;> rfl

@[simp] theorem adjust_failReads : (h.adjust id f).failReads = h.failReads := by cases id <;> rfl

@[simp] theorem adjust_pending : (h.adjust id f).pending = h.pending := by cases id <;> rfl

@[simp] theorem listen_vault : (h.listen id).vault = h.vault := by
  unfold Host.listen; split <;> simp

@[simp] theorem unlisten_vault : (h.unlisten id).vault = h.vault := by simp [Host.unlisten]

@[simp] theorem drop_vault : (h.drop id).vault = h.vault := by
  simp only [Host.drop]
  split <;> simp

@[simp] theorem listen_canWait : (h.listen id).canWait = h.canWait := by
  unfold Host.listen; split <;> simp

@[simp] theorem listen_failReads : (h.listen id).failReads = h.failReads := by
  unfold Host.listen; split <;> simp

@[simp] theorem listen_pending : (h.listen id).pending = h.pending := by
  unfold Host.listen; split <;> simp

@[simp] theorem length_texts_adjust : (h.adjust id f).texts.length = h.texts.length := by
  cases id <;> simp [adjust]

@[simp] theorem length_texts_listen : (h.listen id).texts.length = h.texts.length := by
  unfold Host.listen; split <;> simp

end Adjust

theorem listenersOf_setListeners (h : Host) (bus : Bus) {id : TrackerId} (ids : List Nat)
    (hk : h.Knows id ∨ ids = []) (id' : TrackerId) :
    ({ h with bus }.adjust id fun t => { t with listeners := ids }).listenersOf id' =
      if id = id' then ids else h.listenersOf id' := by
  cases id with
  | note n =>
    cases id' with
    | text m => rfl
    | note m =>
      by_cases hn : n = m
      · subst hn
        cases ht : h.notes[n]? with
        | some t => simp [listenersOf, ask, adjust, ht]
        | none =>
          have hn : h.notes.length ≤ n := List.getElem?_eq_none_iff.mp ht
          have hids : ids = [] := hk.resolve_left (Nat.not_lt.mpr hn)
          simp [listenersOf, ask, adjust, ht, hids]
      · simp [listenersOf, ask, adjust, hn]
  | text n =>
    cases id' with
    | note m => rfl
    | text m =>
      by_cases hn : n = m
      · subst hn
        cases ht : h.texts[n]? with
        | some t => simp [listenersOf, ask, adjust, ht]
        | none =>
          have hn : h.texts.length ≤ n := List.getElem?_eq_none_iff.mp ht
          have hids : ids = [] := hk.resolve_left (Nat.not_lt.mpr hn)
          simp [listenersOf, ask, adjust, ht, hids]
      · simp [listenersOf, ask, adjust, hn]

theorem Wired.listen (hw : h.Wired) (id : TrackerId) : (h.listen id).Wired := by
  unfold Host.listen
  split
  case h_2 => exact hw
  next hb =>
  obtain ⟨hk, hi⟩ := ask_isListening_eq_some hb
  have hno : h.listenersOf id = [] := by simpa using hi
  have hl := listenersOf_setListeners h (h.bus.registerAll (.tracker id)).2
    (h.bus.registerAll (.tracker id)).1 (.inl hk)
  refine ⟨fun l hm => ?_, fun id' x hm => ?_, fun l hm id' => ?_, fun id' kind => ?_⟩
  · rw [adjust_bus] at hm ⊢
    rw [next_registerAll]
    rcases mem_listeners_registerAll _ _ hm with hm | ⟨-, -, hlt⟩
    · have := hw.numbered l hm
      omega
    · exact hlt
  · rw [hl] at hm
    rw [adjust_bus, next_registerAll]
    split at hm
    · exact ((mem_ids_registerAll _ _).mp hm).2
    · have := hw.kept id' x hm
      omega
  · rw [adjust_bus] at hm
    rw [hl]
    rcases mem_listeners_registerAll _ _ hm with hm | ⟨hr, hge, hlt⟩
    · have hold := hw.owned l hm id'
      split
      · next hid =>
        -- the listener is older than those of the tracker
        subst hid
        have := hw.numbered l hm
        rw [hno] at hold
        rw [hold, mem_ids_registerAll]
        simp only [List.not_mem_nil, false_iff]
        omega
      · exact hold
    · rw [hr]
      split
      · next hid => simp [hid, mem_ids_registerAll, hge, hlt]
      · next hid =>
        have hnin : l.id ∉ h.listenersOf id' := fun hin => by
          have := hw.kept id' _ hin
          omega
        simp [hid, hnin]
  · rw [hl, hears, adjust_bus, hears_registerAll]
    have ho := hw.once id' kind
    rw [hears] at ho
    rw [ho]
    by_cases hid : id = id'
    · subst hid
      simp [hno, registerAll_eq]
    · simp [hid]

theorem hears_eq_countP (h : Host) (id : TrackerId) (kind : Event.Kind) :
    h.hears id kind =
      h.bus.listeners.countP fun l => decide (l.receiver = .tracker id) && decide (l.kind = kind) := by
  simp only [hears, Bus.receivers, List.count, List.countP_map, List.countP_filter]
  rfl

theorem listenersOf_unlisten (h : Host) (id id' : TrackerId) :
    (h.unlisten id).listenersOf id' = if id = id' then [] else h.listenersOf id' :=
  listenersOf_setListeners h _ [] (.inr rfl) id'

theorem Wired.unlisten (hw : h.Wired) (id : TrackerId) : (h.unlisten id).Wired := by
  have hb : (h.unlisten id).bus = h.bus.remove (h.listenersOf id) := adjust_bus _ _ _
  have hm : ∀ l ∈ (h.unlisten id).bus.listeners, l ∈ h.bus.listeners ∧ l.id ∉ h.listenersOf id := by
    intro l hl
    simpa [hb, Bus.remove] using hl
  refine ⟨fun l hl => ?_, fun id' x hx => ?_, fun l hl id' => ?_, fun id' kind => ?_⟩
  · rw [hb]
    exact hw.numbered l (hm l hl).1
  · rw [listenersOf_unlisten] at hx
    rw [hb]
    split at hx
    · contradiction
    · exact hw.kept id' x hx
  · obtain ⟨hl, hnin⟩ := hm l hl
    rw [hw.owned l hl, listenersOf_unlisten]
    split
    · next hid => simpa [← hid] using hnin
    · rfl
  · rw [listenersOf_unlisten]
    split
    · next hid =>
      subst hid
      rw [if_pos rfl, hears_eq_countP, List.countP_eq_zero]
      intro l hl
      obtain ⟨hl, hnin⟩ := hm l hl
      simp [hw.owned l hl, hnin]
    · next hid =>
      rw [← hw.once id' kind, hears_eq_countP, hears_eq_countP, hb, Bus.remove, List.countP_filter]
      refine List.countP_congr fun l hl => ?_
      have hne : l.receiver = .tracker id' → l.id ∉ h.listenersOf id := fun hr hin => by
        have := (hw.owned l hl id).mpr hin
        simp_all
      simp only [Bool.and_eq_true, decide_eq_true_eq, Bool.not_eq_true', List.contains_eq_mem]
      simp_all

/-! ### Hearing -/

/-- The epochs in which reads of a tracker wait. -/
def waitingOf (h : Host) (n : Nat) : List Nat := (h.pending.filter (·.tracker = n)).map (·.epoch)

/-- At most the trackers and the reads that wait are others. -/
structure SameGround (h h' : Host) : Prop where
  vault : h'.vault = h.vault
  bus : h'.bus = h.bus
  canWait : h'.canWait = h.canWait
  failReads : h'.failReads = h.failReads

theorem deliver_sameGround (e : Event) (h : Host) (r : Receiver) : SameGround h (deliver e h r) := by
  unfold deliver
  split
  · exact ⟨rfl, rfl, rfl, rfl⟩
  · exact ⟨rfl, rfl, rfl, rfl⟩
  · split <;> exact ⟨rfl, rfl, rfl, rfl⟩

theorem deliver_note_self (e : Event) (h : Host) (n : Nat) :
    (deliver e h (.tracker (.note n))).notes[n]? = (h.notes[n]?).map (·.hearNote h.vault e) := by
  simp only [deliver, List.getElem?_modify, if_pos]
  rfl

theorem deliver_note_of_ne (hr : r ≠ .tracker (.note n)) :
    (deliver e h r).notes[n]? = h.notes[n]? := by
  match r with
  | .recorder => rfl
  | .tracker (.note m) =>
    have hm : m ≠ n := fun hm => hr (by rw [hm])
    simp [deliver, hm]
  | .tracker (.text m) => simp only [deliver]; split <;> rfl

theorem deliver_text_self {t : Tracker String} (ht : h.texts[n]? = some t) :
    (deliver e h (.tracker (.text n))).texts[n]? = some (t.hearText h.vault e).1 := by
  have hn := (List.getElem?_eq_some_iff.mp ht).1
  simp only [deliver, ht, List.getElem?_set_self hn]
  rfl

theorem waitingOf_deliver_self {t : Tracker String} (ht : h.texts[n]? = some t) :
    (deliver e h (.tracker (.text n))).waitingOf n =
      if h.canWait = true then Tracker.waitingAfter (h.waitingOf n) (t.hearText h.vault e)
      else h.waitingOf n := by
  have he : t.react h.vault (.of t.path e) = t.hearText h.vault e := rfl
  simp only [deliver, ht, he, waitingOf, Tracker.waitingAfter]
  cases (t.hearText h.vault e).2 <;> cases h.canWait <;> simp

theorem deliver_text_of_ne (hr : r ≠ .tracker (.text n)) :
    (deliver e h r).texts[n]? = h.texts[n]? ∧ (deliver e h r).waitingOf n = h.waitingOf n := by
  match r with
  | .recorder => exact ⟨rfl, rfl⟩
  | .tracker (.note m) => exact ⟨rfl, rfl⟩
  | .tracker (.text m) =>
    have hm : m ≠ n := fun hm => hr (by rw [hm])
    simp only [deliver]
    split
    · exact ⟨rfl, rfl⟩
    · refine ⟨by simp [hm], ?_⟩
      simp only [waitingOf]
      split <;> simp [hm]

theorem deliver_recorded_of_ne (hr : r ≠ .recorder) : (deliver e h r).recorded = h.recorded := by
  match r with
  | .recorder => contradiction
  | .tracker (.note m) => rfl
  | .tracker (.text m) => simp only [deliver]; split <;> rfl

/-- What an event does not change of any tracker. -/
theorem ask_deliver {β : Type} {g : {α : Type} → Tracker α → β} {e : Event}
    (hn : ∀ (t : Tracker Object) v, g (t.hearNote v e) = g t)
    (ht : ∀ (t : Tracker String) v, g (t.hearText v e).1 = g t)
    (h : Host) (r : Receiver) (id : TrackerId) :
    (deliver e h r).ask id g = h.ask id g := by
  cases id with
  | note n =>
    by_cases hr : r = .tracker (.note n)
    · subst hr
      simp only [ask, deliver_note_self, Option.map_map]
      congr 1
      funext t
      exact hn t h.vault
    · simp only [ask, deliver_note_of_ne hr]
  | text n =>
    by_cases hr : r = .tracker (.text n)
    · subst hr
      cases htn : h.texts[n]? with
      | none => simp [deliver, htn]
      | some t => simp [ask, htn, deliver_text_self htn, ht]
    · simp only [ask, (deliver_text_of_ne hr).1]

/-- Reads wait for trackers that are there. -/
def Waits (h : Host) : Prop := ∀ r ∈ h.pending, r.tracker < h.texts.length

theorem Waits.deliver (hw : h.Waits) (e : Event) (r : Receiver) : (deliver e h r).Waits := by
  match r with
  | .recorder => exact hw
  | .tracker (.note m) => exact hw
  | .tracker (.text m) =>
    simp only [Host.deliver]
    split
    · exact hw
    · next ht =>
      have hm := (List.getElem?_eq_some_iff.mp ht).1
      intro r hr
      rw [List.length_set]
      split at hr
      · rcases List.mem_append.mp hr with hr | hr
        · exact hw r hr
        · simpa [List.mem_singleton.mp hr] using hm
      · exact hw r hr

/-- What no receiver changes is not changed by an event. -/
theorem foldl_deliver {β : Type} (look : Host → β) (rs : List Receiver)
    (hl : ∀ h, ∀ r ∈ rs, look (deliver e h r) = look h) (h : Host) :
    look (rs.foldl (deliver e) h) = look h := by
  induction rs generalizing h with
  | nil => rfl
  | cons r rs ih =>
    rw [List.foldl_cons, ih fun h r hr => hl h r (List.mem_cons_of_mem _ hr)]
    exact hl h r List.mem_cons_self

@[simp] theorem emit_vault (h : Host) (e : Event) : (h.emit e).vault = h.vault :=
  foldl_deliver Host.vault _ (fun h r _ => (deliver_sameGround e h r).vault) h

@[simp] theorem emit_bus (h : Host) (e : Event) : (h.emit e).bus = h.bus :=
  foldl_deliver Host.bus _ (fun h r _ => (deliver_sameGround e h r).bus) h

@[simp] theorem emit_canWait (h : Host) (e : Event) : (h.emit e).canWait = h.canWait :=
  foldl_deliver Host.canWait _ (fun h r _ => (deliver_sameGround e h r).canWait) h

@[simp] theorem emit_failReads (h : Host) (e : Event) : (h.emit e).failReads = h.failReads :=
  foldl_deliver Host.failReads _ (fun h r _ => (deliver_sameGround e h r).failReads) h

theorem ask_emit {β : Type} {g : {α : Type} → Tracker α → β} {e : Event}
    (hn : ∀ (t : Tracker Object) v, g (t.hearNote v e) = g t)
    (ht : ∀ (t : Tracker String) v, g (t.hearText v e).1 = g t)
    (h : Host) (id : TrackerId) : (h.emit e).ask id g = h.ask id g :=
  foldl_deliver (·.ask id g) _ (fun h r _ => ask_deliver hn ht h r id) h

theorem listenersOf_emit (h : Host) (e : Event) (id : TrackerId) :
    (h.emit e).listenersOf id = h.listenersOf id := by
  rw [listenersOf, ask_emit (fun t v => (t.hearNote_sameSite v e).listeners)
    fun t v => (t.react_sameSite v _).listeners]
  rfl

theorem isLive_emit (h : Host) (e : Event) (id : TrackerId) :
    (h.emit e).isLive id = h.isLive id := by
  have hn : ∀ (t : Tracker Object) v, (t.hearNote v e).isLive = t.isLive := fun t v => by
    rw [Tracker.isLive, (t.hearNote_sameSite v e).handles, Tracker.isLive]
  have ht : ∀ (t : Tracker String) v, (t.hearText v e).1.isLive = t.isLive := fun t v => by
    rw [Tracker.isLive, Tracker.hearText, (t.react_sameSite v _).handles, Tracker.isLive]
  rw [isLive, ask_emit hn ht, isLive]

theorem Waits.emit (hw : h.Waits) (e : Event) : (h.emit e).Waits :=
  List.foldlRecOn _ _ hw fun _ hw r _ => hw.deliver e r

theorem Wired.emit (hw : h.Wired) (e : Event) : (h.emit e).Wired :=
  hw.congr (emit_bus h e) (listenersOf_emit h e)

/-- A tracker that listens is at one place among the receivers. -/
theorem Wired.receivers_eq (hw : h.Wired) {id : TrackerId} (hl : h.listenersOf id ≠ [])
    (kind : Event.Kind) : ∃ before after, h.bus.receivers kind = before ++ .tracker id :: after ∧
      Receiver.tracker id ∉ before ∧ .tracker id ∉ after := by
  have hc := hw.once id kind
  rw [if_neg hl, hears] at hc
  have hm : .tracker id ∈ h.bus.receivers kind := List.count_pos_iff.mp (by omega)
  obtain ⟨before, after, he⟩ := List.append_of_mem hm
  rw [he, List.count_append, List.count_cons_self] at hc
  exact ⟨before, after, he, List.count_eq_zero.mp (by omega), List.count_eq_zero.mp (by omega)⟩

theorem Wired.not_mem_receivers (hw : h.Wired) {id : TrackerId} (hl : h.listenersOf id = [])
    (kind : Event.Kind) : .tracker id ∉ h.bus.receivers kind := by
  have hc := hw.once id kind
  rw [if_pos hl] at hc
  exact List.count_eq_zero.mp hc

theorem recorder_not_mem_receivers (ht : ∀ l ∈ h.bus.listeners, ∃ id, l.receiver = .tracker id)
    (kind : Event.Kind) : .recorder ∉ h.bus.receivers kind := by
  intro hm
  obtain ⟨l, hl, hr⟩ := List.mem_map.mp hm
  obtain ⟨id, hid⟩ := ht l (List.mem_filter.mp hl).1
  rw [hid] at hr
  contradiction

/-! ### Hearing once -/

/-- What reaches others does not reach a tracker. -/
theorem foldl_deliver_note {rs : List Receiver} (hr : .tracker (.note n) ∉ rs) (h : Host) :
    (rs.foldl (deliver e) h).notes[n]? = h.notes[n]? :=
  foldl_deliver (fun h => h.notes[n]?) rs
    (fun _ _ hm => deliver_note_of_ne fun he => hr (he ▸ hm)) h

theorem foldl_deliver_text {rs : List Receiver} (hr : .tracker (.text n) ∉ rs) (h : Host) :
    (rs.foldl (deliver e) h).texts[n]? = h.texts[n]? ∧
      (rs.foldl (deliver e) h).waitingOf n = h.waitingOf n :=
  ⟨foldl_deliver (fun h => h.texts[n]?) rs
      (fun _ _ hm => (deliver_text_of_ne fun he => hr (he ▸ hm)).1) h,
    foldl_deliver (fun h => h.waitingOf n) rs
      (fun _ _ hm => (deliver_text_of_ne fun he => hr (he ▸ hm)).2) h⟩

/-- A tracker of frontmatter that listens hears an event once. -/
theorem Wired.emit_note (hw : h.Wired) (hl : h.listenersOf (.note n) ≠ []) (e : Event) :
    (h.emit e).notes[n]? = (h.notes[n]?).map (·.hearNote h.vault e) := by
  obtain ⟨before, after, he, hb, ha⟩ := hw.receivers_eq hl e.kind
  have hv := foldl_deliver Host.vault before (fun h r _ => (deliver_sameGround e h r).vault) h
  rw [Host.emit, he, List.foldl_append, List.foldl_cons, foldl_deliver_note ha, deliver_note_self,
    foldl_deliver_note hb, hv]

/-- So does one of text; a read that it asks for waits, if reads can wait. -/
theorem Wired.emit_text (hw : h.Wired) (hl : h.listenersOf (.text n) ≠ []) {t : Tracker String}
    (ht : h.texts[n]? = some t) (e : Event) :
    (h.emit e).texts[n]? = some (t.hearText h.vault e).1 ∧
      (h.emit e).waitingOf n =
        if h.canWait = true then Tracker.waitingAfter (h.waitingOf n) (t.hearText h.vault e)
        else h.waitingOf n := by
  obtain ⟨before, after, he, hb, ha⟩ := hw.receivers_eq hl e.kind
  have hv := foldl_deliver Host.vault before (fun h r _ => (deliver_sameGround e h r).vault) h
  have hc := foldl_deliver Host.canWait before (fun h r _ => (deliver_sameGround e h r).canWait) h
  obtain ⟨hbt, hbw⟩ := foldl_deliver_text (e := e) hb h
  rw [Host.emit, he, List.foldl_append, List.foldl_cons, (foldl_deliver_text ha _).1,
    (foldl_deliver_text ha _).2, deliver_text_self (hbt.trans ht),
    waitingOf_deliver_self (hbt.trans ht), hbw, hv, hc]
  exact ⟨rfl, rfl⟩

/-- An event has reached each of some trackers once, and none of the others. A tracker of
frontmatter has taken what the vault keeps; one of text has asked for a read, which waits
behind those that waited, if reads can wait. -/
structure Heard (e : Event) (ids : List TrackerId) (h h' : Host) : Prop where
  notes : ∀ n, h'.notes[n]? =
    if .note n ∈ ids then (h.notes[n]?).map (·.hearNote h.vault e) else h.notes[n]?
  texts : ∀ n, h'.texts[n]? =
    if .text n ∈ ids then (h.texts[n]?).map fun t => (t.hearText h.vault e).1 else h.texts[n]?
  waiting : ∀ n t, h.texts[n]? = some t → h'.waitingOf n =
    if .text n ∈ ids ∧ h.canWait = true then
      Tracker.waitingAfter (h.waitingOf n) (t.hearText h.vault e)
    else h.waitingOf n
  recorded : h'.recorded = h.recorded
  ground : SameGround h h'

/-- An event reaches just those who listen, if nobody else hears it. -/
theorem Wired.heard_emit (hw : h.Wired) (ht : ∀ l ∈ h.bus.listeners, ∃ id, l.receiver = .tracker id)
    {ids : List TrackerId} (hids : ∀ id, id ∈ ids ↔ h.listenersOf id ≠ []) (e : Event) :
    Heard e ids h (h.emit e) := by
  have hnot : ∀ {id}, id ∉ ids → .tracker id ∉ h.bus.receivers e.kind := fun {id} hid => by
    rw [hids, Classical.not_not] at hid
    exact hw.not_mem_receivers hid e.kind
  have hrecorder := recorder_not_mem_receivers ht e.kind
  refine ⟨fun n => ?_, fun n => ?_, fun n t hn => ?_, ?_,
    ⟨emit_vault h e, emit_bus h e, emit_canWait h e, emit_failReads h e⟩⟩
  · split
    · next hid => exact hw.emit_note ((hids _).mp hid) e
    · next hid => exact foldl_deliver_note (hnot hid) h
  · split
    · next hid =>
      have hl := (hids _).mp hid
      cases hn : h.texts[n]? with
      | some t => exact (hw.emit_text hl hn e).1
      | none => exact absurd (by simp [listenersOf, ask, hn]) hl
    · next hid => exact (foldl_deliver_text (hnot hid) h).1
  · by_cases hid : .text n ∈ ids
    · simpa only [hid, true_and] using (hw.emit_text ((hids _).mp hid) hn e).2
    · rw [if_neg fun hc => hid hc.1]
      exact (foldl_deliver_text (hnot hid) h).2
  · exact foldl_deliver Host.recorded _
      (fun _ _ hm => deliver_recorded_of_ne fun he => hrecorder (he ▸ hm)) h

end Host

end NoteForms
