import NoteForms.Proofs.Track.Delivery

/-! Runs of a host. The vault is changed from outside or through trackers, trackers
come and go, and of the reads that wait any one may be run at any time. Every run
from an empty host keeps the wires right, whatever is done in it. -/

namespace NoteForms.Host

inductive Action where
  | insert (path text : String)
  | createFolder (path : String)
  | delete (path : String)
  | rename (source target : String)
  | write (path text : String)
  | process (path : String) (f : Object → Object)
  | setFailWrites (fail : Bool)
  /-- Runs one of the reads that wait, by its place among them. -/
  | runRead (i : Nat)
  | openNote (path : String)
  | openText (path : String)
  | share (id : TrackerId)
  | drop (id : TrackerId)
  | listen (id : TrackerId)
  | unlisten (id : TrackerId)
  | refresh (id : TrackerId)
  | modifyNote (n : Nat) (f : Object → Object)
  | writeText (n : Nat) (text : String)

/-- Runs the read at a place among those that wait. -/
def runReadAt (h : Host) (i : Nat) : Host :=
  match h.pending[i]? with
  | none => h
  | some r => { h with pending := h.pending.eraseIdx i }.runRead r

@[simp] theorem runReadAt_vault (h : Host) (i : Nat) : (h.runReadAt i).vault = h.vault := by
  unfold runReadAt
  split <;> rfl

def act (h : Host) : Action → Host
  | .insert path text => h.insert path text
  | .createFolder path => h.createFolder path
  | .delete path => (h.delete path).2
  | .rename source target => (h.rename source target).2
  | .write path text => (h.write path text).2
  | .process path f => (h.process path f).2
  | .setFailWrites fail => h.setFailWrites fail
  | .runRead i => h.runReadAt i
  | .openNote path => (h.openNote path).2
  | .openText path => (h.openText path).2
  | .share id => h.share id
  | .drop id => h.drop id
  | .listen id => h.listen id
  | .unlisten id => h.unlisten id
  | .refresh id => h.refresh id
  | .modifyNote n f => (h.modifyNote n f).2
  | .writeText n text => (h.writeText n text).2

def run (h : Host) (as : List Action) : Host := as.foldl act h

/-- Something is so at every host of a run, the first and the last included. -/
def Throughout (P : Host → Prop) : Host → List Action → Prop
  | h, [] => P h
  | h, a :: as => P h ∧ Throughout P (h.act a) as

instance Throughout.decidable (P : Host → Prop) [DecidablePred P] :
    (h : Host) → (as : List Action) → Decidable (Throughout P h as)
  | h, [] => inferInstanceAs (Decidable (P h))
  | h, a :: as =>
    haveI := decidable P (h.act a) as
    inferInstanceAs (Decidable (P h ∧ Throughout P (h.act a) as))

variable {h h' : Host} {id : TrackerId}

/-- To drain is to run the oldest read until none waits. -/
theorem drain_eq_run (h : Host) :
    h.drain = h.run (List.replicate h.pending.length (.runRead 0)) := by
  obtain ⟨ps, hp⟩ : ∃ ps, h.pending = ps := ⟨_, rfl⟩
  rw [drain, hp]
  induction ps generalizing h with
  | nil =>
    show { h with pending := [] } = h
    rw [← hp]
  | cons r ps ih =>
    have hr : h.act (.runRead 0) = { h with pending := ps }.runRead r := by
      simp [act, runReadAt, hp]
    have hs := ih (h.act (.runRead 0)) (by rw [hr]; rfl)
    rw [List.length_cons, List.replicate_succ, List.foldl_cons]
    show _ = (h.act (.runRead 0)).run _
    rw [← hs, hr]
    rfl

/-! ### Changes from outside -/

/-- An action by which a vault is changed from outside, if it allows the change. -/
def Action.Outside : Action → Prop
  | .insert _ _ | .createFolder _ | .delete _ | .rename _ _ | .write _ _ | .process _ _ => True
  | _ => False

/-- The change that is made by an action from outside, if the vault allows it. -/
def Action.change? (v : Vault) : Action → Option (Event × Vault)
  | .insert path text => some (v.insert path text)
  | .createFolder path => some (v.createFolder path)
  | .delete path => v.delete path
  | .rename source target => v.rename source target
  | .write path text => (v.write path text).toOption
  | .process path f => (v.process path f).toOption
  | _ => none

/-- The host only hears of the change. -/
theorem act_outside (h : Host) {a : Action} (ha : a.Outside) :
    h.act a = h ∨ ∃ c, a.change? h.vault = some c ∧ h.act a = h.changed c := by
  cases a with
  | insert path text => exact .inr ⟨_, rfl, rfl⟩
  | createFolder path => exact .inr ⟨_, rfl, rfl⟩
  | delete path =>
    simp only [act, delete]
    split
    · exact .inl rfl
    · next c hc => exact .inr ⟨c, hc, rfl⟩
  | rename source target =>
    simp only [act, rename]
    split
    · exact .inl rfl
    · next c hc => exact .inr ⟨c, hc, rfl⟩
  | write path text =>
    simp only [act, write]
    split
    · exact .inl rfl
    · next c hc => exact .inr ⟨c, by rw [Action.change?, hc]; rfl, rfl⟩
  | process path f =>
    simp only [act, process]
    split
    · exact .inl rfl
    · next c hc => exact .inr ⟨c, by rw [Action.change?, hc]; rfl, rfl⟩
  | _ => exact absurd ha id

section Change

variable {v : Vault} {a : Action} {c : Event × Vault}

theorem toOption_eq_some {ε α : Type} {x : Except ε α} {y : α} (hx : x.toOption = some y) :
    x = .ok y := by
  cases x with
  | error e => contradiction
  | ok z => rw [Option.some.inj hx]

/-- Its event tells of it. -/
theorem Action.change?_reports (hv : v.Sound) (hc : a.change? v = some c) :
    Vault.Reports c.1 v c.2 := by
  cases a with
  | insert path text =>
    rw [← Option.some.inj hc]
    exact Vault.insert_reports hv path text
  | createFolder path =>
    rw [← Option.some.inj hc]
    exact Vault.createFolder_reports hv path
  | delete path => exact Vault.delete_reports hv hc
  | rename source target => exact Vault.rename_reports hv hc
  | write path text => exact Vault.write_reports hv (toOption_eq_some hc)
  | process path f => exact Vault.process_reports hv (toOption_eq_some hc)
  | _ => contradiction

end Change

/-! ### Indifference -/

/-- A property to which neither the wires nor the users of trackers matter. -/
structure Indifferent (P : Host → Prop) : Prop where
  bus : ∀ {h : Host} (bus : Bus), P h → P { h with bus }
  adjust : ∀ {h : Host} (id : TrackerId) (f : Adjustment),
    (∀ {α : Type} (t : Tracker α), (f t).path = t.path ∧ (f t).state = t.state ∧
      (f t).data = t.data ∧ (f t).epoch = t.epoch) → P h → P (h.adjust id f)

section Indifferent

variable {P : Host → Prop}

theorem Indifferent.share (hi : Indifferent P) (hp : P h) (id : TrackerId) : P (h.share id) :=
  hi.adjust id _ (fun _ => ⟨rfl, rfl, rfl, rfl⟩) hp

theorem Indifferent.listen (hi : Indifferent P) (hp : P h) (id : TrackerId) : P (h.listen id) := by
  unfold Host.listen
  split
  · exact hi.adjust id _ (fun _ => ⟨rfl, rfl, rfl, rfl⟩) (hi.bus _ hp)
  · exact hp

theorem Indifferent.unlisten (hi : Indifferent P) (hp : P h) (id : TrackerId) :
    P (h.unlisten id) :=
  hi.adjust id (fun t => { t with listeners := [] }) (fun _ => ⟨rfl, rfl, rfl, rfl⟩) (hi.bus _ hp)

theorem Indifferent.drop (hi : Indifferent P) (hp : P h) (id : TrackerId) : P (h.drop id) := by
  have hd : P (h.adjust id fun t => { t with handles := t.handles - 1 }) :=
    hi.adjust id _ (fun _ => ⟨rfl, rfl, rfl, rfl⟩) hp
  simp only [Host.drop]
  split
  · exact hd
  · exact hi.unlisten hd id

end Indifferent

/-! ### Moves -/

/-- A host with one more tracker, which was not told to listen yet. -/
def addNote (h : Host) (t : Tracker Object) : Host := { h with notes := h.notes ++ [t] }

def addText (h : Host) (t : Tracker String) : Host := { h with texts := h.texts ++ [t] }

theorem openNote_eq (h : Host) (path : String) : h.openNote path =
    (h.notes.length, (h.addNote (.forNote h.vault path)).listen (.note h.notes.length)) := rfl

theorem openText_eq (h : Host) (path : String) : h.openText path =
    (h.texts.length, (h.addText (.forText h.vault h.read path)).listen (.text h.texts.length)) := rfl

/-- The tracker that an action may stop, or let go of. -/
def Action.stops : Action → Option TrackerId
  | .drop id | .unlisten id => some id
  | _ => none

/-- No event is reported, no read is asked for, and all listen as before. At most one
tracker is let go of. -/
structure Quiet (stops : Option TrackerId) (h h' : Host) : Prop where
  files : h'.vault.files = h.vault.files
  bus : h'.bus = h.bus
  canWait : h'.canWait = h.canWait
  failReads : h'.failReads = h.failReads
  pending : h'.pending ⊆ h.pending
  texts : h.texts.length ≤ h'.texts.length
  listenersOf : ∀ id, h'.listenersOf id = h.listenersOf id
  live : ∀ id, stops ≠ some id → h.isLive id = true → h'.isLive id = true

/-- What an action is made of. -/
inductive Moves (stops : Option TrackerId) (h : Host) : Host → Prop where
  | stay : Moves stops h h
  | quiet {h' h'' : Host} (hm : Moves stops h h') (hq : Quiet stops h' h'') : Moves stops h h''
  | changed {h' : Host} (hm : Moves stops h h') {c : Event × Vault}
    (hc : Vault.Reports c.1 h'.vault c.2) : Moves stops h (h'.changed c)
  | listen {h' : Host} (hm : Moves stops h h') (id : TrackerId) : Moves stops h (h'.listen id)
  | unlisten {h' : Host} (hm : Moves stops h h') {id : TrackerId} (hs : stops = some id) :
    Moves stops h (h'.unlisten id)

variable {stops : Option TrackerId}

/-- At most the folders of the vault are others, or whether it rejects writes. -/
theorem quiet_vault (h : Host) {v : Vault} (hv : v.files = h.vault.files) :
    Quiet stops h { h with vault := v } :=
  ⟨hv, rfl, rfl, rfl, List.Subset.refl _, Nat.le_refl _, fun _ => rfl, fun _ _ hl => hl⟩

theorem isLive_adjust {id' : TrackerId} {f : Adjustment}
    (hf : id = id' → ∀ {α : Type} (t : Tracker α), t.isLive = true → (f t).isLive = true)
    (hl : h.isLive id' = true) : (h.adjust id f).isLive id' = true := by
  cases id' with
  | note m =>
    cases id with
    | text n => exact hl
    | note n =>
      cases ht : h.notes[m]? with
      | none => simp [isLive, ask, ht] at hl
      | some t =>
        have hl' : t.isLive = true := by simpa [isLive, ask, ht] using hl
        by_cases hn : n = m
        · simpa [isLive, ask, adjust, hn, ht] using hf (by rw [hn]) t hl'
        · simpa [isLive, ask, adjust, hn, ht] using hl'
  | text m =>
    cases id with
    | note n => exact hl
    | text n =>
      cases ht : h.texts[m]? with
      | none => simp [isLive, ask, ht] at hl
      | some t =>
        have hl' : t.isLive = true := by simpa [isLive, ask, ht] using hl
        by_cases hn : n = m
        · simpa [isLive, ask, adjust, hn, ht] using hf (by rw [hn]) t hl'
        · simpa [isLive, ask, adjust, hn, ht] using hl'

theorem quiet_adjust (h : Host) (id : TrackerId) {f : Adjustment}
    (hl : ∀ {α : Type} (t : Tracker α), (f t).listeners = t.listeners)
    (hf : stops ≠ some id → ∀ {α : Type} (t : Tracker α), t.isLive = true → (f t).isLive = true) :
    Quiet stops h (h.adjust id f) where
  files := by simp
  bus := by simp
  canWait := by simp
  failReads := by simp
  pending := by simp
  texts := by simp
  listenersOf id' := by rw [listenersOf, ask_adjust h id hl, listenersOf]
  live id' hs := isLive_adjust fun hid => hf (hid ▸ hs)

theorem quiet_modifyNotes (h : Host) (n : Nat) {f : Tracker Object → Tracker Object}
    (hf : ∀ t, Tracker.SameSite t (f t)) :
    Quiet stops h { h with notes := h.notes.modify n f } where
  files := rfl
  bus := rfl
  canWait := rfl
  failReads := rfl
  pending := List.Subset.refl _
  texts := Nat.le_refl _
  listenersOf id := by rw [listenersOf, ask_modifyNotes h n fun t => (hf t).listeners, listenersOf]
  live id _ hlive := by
    rwa [isLive, ask_modifyNotes h n fun t => by rw [Tracker.isLive, (hf t).handles, Tracker.isLive]]

theorem quiet_modifyTexts (h : Host) (n : Nat) {f : Tracker String → Tracker String}
    (hf : ∀ t, Tracker.SameSite t (f t)) :
    Quiet stops h { h with texts := h.texts.modify n f } where
  files := rfl
  bus := rfl
  canWait := rfl
  failReads := rfl
  pending := List.Subset.refl _
  texts := by simp
  listenersOf id := by rw [listenersOf, ask_modifyTexts h n fun t => (hf t).listeners, listenersOf]
  live id _ hlive := by
    rwa [isLive, ask_modifyTexts h n fun t => by rw [Tracker.isLive, (hf t).handles, Tracker.isLive]]

theorem quiet_addNote (h : Host) {t : Tracker Object} (ht : t.listeners = []) :
    Quiet stops h (h.addNote t) := by
  refine ⟨rfl, rfl, rfl, rfl, List.Subset.refl _, Nat.le_refl _, fun id => ?_, fun id _ hl => ?_⟩
  · cases id with
    | text m => rfl
    | note m =>
      simp only [listenersOf, ask, addNote, List.getElem?_append]
      split
      · rfl
      · next hm =>
        rw [List.getElem?_eq_none (Nat.not_lt.mp hm)]
        cases m - h.notes.length <;> simp [ht]
  · cases id with
    | text m => exact hl
    | note m =>
      cases hm : h.notes[m]? with
      | none => simp [isLive, ask, hm] at hl
      | some t' =>
        have hlt := (List.getElem?_eq_some_iff.mp hm).1
        simpa only [isLive, ask, addNote, List.getElem?_append_left hlt] using hl

theorem quiet_addText (h : Host) {t : Tracker String} (ht : t.listeners = []) :
    Quiet stops h (h.addText t) := by
  refine ⟨rfl, rfl, rfl, rfl, List.Subset.refl _, by simp [addText], fun id => ?_, fun id _ hl => ?_⟩
  · cases id with
    | note m => rfl
    | text m =>
      simp only [listenersOf, ask, addText, List.getElem?_append]
      split
      · rfl
      · next hm =>
        rw [List.getElem?_eq_none (Nat.not_lt.mp hm)]
        cases m - h.texts.length <;> simp [ht]
  · cases id with
    | note m => exact hl
    | text m =>
      cases hm : h.texts[m]? with
      | none => simp [isLive, ask, hm] at hl
      | some t' =>
        have hlt := (List.getElem?_eq_some_iff.mp hm).1
        simpa only [isLive, ask, addText, List.getElem?_append_left hlt] using hl

theorem quiet_runReadAt (h : Host) (i : Nat) : Quiet stops h (h.runReadAt i) := by
  unfold runReadAt
  split
  · exact quiet_vault h rfl
  · next r hp =>
    have hq : Quiet stops { h with pending := h.pending.eraseIdx i }
        ({ h with pending := h.pending.eraseIdx i }.runRead r) := by
      refine quiet_modifyTexts _ r.tracker fun t => ?_
      split
      · exact t.loadText_sameSite _ _
      · exact .rfl
    exact ⟨hq.files, hq.bus, hq.canWait, hq.failReads, List.eraseIdx_subset, hq.texts,
      hq.listenersOf, hq.live⟩

theorem quiet_refresh (h : Host) (id : TrackerId) : Quiet stops h (h.refresh id) := by
  cases id with
  | note n => exact quiet_modifyNotes h n fun t => t.loadNote_sameSite h.vault
  | text n => exact quiet_modifyTexts h n fun t => t.loadText_sameSite h.read t.epoch

theorem settle_moves {id : TrackerId} {keep : Host → Host}
    {outcome : Except VaultFault (Event × Vault)} (hk : ∀ h, Quiet stops h (keep h))
    (ho : ∀ c, outcome = .ok c → Vault.Reports c.1 h.vault c.2) :
    Moves stops h (h.settle id keep outcome).2 := by
  cases outcome with
  | error fault =>
    refine .quiet .stay (quiet_adjust h id (fun t => t.writeFailed_sameSite.listeners) fun _ _ t hl => ?_)
    rwa [Tracker.isLive, t.writeFailed_sameSite.handles]
  | ok c =>
    have hm : Moves stops h (keep (h.changed c)) := .quiet (.changed .stay (ho c rfl)) (hk _)
    refine .quiet hm (quiet_adjust _ id (fun t => t.writeSucceeded_sameSite.listeners) fun _ _ t hl => ?_)
    rwa [Tracker.isLive, t.writeSucceeded_sameSite.handles]

/-- Every action is made of such moves. -/
theorem act_moves (hv : h.vault.Sound) (a : Action) : Moves a.stops h (h.act a) := by
  have houtside : a.Outside → Moves a.stops h (h.act a) := by
    intro ha
    rcases h.act_outside ha with he | ⟨c, hc, he⟩ <;> rw [he]
    · exact .stay
    · exact .changed .stay (Action.change?_reports hv hc)
  cases a with
  | insert | createFolder | delete | rename | write | process => exact houtside trivial
  | setFailWrites fail => exact .quiet .stay (quiet_vault h rfl)
  | runRead i => exact .quiet .stay (quiet_runReadAt h i)
  | openNote path =>
    have ht := (Tracker.forNote_sameSite h.vault path).listeners
    exact .listen (.quiet .stay (quiet_addNote h ht)) (.note h.notes.length)
  | openText path =>
    have ht := (Tracker.forText_sameSite h.vault h.read path).listeners
    exact .listen (.quiet .stay (quiet_addText h ht)) (.text h.texts.length)
  | share id =>
    refine .quiet .stay (quiet_adjust h id (f := fun t => { t with handles := t.handles + 1 })
      (fun t => rfl) fun _ _ t _ => ?_)
    simp [Tracker.isLive]
  | drop id =>
    have hm : Moves (some id) h (h.adjust id fun t => { t with handles := t.handles - 1 }) :=
      .quiet .stay (quiet_adjust h id (fun t => rfl) fun hs => absurd rfl hs)
    simp only [act, drop]
    split
    · exact hm
    · exact .unlisten hm rfl
  | listen id => exact .listen .stay id
  | unlisten id => exact .unlisten .stay rfl
  | refresh id => exact .quiet .stay (quiet_refresh h id)
  | modifyNote n f =>
    simp only [act, modifyNote]
    split
    · exact .stay
    · exact settle_moves (fun h => quiet_vault h rfl) fun c hc => Vault.process_reports hv hc
  | writeText n text =>
    simp only [act, writeText]
    split
    · exact .stay
    · exact settle_moves (fun h => quiet_modifyTexts h n fun _ => ⟨rfl, rfl, rfl⟩)
        fun c hc => Vault.write_reports hv hc

/-! ### Readiness -/

/-- A host whose reads can wait and are not rejected, with its wires right. -/
structure Ready (h : Host) : Prop where
  wired : h.Wired
  waits : h.Waits
  sound : h.vault.Sound
  canWait : h.canWait = true
  failReads : h.failReads = false

theorem ready_empty : ({} : Host).Ready := ⟨wired_empty, by simp [Waits], List.nodup_nil, rfl, rfl⟩

theorem Ready.moves (hr : h.Ready) (hm : Moves stops h h') : h'.Ready := by
  induction hm with
  | stay => exact hr
  | quiet _ hq ih =>
    exact ⟨ih.wired.congr hq.bus hq.listenersOf,
      fun r hm => Nat.lt_of_lt_of_le (ih.waits r (hq.pending hm)) hq.texts,
      by simpa [Vault.Sound, hq.files] using ih.sound,
      hq.canWait.trans ih.canWait, hq.failReads.trans ih.failReads⟩
  | @changed h' _ c hc ih =>
    have hwaits : { h' with vault := c.2 }.Waits := ih.waits
    exact ⟨(ih.wired.withVault c.2).emit c.1, hwaits.emit c.1, by simpa [Host.changed] using hc.sound,
      by simpa [Host.changed] using ih.canWait, by simpa [Host.changed] using ih.failReads⟩
  | listen _ id ih =>
    exact ⟨ih.wired.listen id, by simpa [Waits] using ih.waits, by simpa using ih.sound,
      by simpa using ih.canWait, by simpa using ih.failReads⟩
  | unlisten _ _ ih =>
    exact ⟨ih.wired.unlisten _, by simpa [Host.unlisten, Waits] using ih.waits,
      by simpa [Host.unlisten] using ih.sound, by simpa [Host.unlisten] using ih.canWait,
      by simpa [Host.unlisten] using ih.failReads⟩

/-- Whatever is done, a host stays ready. -/
theorem Ready.act (hr : h.Ready) (a : Action) : (h.act a).Ready := hr.moves (act_moves hr.sound a)

theorem Ready.run (hr : h.Ready) (as : List Action) : (h.run as).Ready := by
  induction as generalizing h with
  | nil => exact hr
  | cons a as ih => exact ih (hr.act a)

/-! ### Subscriptions -/

/-- The tracker hears of events. -/
def Listens (h : Host) (id : TrackerId) : Prop := h.listenersOf id ≠ []

/-- Someone holds the tracker, and it hears of events. -/
def Subscribed (h : Host) (id : TrackerId) : Prop := h.isLive id = true ∧ h.Listens id

instance (h : Host) (id : TrackerId) : Decidable (h.Listens id) := inferInstanceAs (Decidable (_ ≠ _))

instance (h : Host) (id : TrackerId) : Decidable (h.Subscribed id) := inferInstanceAs (Decidable (_ ∧ _))

theorem listenersOf_listen (h : Host) (id id' : TrackerId) :
    (h.listen id).listenersOf id' = h.listenersOf id' ∨ id = id' ∧ (h.listen id).Listens id := by
  unfold Host.listen
  split
  · next hb =>
    have hl := listenersOf_setListeners h (h.bus.registerAll (.tracker id)).2
      (h.bus.registerAll (.tracker id)).1 (.inl (ask_isListening_eq_some hb).1)
    by_cases hid : id = id'
    · refine .inr ⟨hid, ?_⟩
      rw [Listens, hl, if_pos rfl, registerAll_eq]
      simp
    · exact .inl (by rw [hl, if_neg hid])
  · exact .inl rfl

theorem Listens.listen (hl : h.Listens id) (id' : TrackerId) : (h.listen id').Listens id := by
  rcases listenersOf_listen h id' id with he | ⟨rfl, hl'⟩
  · rwa [Listens, he]
  · exact hl'

/-- A tracker that is there listens once it was told to. -/
theorem listens_listen (hk : h.Knows id) : (h.listen id).Listens id := by
  have ⟨b, hb⟩ : ∃ b, h.ask id Tracker.isListening = some b := by
    cases id with
    | note n => exact ⟨_, by simp only [ask, List.getElem?_eq_getElem hk, Option.map_some]; rfl⟩
    | text n => exact ⟨_, by simp only [ask, List.getElem?_eq_getElem hk, Option.map_some]; rfl⟩
  have hne := (ask_isListening_eq_some hb).2
  unfold Host.listen
  rw [hb]
  cases b with
  | true => simpa [Listens] using hne
  | false =>
    simp only
    rw [Listens, listenersOf_setListeners h _ _ (.inl hk), if_pos rfl, registerAll_eq]
    simp

theorem isLive_listen (hl : h.isLive id = true) (id' : TrackerId) : (h.listen id').isLive id = true := by
  unfold Host.listen
  split
  · exact isLive_adjust (h := { h with bus := _ }) (fun _ _ t hl => hl) hl
  · exact hl

/-- A tracker stays subscribed until an action stops it. -/
theorem Subscribed.moves (hs : h.Subscribed id) (hm : Moves stops h h') (hne : stops ≠ some id) :
    h'.Subscribed id := by
  induction hm with
  | stay => exact hs
  | quiet _ hq ih => exact ⟨hq.live id hne ih.1, by rw [Listens, hq.listenersOf]; exact ih.2⟩
  | @changed h' _ c hc ih =>
    refine ⟨?_, ?_⟩
    · rw [Host.changed, isLive_emit]
      exact ih.1
    · rw [Listens, Host.changed, listenersOf_emit]
      exact ih.2
  | listen _ id' ih => exact ⟨isLive_listen ih.1 id', ih.2.listen id'⟩
  | @unlisten h' _ id' he ih =>
    have hid : id' ≠ id := fun hid => hne (by rw [he, hid])
    refine ⟨isLive_adjust (h := { h' with bus := _ }) (fun _ _ t hl => hl) ih.1, ?_⟩
    rw [Listens, listenersOf_unlisten, if_neg hid]
    exact ih.2

/-! ### Hearing of changes -/

section Changed

variable {n : Nat}

/-- A tracker that listens hears of a change once. -/
theorem changed_note (hw : h.Wired) (hl : h.Listens (.note n)) (c : Event × Vault) :
    (h.changed c).notes[n]? = (h.notes[n]?).map (·.hearNote c.2 c.1) :=
  (hw.withVault c.2).emit_note hl c.1

theorem changed_text (hr : h.Ready) (hl : h.Listens (.text n)) {t : Tracker String}
    (ht : h.texts[n]? = some t) (c : Event × Vault) :
    (h.changed c).texts[n]? = some (t.hearText c.2 c.1).1 ∧
      (h.changed c).waitingOf n = Tracker.waitingAfter (h.waitingOf n) (t.hearText c.2 c.1) := by
  obtain ⟨htext, hwaiting⟩ := (hr.wired.withVault c.2).emit_text hl ht c.1
  exact ⟨htext, hwaiting.trans (if_pos hr.canWait)⟩

end Changed

end NoteForms.Host
