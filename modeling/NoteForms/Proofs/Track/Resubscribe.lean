import NoteForms.Proofs.Track.TextTracking
import NoteForms.Proofs.Track.Write

/-! Trackers that listen again. While a tracker does not listen, the vault may be changed in
any way, and the tracker keeps what it knew. What it missed it does not hear of later: it is
refreshed, and that loads its file only if it was open. One that is open has caught up then;
one that stood elsewhere stays there, even if a file is at its path by now. -/

namespace NoteForms.Host

variable {h h' h'' : Host} {id : TrackerId} {s u : Snapshot} {a : Action} {idle : Prop}

/-! ### Trackers that do not listen -/

/-- A change of the vault, or a read that is run meanwhile. -/
def Action.OfVault : Action → Prop
  | .setFailWrites _ | .runRead _ => True
  | a => a.Outside

/-- The tracker does not listen and is where it was. It shows the same if it is idle. -/
structure Missed (id : TrackerId) (idle : Prop) (h h' : Host) : Prop where
  deaf : ¬ h'.Listens id
  path : h'.ask id Tracker.path = h.ask id Tracker.path
  shows : idle → h'.snapshot? id = h.snapshot? id

theorem Missed.trans (h₁ : Missed id idle h h') (h₂ : Missed id idle h' h'') :
    Missed id idle h h'' :=
  ⟨h₂.deaf, h₂.path.trans h₁.path, fun hi => (h₂.shows hi).trans (h₁.shows hi)⟩

theorem missed_of_eq (hl : ¬ h.Listens id) (hs : h'.listenersOf id = h.listenersOf id)
    (he : h'.snapshot? id = h.snapshot? id) : Missed id idle h h' where
  deaf := by rwa [Listens, hs]
  path := by
    rw [ask_eq_map (k := Snapshot.path) (fun _ _ => rfl), he,
      ask_eq_map (k := Snapshot.path) fun _ _ => rfl]
  shows _ := he

/-- Only trackers of text read. -/
theorem missed_runReadAt (hl : ¬ h.Listens id) (i : Nat) (hi : idle → ∃ n, id = .note n) :
    Missed id idle h (h.runReadAt i) where
  deaf := by
    have hq : Quiet none h (h.runReadAt i) := quiet_runReadAt h i
    rwa [Listens, hq.listenersOf]
  path := by
    unfold Host.runReadAt
    split
    · rfl
    · next r _ =>
      refine ask_modifyTexts { h with pending := h.pending.eraseIdx i } r.tracker (fun t => ?_) id
      split
      · exact (t.loadText_sameSite _ _).path
      · rfl
  shows hidle := by
    obtain ⟨n, rfl⟩ := hi hidle
    unfold Host.runReadAt
    split <;> rfl

theorem missed_act (hr : h.Ready) (hl : ¬ h.Listens id) (ha : a.OfVault)
    (hi : idle → (∀ i, a ≠ .runRead i) ∨ ∃ n, id = .note n) : Missed id idle h (h.act a) := by
  have houtside : a.Outside → Missed id idle h (h.act a) := by
    intro ho
    rcases h.act_outside ho with he | ⟨c, -, he⟩ <;> rw [he]
    · exact missed_of_eq hl rfl rfl
    · exact missed_of_eq hl (listenersOf_emit _ _ _) (hr.snapshot?_changed hl c)
  cases a with
  | insert | createFolder | delete | rename | write | process => exact houtside trivial
  | setFailWrites fail => exact missed_of_eq hl rfl rfl
  | runRead i => exact missed_runReadAt hl i fun hidle => (hi hidle).resolve_left fun hn => hn i rfl
  | _ => exact False.elim ha

theorem missed_run {as : List Action} (hr : h.Ready) (hl : ¬ h.Listens id)
    (ha : ∀ a ∈ as, a.OfVault) (hi : idle → (∀ i, .runRead i ∉ as) ∨ ∃ n, id = .note n) :
    Missed id idle h (h.run as) := by
  -- a tracker that does not listen is deaf to each change, and does not listen after it
  induction as generalizing h with
  | nil => exact missed_of_eq hl rfl rfl
  | cons a as ih =>
    have hact : Missed id idle h (h.act a) := missed_act hr hl (ha a List.mem_cons_self) fun hidle =>
      (hi hidle).imp_left fun hn i he => hn i (he ▸ List.mem_cons_self)
    exact hact.trans (ih (hr.act a) hact.deaf (fun b hb => ha b (List.mem_cons_of_mem _ hb))
      fun hidle => (hi hidle).imp_left fun hn i hm => hn i (List.mem_cons_of_mem _ hm))

/-! ### Refreshing -/

/-- A tracker that is not open is not refreshed. -/
theorem snapshot?_refresh_of_closed (hs : h.snapshot? id = some s) (hc : s.state.isOpen = false) :
    (h.refresh id).snapshot? id = some s := by
  cases id with
  | note n =>
    obtain ⟨t, ht, rfl⟩ := Option.map_eq_some_iff.mp hs
    have hc : t.state.isOpen = false := hc
    simp [refresh, snapshot?, ht, Tracker.loadNote, hc]
  | text n =>
    obtain ⟨t, ht, rfl⟩ := Option.map_eq_some_iff.mp hs
    have hc : t.state.isOpen = false := hc
    simp [refresh, snapshot?, ht, Tracker.loadText, hc]

/-- One that is open loads the file at its path. -/
theorem snapshot?_refresh_of_open (hs : h.snapshot? id = some s) (hr : h.failReads = false)
    (ho : s.state.isOpen = true) (hf : h.vault.hasFile s.path = true) :
    (h.refresh id).snapshot? id =
      some { s with data := h.vault.contents? id s.path, revision := s.revision + 1 } := by
  cases id with
  | note n =>
    obtain ⟨t, ht, rfl⟩ := Option.map_eq_some_iff.mp hs
    have ho : t.state.isOpen = true := ho
    have hl : t.loadNote h.vault = t.setData (h.vault.frontmatter? t.path) := if_pos ho
    simp only [refresh, snapshot?, List.getElem?_modify_eq, ht, Option.map_eq_map, Option.map_some, hl,
      Tracker.snapshot_setData]
    rfl
  | text n =>
    obtain ⟨t, ht, rfl⟩ := Option.map_eq_some_iff.mp hs
    have ho : t.state.isOpen = true := ho
    obtain ⟨text, htext, hread⟩ := Tracker.read_of_hasFile hf
    have hl : t.loadText h.read t.epoch = t.setData (h.vault.text? t.path) := by
      rw [Tracker.loadText, if_pos ⟨ho, rfl⟩, read_eq hr]
      exact (congrArg t.takeText hread).trans (congrArg t.setData htext.symm)
    simp only [refresh, snapshot?, List.getElem?_modify_eq, ht, Option.map_eq_map, Option.map_some, hl,
      Tracker.snapshot_setData]
    rfl

/-! ### Catching up -/

/-- A tracker has what the vault has at its path. It is known to be at fault at most for a write
that failed. It does not refuse to write, and whether it does is for the vault to say. -/
structure CaughtUp (h : Host) (id : TrackerId) (s : Snapshot) : Prop where
  shows : h.snapshot? id = some s
  data : s.data = h.vault.contents? id s.path
  fault : ∀ fault, s.fault? = some fault → ∃ p, fault = .unmodified p
  accepts : h.refusal? id = none
  writes : ∀ w : Write, w.tracker = id →
    ((h.perform w).1 = .ok () ↔ ∃ c, w.outcome h.vault s.path = .ok c)

theorem fault?_of_isOpen (ho : s.state.isOpen = true) (fault : FileFault)
    (hf : s.fault? = some fault) : ∃ p, fault = .unmodified p := by
  unfold Snapshot.fault? at hf
  cases hst : s.state with
  | resolved => rw [hst] at hf; contradiction
  | failed p =>
    rw [hst] at hf
    exact ⟨p, (Option.some.inj hf).symm⟩
  | _ => rw [hst] at ho; contradiction

@[simp] theorem refresh_vault (h : Host) (id : TrackerId) : (h.refresh id).vault = h.vault := by
  cases id <;> rfl

theorem refresh_caughtUp (hs : h.snapshot? id = some s) (hr : h.failReads = false)
    (ho : s.state.isOpen = true) (hf : h.vault.hasFile s.path = true) :
    (h.refresh id).CaughtUp id
      { s with data := h.vault.contents? id s.path, revision := s.revision + 1 } := by
  have hshows := snapshot?_refresh_of_open hs hr ho hf
  refine ⟨hshows, by rw [refresh_vault], fault?_of_isOpen ho, ?_, fun w hw => ?_⟩
  · rw [refusal?_eq hshows]
    exact if_pos ho
  · subst hw
    exact perform_ok_iff hshows ho

theorem CaughtUp.isOpen (hc : h.CaughtUp id s) : s.state.isOpen = true := by
  have ha := hc.accepts
  rw [refusal?_eq hc.shows] at ha
  split at ha
  · assumption
  · contradiction

/-- A tracker of either flavour, in any host that was reached, stops listening. The vault is
changed in any way, and the tracker listens again and is refreshed. What it showed in between
is what it showed before, unless it is one of text and a read was run meanwhile. If a file is at
its path, it has caught up just if it was open when it listened again. If it was not, it shows
what it showed, whatever is at its path. -/
theorem resubscribe_catches_up (before during : List Action) (id : TrackerId) (s : Snapshot)
    (h h' : Host) (hs : (({} : Host).run before).snapshot? id = some s)
    (hd : ∀ a ∈ during, a.OfVault) (hh : h = ((({} : Host).run before).unlisten id).run during)
    (hh' : h' = (h.listen id).refresh id) :
    ∃ u, h.snapshot? id = some u ∧ u.path = s.path ∧
      ((∀ i, .runRead i ∉ during) ∨ (∃ n, id = .note n) → u = s) ∧ h'.vault = h.vault ∧
      (h.vault.hasFile s.path = true →
        ((∃ u', u'.path = s.path ∧ h'.CaughtUp id u') ↔ u.state.isOpen = true)) ∧
      (u.state.isOpen = false → h'.snapshot? id = some u) := by
  have hr : ((({} : Host).run before).unlisten id).Ready :=
    (ready_empty.run before).act (.unlisten id)
  have hdeaf : ¬ ((({} : Host).run before).unlisten id).Listens id := by
    rw [Listens, listenersOf_unlisten, if_pos rfl]
    exact fun hl => hl rfl
  have hm : Missed id ((∀ i, .runRead i ∉ during) ∨ ∃ n, id = .note n) _ _ :=
    missed_run hr hdeaf hd fun hi => hi
  have hs' : ((({} : Host).run before).unlisten id).snapshot? id = some s := by
    rw [snapshot?_unlisten, hs]
  rw [← hh] at hm
  have hpath := hm.path
  rw [ask_eq_map (k := Snapshot.path) (fun _ _ => rfl), ask_eq_map (k := Snapshot.path) (fun _ _ => rfl),
    hs'] at hpath
  obtain ⟨u, hu, hup⟩ := Option.map_eq_some_iff.mp hpath
  have hlisten : (h.listen id).snapshot? id = some u := by rw [snapshot?_listen, hu]
  have hreads : (h.listen id).failReads = false := by
    rw [listen_failReads, hh]
    exact (hr.run during).failReads
  have hclosed : u.state.isOpen = false → h'.snapshot? id = some u := fun hc => by
    rw [hh', snapshot?_refresh_of_closed hlisten hc]
  refine ⟨u, hu, hup, fun hi => ?_, by rw [hh', refresh_vault, listen_vault], fun hf => ⟨?_, ?_⟩, hclosed⟩
  · exact Option.some.inj (hu.symm.trans ((hm.shows hi).trans hs'))
  · rintro ⟨u', -, hc⟩
    cases ho : u.state.isOpen with
    | true => rfl
    | false =>
      rw [← ho, Option.some.inj ((hclosed ho).symm.trans hc.shows)]
      exact hc.isOpen
  · intro ho
    have hc := refresh_caughtUp hlisten hreads ho (by rwa [listen_vault, hup])
    rw [hh']
    refine ⟨_, ?_, hc⟩
    exact hup

/-- A file is replaced while its tracker does not listen. -/
def replaced : List Action := [.delete "a.md", .insert "a.md" "two"]

/-- The tracker has caught up when it was refreshed. -/
theorem resubscribe_catches_up_replaced : ∃ h u,
    h = ((((({} : Host).run [.insert "a.md" "one", .openText "a.md"]).unlisten (.text 0)).run
      replaced).listen (.text 0)).refresh (.text 0) ∧
    h.CaughtUp (.text 0) u ∧ u.data = some (.text "two") := by
  have hs : (({} : Host).run [.insert "a.md" "one", .openText "a.md"]).snapshot? (.text 0) =
      some ⟨"a.md", .resolved, some (.text "one"), 1⟩ := by decide +kernel
  obtain ⟨h, hh⟩ : ∃ h, h = ((({} : Host).run [.insert "a.md" "one", .openText "a.md"]).unlisten
    (.text 0)).run replaced := ⟨_, rfl⟩
  have hf : h.vault.text? "a.md" = some "two" := by
    rw [hh]
    decide +kernel
  have hfile : h.vault.hasFile "a.md" = true := by
    rw [hh]
    decide +kernel
  have hd : ∀ a ∈ replaced, a.OfVault := by simp [replaced, Action.OfVault, Action.Outside]
  obtain ⟨u, -, -, hsame, hv, hiff, -⟩ := resubscribe_catches_up _ replaced (.text 0) _ h
    ((h.listen (.text 0)).refresh (.text 0)) hs hd hh rfl
  have hu := hsame (.inl (by simp [replaced]))
  obtain ⟨u', hp, hc⟩ := (hiff hfile).mpr (by rw [hu]; rfl)
  refine ⟨_, u', by rw [← hh], hc, ?_⟩
  rw [hc.data, hv, hp, Vault.contents?, hf]
  rfl

/-- A note is made where its tracker found nothing, while that does not listen. -/
def missedNote : List Action := [.openNote "n.md", .unlisten (.note 0),
  .insert "n.md" "---\nk: v\n---\n", .listen (.note 0), .refresh (.note 0)]

/-- The tracker still finds nothing when it was refreshed, and refuses to write. -/
theorem refresh_stays_notFound :
    (({} : Host).run missedNote).vault.hasFile "n.md" = true ∧
      (({} : Host).run missedNote).snapshot? (.note 0) = some ⟨"n.md", .notFound, none, 0⟩ ∧
      (({} : Host).run missedNote).refusal? (.note 0) = some (.notFound "n.md") := by
  decide +kernel

end NoteForms.Host
