import NoteForms.Proofs.Track.TextTracking

/-! What leaves a tracker of text alone. A change of another file, or a write through a
tracker of another file, leaves its data and its epoch as they are, and no further read
waits for it. Nor does a read that waits matter if it was asked for in an epoch that is
over. Every write through the tracker itself ends an epoch: the read that it asks for is
one of those. -/

namespace NoteForms.Host

open Tracker (Change)

variable {h h' h'' : Host} {n : Nat} {t : Tracker String}

/-! ### Calm trackers -/

/-- No read that waits for the tracker is of its epoch. -/
def Calm (h : Host) (n : Nat) : Prop := ∀ t, h.texts[n]? = some t → t.epoch ∉ h.waitingOf n

/-- The data and the epoch of a tracker are what they were, and no more reads wait for it. -/
structure Spared (n : Nat) (h h' : Host) : Prop where
  text : ∀ {t}, h.texts[n]? = some t →
    ∃ t', h'.texts[n]? = some t' ∧ t'.data = t.data ∧ t'.epoch = t.epoch
  waiting : h'.waitingOf n ⊆ h.waitingOf n

theorem Spared.rfl : Spared n h h := ⟨fun ht => ⟨_, ht, Eq.refl _, Eq.refl _⟩, List.Subset.refl _⟩

theorem Spared.trans (h₁ : Spared n h h') (h₂ : Spared n h' h'') : Spared n h h'' := by
  refine ⟨fun ht => ?_, fun _ he => h₁.waiting (h₂.waiting he)⟩
  obtain ⟨t', ht', hd, he⟩ := h₁.text ht
  obtain ⟨t'', ht'', hd', he'⟩ := h₂.text ht'
  exact ⟨t'', ht'', hd'.trans hd, he'.trans he⟩

theorem Spared.calm (hs : Spared n h h') (ht : h.texts[n]? = some t) (hc : h.Calm n) : h'.Calm n := by
  intro t' ht' hw
  obtain ⟨t₀, ht₀, -, he⟩ := hs.text ht
  have ht' : t' = t₀ := Option.some.inj (ht'.symm.trans ht₀)
  exact hc t ht (he ▸ ht' ▸ hs.waiting hw)

theorem spared_adjust (h : Host) (id : TrackerId) {f : Adjustment}
    (hf : ∀ t : Tracker String, (f t).data = t.data ∧ (f t).epoch = t.epoch) :
    Spared n h (h.adjust id f) := by
  refine ⟨fun {t} ht => ⟨if id = .text n then f t else t, ?_, ?_⟩, ?_⟩
  · rw [adjust_text, ht]
    rfl
  · split
    · exact hf t
    · exact ⟨rfl, rfl⟩
  · rw [waitingOf_adjust]
    exact List.Subset.refl _

theorem spared_indifferent (n : Nat) (h : Host) : Indifferent (Spared n h) where
  bus _ hs := ⟨hs.text, hs.waiting⟩
  adjust id _ hf hs := hs.trans (spared_adjust _ id fun t => ⟨(hf t).2.2.1, (hf t).2.2.2⟩)

theorem spared_share (h : Host) (id : TrackerId) : Spared n h (h.share id) :=
  (spared_indifferent n h).share .rfl id

/-! ### Changes elsewhere -/

/-- A tracker that listens does not react to what is unrelated. -/
theorem spared_changed (hr : h.Ready) (hl : h.Listens (.text n)) (ht : h.texts[n]? = some t)
    {c : Event × Vault} (hc : Change.of t.path c.1 = .unrelated) : Spared n h (h.changed c) := by
  obtain ⟨hn, hwait⟩ := changed_text hr hl ht c
  have hear : t.hearText c.2 c.1 = (t, false) := by rw [Tracker.hearText, hc]; rfl
  rw [hear] at hn hwait
  refine ⟨fun {t'} ht' => ⟨t, hn, ?_⟩, hwait ▸ List.Subset.refl _⟩
  rw [Option.some.inj (ht'.symm.trans ht)]
  exact ⟨rfl, rfl⟩

/-- A read of an epoch that is over brings nothing. -/
theorem Calm.runReadAt (hc : h.Calm n) (i : Nat) :
    (h.runReadAt i).texts[n]? = h.texts[n]? ∧ (h.runReadAt i).waitingOf n ⊆ h.waitingOf n := by
  unfold Host.runReadAt
  split
  · exact ⟨rfl, List.Subset.refl _⟩
  · next r hp =>
    obtain ⟨before, after, hafter, hbefore⟩ := waitingOf_eq hp n
    constructor
    · by_cases hrn : r.tracker = n
      · rw [if_pos hrn] at hbefore
        simp only [runRead, List.getElem?_modify, if_pos hrn]
        cases ht : h.texts[n]? with
        | none => rfl
        | some t =>
          have hne : t.epoch ≠ r.epoch := fun he => hc t ht (by rw [hbefore, he]; simp)
          simp [Tracker.loadText, hne]
      · simp [runRead, hrn]
    · have hw : ({ h with pending := h.pending.eraseIdx i }.runRead r).waitingOf n =
          before ++ after := hafter
      rw [hw, hbefore]
      split
      · exact List.append_subset.mpr ⟨by simp, by simp⟩
      · exact List.Subset.refl _

/-- An action that leaves the file at a path alone, and all its trackers. -/
def Action.Spares (path : String) : Action → Prop
  | .insert p _ | .createFolder p | .delete p | .write p _ | .process p _ => p ≠ path
  | .rename source target => source ≠ path ∧ target ≠ path
  | .setFailWrites _ | .runRead _ | .openNote _ | .openText _ | .share _ | .listen _ => True
  | .drop _ | .unlisten _ | .refresh _ | .modifyNote _ _ | .writeText _ _ => False

theorem Action.Spares.stops {path : String} {a : Action} (ha : a.Spares path) : a.stops = none := by
  cases a <;> first | rfl | contradiction

/-- A change from outside that leaves a path alone is reported as one that has nothing to
do with it. -/
theorem Action.change?_elsewhere {path : String} {v : Vault} {a : Action} {c : Event × Vault}
    (ha : a.Spares path) (hc : a.change? v = some c) : Change.of path c.1 = .unrelated := by
  cases a with
  | insert p text =>
    rw [← Option.some.inj hc]
    simp only [Vault.insert]
    split <;> exact if_neg ha
  | createFolder p =>
    rw [← Option.some.inj hc]
    exact if_neg ha
  | delete p =>
    rw [Action.change?, Vault.delete] at hc
    split at hc
    · contradiction
    · rw [← Option.some.inj hc]
      exact if_neg ha
    · rw [← Option.some.inj hc]
      exact if_neg ha
  | rename source target =>
    obtain ⟨f, -, rfl⟩ := Option.map_eq_some_iff.mp hc
    rw [Change.of, if_neg ha.1]
    exact if_neg ha.2
  | write p text =>
    obtain ⟨-, rfl⟩ := Vault.write_eq_ok (toOption_eq_some hc)
    exact if_neg ha
  | process p f =>
    obtain ⟨-, note, -, rfl⟩ := Vault.process_eq_ok (toOption_eq_some hc)
    exact if_neg ha
  | _ => contradiction

theorem spared_openNote (h : Host) (p : String) : Spared n h (h.openNote p).2 := by
  have hs : Spared n h (h.addNote (.forNote h.vault p)) :=
    ⟨fun ht => ⟨_, ht, rfl, rfl⟩, List.Subset.refl _⟩
  exact (spared_indifferent n h).listen hs _

theorem spared_openText (ht : h.texts[n]? = some t) (p : String) : Spared n h (h.openText p).2 := by
  have hn : n < h.texts.length := (List.getElem?_eq_some_iff.mp ht).1
  have hs : Spared n h (h.addText (.forText h.vault h.read p)) :=
    ⟨fun ht => ⟨_, (List.getElem?_append_left hn).trans ht, rfl, rfl⟩, List.Subset.refl _⟩
  exact (spared_indifferent n h).listen hs _

/-- No read waits for a tracker that is opened just now. -/
theorem openText_calm (hw : h.Waits) (p : String) : (h.openText p).2.Calm (h.openText p).1 := by
  intro t _
  have he : (h.openText p).2.waitingOf (h.openText p).1 = h.waitingOf h.texts.length := by
    rw [openText_eq]
    simp only [waitingOf, listen_pending]
    rfl
  rw [he, hw.waitingOf_new]
  exact List.not_mem_nil

/-- An action that spares a path spares its tracker, if that is calm. -/
theorem spared_act (hr : h.Ready) (hl : h.Listens (.text n)) (ht : h.texts[n]? = some t)
    (hc : h.Calm n) {a : Action} (ha : a.Spares t.path) : Spared n h (h.act a) := by
  have houtside : a.Outside → Spared n h (h.act a) := by
    intro ho
    rcases h.act_outside ho with he | ⟨c, hc, he⟩ <;> rw [he]
    · exact .rfl
    · exact spared_changed hr hl ht (Action.change?_elsewhere ha hc)
  cases a with
  | insert | createFolder | delete | rename | write | process => exact houtside trivial
  | setFailWrites fail => exact ⟨fun ht => ⟨_, ht, rfl, rfl⟩, List.Subset.refl _⟩
  | runRead i =>
    obtain ⟨htexts, hwait⟩ := hc.runReadAt i
    exact ⟨fun ht => ⟨_, htexts.trans ht, rfl, rfl⟩, hwait⟩
  | openNote p => exact spared_openNote h p
  | openText p => exact spared_openText ht p
  | share id => exact spared_share h id
  | listen id => exact (spared_indifferent n h).listen .rfl id
  | drop | unlisten | refresh | modifyNote | writeText => exact False.elim ha

/-! ### Writes through trackers -/

theorem spared_settle {id : TrackerId} {keep : Host → Host}
    {outcome : Except VaultFault (Event × Vault)}
    (hk : ∀ c, outcome = .ok c → Spared n h (keep (h.changed c))) :
    Spared n h (h.settle id keep outcome).2 := by
  cases outcome with
  | error fault => exact spared_adjust h id fun t => ⟨t.setState_data _, t.setState_epoch _⟩
  | ok c =>
    exact (hk c rfl).trans (spared_adjust _ id fun t => ⟨t.writeSucceeded_data, t.writeSucceeded_epoch⟩)

/-- The frontmatter of another file is replaced. -/
theorem spared_modifyNote (hr : h.Ready) (hl : h.Listens (.text n)) (ht : h.texts[n]? = some t)
    {m : Nat} (hp : h.path (.note m) ≠ t.path) (f : Object → Object) :
    Spared n h (h.modifyNote m f).2 := by
  unfold modifyNote
  split
  · exact .rfl
  · refine spared_settle fun c hc => spared_changed hr hl ht ?_
    obtain ⟨-, note, -, rfl⟩ := Vault.process_eq_ok hc
    exact if_neg hp

theorem spared_keepText {m : Nat} (hm : m ≠ n) (text : String) : Spared n h (keepText m text h) :=
  ⟨fun {t} ht => ⟨t, by simpa [keepText, hm] using ht, rfl, rfl⟩, List.Subset.refl _⟩

/-- The text of another file is replaced, or none is. -/
theorem spared_writeText (hr : h.Ready) (hl : h.Listens (.text n)) (ht : h.texts[n]? = some t)
    {m : Nat} {text : String}
    (hp : (h.writeText m text).1 = .ok () → m ≠ n ∧ h.path (.text m) ≠ t.path) :
    Spared n h (h.writeText m text).2 := by
  unfold writeText at hp ⊢
  split at hp
  · exact .rfl
  · refine spared_settle fun c hc => ?_
    obtain ⟨hm, hp⟩ := hp (by rw [hc]; rfl)
    obtain ⟨-, rfl⟩ := Vault.write_eq_ok hc
    refine (spared_changed hr hl ht ?_).trans (spared_keepText hm _)
    exact if_neg hp

/-- What a tracker that wrote keeps. -/
theorem kept_text (ht : h.texts[n]? = some t) (text : String) :
    ((keepText n text h).adjust (.text n) Tracker.writeSucceeded).texts[n]? =
      some (t.invalidate.setData (some text)).writeSucceeded := by
  rw [adjust_text]
  simp [keepText, ht]

/-- A tracker that wrote has the text, and the reads that wait for it, the one of the write
included, are of epochs that are over. -/
theorem writeText_calm (hr : h.Ready) (hl : h.Listens (.text n)) (ht : h.texts[n]? = some t)
    (hb : ∀ epoch ∈ h.waitingOf n, epoch ≤ t.epoch) {text : String}
    (hok : (h.writeText n text).1 = .ok ()) :
    (h.writeText n text).2.Calm n ∧
      ∃ t', (h.writeText n text).2.texts[n]? = some t' ∧ t'.data = some text := by
  unfold writeText at hok ⊢
  split at hok
  · contradiction
  · cases hw : h.vault.write (h.path (.text n)) text with
    | error fault => simp [hw, settle] at hok
    | ok c =>
      -- the event comes first and asks for a read; keeping the text ends the epoch of it
      have hear : t.hearText c.2 c.1 = (t, true) := by
        obtain ⟨-, rfl⟩ := Vault.write_eq_ok hw
        rw [path_text ht]
        simp [Tracker.hearText, Change.of, Place.path, Tracker.react]
      obtain ⟨hn, hwait⟩ := changed_text hr hl ht c
      rw [hear] at hn hwait
      have hkept := kept_text hn text
      refine ⟨fun t' ht' hmem => ?_, _, hkept, by simp⟩
      have he : t'.epoch = t.epoch + 1 := by
        rw [Option.some.inj (ht'.symm.trans hkept)]
        simp [Tracker.invalidate]
      have hwait : (h.changed c).waitingOf n = h.waitingOf n ++ [t.epoch] := hwait
      have hle : t'.epoch ≤ t.epoch := by
        simp only [settle, waitingOf_adjust] at hmem
        have hmem : t'.epoch ∈ (h.changed c).waitingOf n := hmem
        rw [hwait] at hmem
        rcases List.mem_append.mp hmem with hmem | hmem
        · exact hb _ hmem
        · exact Nat.le_of_eq (List.mem_singleton.mp hmem)
      omega

end NoteForms.Host
