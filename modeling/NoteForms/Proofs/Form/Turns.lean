import NoteForms.Proofs.Form.TextSubmit
import NoteForms.Proofs.Track.Spared

/-! Forms that share a JSON file take turns. While only their submits change the file, each
of them finds the records that the last one wrote, with no read run in between, and each
puts its record among them. The reads that the submits ask for are of epochs that are over
by then: whenever they are run, they bring nothing. All forms of the file follow it through
one tracker, the one that the roster has for its path. -/

namespace NoteForms

open Records Setup

namespace Form

variable {h h' h'' : Host} {r r' r'' : Roster} {path : String} {k : Nat}

/-! ### Rosters that grow -/

/-- What a roster opens leaves its trackers of text alone, and no read waits for a new one. -/
structure Grown (h : Host) (r : Roster) (h' : Host) (r' : Roster) : Prop where
  keeps : ∀ {p n}, r.texts.lookup p = some n → r'.texts.lookup p = some n
  spares : ∀ {p n}, r.texts.lookup p = some n → Host.Spared n h h'
  fresh : ∀ {p n}, r.texts.lookup p = none → r'.texts.lookup p = some n → h'.Calm n

theorem Intact.text (hi : Intact h r) (hl : r.texts.lookup path = some k) :
    ∃ t, h.texts[k]? = some t ∧ t.path = path ∧ t.FollowsText (h.waitingOf k) h.vault :=
  (hi.texts hl).tracks

theorem Grown.rfl : Grown h r h r :=
  ⟨id, fun _ => .rfl, fun hn hl => by rw [hn] at hl; contradiction⟩

theorem Grown.trans (h₁ : Grown h r h' r') (hi : Intact h' r') (h₂ : Grown h' r' h'' r'') :
    Grown h r h'' r'' := by
  refine ⟨fun hl => h₂.keeps (h₁.keeps hl), fun hl => (h₁.spares hl).trans (h₂.spares (h₁.keeps hl)),
    fun {p n} hn hl => ?_⟩
  -- a tracker that was new in between is an old one from there on
  cases hl' : r'.texts.lookup p with
  | none => exact h₂.fresh hl' hl
  | some m =>
    have hm : m = n := Option.some.inj ((h₂.keeps hl').symm.trans hl)
    obtain ⟨t, ht, -⟩ := hi.text hl'
    exact hm ▸ (h₂.spares hl').calm ht (h₁.fresh hn hl')

theorem note_grown (h : Host) (r : Roster) (p : String) :
    Grown h r (r.note h p).2.1 (r.note h p).2.2 := by
  unfold Roster.note
  split
  · next n _ =>
    exact ⟨id, fun _ => Host.spared_share h (.note n), fun hn hl => by rw [hn] at hl; contradiction⟩
  · exact ⟨id, fun _ => Host.spared_openNote h p, fun hn hl => by rw [hn] at hl; contradiction⟩

/-- The tracker that is handed out is the one of its path from then on. -/
theorem text_grown (hi : Intact h r) (p : String) :
    Grown h r (r.text h p).2.1 (r.text h p).2.2 ∧
      (r.text h p).2.2.texts.lookup p = some (r.text h p).1 := by
  unfold Roster.text
  split
  · next n hl =>
    exact ⟨⟨id, fun _ => Host.spared_share h (.text n), fun hn hl => by rw [hn] at hl; contradiction⟩,
      live?_eq_some hl⟩
  · next hl =>
    -- a tracker that is entered is held, so none is replaced
    have hnone : r.texts.lookup p = none := by
      cases hp : r.texts.lookup p with
      | none => rfl
      | some n => simp [Roster.live?, hp, (hi.texts hp).subscribed.1] at hl
    refine ⟨⟨fun {q n} hq => ?_, fun hq => ?_, fun {q n} hq hq' => ?_⟩, ?_⟩
    · rw [Entries.lookup_put, if_neg]
      · exact hq
      · rintro rfl
        rw [hnone] at hq
        contradiction
    · obtain ⟨t, ht, -⟩ := hi.text hq
      exact Host.spared_openText ht p
    · rw [Entries.lookup_put] at hq'
      split at hq'
      · rw [← Option.some.inj hq']
        exact Host.openText_calm hi.ready.waits p
      · rw [hq] at hq'
        contradiction
    · rw [Entries.lookup_put, if_pos rfl]

theorem request_grown (hi : Intact h r) (k : Flavour) (p : String) :
    Grown h r (r.request h k p).2.1 (r.request h k p).2.2 := by
  cases k with
  | note => exact note_grown h r p
  | text => exact (text_grown hi p).1

/-- The trackers of text that are asked for are those of their paths from then on. -/
theorem Intact.grown {es : List (String × TrackerId)} (hi : Intact h r)
    (he : Enrols h r es h' r') :
    Grown h r h' r' ∧ ∀ {p n}, (p, .text n) ∈ es → r'.texts.lookup p = some n := by
  induction he with
  | none => exact ⟨.rfl, nofun⟩
  | request hs k p ih =>
    have hi' := (hi.enrols hs).1.intact
    have hg := request_grown hi' k p
    refine ⟨ih.1.trans hi' hg, fun {q n} hm => ?_⟩
    rcases List.mem_cons.mp hm with heq | hm
    · cases k with
      | note => cases heq
      | text =>
        cases heq
        exact (text_grown hi' p).2
    · exact hg.keeps (ih.2 hm)

/-- The store that is opened has the tracker of its path. -/
theorem mount_grown (hi : Intact h r) (c : Configuration) :
    Grown h r (Mounted.mount c h r).2.1 (Mounted.mount c h r).2.2 ∧
      ∀ {n}, (Mounted.mount c h r).1.store.tracker = .text n →
        (Mounted.mount c h r).2.2.texts.lookup c.records.path = some n := by
  obtain ⟨hg, hl⟩ := hi.grown (Mounted.mount_enrols c h r)
  refine ⟨hg, fun he => hl ?_⟩
  rw [← he, ← (Mounted.mount_store c h r).2]
  exact Mounted.mem_requests _

/-! ### Submits -/

namespace Mounted

variable {f : Mounted} {t : Tracker String}

/-- A store that does not write the file of a tracker spares it. -/
theorem persist_spared {s : Store} (hs : Seated h s) (hr : h.Ready) (hl : h.Listens (.text k))
    (ht : h.texts[k]? = some t) (hj : isJsonPath t.path = true) {rs : List Edit.Record}
    (hp : (s.persist h rs).1 = .ok () → s.file.path ≠ t.path) : Host.Spared k h (s.persist h rs).2 := by
  unfold Store.persist at hp ⊢
  cases hjs : s.file.isJson with
  | true =>
    obtain ⟨m, t', hid, ht', hpath, -⟩ := hs.text hjs
    rw [hid] at hp ⊢
    refine Host.spared_writeText hr hl ht fun hok => ?_
    have hne := hp (Decode.mapError_eq_ok.mpr hok)
    refine ⟨?_, ?_⟩
    · rintro rfl
      rw [Option.some.inj (ht'.symm.trans ht)] at hpath
      exact hne hpath.symm
    · rwa [Host.path_text ht', hpath]
  | false =>
    obtain ⟨m, t', hid, ht', hpath, -⟩ := hs.note hjs
    rw [hid]
    refine Host.spared_modifyNote hr hl ht ?_ _
    rw [Host.path_note ht', hpath]
    intro he
    rw [FileKey.isJson, he, hj] at hjs
    contradiction

/-- A submit that fails, or one to another file, spares the tracker. -/
theorem submit_spared (hs : Seated h f.store) (hr : h.Ready) (hl : h.Listens (.text k))
    (ht : h.texts[k]? = some t) (hj : isJsonPath t.path = true)
    (hp : (f.submit h).1 = .ok () → f.store.file.path ≠ t.path) :
    Host.Spared k h (f.submit h).2.2 := by
  rcases f.submit_host h with he | ⟨rs, he, hok⟩ <;> rw [he]
  · exact .rfl
  · exact persist_spared hs hr hl ht hj fun hpersist => hp (hok hpersist)

/-- The tracker of a form that wrote a JSON file has what was written, and no read that
waits will change that. -/
theorem submit_calm (hs : Seated h f.store) (hr : h.Ready) (hid : f.store.tracker = .text k)
    (hok : (f.submit h).1 = .ok ()) :
    (f.submit h).2.2.Calm k ∧ ∃ rs rs' t, f.store.records h = .ok rs ∧ (f.view h).1.Places rs rs' ∧
      (f.submit h).2.2.texts[k]? = some t ∧ t.data = some (listed rs').pretty := by
  have hj : f.store.file.isJson = true := hs.flavour.mpr ⟨k, hid⟩
  obtain ⟨m, t, hm, ht, -, hf⟩ := hs.text hj
  obtain rfl : m = k := TrackerId.text.inj (hm.symm.trans hid)
  have hl : h.Listens (.text m) := hid ▸ hs.attends.subscribed.2
  obtain ⟨rs, rs', hrs, hplace, hpersist, hhost⟩ := submit_eq_ok hok
  simp only [Store.persist, hid] at hpersist hhost
  obtain ⟨hcalm, t', ht', hd⟩ := Host.writeText_calm hr hl ht hf.bound (Decode.mapError_eq_ok.mp hpersist)
  rw [hhost]
  exact ⟨hcalm, rs, rs', t', hrs, hplace, ht', hd⟩

end Mounted

/-- A store reads the same from a tracker that was spared. -/
theorem records_spared {s : Store} {t : Tracker String} (hid : s.tracker = .text k)
    (ht : h.texts[k]? = some t) (hs : Host.Spared k h h') : s.records h' = s.records h := by
  obtain ⟨t', ht', hd, -⟩ := hs.text ht
  simp [Store.records, hid, ht, ht', hd]

/-! ### Worlds -/

namespace World

variable {w : World}

/-- Forms follow JSON files through the trackers that the roster has for their paths. -/
def Joined (w : World) : Prop := ∀ ⦃n f k⦄, w.form? n = some f → f.store.tracker = .text k →
  w.roster.texts.lookup f.store.file.path = some k

theorem Joined.setForm {n : Nat} {f f' : Mounted} (hj : w.Joined) (hf : w.form? n = some f)
    (hs : Mounted.Same f f') : (w.setForm n f').Joined := by
  intro m g k hg hk
  rw [form?_setForm hf] at hg
  split at hg
  · rw [← Option.some.inj hg, hs.store] at hk ⊢
    exact hj hf hk
  · exact hj hg hk

theorem Joined.act (hj : w.Joined) (hi : w.Intact) {a : Action} (ha : a.Steady) : (w.act a).Joined := by
  have hedits : a.Edits → (w.act a).Joined := by
    intro he
    rcases act_edits he with he | ⟨n, f, f', hf, hs, he⟩ <;> rw [he]
    · exact hj
    · exact hj.setForm hf hs
  cases a with
  | host a => exact hj
  | mount c =>
    obtain ⟨hg, hl⟩ := mount_grown hi.roster c
    have hfile := (mount_opened hi.roster c).2.2
    intro m g k hm hk
    rcases form?_mount hm with hm | rfl
    · exact hg.keeps (hj hm hk)
    · rw [hfile]
      exact hl hk
  | edit | sync | view => exact hedits trivial
  | submit n =>
    simp only [World.act]
    split
    · exact hj
    · next f hf =>
      have hj' : { w with host := (f.submit w.host).2.2 }.Joined := hj
      exact hj'.setForm hf (f.submit_same w.host)
  | unmount | release | releaseAll => exact False.elim ha

theorem Joined.run (hj : w.Joined) (hi : w.Intact) {as : List Action} (ha : ∀ a ∈ as, a.Steady) :
    (w.run as).Joined := by
  induction as generalizing w with
  | nil => exact hj
  | cons a as ih =>
    have hs := ha a List.mem_cons_self
    exact ih (hj.act hi hs) (hi.act hs) fun b hb => ha b (List.mem_cons_of_mem _ hb)

theorem joined_empty : ({} : World).Joined := by
  intro n f k hf
  simp [form?] at hf

/-- An action that changes the file at a path by submits at most. -/
def Action.Spares (path : String) : Action → Prop
  | .host a => a.Spares path
  | .unmount _ | .release _ | .releaseAll => False
  | _ => True

theorem Action.Spares.steady {a : Action} (ha : a.Spares path) : a.Steady := by
  cases a with
  | host a => exact Host.Action.Spares.stops ha
  | unmount | release | releaseAll => exact False.elim ha
  | _ => trivial

/-- The action is no submit of a form of the file, or one that fails. -/
def Keeps (w : World) (path : String) (a : Action) : Prop :=
  ∀ n f, a = .submit n → w.form? n = some f → f.configuration.records.path = path →
    (f.submit w.host).1 ≠ .ok ()

/-- The forms of a path share its tracker, and no read that waits would change it. -/
structure Orderly (w : World) (path : String) : Prop where
  intact : w.Intact
  joined : w.Joined
  calm : ∀ {k}, w.roster.texts.lookup path = some k → w.host.Calm k

theorem Orderly.act_spared (ho : w.Orderly path) (hj : isJsonPath path = true)
    (hk : w.roster.texts.lookup path = some k) {a : Action} (ha : a.Spares path)
    (hkeeps : w.Keeps path a) : Host.Spared k w.host (w.act a).host := by
  obtain ⟨t, ht, rfl, -⟩ := ho.intact.roster.text hk
  have hr := ho.intact.roster.ready
  have hl := (ho.intact.roster.texts hk).subscribed.2
  have hedits : a.Edits → Host.Spared k w.host (w.act a).host := by
    intro he
    rcases act_edits he with he | ⟨n, f, f', -, -, he⟩ <;> rw [he] <;> exact .rfl
  cases a with
  | host a => exact Host.spared_act hr hl ht (ho.calm hk) ha
  | mount c => exact (mount_grown ho.intact.roster c).1.spares hk
  | edit | sync | view => exact hedits trivial
  | submit n =>
    simp only [World.act]
    split
    · exact .rfl
    · next f hf =>
      refine Mounted.submit_spared (ho.intact.seated hf) hr hl ht hj fun hok hpath => ?_
      exact hkeeps n f rfl hf (by rw [← ho.intact.files hf, hpath]) hok
  | unmount | release | releaseAll => exact False.elim ha

/-- A tracker is entered under a path already, or no read waits for it. -/
theorem act_entry (hi : w.Intact) {a : Action} (ha : a.Steady)
    (hk : (w.act a).roster.texts.lookup path = some k) :
    w.roster.texts.lookup path = some k ∨ (w.act a).host.Calm k := by
  by_cases hm : ∃ c, a = .mount c
  · obtain ⟨c, rfl⟩ := hm
    have hg := (mount_grown hi.roster c).1
    cases hl : w.roster.texts.lookup path with
    | some m => exact .inl ((hg.keeps hl).symm.trans hk)
    | none => exact .inr (hg.fresh hl hk)
  · rw [act_roster ha fun c hc => hm ⟨c, hc⟩] at hk
    exact .inl hk

/-- The tracker of a form of the file is the one of the roster. -/
theorem Orderly.tracker (ho : w.Orderly path) (hj : isJsonPath path = true) {n : Nat} {f : Mounted}
    (hf : w.form? n = some f) (hpath : f.configuration.records.path = path) :
    ∃ k, f.store.tracker = .text k ∧ w.roster.texts.lookup path = some k ∧
      ∃ t, w.host.texts[k]? = some t := by
  have hp : f.store.file.path = path := by rw [ho.intact.files hf, hpath]
  have hjf : f.store.file.isJson = true := by rw [FileKey.isJson, hp, hj]
  obtain ⟨k, t, hk, ht, -⟩ := (ho.intact.seated hf).text hjf
  exact ⟨k, hk, hp ▸ ho.joined hf hk, t, ht⟩

/-- The tracker is calm after a form of the file wrote through it. -/
theorem Orderly.submit (ho : w.Orderly path) (hj : isJsonPath path = true) {n : Nat} {f : Mounted}
    (hf : w.form? n = some f) (hpath : f.configuration.records.path = path)
    (hok : (f.submit w.host).1 = .ok ()) : (w.act (.submit n)).Orderly path := by
  have ha : Action.Steady (.submit n) := trivial
  refine ⟨ho.intact.act ha, ho.joined.act ho.intact ha, fun {k} hk => ?_⟩
  rw [act_roster ha (by simp)] at hk
  obtain ⟨m, hm, hl, -⟩ := ho.tracker hj hf hpath
  obtain rfl : m = k := Option.some.inj (hl.symm.trans hk)
  rw [act_submit hf]
  exact (Mounted.submit_calm (ho.intact.seated hf) ho.intact.roster.ready hm hok).1

/-- Nothing that spares the file unsettles its tracker, nor does a submit to it. -/
theorem Orderly.act (ho : w.Orderly path) (hj : isJsonPath path = true) {a : Action}
    (ha : a.Spares path) : (w.act a).Orderly path := by
  by_cases hkeeps : w.Keeps path a
  · refine ⟨ho.intact.act ha.steady, ho.joined.act ho.intact ha.steady, fun {k} hk => ?_⟩
    -- the tracker was there before, or the action is a mount that opened it
    rcases act_entry ho.intact ha.steady hk with hl | hcalm
    · obtain ⟨t, ht, -⟩ := ho.intact.roster.text hl
      exact (ho.act_spared hj hl ha hkeeps).calm ht (ho.calm hl)
    · exact hcalm
  · simp only [Keeps, Classical.not_forall, exists_prop] at hkeeps
    obtain ⟨n, f, rfl, hf, hpath, hok⟩ := hkeeps
    exact ho.submit hj hf hpath (Classical.not_not.mp hok)

theorem Orderly.run (ho : w.Orderly path) (hj : isJsonPath path = true) {as : List Action}
    (ha : ∀ a ∈ as, a.Spares path) : (w.run as).Orderly path := by
  induction as generalizing w with
  | nil => exact ho
  | cons a as ih =>
    exact ih (ho.act hj (ha a List.mem_cons_self)) fun b hb => ha b (List.mem_cons_of_mem _ hb)

/-! ### Turns -/

/-- What the forms of a JSON file may rely on. -/
structure TakesTurns (w : World) (path : String) : Prop where
  /-- All of them know the same records. -/
  together : ∀ {m n f g}, w.form? m = some f → w.form? n = some g →
    f.configuration.records.path = path → g.configuration.records.path = path →
    g.store.records w.host = f.store.records w.host
  /-- A read that waits changes nothing of their tracker, whenever it is run. -/
  reads : ∀ {n f}, w.form? n = some f → f.configuration.records.path = path →
    ∃ k, f.store.tracker = .text k ∧ ∀ i, (w.host.runReadAt i).texts[k]? = w.host.texts[k]?
  /-- A submit of one of them that succeeds puts the record on screen among these records.
  If the text reads back, they are in the file and known to all at once. -/
  submits : ∀ {n f}, w.form? n = some f → f.configuration.records.path = path →
    (f.submit w.host).1 = .ok () →
    ∃ rs rs' after, f.store.records w.host = .ok rs ∧ (f.view w.host).1.Places rs rs' ∧
      (w.act (.submit n)).host.vault.text? path = some after ∧ after = (listed rs').pretty ∧
      (Json.read after = .ok (listed rs') → Written after rs' ∧
        ∀ m g, (w.act (.submit n)).form? m = some g → g.configuration.records.path = path →
          g.store.records (w.act (.submit n)).host = .ok rs')
  /-- Whatever else is done, they know the same records as before. -/
  others : ∀ {a}, a.Spares path → w.Keeps path a → ∀ {n f}, w.form? n = some f →
    f.configuration.records.path = path →
    f.store.records (w.act a).host = f.store.records w.host

theorem Orderly.takesTurns (ho : w.Orderly path) (hj : isJsonPath path = true) :
    w.TakesTurns path where
  together {m n f g} hf hg hpf hpg := by
    obtain ⟨k, hk, hl, -⟩ := ho.tracker hj hf hpf
    obtain ⟨k', hk', hl', -⟩ := ho.tracker hj hg hpg
    obtain rfl : k = k' := Option.some.inj (hl.symm.trans hl')
    have hpath : g.store.file.path = f.store.file.path := by
      rw [ho.intact.files hf, ho.intact.files hg, hpf, hpg]
    have hjg : g.store.file.isJson = true := by
      rw [FileKey.isJson, ho.intact.files hg, hpg, hj]
    simp only [Store.records, hk, hk', ofText_congr hpath hjg]
  reads hf hpath := by
    obtain ⟨k, hk, hl, -⟩ := ho.tracker hj hf hpath
    exact ⟨k, hk, fun i => ((ho.calm hl).runReadAt i).1⟩
  submits {n f} hf hpath hok := by
    have hr := ho.intact.roster.ready
    have hs := ho.intact.seated hf
    have hstore : f.store.file.path = path := by rw [ho.intact.files hf, hpath]
    have hjf : f.store.file.isJson = true := by rw [FileKey.isJson, hstore, hj]
    obtain ⟨k, hk, hl, -⟩ := ho.tracker hj hf hpath
    obtain ⟨-, rs, rs', t, hrs, hplace, ht, hd⟩ := Mounted.submit_calm hs hr hk hok
    obtain ⟨rs₁, rs₂, -, hrs₁, hplace₁, -, htext⟩ := Mounted.submit_text hs hjf hok
    obtain rfl : rs = rs₁ := Except.ok.inj (hrs.symm.trans hrs₁)
    obtain rfl := hplace.unique hplace₁
    rw [hstore] at htext
    rw [← act_submit hf] at ht htext
    refine ⟨rs, rs', _, hrs, hplace, htext, rfl, fun hback => ?_⟩
    have hw : Written (listed rs').pretty rs' := .list (not_isBlank_pretty rs') hback
    refine ⟨hw, fun m g hg hpg => ?_⟩
    obtain ⟨k', hk', hl', -⟩ := (ho.submit hj hf hpath hok).tracker hj hg hpg
    rw [act_roster (a := .submit n) trivial (by simp)] at hl'
    obtain rfl : k = k' := Option.some.inj (hl.symm.trans hl')
    simpa [Store.records, hk', ht, hd] using ofText_eq_ok.mpr hw
  others {a} ha hkeeps {n f} hf hpath := by
    obtain ⟨k, hk, hl, t, ht⟩ := ho.tracker hj hf hpath
    exact records_spared hk ht (ho.act_spared hj hl ha hkeeps)

/-- Forms are mounted and used in any way, but no tracker is stopped, and then no read of a
JSON file waits. From there on the file is left alone but for submits. Then its forms take
turns, whatever is done with them, and whenever the reads are run that their submits ask
for. -/
theorem run_takesTurns (before during : List Action) (path : String)
    (hj : isJsonPath path = true) (hb : ∀ a ∈ before, a.Steady)
    (hnone : ∀ r ∈ (({} : World).run before).host.pending,
      (({} : World).run before).roster.texts.lookup path ≠ some r.tracker)
    (hd : ∀ a ∈ during, a.Spares path) :
    ((({} : World).run before).run during).TakesTurns path := by
  have hstart : (({} : World).run before).Orderly path := by
    refine ⟨intact_empty.run hb, joined_empty.run intact_empty hb, fun {k} hk t _ hmem => ?_⟩
    obtain ⟨r, hr, -⟩ := List.mem_map.mp hmem
    obtain ⟨hr, hrk⟩ := List.mem_filter.mp hr
    exact hnone r hr (by rw [hk, of_decide_eq_true hrk])
  exact (hstart.run hj hd).takesTurns hj

/-- Two forms of a file without records. -/
def twoForms : List Action :=
  [.host (.insert "people.json" "[]"), .mount ⟨⟨"people.json", "data"⟩, .inline [], none⟩,
    .mount ⟨⟨"people.json", "list"⟩, .inline [], none⟩]

/-- Each of them makes a record, and the read that the first submit asks for is run late. -/
def alternating : List Action :=
  [.submit 0, .edit 1 (.setForm [("x", .int 1)]), .submit 1, .host (.runRead 0)]

theorem run_takesTurns_alternating :
    ((({} : World).run twoForms).run alternating).TakesTurns "people.json" ∧
      ((({} : World).run twoForms).run alternating).host.pending = [⟨0, 1⟩] ∧
      ((({} : World).run twoForms).run alternating).host.vault.text? "people.json" =
        some (listed [[], [("x", .int 1)]]).pretty :=
  ⟨run_takesTurns twoForms alternating "people.json" (by decide +kernel)
      (by simp [twoForms, Action.Steady, Host.Action.stops]) (by decide +kernel)
      (by simp [alternating, Action.Spares, Host.Action.Spares]),
    by decide +kernel, by decide +kernel⟩

end World

end Form

end NoteForms
