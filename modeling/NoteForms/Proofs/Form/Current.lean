import NoteForms.Proofs.Edit.Copies
import NoteForms.Proofs.Form.Advance

/-! Forms against the records of their stores. A form catches up whenever it is used, and takes
the records for what they were as long as their revision is the same. This is right in all runs:
a form that has caught up counts the records that are stored as far as its store knows, and has
a working copy of each of them, which is as the record unless it was edited since the records
were last new. Reads may be run late, be left out or be rejected, files may be moved or removed,
and trackers may be stopped: the store then knows less, but the form does not lag behind it. -/

namespace NoteForms.Form

open Records Setup Edit

/-! ### Runs -/

namespace World

/-- What is done to a world, or befalls its host. -/
inductive Step where
  | act (a : Action)
  /-- Reads of trackers are rejected from here on, or no longer. -/
  | setFailReads (fail : Bool)
  /-- Reads that a change asks for can wait from here on, or are left out. -/
  | setCanWait (wait : Bool)

def step (w : World) : Step → World
  | .act a => w.act a
  | .setFailReads fail => { w with host := { w.host with failReads := fail } }
  | .setCanWait wait => { w with host := { w.host with canWait := wait } }

def steps (w : World) (ss : List Step) : World := ss.foldl step w

/-- The form that an action uses. -/
def Action.subject : Action → Option Nat
  | .edit n _ | .sync n | .view n | .submit n | .unmount n => some n
  | _ => none

/-- Records are given to the editor of a form by another way than by its store. -/
def Step.Bypasses (n : Nat) : Step → Prop
  | .act (.edit m (.sync _ _)) => m = n
  | _ => False

theorem step_advances (w : World) (s : Step) : w.host.Advances (w.step s).host := by
  cases s with
  | act a => exact w.act_advances a
  | setFailReads fail => exact Host.advances_of_eq rfl rfl
  | setCanWait wait => exact Host.advances_of_eq rfl rfl

end World

/-! ### What is remembered of a form -/

structure Ledger where
  /-- The records when the form last caught up. -/
  known : List Record
  /-- The copies that were edited since the form last found new records. -/
  edited : List Nat

namespace Ledger

variable (l : Ledger) (f : Mounted) (h : Host)

/-- A form that is mounted has caught up. -/
def start : Ledger := ⟨f.store.recordsOrNone h, []⟩

/-- The form catches up. -/
def sync : Ledger := ⟨f.store.recordsOrNone h, if (f.sync h).1 then [] else l.edited⟩

/-- The editor does something. -/
def edit (e : Editor) (a : Editor.Action) : Ledger :=
  { l with edited := (e.touched? a).toList ++ l.edited }

/-- A submit that succeeds catches up before and after. -/
def submit : Ledger :=
  match f.submit h with
  | (.ok (), _, h') => (l.sync f h).sync (f.sync h).2 h'
  | (.error _, _, _) => l.sync f h

def act : World.Action → Ledger
  | .edit _ a => (l.sync f h).edit (f.sync h).2.editor a
  | .sync _ | .view _ => l.sync f h
  | .submit _ => l.submit f h
  | _ => l

end Ledger

namespace World

/-- What is remembered of a form after a step. -/
def noted (n : Nat) (w : World) (l : Ledger) : Step → Ledger
  | .act a =>
    if a.subject = some n then
      match w.form? n with
      | some f => l.act f w.host a
      | none => l
    else l
  | _ => l

/-- What is remembered of a form at the end of a run. -/
def ledger (n : Nat) : World → Ledger → List Step → Ledger
  | _, l, [] => l
  | w, l, s :: ss => ledger n (w.step s) (w.noted n l s) ss

end World

/-! ### Forms in line -/

/-- The editor shows the records that are remembered, and they are the stored ones if the
revision is still the one that it has seen. -/
structure InLine (h : Host) (f : Mounted) (l : Ledger) : Prop where
  knows : h.Knows f.store.tracker
  shows : f.editor.Shows l.known l.edited
  seen : ∃ r, f.editor.drafts.revision = some r ∧ r ≤ f.store.revision h ∧
    (f.store.revision h = r → f.store.recordsOrNone h = l.known)

section InLine

variable {h h' : Host} {f : Mounted} {l : Ledger}

theorem InLine.advances (hi : InLine h f l) (ha : h.Advances h') : InLine h' f l := by
  obtain ⟨hle, heq⟩ := revision_advances ha hi.knows
  obtain ⟨r, hr, hrle, hrec⟩ := hi.seen
  refine ⟨ha.knows hi.knows, hi.shows, r, hr, Nat.le_trans hrle hle, fun he => ?_⟩
  -- the revision was the same all the time
  have hsame : f.store.revision h = r := by omega
  rw [heq (by omega), hrec hsame]

theorem InLine.edit (hi : InLine h f l) {a : Editor.Action} (ha : a.Local) :
    InLine h { f with editor := f.editor.act a } (l.edit f.editor a) := by
  obtain ⟨r, hr, hseen⟩ := hi.seen
  exact ⟨hi.knows, hi.shows.act ha, r, (Editor.revision_act ha).trans hr, hseen⟩

/-- New records start from the schema as it is; the copies do not. -/
theorem InLine.syncSchema (hi : InLine h f l) : InLine h (f.syncSchema h) l := by
  unfold Mounted.syncSchema
  simp only
  split
  · exact hi
  · have he := hi.edit (a := .setInitial (Mounted.initialOf f.schema h)) trivial
    exact ⟨he.knows, he.shows, he.seen⟩

theorem syncSchema_store (f : Mounted) (h : Host) : (f.syncSchema h).store = f.store := by
  unfold Mounted.syncSchema
  simp only
  split <;> rfl

theorem sync_eq (f : Mounted) (h : Host) : f.sync h =
    (((f.syncSchema h).editor.sync (f.store.revision h) (f.store.recordsOrNone h)).1,
      { f.syncSchema h with
        editor :=
          ((f.syncSchema h).editor.sync (f.store.revision h) (f.store.recordsOrNone h)).2 }) := by
  rw [← syncSchema_store f h]
  rfl

/-- A form that finds no new records knew them before. -/
theorem InLine.sync (hi : InLine h f l) : InLine h (f.sync h).2 (l.sync f h) ∧
    ((f.sync h).1 = false → f.store.recordsOrNone h = l.known) := by
  have hs := hi.syncSchema
  obtain ⟨r, hr, -, hrec⟩ := hs.seen
  rw [syncSchema_store] at hrec
  by_cases hrev : (f.syncSchema h).editor.drafts.revision = some (f.store.revision h)
  · have hknown : f.store.recordsOrNone h = l.known := by
      rw [hr] at hrev
      exact hrec (Option.some.inj hrev).symm
    have hsync : f.sync h = (false, f.syncSchema h) := by
      rw [sync_eq, Editor.sync_eq_of_eq hrev]
    have hl : l.sync f h = l := by
      rw [Ledger.sync, hsync, hknown]
      rfl
    rw [hsync, hl]
    exact ⟨hs, fun _ => hknown⟩
  · have hone : (f.sync h).1 = true := by rw [sync_eq, Editor.sync_eq_of_ne hrev]
    have hl : l.sync f h = ⟨f.store.recordsOrNone h, []⟩ := by
      rw [Ledger.sync, hone]
      rfl
    refine ⟨?_, fun hf => by rw [hone] at hf; contradiction⟩
    rw [hl, sync_eq]
    have hstore := syncSchema_store f h
    refine ⟨hs.knows, Editor.shows_sync hrev (.inl hs.shows.kept) _, f.store.revision h,
      Editor.sync_revision _ _ _, ?_, fun _ => ?_⟩
    · simp only [hstore]
      exact Nat.le_refl _
    · simp only [hstore]

theorem InLine.submit (hi : InLine h f l) :
    InLine (f.submit h).2.2 (f.submit h).2.1 (l.submit f h) := by
  obtain ⟨h', ha, ⟨fault, he⟩ | he⟩ := f.submit_cases h
  · rw [Ledger.submit, he]
    exact hi.sync.1.advances ha
  · rw [Ledger.submit, he]
    exact (hi.sync.1.advances ha).sync.1

theorem mount_inLine (c : Configuration) (h : Host) (r : Roster) :
    InLine (Mounted.mount c h r).2.1 (Mounted.mount c h r).1
      (.start (Mounted.mount c h r).1 (Mounted.mount c h r).2.1) :=
  ⟨(Mounted.mount_advances c h r).2, Editor.start_shows _ _ _, _, Editor.sync_revision _ _ _,
    Nat.le_refl _, fun _ => rfl⟩

end InLine

/-! ### Forms that are up to date -/

/-- The form counts the records of its store, and has a copy of each of them; those that are
not edited are as the records. -/
structure UpToDate (f : Mounted) (h : Host) (edited : List Nat) : Prop where
  count : f.editor.count = (f.store.recordsOrNone h).length
  copies : f.editor.drafts.copies.map Prod.fst = List.range (f.store.recordsOrNone h).length
  unedited : ∀ i, i ∉ edited → f.editor.drafts.get? i = (f.store.recordsOrNone h)[i]?

theorem InLine.upToDate {h : Host} {f : Mounted} {l : Ledger} (hi : InLine h f l)
    (hl : f.store.recordsOrNone h = l.known) : UpToDate f h l.edited := by
  refine ⟨?_, ?_, fun i hm => ?_⟩
  · rw [hl, hi.shows.count]
  · rw [hl, ← hi.shows.count, hi.shows.kept.copies]
  · rw [hl, hi.shows.unedited i hm]

theorem InLine.sync_upToDate {h : Host} {f : Mounted} {l : Ledger} (hi : InLine h f l) :
    UpToDate (f.sync h).2 h (l.sync f h).edited :=
  hi.sync.1.upToDate (by rw [(f.sync_same h).store]; rfl)

theorem InLine.submit_upToDate {h : Host} {f : Mounted} {l : Ledger} (hi : InLine h f l)
    (hok : (f.submit h).1 = .ok ()) :
    UpToDate (f.submit h).2.1 (f.submit h).2.2 (l.submit f h).edited := by
  obtain ⟨h', ha, ⟨fault, he⟩ | he⟩ := f.submit_cases h
  · rw [he] at hok
    contradiction
  · rw [Ledger.submit, he]
    exact (hi.sync.1.advances ha).sync_upToDate

namespace World

variable {w : World} {n : Nat} {l : Ledger}

/-- A form is in line, unless it was unmounted. -/
structure KeepsUp (n : Nat) (w : World) (l : Ledger) : Prop where
  there : n < w.forms.length
  inLine : ∀ f, w.form? n = some f → InLine w.host f l

theorem length_act (w : World) (a : Action) : w.forms.length ≤ (w.act a).forms.length := by
  cases a with
  | host | release | releaseAll => exact Nat.le_refl _
  | mount c => simp [act]
  | unmount m | edit m a | sync m | view m | submit m =>
    simp only [act]
    split <;> simp [setForm]

/-- Other forms than the one that is used stay as they are. -/
theorem form?_act_of_ne {a : Action} (ha : a.subject ≠ some n) (hn : n < w.forms.length) :
    (w.act a).form? n = w.form? n := by
  cases a with
  | host | release | releaseAll => rfl
  | mount c => simp [act, form?, List.getElem?_append_left hn]
  | unmount m | edit m a | sync m | view m | submit m =>
    have hm : m ≠ n := fun he => ha (by rw [he]; rfl)
    simp only [act]
    split
    · rfl
    · simp [form?, setForm, hm]

theorem act_of_form?_eq_none {a : Action} (ha : a.subject = some n) (hf : w.form? n = none) :
    w.act a = w := by
  cases a with
  | host | mount | release | releaseAll => exact absurd ha (by simp [Action.subject])
  | unmount m | edit m a | sync m | view m | submit m =>
    rw [← Option.some.inj ha] at hf
    simp only [act, hf]

/-- What becomes of the form that is used. -/
theorem inLine_act {a : Action} {f : Mounted} (hs : a.subject = some n)
    (ha : ¬ (Step.act a).Bypasses n) (hf : w.form? n = some f) (hi : InLine w.host f l)
    (g : Mounted) (hg : (w.act a).form? n = some g) :
    InLine (w.act a).host g (l.act f w.host a) := by
  cases a with
  | host | mount | release | releaseAll => exact absurd hs (by simp [Action.subject])
  | unmount m =>
    obtain rfl : m = n := Option.some.inj hs
    have hn := lt_of_form? hf
    simp only [act, hf] at hg
    simp [form?, hn] at hg
  | edit m a =>
    obtain rfl : m = n := Option.some.inj hs
    have hlocal : a.Local := by
      cases a with
      | sync => exact absurd rfl ha
      | _ => trivial
    simp only [act, hf] at hg ⊢
    rw [eq_of_setForm hf hg]
    exact hi.sync.1.edit hlocal
  | sync m | view m =>
    obtain rfl : m = n := Option.some.inj hs
    simp only [act, hf] at hg ⊢
    rw [eq_of_setForm hf hg]
    exact hi.sync.1
  | submit m =>
    obtain rfl : m = n := Option.some.inj hs
    simp only [act, hf] at hg ⊢
    rw [eq_of_setForm hf hg]
    exact hi.submit

theorem KeepsUp.act (hk : KeepsUp n w l) {a : Action} (ha : ¬ (Step.act a).Bypasses n) :
    KeepsUp n (w.act a) (w.noted n l (.act a)) := by
  refine ⟨Nat.lt_of_lt_of_le hk.there (w.length_act a), fun g hg => ?_⟩
  by_cases hs : a.subject = some n
  · cases hf : w.form? n with
    | none =>
      rw [act_of_form?_eq_none hs hf, hf] at hg
      contradiction
    | some f =>
      simp only [noted, hs, hf, if_true]
      exact inLine_act hs ha hf (hk.inLine f hf) g hg
  · rw [form?_act_of_ne hs hk.there] at hg
    simp only [noted, hs, if_false]
    exact (hk.inLine g hg).advances (w.act_advances a)

theorem KeepsUp.step (hk : KeepsUp n w l) {s : Step} (hs : ¬ s.Bypasses n) :
    KeepsUp n (w.step s) (w.noted n l s) := by
  cases s with
  | act a => exact hk.act hs
  | setFailReads fail =>
    exact ⟨hk.there, fun f hf => (hk.inLine f hf).advances (w.step_advances (.setFailReads fail))⟩
  | setCanWait wait =>
    exact ⟨hk.there, fun f hf => (hk.inLine f hf).advances (w.step_advances (.setCanWait wait))⟩

theorem KeepsUp.steps (hk : KeepsUp n w l) {ss : List Step} (hs : ∀ s ∈ ss, ¬ s.Bypasses n) :
    KeepsUp n (w.steps ss) (w.ledger n l ss) := by
  induction ss generalizing w l with
  | nil => exact hk
  | cons s ss ih =>
    exact ih (hk.step (hs s List.mem_cons_self)) fun s' hs' => hs s' (List.mem_cons_of_mem _ hs')

/-- What is remembered of a form that is mounted and then goes through a run. -/
def ledgerOf (w : World) (c : Configuration) (ss : List Step) : Ledger :=
  (w.act (.mount c)).ledger w.forms.length
    (.start (Mounted.mount c w.host w.roster).1 (w.act (.mount c)).host) ss

theorem mount_keepsUp (w : World) (c : Configuration) :
    KeepsUp w.forms.length (w.act (.mount c))
      (.start (Mounted.mount c w.host w.roster).1 (w.act (.mount c)).host) := by
  refine ⟨by simp [World.act], fun g hg => ?_⟩
  rw [← Option.some.inj ((form?_mount_self w c).symm.trans hg)]
  exact mount_inLine c w.host w.roster

/-- A form is mounted in any world, and anything is done after that but to hand records to its
editor by another way. Then the form is up to date with its store each time that it has caught
up: when it is asked to, before and after its editor does something, when it is viewed, and
when it has submitted. It finds nothing new only if the records are those of the last time. -/
theorem steps_upToDate (w : World) (c : Configuration) (ss : List Step)
    (hs : ∀ s ∈ ss, ¬ s.Bypasses w.forms.length) (f : Mounted) (h : Host) (l : Ledger)
    (hh : h = ((w.act (.mount c)).steps ss).host) (hl : l = w.ledgerOf c ss)
    (hf : ((w.act (.mount c)).steps ss).form? w.forms.length = some f) :
    UpToDate (f.sync h).2 h (l.sync f h).edited ∧
      ((f.sync h).1 = false → f.store.recordsOrNone h = l.known) ∧
      (∀ a, a.Local → UpToDate { (f.sync h).2 with editor := (f.sync h).2.editor.act a } h
        ((l.sync f h).edit (f.sync h).2.editor a).edited) ∧
      UpToDate (f.view h).2 h (l.sync f h).edited ∧
      ((f.submit h).1 = .ok () →
        UpToDate (f.submit h).2.1 (f.submit h).2.2 (l.submit f h).edited) := by
  have hi : InLine h f l := by
    rw [hh, hl]
    exact ((mount_keepsUp w c).steps hs).inLine f hf
  have hknown : (f.sync h).2.store.recordsOrNone h = (l.sync f h).known := by
    rw [(f.sync_same h).store]
    rfl
  exact ⟨hi.sync_upToDate, hi.sync.2, fun a ha => (hi.sync.1.edit ha).upToDate hknown,
    hi.sync_upToDate, hi.submit_upToDate⟩

/-- A list grows. Of its two records the first is edited; then reads are rejected, and a change
of the list does not come through any more. -/
def muffled : List Step :=
  [.act (.host (.insert "people.json" "[\x7b\x22x\x22:1\x7d,\x7b\x22x\x22:2\x7d]")),
    .act (.host (.runRead 0)), .act (.edit 0 (.setForm [("x", .int 3)])), .setFailReads true,
    .act (.host (.insert "people.json" "[]")), .act (.host (.runRead 0)),
    .act (.release "people.json")]

/-- A list with one record. -/
def followed : World := ({} : World).act (.host (.insert "people.json" "[\x7b\x7d]"))

def followedList : Configuration := ⟨⟨"people.json", "data"⟩, .inline [], none⟩

def muted : World := (followed.act (.mount followedList)).steps muffled

/-- The edited copy stays what it is, the other one is its record. -/
theorem steps_upToDate_muffled :
    (∀ s ∈ muffled, ¬ s.Bypasses followed.forms.length) ∧
      ∃ f, muted.form? followed.forms.length = some f ∧
        f.store.recordsOrNone muted.host = [[("x", .int 1)], [("x", .int 2)]] ∧
        (f.sync muted.host).1 = false ∧
        (f.sync muted.host).2.editor.drafts.get? 0 = some [("x", .int 3)] ∧
        (f.sync muted.host).2.editor.drafts.get? 1 = some [("x", .int 2)] := by
  have hs : ∀ s ∈ muffled, ¬ s.Bypasses followed.forms.length := by
    simp [muffled, Step.Bypasses]
  obtain ⟨f, hf⟩ : ∃ f, muted.form? followed.forms.length = some f :=
    Option.isSome_iff_exists.mp (by decide +kernel)
  have hform : ∀ f ∈ muted.form? followed.forms.length,
      f.store.recordsOrNone muted.host = [[("x", .int 1)], [("x", .int 2)]] ∧
      (f.sync muted.host).1 = false ∧
      (f.sync muted.host).2.editor.drafts.get? 0 = some [("x", .int 3)] ∧
      ((followed.ledgerOf followedList muffled).sync f muted.host).edited = [0] := by
    decide +kernel
  obtain ⟨hrecords, hfalse, hedited, hl⟩ := hform f hf
  obtain ⟨hup, -⟩ := steps_upToDate followed followedList muffled hs f _ _ rfl rfl hf
  refine ⟨hs, f, hf, hrecords, hfalse, hedited, ?_⟩
  have hget := hup.unedited 1 (by
    show 1 ∉ ((followed.ledgerOf followedList muffled).sync f muted.host).edited
    rw [hl]
    decide)
  rw [(f.sync_same _).store] at hget
  exact hget.trans (congrArg (·[1]?) hrecords)

end World

end NoteForms.Form
