import NoteForms.Proofs.Edit.History
import NoteForms.Proofs.Form.Distinct

/-! What new records start from, against the schema. A form reads its schema anew only when the
revision is not the one that it has seen, and its new record goes along only if it cannot be told
from what new records started from. Both are right in all runs: a form that has caught up starts
new records from the schema as it is known, whatever became of its file, also where that is the
note of the records themselves; and its new record is what new records start from, unless it was
stored and not cleared since. -/

namespace NoteForms

open Records Setup Edit

/-! ### New records -/

namespace Edit.Editor

/-- An action of users: it neither brings records nor says what new ones start from. -/
def Action.Ordinary : Action → Prop
  | .sync _ _ | .setInitial _ => False
  | _ => True

/-- Whether the new record was stored since it was last cleared, given whether it was before. -/
def stores (e : Editor) (stored : Bool) : Action → Bool
  | .setForm _ => e.creating || stored
  | .clear => !e.creating && stored
  | _ => stored

variable {e : Editor}

theorem setForm_created (e : Editor) (r : Record) :
    (e.setForm r).2.drafts.created = if e.creating then r else e.drafts.created := by
  unfold setForm
  split
  · rfl
  · split <;> rfl

/-- What new records start from is no matter of users. -/
theorem initial_act_ordinary {a : Action} (ha : a.Ordinary) : (e.act a).initial = e.initial := by
  cases a with
  | setCreating | toggle | move => rfl
  | goToPage page =>
    simp only [act, goToPage]
    split <;> rfl
  | setForm r => exact e.setForm_initial r
  | clear => exact e.setForm_initial e.initial
  | sync | setInitial => exact False.elim ha

/-- A new record that is what new ones start from stays that, unless it is stored. -/
theorem created_act_ordinary {a : Action} (ha : a.Ordinary) {stored : Bool}
    (he : stored = false → e.drafts.created = e.initial) (hs : e.stores stored a = false) :
    (e.act a).drafts.created = e.initial := by
  cases a with
  | setCreating | toggle | move => exact he hs
  | goToPage page =>
    simp only [act, goToPage]
    split <;> exact he hs
  | setForm r =>
    obtain ⟨hc, hs⟩ := Bool.or_eq_false_iff.mp hs
    rw [act, setForm_created, hc]
    exact he hs
  | clear =>
    rw [act, clear, setForm_created]
    split
    · rfl
    · next hc =>
      rw [stores, Bool.eq_false_iff.mpr hc] at hs
      exact he hs
  | sync | setInitial => exact False.elim ha

/-- A new record that is what new ones started from goes along, as long as it can be told to be
the same as itself. -/
theorem setInitial_untouched (hd : Object.Distinct e.initial) (he : e.drafts.created = e.initial)
    (r : Record) : (e.setInitial r).drafts.created = (e.setInitial r).initial := by
  unfold setInitial
  have hsame : e.drafts.created.same e.initial = true := by
    rw [he]
    exact hd.same_self
  rw [if_pos hsame]
  split
  · exact he
  · rfl

end Edit.Editor

namespace Form

/-! ### Schemas -/

/-- What new records start from is the same as long as the revision of the schema is. -/
theorem schema_advances {d : Document} {h h' : Host} (ha : h.Advances h')
    (hk : ∀ q ∈ d.requests, h.Knows q.2) : d.revision h ≤ d.revision h' ∧
      (d.revision h' = d.revision h → Mounted.initialOf d h' = Mounted.initialOf d h) := by
  cases d with
  | inline o => exact ⟨Nat.le_refl _, fun _ => rfl⟩
  | file f n =>
    obtain ⟨hle, hdata⟩ := ha.notes.at (hk _ List.mem_cons_self)
    exact ⟨hle, fun he => by simp only [Mounted.initialOf, Document.value, hdata he]⟩

/-- The form has the schema that it was mounted with. It starts new records from what that was at
the revision that the form has seen, and the new record is that, unless it was stored. -/
structure Fresh (h : Host) (d : Document) (f : Mounted) (stored : Bool) : Prop where
  schema : f.schema = d
  knows : ∀ q ∈ d.requests, h.Knows q.2
  seen : f.schemaRevision ≤ d.revision h
  initial : d.revision h = f.schemaRevision → f.editor.initial.Same (Mounted.initialOf d h)
  created : stored = false → f.editor.drafts.created = f.editor.initial

section Fresh

variable {h h' : Host} {d : Document} {f : Mounted} {stored : Bool}

theorem Fresh.advances (hf : Fresh h d f stored) (ha : h.Advances h') : Fresh h' d f stored := by
  obtain ⟨hle, heq⟩ := schema_advances ha hf.knows
  refine ⟨hf.schema, fun q hq => ha.knows (hf.knows q hq), Nat.le_trans hf.seen hle, fun he => ?_,
    hf.created⟩
  -- the revision was the same all the time
  have hseen := hf.seen
  rw [heq (by omega)]
  exact hf.initial (by omega)

theorem Fresh.syncSchema (hf : Fresh h d f stored) (hd : f.Distinct) :
    Fresh h d (f.syncSchema h) stored ∧ (f.syncSchema h).schemaRevision = d.revision h := by
  unfold Mounted.syncSchema
  simp only [hf.schema]
  split
  · next he => exact ⟨hf, he.symm⟩
  · refine ⟨⟨rfl, hf.knows, Nat.le_refl _, fun _ => ?_, fun hs => ?_⟩, rfl⟩
    · exact Editor.setInitial_initial _ _
    · exact Editor.setInitial_untouched hd.editor.initial (hf.created hs) _

theorem Fresh.sync (hf : Fresh h d f stored) (hd : f.Distinct) :
    Fresh h d (f.sync h).2 stored ∧ (f.sync h).2.schemaRevision = d.revision h := by
  obtain ⟨hs, hrev⟩ := hf.syncSchema hd
  have he := Editor.sync_created (f.syncSchema h).editor (f.store.revision h)
    (f.store.recordsOrNone h)
  rw [sync_eq]
  refine ⟨⟨hs.schema, hs.knows, hs.seen, fun hr => ?_, fun hstored => ?_⟩, hrev⟩
  · rw [he.2]
    exact hs.initial hr
  · rw [he.1, he.2]
    exact hs.created hstored

theorem Fresh.edit (hf : Fresh h d f stored) {a : Editor.Action} (ha : a.Ordinary) :
    Fresh h d { f with editor := f.editor.act a } (f.editor.stores stored a) := by
  refine ⟨hf.schema, hf.knows, hf.seen, fun hr => ?_, fun hs => ?_⟩
  · rw [Editor.initial_act_ordinary ha]
    exact hf.initial hr
  · rw [Editor.initial_act_ordinary ha]
    exact Editor.created_act_ordinary ha hf.created hs

theorem Fresh.submit (hf : Fresh h d f stored) (hd : f.Distinct) (hh : h.Distinct) :
    Fresh (f.submit h).2.2 d (f.submit h).2.1 stored := by
  obtain ⟨h', ha, ⟨fault, he⟩ | he⟩ := f.submit_cases h
  · rw [he]
    exact (hf.sync hd).1.advances ha
  · rw [he]
    exact (((hf.sync hd).1.advances ha).sync (hd.sync hh)).1

theorem mount_fresh (c : Configuration) (h : Host) (r : Roster) :
    Fresh (Mounted.mount c h r).2.1 (Mounted.mount c h r).1.schema (Mounted.mount c h r).1 false := by
  have hs := Editor.start_follows
    (Mounted.initialOf (Mounted.mount c h r).1.schema (Mounted.mount c h r).2.1)
    ((Mounted.mount c h r).1.store.revision (Mounted.mount c h r).2.1)
    ((Mounted.mount c h r).1.store.recordsOrNone (Mounted.mount c h r).2.1)
  refine ⟨rfl, fun q hq => ?_, Nat.le_refl _, fun _ => .inl hs.initial,
    fun _ => hs.created.trans hs.initial.symm⟩
  refine (Mounted.mount_enrols c h r).advances.2 q ?_
  simp only [Mounted.requests, List.mem_append]
  exact .inl (.inr hq)

end Fresh

/-! ### Forms that start from their schema -/

/-- New records start from the schema as it is known, and a new record that was not stored is what
they start from. -/
structure Starts (f : Mounted) (h : Host) (stored : Bool) : Prop where
  initial : f.editor.initial.same (initialRecord (f.schema.resolved? h)) = true
  created : stored = false → f.editor.drafts.created = f.editor.initial

theorem Fresh.starts {h : Host} {d : Document} {f : Mounted} {stored : Bool}
    (hf : Fresh h d f stored) (hr : f.schemaRevision = d.revision h) (hd : f.Distinct) :
    Starts f h stored := by
  refine ⟨?_, hf.created⟩
  have hi := hf.initial hr.symm
  rw [Mounted.initialOf_eq, ← hf.schema] at hi
  rcases hi with he | hs
  · rw [← he]
    exact hd.editor.initial.same_self
  · exact hs

namespace World

variable {w : World} {n : Nat} {d : Document} {stored : Bool}

/-- The editor of a form is used as users do. -/
def Step.Ordinary (n : Nat) : Step → Prop
  | .act (.edit m a) => m = n → a.Ordinary
  | _ => True

/-- Whether the new record of a form is stored after a step, given whether it was before. -/
def storedBy (n : Nat) (w : World) (stored : Bool) : Step → Bool
  | .act (.edit m a) =>
    if m = n then
      match w.form? n with
      | some f => (f.sync w.host).2.editor.stores stored a
      | none => stored
    else stored
  | _ => stored

/-- Whether the new record of a form is stored at the end of a run. -/
def storedIn (n : Nat) : World → Bool → List Step → Bool
  | _, stored, [] => stored
  | w, stored, s :: ss => storedIn n (w.step s) (w.storedBy n stored s) ss

/-- A form is fresh, unless it was unmounted. -/
structure KeepsFresh (n : Nat) (d : Document) (w : World) (stored : Bool) : Prop where
  there : n < w.forms.length
  distinct : w.Distinct
  fresh : ∀ f, w.form? n = some f → Fresh w.host d f stored

/-- What becomes of the form that is used. -/
theorem fresh_act {a : Action} {f : Mounted} (hs : a.subject = some n)
    (ha : (Step.act a).Ordinary n) (hf : w.form? n = some f) (hw : w.Distinct)
    (hi : Fresh w.host d f stored) (g : Mounted) (hg : (w.act a).form? n = some g) :
    Fresh (w.act a).host d g (w.storedBy n stored (.act a)) := by
  have hd := hw.forms f (mem_of_form? hf)
  cases a with
  | host | mount | release | releaseAll => exact absurd hs (by simp [Action.subject])
  | unmount m =>
    obtain rfl : m = n := Option.some.inj hs
    have hn := lt_of_form? hf
    simp only [act, hf] at hg
    simp [form?, hn] at hg
  | edit m a =>
    obtain rfl : m = n := Option.some.inj hs
    simp only [act, hf, storedBy, if_true] at hg ⊢
    rw [eq_of_setForm hf hg]
    exact (hi.sync hd).1.edit (ha rfl)
  | sync m | view m =>
    obtain rfl : m = n := Option.some.inj hs
    simp only [act, hf] at hg ⊢
    rw [eq_of_setForm hf hg]
    exact (hi.sync hd).1
  | submit m =>
    obtain rfl : m = n := Option.some.inj hs
    simp only [act, hf] at hg ⊢
    rw [eq_of_setForm hf hg]
    exact hi.submit hd hw.host

theorem storedBy_of_ne {a : Action} (ha : a.subject ≠ some n) :
    w.storedBy n stored (.act a) = stored := by
  cases a with
  | edit m a => exact if_neg fun he => ha (by rw [he]; rfl)
  | _ => rfl

theorem KeepsFresh.step (hk : KeepsFresh n d w stored) {s : Step} (hd : s.Distinct)
    (hs : s.Ordinary n) : KeepsFresh n d (w.step s) (w.storedBy n stored s) := by
  have ha := w.step_advances s
  have hd' := hk.distinct.step hd
  cases s with
  | setFailReads | setCanWait => exact ⟨hk.there, hd', fun f hf => (hk.fresh f hf).advances ha⟩
  | act a =>
    refine ⟨Nat.lt_of_lt_of_le hk.there (w.length_act a), hd', fun g hg => ?_⟩
    by_cases hsub : a.subject = some n
    · cases hf : w.form? n with
      | none =>
        rw [World.step, act_of_form?_eq_none hsub hf, hf] at hg
        contradiction
      | some f => exact fresh_act hsub hs hf hk.distinct (hk.fresh f hf) g hg
    · rw [World.step, form?_act_of_ne hsub hk.there] at hg
      rw [storedBy_of_ne hsub]
      exact (hk.fresh g hg).advances ha

theorem KeepsFresh.steps (hk : KeepsFresh n d w stored) {ss : List Step}
    (hd : ∀ s ∈ ss, s.Distinct) (hs : ∀ s ∈ ss, s.Ordinary n) :
    KeepsFresh n d (w.steps ss) (w.storedIn n stored ss) := by
  induction ss generalizing w stored with
  | nil => exact hk
  | cons s ss ih =>
    exact ih (hk.step (hd s List.mem_cons_self) (hs s List.mem_cons_self))
      (fun t ht => hd t (List.mem_cons_of_mem s ht)) fun t ht => hs t (List.mem_cons_of_mem s ht)

theorem mount_keepsFresh (hw : w.Distinct) {c : Configuration} (hc : c.Distinct) :
    KeepsFresh w.forms.length (Mounted.mount c w.host w.roster).1.schema (w.act (.mount c))
      false := by
  refine ⟨by simp [World.act], hw.step (s := .act (.mount c)) hc, fun g hg => ?_⟩
  rw [← Option.some.inj ((form?_mount_self w c).symm.trans hg)]
  exact mount_fresh c w.host w.roster

/-- In any run a form is mounted, and anything is done after that but to hand records to its editor
or to say what new ones start from; nothing that is given to the run has a key twice. Then, each
time that the form has caught up, new records start from the schema that it was mounted with as
that is known, and from the empty record where its key is absent or holds no object: when it is
asked to, when its editor does something, when it is viewed, and when it submits, also after a
submit that succeeds. If the new record was not stored since then, or was cleared since it was, it
is what new records start from. -/
theorem steps_start_from_schema (before ss : List Step) (c : Configuration) (w w' : World)
    (f : Mounted) (stored : Bool) (hw : w = ({} : World).steps before)
    (hd : ∀ s ∈ before ++ .act (.mount c) :: ss, s.Distinct)
    (hs : ∀ s ∈ ss, s.Ordinary w.forms.length) (hw' : w' = (w.act (.mount c)).steps ss)
    (hstored : stored = (w.act (.mount c)).storedIn w.forms.length false ss)
    (hf : w'.form? w.forms.length = some f) :
    f.schema = (Mounted.mount c w.host w.roster).1.schema ∧
      Starts (f.sync w'.host).2 w'.host stored ∧
      (∀ a, a.Ordinary → a.Distinct →
        Starts { (f.sync w'.host).2 with editor := (f.sync w'.host).2.editor.act a } w'.host
          ((f.sync w'.host).2.editor.stores stored a)) ∧
      Starts (f.view w'.host).2 w'.host stored ∧
      (∀ fault, (f.submit w'.host).1 = .error fault →
        Starts (f.submit w'.host).2.1 w'.host stored) ∧
      ((f.submit w'.host).1 = .ok () →
        Starts (f.submit w'.host).2.1 (f.submit w'.host).2.2 stored) := by
  have hbefore : w.Distinct := hw ▸ distinct_empty.steps fun s hm => hd s (List.mem_append_left _ hm)
  have hk : KeepsFresh w.forms.length (Mounted.mount c w.host w.roster).1.schema w' stored := by
    rw [hw', hstored]
    refine (mount_keepsFresh hbefore ?_).steps (fun s hm => ?_) hs
    · exact hd (.act (.mount c)) (List.mem_append_right _ List.mem_cons_self)
    · exact hd s (List.mem_append_right _ (List.mem_cons_of_mem _ hm))
  have hfresh := hk.fresh f hf
  have hfd := hk.distinct.forms f (mem_of_form? hf)
  obtain ⟨hsync, hrev⟩ := hfresh.sync hfd
  have hsd := hfd.sync hk.distinct.host
  have hstarts := hsync.starts hrev hsd
  refine ⟨hfresh.schema, hstarts, fun a ha had => ?_, hstarts, fun fault he => ?_, fun he => ?_⟩
  · exact (hsync.edit ha).starts hrev (hsd.edit had)
  · obtain ⟨h', -, ⟨fault', hsub⟩ | hsub⟩ := f.submit_cases w'.host
    · rw [hsub]
      exact hstarts
    · rw [hsub] at he
      contradiction
  · obtain ⟨h', ha, ⟨fault', hsub⟩ | hsub⟩ := f.submit_cases w'.host
    · rw [hsub] at he
      contradiction
    · have hh' := (hfd.submit hk.distinct.host).2
      rw [hsub] at hh' ⊢
      obtain ⟨hagain, hrev'⟩ := (hsync.advances ha).sync hsd
      exact hagain.starts hrev' (hsd.sync hh')

/-- A note with a list and the schema of its records, and a form of both. -/
def ownSchema : List Step :=
  [.act (.host (.insert "n.md" "---\nschema:\n  default:\n    x: 1\ndata:\n- x: 0\n---\n"))]

def ownSchemaForm : Configuration := ⟨⟨"n.md", "data"⟩, .file ⟨"n.md", "schema"⟩, none⟩

/-- A new record is stored, cleared and submitted, which writes to the note. Then the schema is no
object for a while, and another one when the note is moved away. -/
def reshaped : List Step :=
  [.act (.edit 0 (.setCreating true)), .act (.edit 0 (.setForm [("x", .int 5)])),
    .act (.edit 0 .clear), .act (.submit 0),
    .act (.host (.insert "n.md" "---\nschema: 3\n---\n")), .act (.sync 0),
    .act (.host (.insert "n.md" "---\nschema:\n  default:\n    x: 2\n---\n")),
    .act (.host (.rename "n.md" "old.md"))]

/-- The form has seen that there was no schema, but has not caught up with the last one. -/
theorem steps_start_from_schema_reshaped : ∃ w' f,
    w' = ((({} : World).steps ownSchema).act (.mount ownSchemaForm)).steps reshaped ∧
    w'.form? 0 = some f ∧ f.editor.initial = [] ∧ f.editor.drafts.created = [] ∧
    (f.sync w'.host).2.editor.initial.same [("x", .int 2)] = true ∧
    (f.sync w'.host).2.editor.drafts.created = (f.sync w'.host).2.editor.initial := by
  obtain ⟨w', hw'⟩ : ∃ w',
    w' = ((({} : World).steps ownSchema).act (.mount ownSchemaForm)).steps reshaped := ⟨_, rfl⟩
  have hlen : (({} : World).steps ownSchema).forms.length = 0 := by decide +kernel
  have hform : ∀ f ∈ w'.form? 0, f.editor.initial = [] ∧ f.editor.drafts.created = [] ∧
      initialRecord ((f.sync w'.host).2.schema.resolved? w'.host) = [("x", .int 2)] := by
    rw [hw']
    decide +kernel
  have hstored : ((({} : World).steps ownSchema).act (.mount ownSchemaForm)).storedIn 0 false
      reshaped = false := by decide +kernel
  obtain ⟨f, hf⟩ : ∃ f, w'.form? 0 = some f := Option.isSome_iff_exists.mp (by
    rw [hw']
    decide +kernel)
  obtain ⟨hinitial, hcreated, hresolved⟩ := hform f hf
  have hx : Object.Distinct [("x", .int 5)] :=
    .obj (by decide) fun e he => by
      rw [List.mem_singleton.mp he]
      exact .scalar rfl
  obtain ⟨-, hstarts, -⟩ := steps_start_from_schema ownSchema reshaped ownSchemaForm _ w' f false rfl
    (by simp [ownSchema, reshaped, ownSchemaForm, Step.Distinct, Host.Action.Distinct,
      Editor.Action.Distinct, Configuration.Distinct, hx])
    (by simp [reshaped, Step.Ordinary, Editor.Action.Ordinary]) hw' (by rw [hlen, hstored])
    (by rw [hlen]; exact hf)
  refine ⟨w', f, hw', hf, hinitial, hcreated, ?_, hstarts.created rfl⟩
  rw [← hresolved]
  exact hstarts.initial

end World

end Form

end NoteForms
