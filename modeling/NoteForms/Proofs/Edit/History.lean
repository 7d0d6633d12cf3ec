import NoteForms.Proofs.Edit.Copies
import NoteForms.Proofs.Json.Sameness

/-! Working copies as their history has them. Of a run only some entries count for them: that new
records were brought, that what is on screen was stored or cleared, and that new records start from
something else. What an entry is about is known from the editor at that time, so it does not matter
how the selection came about, by pages, steps, bounds or modes. Of the entries, the latest first,
one reads off each working copy, the new record and what it starts from. -/

namespace NoteForms.Edit

/-- Where the record on screen is kept: as the new record, or as the working copy of a number. -/
inductive Slot where
  | created
  | copy (i : Nat)
  deriving DecidableEq

namespace Drafts

theorem lookup_insert_self (i : Nat) (r : Record) (cs : List (Nat × Record)) :
    (insert i r cs).lookup i = some r := by
  induction cs with
  | nil => simp [insert]
  | cons c cs ih =>
    obtain ⟨j, s⟩ := c
    rw [insert]
    split
    · simp
    · split
      · simp
      · next hne => rw [List.lookup_cons, beq_eq_false_iff_ne.mpr hne, ih]

theorem get?_set (d : Drafts) (i j : Nat) (r : Record) :
    (d.set j r).get? i = if i = j then some r else d.get? i := by
  split
  · next he => rw [he]; exact lookup_insert_self j r d.copies
  · next hne => exact lookup_insert_of_ne hne r d.copies

def put (d : Drafts) (r : Record) : Slot → Drafts
  | .created => d.setCreated r
  | .copy i => d.set i r

end Drafts

namespace Editor

variable {e : Editor} {initial : Record}

/-! ### Entries -/

/-- The slot of the record on screen. -/
def slot? (e : Editor) : Option Slot :=
  if e.creating then some .created else e.pager.value.map fun i => .copy i.toNat

theorem setForm_eq (e : Editor) (r : Record) : e.setForm r =
    match e.slot? with
    | some s => (true, { e with drafts := e.drafts.put r s })
    | none => (false, e) := by
  unfold setForm slot?
  cases e.creating with
  | true => rfl
  | false => cases e.pager.value <;> rfl

theorem setForm_initial (e : Editor) (r : Record) : (e.setForm r).2.initial = e.initial := by
  rw [setForm_eq]
  cases e.slot? <;> rfl

inductive Entry where
  /-- Records that are new were brought. -/
  | brought (records : List Record)
  | stored (s : Slot) (r : Record)
  /-- The slot was put back to what new records started from at the time. -/
  | cleared (s : Slot)
  /-- New records start from something else now. -/
  | replaced (r : Record)
  deriving DecidableEq

/-- The entry that an action makes, if any. None is made by those that only move around, by a sync
that brings nothing new, by an edit with nothing on screen, and if what new records start from is
given again. -/
def noted? (e : Editor) : Action → Option Entry
  | .setForm r => e.slot?.map (.stored · r)
  | .clear => e.slot?.map .cleared
  | .setInitial r => if e.initial.same r then none else some (.replaced r)
  | .sync revision records =>
    if (e.sync revision records).1 then some (.brought records) else none
  | .setCreating _ | .toggle | .goToPage _ | .move _ => none

/-- The entries of a run on top of those before, the latest first. -/
def history (e : Editor) (es : List Entry) : List Action → List Entry
  | [] => es
  | a :: as => (e.act a).history ((e.noted? a).toList ++ es) as

/-! ### What the entries say -/

/-- What new records start from: the latest one given. -/
def initialIn (initial : Record) : List Entry → Record
  | [] => initial
  | .replaced r :: _ => r
  | _ :: es => initialIn initial es

/-- The working copy of a number: as last stored or cleared since records were brought, else the
record that was brought. -/
def copyIn (initial : Record) (i : Nat) : List Entry → Option Record
  | [] => none
  | .brought records :: _ => records[i]?
  | .stored (.copy j) r :: es => if i = j then some r else copyIn initial i es
  | .cleared (.copy j) :: es => if i = j then some (initialIn initial es) else copyIn initial i es
  | _ :: es => copyIn initial i es

/-- The new record: as last stored or cleared. It goes along with what new records start from if it
is that. -/
def createdIn (initial : Record) : List Entry → Record
  | [] => initial
  | .stored .created r :: _ => r
  | .cleared .created :: es => initialIn initial es
  | .replaced r :: es =>
    if (createdIn initial es).same (initialIn initial es) then r else createdIn initial es
  | _ :: es => createdIn initial es

/-- The editor is as the entries say. -/
structure Follows (initial : Record) (es : List Entry) (e : Editor) : Prop where
  copies : ∀ i, e.drafts.get? i = copyIn initial i es
  created : e.drafts.created = createdIn initial es
  initial : e.initial = initialIn initial es

section Follows

variable {es : List Entry} (h : e.Follows initial es)

include h

theorem Follows.put (r : Record) (s : Slot) :
    ({ e with drafts := e.drafts.put r s } : Editor).Follows initial (.stored s r :: es) := by
  cases s with
  | created => exact ⟨h.copies, rfl, h.initial⟩
  | copy j =>
    refine ⟨fun i => ?_, h.created, h.initial⟩
    rw [copyIn, ← h.copies i]
    exact e.drafts.get?_set i j r

/-- What is cleared is stored as new records start. -/
theorem Follows.cleared (s : Slot) :
    ({ e with drafts := e.drafts.put e.initial s } : Editor).Follows initial (.cleared s :: es) := by
  have hp := h.put e.initial s
  rw [h.initial] at hp ⊢
  cases s <;> exact ⟨hp.copies, hp.created, hp.initial⟩

/-- The new record goes along or stays. -/
theorem Follows.setInitial (r : Record) :
    (e.setInitial r).Follows initial ((e.noted? (.setInitial r)).toList ++ es) := by
  unfold Editor.setInitial
  rw [noted?]
  by_cases hr : e.initial.same r = true
  · rw [if_pos hr, if_pos hr]
    exact h
  · rw [if_neg hr, if_neg hr]
    have hcreated : createdIn initial (.replaced r :: es) =
        if e.drafts.created.same e.initial then r else e.drafts.created := by
      rw [createdIn, ← h.created, ← h.initial]
    by_cases hc : e.drafts.created.same e.initial = true
    · rw [if_pos hc] at hcreated ⊢
      exact ⟨h.copies, hcreated.symm, rfl⟩
    · rw [if_neg hc] at hcreated ⊢
      exact ⟨h.copies, hcreated.symm, rfl⟩

/-- The copies start over from the records that are brought. -/
theorem Follows.sync (revision : Nat) (records : List Record) :
    (e.sync revision records).2.Follows initial
      ((e.noted? (.sync revision records)).toList ++ es) := by
  rw [noted?]
  by_cases hr : e.drafts.revision = some revision
  · rw [sync_eq_of_eq hr]
    exact h
  · rw [sync_eq_of_ne hr]
    have hcopies (i : Nat) : (Drafts.numbered 0 records).lookup i = records[i]? := by
      simpa using Drafts.lookup_numbered 0 records i
    exact ⟨hcopies, h.created, h.initial⟩

theorem Follows.act (a : Action) : (e.act a).Follows initial ((e.noted? a).toList ++ es) := by
  cases a with
  | setCreating | toggle | move => exact ⟨h.copies, h.created, h.initial⟩
  | goToPage page =>
    simp only [Editor.act, Editor.goToPage]
    split <;> exact ⟨h.copies, h.created, h.initial⟩
  | setForm r =>
    rw [Editor.act, noted?, setForm_eq]
    cases e.slot? with
    | none => exact h
    | some s => exact h.put r s
  | clear =>
    rw [Editor.act, Editor.clear, noted?, setForm_eq]
    cases e.slot? with
    | none => exact h
    | some s => exact h.cleared s
  | setInitial r => exact h.setInitial r
  | sync revision records => exact h.sync revision records

theorem Follows.run (as : List Action) : (e.run as).Follows initial (e.history es as) := by
  induction as generalizing e es with
  | nil => exact h
  | cons a as ih => exact ih (h.act a)

end Follows

/-- An editor that is started has been brought its records. -/
theorem start_follows (initial : Record) (revision : Nat) (records : List Record) :
    (start initial revision records).Follows initial [.brought records] :=
  ⟨fun i => (start_shows initial revision records).unedited i List.not_mem_nil, rfl, rfl⟩

/-! ### What new records start from -/

/-- What new records were last said to start from. -/
def lastGiven (r : Record) : Action → Record
  | .setInitial r' => r'
  | _ => r

/-- It is not taken over where it cannot be told from the one before. -/
theorem setInitial_initial (e : Editor) (r : Record) : (e.setInitial r).initial.Same r := by
  unfold setInitial
  split
  · next hr => exact .inr hr
  · exact .rfl

theorem initial_act {r : Record} (h : e.initial.Same r) (a : Action) :
    (e.act a).initial.Same (lastGiven r a) := by
  cases a with
  | setCreating | toggle | move => exact h
  | goToPage page =>
    simp only [act, goToPage]
    split <;> exact h
  | setForm r' => rwa [act, setForm_initial]
  | clear => rwa [act, clear, setForm_initial]
  | setInitial r' => exact e.setInitial_initial r'
  | sync revision records =>
    rw [act, (e.sync_created revision records).2]
    exact h

theorem initial_run {r : Record} (h : e.initial.Same r) (as : List Action) :
    (e.run as).initial.Same (as.foldl lastGiven r) := by
  induction as generalizing e r with
  | nil => exact h
  | cons a as ih => exact ih (initial_act h a)

/-- A new record that is what it started from is what it starts from then. -/
theorem setInitial_created_same (hc : e.drafts.created.same e.initial = true) (r : Record) :
    (e.setInitial r).drafts.created.Same r := by
  unfold setInitial
  by_cases hr : e.initial.same r = true
  · rw [if_pos hr]
    exact .inr (Object.same_trans hc hr)
  · rw [if_neg hr, if_pos hc]
    exact .rfl

/-- An editor is started and used in any way. Each working copy is what its history says: what was
last stored, or what new records started from when it was last cleared, while its number was
selected and no new record was being made, and since new records were brought; else the record that
was brought. The new record is what was last stored or cleared while one was being made. If it
cannot be told from what new records start from, it becomes what they start from next, else it
stays. Pages, steps, modes and a sync that brings nothing new change no record, and no sync changes
the new one. -/
theorem run_follows_history (initial : Record) (revision : Nat) (records : List Record)
    (as : List Action) (e : Editor) (es : List Entry)
    (he : e = (start initial revision records).run as)
    (hes : es = (start initial revision records).history [.brought records] as) :
    (∀ i, e.drafts.get? i = copyIn initial i es) ∧ e.drafts.created = createdIn initial es ∧
      e.initial = initialIn initial es ∧ e.initial.Same (as.foldl lastGiven initial) ∧
      (∀ r, e.drafts.created.same e.initial = true → (e.setInitial r).drafts.created.Same r) ∧
      (∀ r, e.drafts.created.same e.initial = false →
        (e.setInitial r).drafts.created = e.drafts.created) ∧
      (∀ page, (e.goToPage page).drafts = e.drafts) ∧ (∀ n, (e.move n).drafts = e.drafts) ∧
      (∀ creating, (e.setCreating creating).drafts = e.drafts) ∧
      (∀ n rs, (e.sync n rs).1 = false → (e.sync n rs).2 = e) ∧
      ∀ n rs, (e.sync n rs).2.drafts.created = e.drafts.created := by
  have h : e.Follows initial es := by
    rw [he, hes]
    exact (start_follows initial revision records).run as
  have hlast : e.initial.Same (as.foldl lastGiven initial) :=
    he ▸ initial_run (e := start initial revision records) .rfl as
  refine ⟨h.copies, h.created, h.initial, hlast, fun r hc => setInitial_created_same hc r,
    fun r hc => ?_, fun page => ?_, fun _ => rfl, fun _ => rfl, fun n rs hf => ?_,
    fun n rs => (e.sync_created n rs).1⟩
  · rcases e.setInitial_created r with hr | ⟨hr, -⟩
    · exact hr
    · rw [hc] at hr
      contradiction
  · unfold goToPage
    split <;> rfl
  · by_cases hr : e.drafts.revision = some n
    · rw [sync_eq_of_eq hr]
    · rw [sync_eq_of_ne hr] at hf
      contradiction

/-- Of two records the last is selected; the steps lead to the first, the page to the last again.
What new records start from is given once as it is, in another order, and once anew, when the new
record was just cleared. -/
def roaming : List Action :=
  [.move (-5), .setForm [("x", .int 7)], .goToPage 9, .toggle, .setForm [("y", .int 1)],
    .setInitial [("x", .int 0), ("y", .null)], .clear, .setInitial [("y", .int 1)], .toggle,
    .clear, .sync 1 [[]]]

/-- The stored copy and the cleared one are where they were selected, and the new record went along
with what it starts from. -/
theorem run_follows_history_roaming : ∃ e es,
    e = (start [("y", .null), ("x", .int 0)] 1 [[("x", .int 1)], [("x", .int 2)]]).run roaming ∧
    es = (start [("y", .null), ("x", .int 0)] 1 [[("x", .int 1)], [("x", .int 2)]]).history
      [.brought [[("x", .int 1)], [("x", .int 2)]]] roaming ∧
    es = [.cleared (.copy 1), .replaced [("y", .int 1)], .cleared .created,
      .stored .created [("y", .int 1)], .stored (.copy 0) [("x", .int 7)],
      .brought [[("x", .int 1)], [("x", .int 2)]]] ∧
    e.drafts.get? 0 = some [("x", .int 7)] ∧ e.drafts.get? 1 = some [("y", .int 1)] ∧
    e.drafts.get? 2 = none ∧ e.drafts.created = [("y", .int 1)] := by
  obtain ⟨e, he⟩ : ∃ e, e = (start [("y", .null), ("x", .int 0)] 1
    [[("x", .int 1)], [("x", .int 2)]]).run roaming := ⟨_, rfl⟩
  obtain ⟨es, hes⟩ : ∃ es, es = (start [("y", .null), ("x", .int 0)] 1
    [[("x", .int 1)], [("x", .int 2)]]).history
      [.brought [[("x", .int 1)], [("x", .int 2)]]] roaming := ⟨_, rfl⟩
  have hlist : es = [.cleared (.copy 1), .replaced [("y", .int 1)], .cleared .created,
      .stored .created [("y", .int 1)], .stored (.copy 0) [("x", .int 7)],
      .brought [[("x", .int 1)], [("x", .int 2)]]] := by
    rw [hes]
    decide +kernel
  obtain ⟨hcopies, hcreated, -⟩ := run_follows_history _ 1 _ roaming e es he hes
  refine ⟨e, es, he, hes, hlist, ?_, ?_, ?_, ?_⟩
  · rw [hcopies, hlist]
    rfl
  · rw [hcopies, hlist]
    rfl
  · rw [hcopies, hlist]
    rfl
  · rw [hcreated, hlist]
    decide +kernel

end Editor

end NoteForms.Edit
