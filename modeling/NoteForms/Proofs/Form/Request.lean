import NoteForms.Form.Mounted
import NoteForms.Proofs.Json.Entries
import NoteForms.Proofs.Track.Delivery

/-! Requests of trackers. The roster hands out the tracker that is entered under a path if
someone still holds it, and enters a new one if not. To release a path is to stop its trackers
and to forget them. A form is mounted by requests in turn, and holds just what it was handed. -/

namespace NoteForms

open Records Setup

/-! ### Flavours -/

inductive Flavour where
  | note
  | text
  deriving DecidableEq, Repr

namespace TrackerId

def flavour : TrackerId → Flavour
  | .note _ => .note
  | .text _ => .text

end TrackerId

/-- Opens a tracker of a flavour. -/
def Host.openAs (h : Host) : Flavour → String → TrackerId × Host
  | .note, path => (.note (h.openNote path).1, (h.openNote path).2)
  | .text, path => (.text (h.openText path).1, (h.openText path).2)

/-- A tracker that is opened was not there before. -/
theorem Host.openAs_new (h : Host) (k : Flavour) (path : String) :
    ¬ h.Knows (h.openAs k path).1 ∧ (h.openAs k path).1.flavour = k := by
  cases k with
  | note => exact ⟨Nat.lt_irrefl h.notes.length, rfl⟩
  | text => exact ⟨Nat.lt_irrefl h.texts.length, rfl⟩

namespace Roster

/-- The tracker of a flavour that is entered under a path. -/
def entered? (r : Roster) : Flavour → String → Option TrackerId
  | .note, path => (r.notes.lookup path).map .note
  | .text, path => (r.texts.lookup path).map .text

def enter (r : Roster) (path : String) : TrackerId → Roster
  | .note n => { r with notes := r.notes.put path n }
  | .text n => { r with texts := r.texts.put path n }

def forget (r : Roster) (path : String) : Roster := ⟨r.notes.remove path, r.texts.remove path⟩

/-- The tracker that is asked for, if someone holds it. -/
def held? (r : Roster) (h : Host) (k : Flavour) (path : String) : Option TrackerId :=
  (r.entered? k path).filter h.isLive

/-- A tracker of a flavour is asked for. -/
def request (r : Roster) (h : Host) : Flavour → String → TrackerId × Host × Roster
  | .note, path => (.note (r.note h path).1, (r.note h path).2)
  | .text, path => (.text (r.text h path).1, (r.text h path).2)

variable {r : Roster} {h : Host} {k : Flavour} {path : String} {id : TrackerId}

theorem map_live? (r : Roster) (h : Host) (path : String) :
    (live? h .note r.notes path).map .note = r.held? h .note path ∧
      (live? h .text r.texts path).map .text = r.held? h .text path := by
  constructor
  · rw [held?, entered?, Option.filter_map]
    rfl
  · rw [held?, entered?, Option.filter_map]
    rfl

/-- What is handed out is shared with its holders, or opened and entered. -/
theorem request_eq (r : Roster) (h : Host) (k : Flavour) (path : String) :
    r.request h k path = match r.held? h k path with
      | some id => (id, h.share id, r)
      | none => ((h.openAs k path).1, (h.openAs k path).2, r.enter path (h.openAs k path).1) := by
  obtain ⟨hn, ht⟩ := map_live? r h path
  cases k with
  | note =>
    rw [← hn, request, note]
    cases live? h .note r.notes path <;> rfl
  | text =>
    rw [← ht, request, text]
    cases live? h .text r.texts path <;> rfl

theorem entered?_flavour (he : r.entered? k path = some id) : id.flavour = k := by
  cases k <;> obtain ⟨n, -, rfl⟩ := Option.map_eq_some_iff.mp he <;> rfl

theorem entered?_enter (r : Roster) (path : String) (id : TrackerId) (k : Flavour) (p : String) :
    (r.enter path id).entered? k p =
      if k = id.flavour ∧ p = path then some id else r.entered? k p := by
  cases id <;> cases k <;> simp only [enter, entered?, TrackerId.flavour, Entries.lookup_put] <;>
    by_cases hp : p = path <;> simp [hp]

theorem entered?_forget_of_ne {p : String} (hp : p ≠ path) (r : Roster) (k : Flavour) :
    (r.forget path).entered? k p = r.entered? k p := by
  cases k <;> simp only [forget, entered?, Entries.lookup_remove_of_ne hp]

/-- No path is entered twice. -/
structure Distinct (r : Roster) : Prop where
  notes : (Entries.keys r.notes).Nodup
  texts : (Entries.keys r.texts).Nodup

theorem Distinct.enter (hr : r.Distinct) (path : String) (id : TrackerId) :
    (r.enter path id).Distinct := by
  cases id with
  | note n => exact ⟨Entries.put_nodup hr.notes path n, hr.texts⟩
  | text n => exact ⟨hr.notes, Entries.put_nodup hr.texts path n⟩

theorem Distinct.forget (hr : r.Distinct) (path : String) : (r.forget path).Distinct :=
  ⟨Entries.remove_nodup hr.notes path, Entries.remove_nodup hr.texts path⟩

theorem Distinct.entered?_forget (hr : r.Distinct) (k : Flavour) (path : String) :
    (r.forget path).entered? k path = none := by
  cases k with
  | note => rw [entered?, Roster.forget, Entries.lookup_remove_self hr.notes, Option.map_none]
  | text => rw [entered?, Roster.forget, Entries.lookup_remove_self hr.texts, Option.map_none]

/-- The trackers of a path that someone holds. -/
def releasing (r : Roster) (h : Host) (path : String) : List TrackerId :=
  (r.held? h .note path).toList ++ (r.held? h .text path).toList

theorem mem_releasing : id ∈ r.releasing h path ↔ r.held? h id.flavour path = some id := by
  have hk : ∀ k, r.held? h k path = some id → id.flavour = k := fun k he =>
    entered?_flavour (Option.filter_eq_some_iff.mp he).1
  simp only [releasing, List.mem_append, Option.mem_toList]
  constructor
  · rintro (he | he) <;> rw [hk _ he] <;> exact he
  · intro he
    cases id with
    | note n => exact .inl he
    | text n => exact .inr he

/-- To release a path is to stop its trackers and to forget them. -/
theorem release_eq (r : Roster) (h : Host) (path : String) :
    (r.release h path).2 = ((r.releasing h path).foldl Host.unlisten h, r.forget path) := by
  obtain ⟨hn, ht⟩ := map_live? r h path
  rw [releasing, ← hn, ← ht]
  simp only [release]
  cases live? h .note r.notes path <;> cases live? h .text r.texts path <;> rfl

end Roster

/-! ### Requests in turn -/

/-- Trackers are asked of a roster one after the other; the last one is first in the list. -/
inductive Enrols (h : Host) (r : Roster) : List (String × TrackerId) → Host → Roster → Prop where
  | none : Enrols h r [] h r
  | request {es : List (String × TrackerId)} {h' : Host} {r' : Roster} (hs : Enrols h r es h' r')
      (k : Flavour) (path : String) :
    Enrols h r ((path, (r'.request h' k path).1) :: es) (r'.request h' k path).2.1
      (r'.request h' k path).2.2

variable {h h' h'' : Host} {r r' r'' : Roster} {es es' : List (String × TrackerId)}

theorem Enrols.single (h : Host) (r : Roster) (k : Flavour) (path : String) :
    Enrols h r [(path, (r.request h k path).1)] (r.request h k path).2.1
      (r.request h k path).2.2 := .request .none k path

theorem Enrols.trans (h₁ : Enrols h r es h' r') (h₂ : Enrols h' r' es' h'' r'') :
    Enrols h r (es' ++ es) h'' r'' := by
  induction h₂ with
  | none => exact h₁
  | request _ k path ih => exact .request ih k path

/-- A request shares a tracker or opens one, and does nothing else to the host. -/
theorem Enrols.preserves {P : Host → Prop} (he : Enrols h r es h' r') (hp : P h)
    (hshare : ∀ h id, P h → P (h.share id)) (hopen : ∀ h k path, P h → P (h.openAs k path).2) :
    P h' := by
  induction he with
  | none => exact hp
  | @request es h' r' _ k path ih =>
    rw [Roster.request_eq]
    cases r'.held? h' k path with
    | some id => exact hshare h' id ih
    | none => exact hopen h' k path ih

/-! ### Forms -/

namespace Records

/-- What was asked for when a document was opened. -/
def Document.requests : Document → List (String × TrackerId)
  | .inline _ => []
  | .file f n => [(f.path, .note n)]

theorem openFile_enrols (f : FileKey) (h : Host) (r : Roster) :
    Enrols h r [((Store.openFile f h r).1.file.path, (Store.openFile f h r).1.tracker)]
      (Store.openFile f h r).2.1 (Store.openFile f h r).2.2 := by
  unfold Store.openFile
  split
  · exact .single h r .text f.path
  · exact .single h r .note f.path

theorem openFile_flavour (f : FileKey) (h : Host) (r : Roster) :
    ((Store.openFile f h r).1.file.isJson = true ↔
      ∃ n, (Store.openFile f h r).1.tracker = .text n) ∧ (Store.openFile f h r).1.file = f := by
  unfold Store.openFile
  split
  · next hj => simp [hj]
  · next hj => simp [hj]

theorem openSource_enrols (s : Source) (h : Host) (r : Roster) :
    Enrols h r (Document.openSource s h r).1.requests (Document.openSource s h r).2.1
      (Document.openSource s h r).2.2 := by
  cases s with
  | inline document => exact .none
  | file f => exact .single h r .note f.path

end Records

namespace Form.Mounted

/-- What was asked for when a form was mounted. -/
def requests (f : Mounted) : List (String × TrackerId) :=
  f.uiSchema.elim [] Document.requests ++ f.schema.requests ++
    [(f.store.file.path, f.store.tracker)]

theorem mem_requests (f : Mounted) : (f.store.file.path, f.store.tracker) ∈ f.requests :=
  List.mem_append_right _ List.mem_cons_self

/-- The trackers that a form holds. -/
def holds (f : Mounted) : List TrackerId := f.requests.map Prod.snd

theorem openOption_enrols (s : Option Source) (h : Host) (r : Roster) :
    Enrols h r ((openOption s h r).1.elim [] Document.requests) (openOption s h r).2.1
      (openOption s h r).2.2 := by
  cases s with
  | none => exact .none
  | some s => exact openSource_enrols s h r

theorem mount_enrols (c : Configuration) (h : Host) (r : Roster) :
    Enrols h r (mount c h r).1.requests (mount c h r).2.1 (mount c h r).2.2 := by
  have hstore := openFile_enrols c.records h r
  have hschema := openSource_enrols c.schema (Store.openFile c.records h r).2.1
    (Store.openFile c.records h r).2.2
  rw [requests, List.append_assoc]
  exact (hstore.trans hschema).trans (openOption_enrols c.uiSchema _ _)

/-- The store is of the file that is configured, and of its flavour. -/
theorem mount_store (c : Configuration) (h : Host) (r : Roster) :
    ((mount c h r).1.store.file.isJson = true ↔ ∃ n, (mount c h r).1.store.tracker = .text n) ∧
      (mount c h r).1.store.file = c.records := openFile_flavour c.records h r

theorem close_eq (d : Document) (h : Host) :
    d.close h = (d.requests.map Prod.snd).foldr (fun id h => h.drop id) h := by
  cases d <;> rfl

/-- A form lets go of what it holds, and of each once. -/
theorem unmount_eq (f : Mounted) (h : Host) :
    f.unmount h = f.holds.foldr (fun id h => h.drop id) h := by
  simp only [holds, requests, List.map_append, List.foldr_append, unmount]
  rw [← close_eq]
  cases f.uiSchema with
  | none => rfl
  | some d => exact close_eq d _

end Form.Mounted

end NoteForms
