import Mathlib.Data.List.Nodup
import NoteForms.Proofs.Decode.Properties

/-! Parts of a container that are decoded side by side: the items of a list, the fields
that are laid over defaults, the properties of a record. Each part has an outcome of its
own. The container decodes if all of them do, and otherwise reports what is wrong with each,
in order, as seen through the step to it. So what is reported of one part never depends on
another. -/

namespace NoteForms.Decode

/-! ### Outcomes -/

section Outcomes

variable {α β : Type}

theorem mapError_eq_ok {ε ε' α : Type} {f : ε → ε'} {r : Except ε α} {x : α} :
    r.mapError f = .ok x ↔ r = .ok x := by
  cases r with
  | ok y => exact ⟨fun h => congrArg Except.ok (Except.ok.inj h), fun h => congrArg Except.ok (Except.ok.inj h)⟩
  | error e => exact ⟨nofun, nofun⟩

theorem mapError_eq_error {ε ε' α : Type} {f : ε → ε'} {r : Except ε α} {e : ε'} :
    r.mapError f = .error e ↔ ∃ e₀, r = .error e₀ ∧ f e₀ = e := by
  cases r <;> simp [Except.mapError]

theorem map_eq_error {ε : Type} {f : α → β} {r : Except ε α} {e : ε} :
    r.map f = .error e ↔ r = .error e := by
  cases r <;> simp [Except.map]

theorem gather_cons_eq_ok {r : Except Failures α} {rs : List (Except Failures α)} {xs : List α} :
    gather (r :: rs) = .ok xs ↔ ∃ x rest, r = .ok x ∧ gather rs = .ok rest ∧ xs = x :: rest := by
  rw [gather]
  cases r with
  | error es => cases gather rs <;> simp [both, Except.map]
  | ok x =>
    cases gather rs with
    | error es => simp [both, Except.map]
    | ok rest => simp [both, Except.map, eq_comm]

/-- What is wrong, if anything is. -/
def failed? : Except Failures α → Option Failures
  | .ok _ => none
  | .error fs => some fs

/-- All failures of a decoding, none if it succeeds. -/
def failures (r : Except Failures α) : Failures := (failed? r).getD []

theorem failed?_map (f : α → β) (r : Except Failures α) : failed? (r.map f) = failed? r := by
  cases r <;> rfl

theorem failed?_mapError (f : Failures → Failures) (r : Except Failures α) :
    failed? (r.mapError f) = (failed? r).map f := by
  cases r <;> rfl

theorem failed?_eq_some {r : Except Failures α} {fs : Failures} :
    failed? r = some fs ↔ r = .error fs := by
  cases r <;> simp [failed?]

theorem failed?_eq_none {r : Except Failures α} : failed? r = none ↔ ∃ x, r = .ok x := by
  cases r <;> simp [failed?]

end Outcomes

/-! ### Siblings -/

/-- A part of a container: the step to it, and what is wrong with it by itself. -/
structure Sibling where
  step : Segment
  failed : Option Failures
  deriving DecidableEq, Repr

/-- The failures that are not in a part. -/
def Failures.besides (step : Segment) (fs : Failures) : Failures :=
  fs.filter fun f => f.path.head? ≠ some step

/-- The failures that are in a part. -/
def Failures.within (step : Segment) (fs : Failures) : Failures :=
  fs.filter fun f => f.path.head? = some step

namespace Sibling

/-- What is wrong with the part, seen from the container. -/
def seen (s : Sibling) : Failures := (s.failed.getD []).under s.step

/-- What is wrong with any of the parts, in order. -/
def report (ss : List Sibling) : Failures := ss.flatMap seen

theorem mem_report {ss : List Sibling} {f : Failure} (hf : f ∈ report ss) :
    ∃ s ∈ ss, ∃ fs, s.failed = some fs ∧ ∃ g ∈ fs, f = ⟨s.step :: g.path, g.reason⟩ := by
  obtain ⟨s, hs, hf⟩ := List.mem_flatMap.mp hf
  obtain ⟨g, hg, rfl⟩ := List.mem_map.mp hf
  cases hfs : s.failed with
  | none => simp [hfs] at hg
  | some fs => exact ⟨s, hs, fs, hfs, g, by simpa [hfs] using hg, rfl⟩

theorem head?_seen {s : Sibling} {f : Failure} (hf : f ∈ s.seen) : f.path.head? = some s.step := by
  obtain ⟨g, -, rfl⟩ := List.mem_map.mp hf
  rfl

theorem besides_seen (step : Segment) (s : Sibling) :
    s.seen.besides step = if s.step = step then [] else s.seen := by
  split
  · next h => exact List.filter_eq_nil_iff.mpr fun f hf => by simp [head?_seen hf, h]
  · next h => exact List.filter_eq_self.mpr fun f hf => by simp [head?_seen hf, h]

theorem within_seen (step : Segment) (s : Sibling) :
    s.seen.within step = if s.step = step then s.seen else [] := by
  split
  · next h => exact List.filter_eq_self.mpr fun f hf => by simp [head?_seen hf, h]
  · next h => exact List.filter_eq_nil_iff.mpr fun f hf => by simp [head?_seen hf, h]

theorem within_report_of_not_mem {step : Segment} {ss : List Sibling}
    (h : step ∉ ss.map Sibling.step) : (report ss).within step = [] := by
  refine List.filter_eq_nil_iff.mpr fun f hf => ?_
  obtain ⟨s, hs, fs, -, g, -, rfl⟩ := mem_report hf
  have hne : s.step ≠ step := fun he => h (List.mem_map.mpr ⟨s, hs, he⟩)
  simpa using hne

/-- Of parts at distinct steps each is reported with all that is wrong with it, and once. -/
theorem within_report {ss : List Sibling} (hn : (ss.map Sibling.step).Nodup) {s : Sibling}
    (hs : s ∈ ss) : (report ss).within s.step = s.seen := by
  induction ss with
  | nil => contradiction
  | cons s' ss ih =>
    obtain ⟨hs', hss⟩ := List.nodup_cons.mp (List.map_cons ▸ hn)
    have happ : (report (s' :: ss)).within s.step =
        s'.seen.within s.step ++ (report ss).within s.step := List.filter_append _ _
    rw [happ, within_seen]
    rcases List.mem_cons.mp hs with rfl | hs
    · rw [if_pos rfl, within_report_of_not_mem hs', List.append_nil]
    · have hne : s'.step ≠ s.step := fun he => hs' (he ▸ List.mem_map_of_mem hs)
      rw [if_neg hne, List.nil_append, ih hss hs]

/-- Two parts are at the same step, and are the same but for one step. -/
def AlikeBesides (step : Segment) (s s' : Sibling) : Prop :=
  s.step = s'.step ∧ (s.step ≠ step → s = s')

/-- Parts that are alike but for one step are reported alike besides it. -/
theorem besides_report {step : Segment} {ss ss' : List Sibling}
    (h : List.Forall₂ (AlikeBesides step) ss ss') :
    (report ss).besides step = (report ss').besides step := by
  induction h with
  | nil => rfl
  | @cons s s' ss ss' hs _ ih =>
    have hseen : s.seen.besides step = s'.seen.besides step := by
      rw [besides_seen, besides_seen, ← hs.1]
      split
      · rfl
      · next hne => rw [hs.2 hne]
    unfold Failures.besides at hseen ih ⊢
    unfold report at ih ⊢
    rw [List.flatMap_cons, List.flatMap_cons, List.filter_append, List.filter_append, hseen, ih]

end Sibling

/-- The outcome of a container is that of its parts: it decodes if all of them do, and
reports all that is wrong with any of them otherwise. -/
structure Tells {α : Type} (ss : List Sibling) (r : Except Failures α) : Prop where
  ok : (∃ x, r = .ok x) ↔ ∀ s ∈ ss, s.failed = none
  error : ∀ fs, r = .error fs → fs = Sibling.report ss

section Tells

variable {α β : Type} {ss ss' : List Sibling} {r : Except Failures α}

theorem Tells.failures_eq (h : Tells ss r) : failures r = Sibling.report ss := by
  cases hr : r with
  | error fs => exact h.error fs hr
  | ok x =>
    have hnone := h.ok.mp ⟨x, hr⟩
    refine (List.flatMap_eq_nil_iff.mpr fun s hs => ?_).symm
    simp [Sibling.seen, hnone s hs, Failures.under]

/-- It does not matter what is made of the parts. -/
theorem Tells.map (h : Tells ss r) (f : α → β) : Tells ss (r.map f) := by
  cases r with
  | ok x => exact ⟨⟨fun _ => h.ok.mp ⟨x, rfl⟩, fun _ => ⟨f x, rfl⟩⟩, nofun⟩
  | error fs =>
    refine ⟨⟨nofun, fun hs => ?_⟩, fun fs' he => h.error fs' (by rw [← Except.error.inj he])⟩
    obtain ⟨x, hx⟩ := h.ok.mpr hs
    contradiction

theorem tells_nil (x : α) : Tells [] (.ok x) := ⟨by simp, nofun⟩

/-- One more part in front. -/
theorem Tells.both {r : Except Failures α} {r' : Except Failures β} {s : Sibling}
    (hr : failed? r = s.failed.map (.under s.step)) (h : Tells ss r') :
    Tells (s :: ss) (both r r') := by
  have hseen : Sibling.report (s :: ss) = failures r ++ failures r' := by
    rw [h.failures_eq, Sibling.report, List.flatMap_cons, failures, hr, Sibling.seen]
    cases s.failed <;> rfl
  have hown : (∃ x, r = .ok x) ↔ s.failed = none := by
    rw [← failed?_eq_none, hr, Option.map_eq_none_iff]
  refine ⟨?_, fun fs he => ?_⟩
  · rw [List.forall_mem_cons, ← h.ok, ← hown]
    cases r <;> cases r' <;> simp [Decode.both]
  · rw [hseen]
    cases r <;> cases r' <;> simp [Decode.both] at he <;> simp [failures, failed?, he]

end Tells

/-! ### Items of a list -/

section Items

variable {α : Type} (d : Decoder α)

/-- The items of a list, from number `n` on. -/
def itemSiblings (n : Nat) (vs : List Json) : List Sibling :=
  (vs.zipIdx n).map fun (v, i) => ⟨.index i, failed? (d.decode v)⟩

theorem gather_decodeItems_tells (n : Nat) (vs : List Json) :
    Tells (itemSiblings d n vs) (gather (decodeItems d n vs)) := by
  induction vs generalizing n with
  | nil => exact tells_nil []
  | cons v vs ih => exact ((ih (n + 1)).both (failed?_mapError _ _)).map _

/-- Each item of the result is what the item at its place decodes to. -/
theorem gather_decodeItems_eq_ok {n : Nat} {vs : List Json} {xs : List α} :
    gather (decodeItems d n vs) = .ok xs ↔ vs.map d.decode = xs.map .ok := by
  induction vs generalizing n xs with
  | nil => simp [decodeItems, gather, eq_comm]
  | cons v vs ih =>
    rw [decodeItems, gather_cons_eq_ok]
    constructor
    · rintro ⟨x, rest, hx, hrest, rfl⟩
      rw [List.map_cons, List.map_cons, mapError_eq_ok.mp hx, ih.mp hrest]
    · intro h
      cases xs with
      | nil => contradiction
      | cons x xs =>
        obtain ⟨hx, hxs⟩ := List.cons.inj h
        exact ⟨x, xs, mapError_eq_ok.mpr hx, ih.mpr hxs, rfl⟩

theorem nodup_itemSiblings (n : Nat) (vs : List Json) :
    ((itemSiblings d n vs).map Sibling.step).Nodup := by
  have hsteps : (itemSiblings d n vs).map Sibling.step =
      ((vs.zipIdx n).map Prod.snd).map Segment.index := by
    rw [itemSiblings, List.map_map, List.map_map]
    rfl
  rw [hsteps, List.zipIdx_map_snd]
  exact (List.nodup_range' 1).map fun i j h => Segment.index.inj h

/-- Another item at one place leaves all others alike. -/
theorem itemSiblings_set (n k : Nat) (v : Json) (vs : List Json) :
    List.Forall₂ (Sibling.AlikeBesides (.index (n + k))) (itemSiblings d n (vs.set k v))
      (itemSiblings d n vs) := by
  have hsame (s : Sibling) : s.AlikeBesides (.index (n + k)) s := ⟨rfl, fun _ => rfl⟩
  induction vs generalizing n k with
  | nil => exact .nil
  | cons u us ih =>
    cases k with
    | zero => exact .cons ⟨rfl, fun hne => absurd rfl hne⟩ (List.forall₂_same.mpr fun s _ => hsame s)
    | succ k =>
      have hk := ih (n + 1) k
      rw [Nat.add_right_comm, Nat.add_assoc] at hk
      exact .cons (hsame _) (hk hsame)

end Items

/-! ### Fields over defaults -/

section Fields

variable {α : Type} (fields : List (Field α)) (o : Object)

/-- What is wrong with a field by itself. One without a value keeps its default. -/
def Field.own (f : Field α) (v? : Option Json) : Option Failures := v?.bind fun v => failed? (f.apply v)

def fieldSiblings : List Sibling :=
  fields.map fun f => ⟨.key f.key, f.own (present? o f.key)⟩

theorem overlay_failures (target : α) :
    ((overlay o fields target).2 = [] ↔ ∀ s ∈ fieldSiblings fields o, s.failed = none) ∧
      (overlay o fields target).2.flatten = Sibling.report (fieldSiblings fields o) := by
  induction fields generalizing target with
  | nil => simp [overlay, fieldSiblings, Sibling.report]
  | cons f fs ih =>
    simp only [fieldSiblings, List.map_cons, List.forall_mem_cons, Sibling.report,
      List.flatMap_cons] at ih ⊢
    rw [overlay]
    cases hp : present? o f.key with
    | none => simpa [Field.own, Sibling.seen, Failures.under] using ih target
    | some v =>
      cases ha : f.apply v with
      | ok store => simpa [Field.own, failed?, ha, Sibling.seen, Failures.under] using ih (store target)
      | error e => simp [Field.own, failed?, ha, Sibling.seen, (ih target).2]

theorem decode_layered (defaults : α) : (layered defaults fields).decode (.obj o) =
    if (overlay o fields defaults).2 = [] then .ok (overlay o fields defaults).1
    else .error (overlay o fields defaults).2.flatten := by
  have hrecord : Decoder.record.decode (.obj o) = .ok o := rfl
  have hnull : (Json.obj o).isNull = false := rfl
  simp only [layered, hnull, Bool.false_eq_true, if_false, hrecord, bind, Except.bind]
  cases overlay o fields defaults with
  | mk target es => cases es <;> rfl

theorem layered_tells (defaults : α) :
    Tells (fieldSiblings fields o) ((layered defaults fields).decode (.obj o)) := by
  obtain ⟨hnil, hflat⟩ := overlay_failures fields o defaults
  rw [decode_layered]
  by_cases hes : (overlay o fields defaults).2 = []
  · rw [if_pos hes]
    exact ⟨⟨fun _ => hnil.mp hes, fun _ => ⟨_, rfl⟩⟩, nofun⟩
  · rw [if_neg hes]
    refine ⟨⟨nofun, fun hs => absurd (hnil.mpr hs) hes⟩, fun fs he => ?_⟩
    rw [← Except.error.inj he, hflat]

theorem overlay_nil (target : α) : overlay [] fields target = (target, []) := by
  induction fields with
  | nil => rfl
  | cons f fs ih => exact ih

/-- Null has no fields to lay over the defaults. -/
theorem layered_null (defaults : α) :
    (layered defaults fields).decode .null = (layered defaults fields).decode (.obj []) := by
  rw [decode_layered, overlay_nil]
  rfl

end Fields

/-! ### Properties of a record -/

/-- What is wrong with a property by itself, if it has a value or if it has none. -/
def Property.own (p : Property) : Option Json → Option Failures
  | none => if p.needed then some (.root .missing) else none
  | some v => failed? (p.decoder.decode v)

section Properties

variable {γ : Type} (o : Object)

def propertySiblings (ps : Properties γ) : List Sibling :=
  ps.toList.map fun p => ⟨.key p.key, p.own (present? o p.key)⟩

theorem failed?_required {β : Type} (key : String) (d : Decoder β) :
    failed? (required o key d) =
      ((⟨key, true, d⟩ : Property).own (present? o key)).map (.under (.key key)) := by
  unfold required
  cases present? o key with
  | none => rfl
  | some v => exact failed?_mapError _ _

theorem failed?_optional {β : Type} (key : String) (d : Decoder β) :
    failed? (optional o key d) =
      ((⟨key, false, d⟩ : Property).own (present? o key)).map (.under (.key key)) := by
  unfold optional
  cases present? o key with
  | none => rfl
  | some v =>
    show failed? (((d.decode v).map some).mapError _) = _
    rw [failed?_mapError, failed?_map]
    rfl

theorem read_tells (ps : Properties γ) : Tells (propertySiblings o ps) (ps.read o) := by
  induction ps with
  | none => exact tells_nil ()
  | required key d rest ih => exact ih.both (failed?_required o key d)
  | optional key d rest ih => exact ih.both (failed?_optional o key d)

end Properties

/-! ### Containers -/

section Containers

variable {α γ : Type}

/-- A container is decoded by its parts, and a change of one part does not matter to what
is reported besides it. -/
structure ByParts {C : Type} (parts : C → List Sibling) (changed : Segment → C → C → Prop)
    (decode : C → Except Failures α) : Prop where
  tells : ∀ c, Tells (parts c) (decode c)
  each : ∀ {c}, ((parts c).map Sibling.step).Nodup → ∀ s ∈ parts c,
    (failures (decode c)).within s.step = s.seen
  apart : ∀ {step c c'}, changed step c c' →
    (failures (decode c')).besides step = (failures (decode c)).besides step

/-- One item is another. -/
def ItemChanged (step : Segment) (vs vs' : List Json) : Prop :=
  ∃ n v, step = .index n ∧ vs' = vs.set n v

/-- One entry has another value, or is there in one of the objects only. -/
def EntryChanged (step : Segment) (o o' : Object) : Prop :=
  ∃ key, step = .key key ∧ ∀ j, j ≠ key → o'.lookup j = o.lookup j

theorem byParts_of {C : Type} {parts : C → List Sibling} {changed : Segment → C → C → Prop}
    {decode : C → Except Failures α} (ht : ∀ c, Tells (parts c) (decode c))
    (ha : ∀ {step c c'}, changed step c c' →
      List.Forall₂ (Sibling.AlikeBesides step) (parts c') (parts c)) :
    ByParts parts changed decode where
  tells := ht
  each hn s hs := by
    rw [(ht _).failures_eq]
    exact Sibling.within_report hn hs
  apart hc := by
    rw [(ht _).failures_eq, (ht _).failures_eq]
    exact Sibling.besides_report (ha hc)

/-- Parts that look at one entry each are alike but for the one that is changed. -/
theorem entries_alike {ι : Type*} (key : ι → String) (own : ι → Option Json → Option Failures)
    (xs : List ι) {step : Segment} {o o' : Object} (hc : EntryChanged step o o') :
    List.Forall₂ (Sibling.AlikeBesides step)
      (xs.map fun x => ⟨.key (key x), own x (present? o' (key x))⟩)
      (xs.map fun x => ⟨.key (key x), own x (present? o (key x))⟩) := by
  obtain ⟨k, rfl, hk⟩ := hc
  rw [List.forall₂_map_left_iff, List.forall₂_map_right_iff]
  refine List.forall₂_same.mpr fun x _ => ⟨rfl, fun hne => ?_⟩
  have hx : key x ≠ k := fun he => hne (by rw [he])
  have hp : present? o' (key x) = present? o (key x) := by
    unfold present?
    rw [hk _ hx]
  rw [hp]

theorem array_byParts (d : Decoder α) :
    ByParts (itemSiblings d 0) ItemChanged fun vs => d.array.decode (.arr vs) := by
  refine byParts_of (gather_decodeItems_tells d 0) fun hc => ?_
  obtain ⟨n, v, rfl, rfl⟩ := hc
  have hs := itemSiblings_set d 0 n v
  rw [Nat.zero_add] at hs
  exact hs _

theorem layered_byParts (defaults : α) (fields : List (Field α)) :
    ByParts (fieldSiblings fields) EntryChanged fun o => (layered defaults fields).decode (.obj o) :=
  byParts_of (fun o => layered_tells fields o defaults)
    (entries_alike Field.key Field.own fields)

theorem record_byParts (ps : Properties γ) (build : γ → α) :
    ByParts (propertySiblings · ps) EntryChanged fun o => (ps.decoder build).decode (.obj o) := by
  refine byParts_of (fun o => ?_) fun hc => ?_
  · rw [Properties.decode_decoder]
    exact (read_tells o ps).map build
  · exact entries_alike Property.key Property.own ps.toList hc

theorem configuration_byParts (d : Setup.Defaults) :
    ByParts (propertySiblings · (Setup.configurationProperties d)) EntryChanged
      fun o => (Setup.configuration d).decode (.obj o) := by
  rw [Setup.configuration_eq]
  exact record_byParts _ _

/-- Items, fields and properties are decoded side by side. Each of these containers decodes if
and only if all its parts do, and reports otherwise what is wrong with each of them, in
order, each with the step to it in front; parts that are at distinct steps are each reported
once and in full. A change of one part changes nothing of what is reported of the others. A
list that decodes has a result for each of its items, in order. Null is decoded as an object
without entries where there are defaults. Configurations are records of this kind. -/
theorem siblings_independent :
    (∀ {α : Type} (d : Decoder α),
      ByParts (itemSiblings d 0) ItemChanged (fun vs => d.array.decode (.arr vs)) ∧
      (∀ vs, ((itemSiblings d 0 vs).map Sibling.step).Nodup) ∧
      ∀ vs xs, d.array.decode (.arr vs) = .ok xs →
        xs.length = vs.length ∧ vs.map d.decode = xs.map .ok) ∧
    (∀ {α : Type} (defaults : α) (fields : List (Field α)),
      ByParts (fieldSiblings fields) EntryChanged
        (fun o => (layered defaults fields).decode (.obj o)) ∧
      (layered defaults fields).decode .null = (layered defaults fields).decode (.obj [])) ∧
    (∀ {α γ : Type} (ps : Properties γ) (build : γ → α),
      ByParts (propertySiblings · ps) EntryChanged
        fun o => (ps.decoder build).decode (.obj o)) ∧
    ∀ d : Setup.Defaults, ByParts (propertySiblings · (Setup.configurationProperties d)) EntryChanged
      fun o => (Setup.configuration d).decode (.obj o) := by
  refine ⟨fun d => ⟨array_byParts d, nodup_itemSiblings d 0, fun vs xs h => ?_⟩,
    fun defaults fields => ⟨layered_byParts defaults fields, layered_null fields defaults⟩,
    record_byParts, configuration_byParts⟩
  have hxs := (gather_decodeItems_eq_ok d).mp h
  have hlen := congrArg List.length hxs
  rw [List.length_map, List.length_map] at hlen
  exact ⟨hlen.symm, hxs⟩

end Containers

end NoteForms.Decode
