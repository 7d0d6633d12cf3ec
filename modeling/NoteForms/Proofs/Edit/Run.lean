import Mathlib.Algebra.Group.Nat.Defs
import NoteForms.Proofs.Edit.Placing

/-! Runs of the editor. The pager, the working copies and the count are changed by
different actions, but stay in line: there is a working copy for each number below the
count and for no other, the last of these numbers is the maximum of the pager, and one of
them is selected unless there is none. So what is on screen is what is submitted. The
maximum is that last number as a word, the number itself with fewer than 2^63 records; pages
and steps may be any words. -/

namespace NoteForms.Edit

/-! ### Pages -/

/-- A signed word that is not negative is the same number without its sign. -/
theorem toNat_toUInt64 {v : Int64} (hv : 0 ≤ v.toInt) : (v.toUInt64.toNat : Int) = v.toInt := by
  have hlt := v.toBitVec.isLt
  rw [← Int64.toInt_toBitVec, BitVec.toInt_eq_toNat_cond] at hv ⊢
  rw [← Int64.toNat_toBitVec]
  split at hv
  · next h => rw [if_pos h]
  · omega

/-- The last of so many numbers, counted from zero. -/
def last? (count : Nat) : Option UInt64 := if count = 0 then none else some (UInt64.ofNat (count - 1))

/-- A number beyond all words wraps, but to a smaller one. -/
theorem toNat_last_lt {count : Nat} {m : UInt64} (hm : last? count = some m) : m.toNat < count := by
  unfold last? at hm
  split at hm
  · contradiction
  · have hle : (UInt64.ofNat (count - 1)).toNat ≤ count - 1 := Nat.mod_le _ _
    rw [← Option.some.inj hm]
    omega

theorem toNat_last_of_word {count : Nat} (hc : count < 2 ^ 64) {m : UInt64} (hm : last? count = some m) :
    m.toNat + 1 = count := by
  unfold last? at hm
  split at hm
  · contradiction
  · have hlt : count - 1 < 2 ^ 64 := by omega
    rw [← Option.some.inj hm, UInt64.toNat_ofNat_of_lt' hlt]
    omega

theorem toNat_last {count : Nat} (hc : count < 2 ^ 63) {m : UInt64} (hm : last? count = some m) :
    m.toNat + 1 = count := toNat_last_of_word (by omega) hm

namespace Pager

/-- The pager goes over so many records, and one of them is selected if there is one. -/
structure Spans (count : Nat) (p : Pager) : Prop where
  min : p.min = 0
  max : p.max = last? count
  selected : p.value.isSome = true ↔ 0 < count
  within : ∀ i, p.value = some i → i.toNat < count

/-- The records can be counted with a sign. -/
structure Covers (count : Nat) (p : Pager) : Prop extends p.Spans count where
  small : count < 2 ^ 63

variable {p : Pager} {count : Nat} {m : UInt64}

/-- Whatever is asked for, even a place or a bound that counts as negative. -/
theorem clamp_toNat_le (hmin : p.min = 0) (hmax : p.max = some m) (v : Int64) :
    (p.clamp v).toNat ≤ m.toNat := by
  have hzero : (0 : UInt64).toInt64.toInt = 0 := rfl
  unfold clamp
  rw [upper, hmax, hmin]
  simp only [Int64.lt_iff_toInt_lt, hzero]
  split
  · exact Nat.zero_le _
  · next hlow =>
    split
    · -- all places but zero are above a bound that counts as negative
      next hneg =>
      split
      · exact Nat.zero_le _
      · next hhigh =>
        have hnat := toNat_toUInt64 (v := v) (by omega)
        omega
    · next hpos =>
      have hnat : (m.toInt64.toUInt64.toNat : Int) = m.toInt64.toInt := toNat_toUInt64 (by omega)
      rw [UInt64.toUInt64_toInt64] at hnat
      split
      · exact Nat.le_of_eq (by rw [UInt64.toUInt64_toInt64])
      · next hhigh =>
        have hnat := toNat_toUInt64 (v := v) (by omega)
        omega

theorem Spans.clamp_lt (h : p.Spans count) (hc : 0 < count) (v : Int64) :
    (p.clamp v).toNat < count := by
  have hne : count ≠ 0 := Nat.pos_iff_ne_zero.mp hc
  obtain ⟨m, hm⟩ : ∃ m, last? count = some m := ⟨_, if_neg hne⟩
  exact Nat.lt_of_le_of_lt (clamp_toNat_le h.min (h.max.trans hm) v) (toNat_last_lt hm)

/-- What is selected within the bounds is covered. -/
theorem Spans.place (h : p.Spans count) (v : Option Int64) (hv : v.isSome = true ↔ 0 < count) :
    ({ p with value := v.map p.clamp } : Pager).Spans count := by
  refine ⟨h.min, h.max, by simpa using hv, fun i hi => ?_⟩
  obtain ⟨w, hw, rfl⟩ := Option.map_eq_some_iff.mp hi
  exact h.clamp_lt (hv.mp (by simp [hw])) w

theorem Spans.select (h : p.Spans count) (v : UInt64) : (p.select (some v)).Spans count := by
  by_cases hc : count = 0
  · have hmax : p.max = none := by rw [h.max, last?, if_pos hc]
    simpa [Pager.select, hmax] using h.place none (by simp [hc])
  · have hmax : p.max = some (UInt64.ofNat (count - 1)) := by rw [h.max, last?, if_neg hc]
    simpa [Pager.select, hmax] using
      h.place (some v.toInt64) (by simp [Nat.pos_of_ne_zero hc])

/-- The addition may wrap. -/
theorem Spans.move (h : p.Spans count) (steps : Int64) : (p.move steps).Spans count := by
  have hm := h.place (p.value.map fun v => v.toInt64 + steps) (by simpa using h.selected)
  rwa [Option.map_map] at hm

theorem spans_setMax (hmin : p.min = 0) (count : Nat) : (p.setMax (last? count)).Spans count := by
  unfold setMax
  by_cases h0 : count = 0
  · subst h0
    exact ⟨hmin, rfl, by simp [last?], by simp [last?]⟩
  · obtain ⟨m, hm⟩ : ∃ m, last? count = some m := ⟨_, if_neg h0⟩
    have hlast := toNat_last_lt hm
    have hpos : 0 < count := Nat.pos_of_ne_zero h0
    rw [hm]
    cases hv : p.value with
    | none =>
      refine ⟨hmin, hm.symm, by simp [hpos], fun i hi => ?_⟩
      rw [← Option.some.inj hi]
      exact hlast
    | some v =>
      refine ⟨hmin, hm.symm, by simp [hpos], fun i hi => ?_⟩
      have hq : (⟨p.min, some m, some v⟩ : Pager).min = 0 := hmin
      rw [← Option.some.inj hi]
      exact Nat.lt_of_le_of_lt (clamp_toNat_le hq rfl v.toInt64) hlast

end Pager

/-! ### Working copies -/

namespace Drafts

theorem keys_numbered (n : Nat) (rs : List Record) :
    (numbered n rs).map Prod.fst = List.range' n rs.length := by
  induction rs generalizing n with
  | nil => rfl
  | cons r rs ih => simp [numbered, ih, List.range'_succ]

/-- A copy of a number that is there replaces the one before. -/
theorem keys_insert {cs : List (Nat × Record)} {start n i : Nat} (r : Record)
    (hk : cs.map Prod.fst = List.range' start n) (hlow : start ≤ i) (hhigh : i < start + n) :
    (insert i r cs).map Prod.fst = List.range' start n := by
  induction cs generalizing start n with
  | nil =>
    have hn : n = 0 := List.range'_eq_nil_iff.mp hk.symm
    omega
  | cons c cs ih =>
    obtain ⟨j, s⟩ := c
    cases n with
    | zero => simp at hk
    | succ n =>
      rw [List.map_cons, List.range'_succ] at hk
      obtain ⟨hj, hcs⟩ := List.cons.inj hk
      have hj : j = start := hj
      subst hj
      rw [List.range'_succ, insert, if_neg (Nat.not_lt.mpr hlow)]
      split
      · next he => rw [List.map_cons, hcs, he]
      · next hne => rw [List.map_cons, ih hcs (by omega) (by omega)]

theorem isSome_get?_iff {d : Drafts} {i : Nat} :
    (d.get? i).isSome = true ↔ i ∈ d.copies.map Prod.fst := by
  rw [get?, List.lookup_isSome_iff, List.mem_map]
  exact ⟨fun ⟨c, hc, he⟩ => ⟨c, hc, (beq_iff_eq.mp he).symm⟩,
    fun ⟨c, hc, he⟩ => ⟨c, hc, beq_iff_eq.mpr he.symm⟩⟩

end Drafts

/-! ### The editor -/

namespace Editor

inductive Action where
  | setCreating (creating : Bool)
  | toggle
  | goToPage (page : UInt64)
  | move (steps : Int64)
  | setForm (r : Record)
  | setInitial (r : Record)
  | clear
  | sync (revision : Nat) (records : List Record)

def act (e : Editor) : Action → Editor
  | .setCreating creating => e.setCreating creating
  | .toggle => e.setCreating !e.creating
  | .goToPage page => e.goToPage page
  | .move steps => e.move steps
  | .setForm r => (e.setForm r).2
  | .setInitial r => e.setInitial r
  | .clear => e.clear.2
  | .sync revision records => (e.sync revision records).2

def run (e : Editor) (as : List Action) : Editor := as.foldl act e

/-- The records that an action brings, if any, can be counted with a sign. -/
def Action.Countable : Action → Prop
  | .sync _ records => records.length < 2 ^ 63
  | _ => True

/-- The working copies and the pager are those of the counted records. -/
structure Kept (e : Editor) : Prop where
  copies : e.drafts.copies.map Prod.fst = List.range e.count
  pager : e.pager.Spans e.count

/-- Besides, the records can be counted with a sign. -/
structure Aligned (e : Editor) : Prop where
  copies : e.drafts.copies.map Prod.fst = List.range e.count
  pager : e.pager.Covers e.count

variable {e : Editor}

theorem Aligned.kept (h : e.Aligned) : e.Kept := ⟨h.copies, h.pager.toSpans⟩

theorem Kept.aligned (h : e.Kept) (hc : e.count < 2 ^ 63) : e.Aligned := ⟨h.copies, h.pager, hc⟩

theorem sync_eq_of_ne {revision : Nat} (hr : e.drafts.revision ≠ some revision)
    (records : List Record) : e.sync revision records =
      (true, { e with
        drafts := ⟨Drafts.numbered 0 records, e.drafts.created, some revision⟩
        count := records.length
        pager := e.pager.setMax (last? records.length) }) := by
  have hlast : (if records = [] then none else some (UInt64.ofNat (records.length - 1))) =
      last? records.length := by cases records <;> simp [last?]
  unfold sync Drafts.sync
  rw [if_neg hr, ← hlast]
  rfl

theorem sync_eq_of_eq {revision : Nat} (hr : e.drafts.revision = some revision)
    (records : List Record) : e.sync revision records = (false, e) := by
  unfold sync Drafts.sync
  rw [if_pos hr]

theorem sync_kept (h : e.Kept ∨ e.drafts.revision = none ∧ e.pager.min = 0) (revision : Nat)
    (records : List Record) : (e.sync revision records).2.Kept := by
  have hmin : e.pager.min = 0 := h.elim (fun hk => hk.pager.min) (·.2)
  by_cases hrev : e.drafts.revision = some revision
  · rw [sync_eq_of_eq hrev]
    refine h.resolve_right fun hn => ?_
    rw [hn.1] at hrev
    contradiction
  · rw [sync_eq_of_ne hrev]
    refine ⟨?_, Pager.spans_setMax hmin _⟩
    rw [List.range_eq_range']
    exact Drafts.keys_numbered 0 records

theorem start_kept (initial : Record) (revision : Nat) (records : List Record) :
    (start initial revision records).Kept := sync_kept (.inr ⟨rfl, rfl⟩) revision records

theorem Kept.setForm (h : e.Kept) (r : Record) : (e.setForm r).2.Kept := by
  unfold Editor.setForm
  split
  · exact ⟨h.copies, h.pager⟩
  · split
    · next i hi =>
      have hlt := h.pager.within i hi
      refine ⟨?_, h.pager⟩
      have hk := h.copies
      rw [List.range_eq_range'] at hk ⊢
      exact Drafts.keys_insert r hk (Nat.zero_le _) (by rwa [Nat.zero_add])
    · exact h

theorem Kept.act (h : e.Kept) (a : Action) : (e.act a).Kept := by
  cases a with
  | setCreating creating => exact ⟨h.copies, h.pager⟩
  | toggle => exact ⟨h.copies, h.pager⟩
  | goToPage page =>
    simp only [Editor.act, Editor.goToPage]
    split
    · exact h
    · exact ⟨h.copies, h.pager.select _⟩
  | move steps => exact ⟨h.copies, h.pager.move steps⟩
  | setForm r => exact h.setForm r
  | setInitial r =>
    simp only [Editor.act, Editor.setInitial]
    split
    · exact h
    · split <;> exact ⟨h.copies, h.pager⟩
  | clear => exact h.setForm e.initial
  | sync revision records => exact sync_kept (.inl h) revision records

/-- How many records there are is for a sync to say. -/
theorem count_act (e : Editor) (a : Action) : (e.act a).count = e.count ∨
    ∃ revision records, a = .sync revision records ∧ (e.act a).count = records.length := by
  cases a with
  | setCreating | toggle | move => exact .inl rfl
  | goToPage page =>
    simp only [act, goToPage]
    split <;> exact .inl rfl
  | setForm | clear =>
    simp only [act, clear, setForm]
    split
    · exact .inl rfl
    · split <;> exact .inl rfl
  | setInitial r =>
    simp only [act, setInitial]
    split <;> exact .inl rfl
  | sync revision records =>
    by_cases hrev : e.drafts.revision = some revision
    · exact .inl (by rw [act, sync_eq_of_eq hrev])
    · exact .inr ⟨revision, records, rfl, by rw [act, sync_eq_of_ne hrev]⟩

theorem start_aligned (initial : Record) (revision : Nat) {records : List Record}
    (hr : records.length < 2 ^ 63) : (start initial revision records).Aligned :=
  (start_kept initial revision records).aligned hr

theorem Aligned.act (h : e.Aligned) {a : Action} (ha : a.Countable) : (e.act a).Aligned := by
  refine (h.kept.act a).aligned ?_
  rcases e.count_act a with he | ⟨revision, records, rfl, he⟩ <;> rw [he]
  · exact h.pager.small
  · exact ha

theorem Aligned.run (h : e.Aligned) {as : List Action} (ha : ∀ a ∈ as, a.Countable) :
    (e.run as).Aligned := by
  induction as generalizing e with
  | nil => exact h
  | cons a as ih =>
    exact ih (h.act (ha a List.mem_cons_self)) fun b hb => ha b (List.mem_cons_of_mem _ hb)

/-! ### What is on screen -/

/-- Of the selected record there is a working copy. -/
theorem Aligned.get? (h : e.Aligned) {i : UInt64} (hi : e.pager.value = some i) :
    ∃ r, e.drafts.get? i.toNat = some r := by
  refine Option.isSome_iff_exists.mp (Drafts.isSome_get?_iff.mpr ?_)
  rw [h.copies, List.mem_range]
  exact h.pager.within i hi

theorem Aligned.value_eq_none (h : e.Aligned) : e.pager.value = none ↔ e.count = 0 := by
  have hs := h.pager.selected
  cases hv : e.pager.value with
  | none => simpa [hv] using hs
  | some i => simpa [hv, Nat.pos_iff_ne_zero] using hs

theorem Aligned.form?_eq_none (h : e.Aligned) :
    e.form? = none ↔ e.creating = false ∧ e.count = 0 := by
  unfold Editor.form?
  cases hc : e.creating with
  | true => simp
  | false =>
    cases hv : e.pager.value with
    | none => simpa using h.value_eq_none.mp hv
    | some i =>
      obtain ⟨r, hr⟩ := h.get? hv
      have hne : e.count ≠ 0 := fun h0 => by simp [h.value_eq_none.mpr h0] at hv
      simp [hr, hne]

theorem Aligned.setForm_eq_false (h : e.Aligned) (r : Record) :
    (e.setForm r).1 = false ↔ e.form? = none := by
  rw [h.form?_eq_none, ← h.value_eq_none]
  unfold Editor.setForm
  cases e.creating with
  | true => simp
  | false => cases e.pager.value <;> simp

/-- What is on screen has a place among as many records. -/
theorem Aligned.submission (h : e.Aligned) {rs : List Record} (hrs : rs.length = e.count)
    {r : Record} (hf : e.form? = some r) :
    (e.creating = true ∧ e.submission rs = .ok (rs ++ [r])) ∨
      e.creating = false ∧ ∃ i, e.pager.value = some i ∧
        e.submission rs = .ok (rs.set i.toNat r) := by
  cases hc : e.creating with
  | true =>
    have hp : Placed r rs e.creating e.page (rs ++ [r]) := by
      rw [hc]
      exact .appended _
    exact .inl ⟨rfl, submission_eq_ok.mpr ⟨r, hf, hp⟩⟩
  | false =>
    cases hv : e.pager.value with
    | none =>
      rw [h.form?_eq_none.mpr ⟨hc, h.value_eq_none.mp hv⟩] at hf
      contradiction
    | some i =>
      have hp : Placed r rs e.creating e.page (rs.set i.toNat r) := by
        rw [hc, page, hv]
        exact .replaced (hrs ▸ h.pager.within i hv)
      exact .inr ⟨rfl, i, rfl, submission_eq_ok.mpr ⟨r, hf, hp⟩⟩

theorem Aligned.submission_eq_error (h : e.Aligned) {rs : List Record} (hrs : rs.length = e.count) :
    e.submission rs = .error .nothingSelected ↔ e.form? = none := by
  cases hf : e.form? with
  | some r =>
    rcases h.submission hrs hf with ⟨-, hs⟩ | ⟨-, i, -, hs⟩ <;> simp [hs]
  | none =>
    obtain ⟨hc, h0⟩ := h.form?_eq_none.mp hf
    simp [Editor.submission, hc, h.value_eq_none.mpr h0]

theorem Aligned.page (h : e.Aligned) :
    (e.count = 0 → e.page = 0) ∧ (0 < e.count → 1 ≤ e.page ∧ e.page ≤ e.count) := by
  unfold Editor.page
  cases hv : e.pager.value with
  | none => simp [h.value_eq_none.mp hv]
  | some i =>
    have hlt := h.pager.within i hv
    exact ⟨fun h0 => by omega, fun _ => ⟨Nat.le_add_left _ _, hlt⟩⟩

/-- An editor is started and used in any way. Then it has a working copy of each record
below its count and of no other, its pager goes up to the last of them, and one is
selected unless there is none. There is nothing on screen exactly when there is no record
and none is being made; then nothing can be set, put back or submitted. Otherwise the
record on screen is what is submitted: at the end of the records if it is being made, in
place of the selected one if not. -/
theorem run_aligned (initial : Record) (revision : Nat) (records : List Record)
    (hr : records.length < 2 ^ 63) (as : List Action) (ha : ∀ a ∈ as, a.Countable) (e : Editor)
    (he : e = (start initial revision records).run as) :
    e.drafts.copies.map Prod.fst = List.range e.count ∧
      e.pager.max.map UInt64.toNat = (if e.count = 0 then none else some (e.count - 1)) ∧
      (e.pager.value.isSome = true ↔ 0 < e.count) ∧
      (∀ i, e.pager.value = some i → i.toNat < e.count) ∧
      (e.count = 0 → e.page = 0) ∧ (0 < e.count → 1 ≤ e.page ∧ e.page ≤ e.count) ∧
      (e.form? = none ↔ e.creating = false ∧ e.count = 0) ∧
      (∀ r, (e.setForm r).1 = false ↔ e.form? = none) ∧ (e.clear.1 = false ↔ e.form? = none) ∧
      ∀ rs, rs.length = e.count →
        (e.submission rs = .error .nothingSelected ↔ e.form? = none) ∧
        ∀ r, e.form? = some r →
          (e.creating = true ∧ e.submission rs = .ok (rs ++ [r])) ∨
            e.creating = false ∧ ∃ i, e.pager.value = some i ∧
              e.submission rs = .ok (rs.set i.toNat r) := by
  have h : e.Aligned := he ▸ (start_aligned initial revision hr).run ha
  have hmax : e.pager.max.map UInt64.toNat = if e.count = 0 then none else some (e.count - 1) := by
    rw [h.pager.max]
    split
    · next h0 => simp [last?, h0]
    · next h0 =>
      obtain ⟨m, hm⟩ : ∃ m, last? e.count = some m := ⟨_, if_neg h0⟩
      have hlast := toNat_last h.pager.small hm
      rw [hm, Option.map_some, Option.some.injEq]
      omega
  exact ⟨h.copies, hmax, h.pager.selected, h.pager.within, h.page.1, h.page.2, h.form?_eq_none,
    h.setForm_eq_false, h.setForm_eq_false e.initial, fun rs hrs =>
      ⟨h.submission_eq_error hrs, fun r => h.submission hrs⟩⟩

/-- Of three records the last is selected. The step wraps around to the first one, of the
two records that are brought then the page is beyond all numbers with a sign. -/
def wrapping : List Action :=
  [.move 9223372036854775807, .sync 2 [[("x", .int 1)], [("x", .int 2)]],
    .goToPage 9223372036854775809, .setForm [("x", .int 3)]]

/-- The first record is on screen, and submitted in place of the first one. -/
theorem run_aligned_wrapping :
    ∃ e, e = (start [] 1 [[], [], []]).run wrapping ∧ e.count = 2 ∧ e.page = 1 ∧
      e.drafts.copies.map Prod.fst = [0, 1] ∧ e.form? = some [("x", .int 3)] ∧
      ∃ i, e.pager.value = some i ∧
        e.submission [[], [("y", .null)]] = .ok ([[], [("y", .null)]].set i.toNat [("x", .int 3)]) := by
  have hcount : ((start [] 1 [[], [], []]).run wrapping).count = 2 := rfl
  have hform : ((start [] 1 [[], [], []]).run wrapping).form? = some [("x", .int 3)] := by decide +kernel
  have hc : ((start [] 1 [[], [], []]).run wrapping).creating = false := rfl
  obtain ⟨hkeys, -, -, -, -, -, -, -, -, hsub⟩ :=
    run_aligned [] 1 [[], [], []] (by decide) wrapping
      (by simp [wrapping, Action.Countable]) _ rfl
  rcases (hsub [[], [("y", .null)]] (by rw [hcount]; rfl)).2 _ hform with ⟨ht, -⟩ | ⟨-, hi⟩
  · rw [hc] at ht
    contradiction
  · exact ⟨_, rfl, hcount, by decide +kernel, hkeys, hform, hi⟩

end Editor

end NoteForms.Edit
