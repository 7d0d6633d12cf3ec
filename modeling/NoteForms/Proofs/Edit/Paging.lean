import Mathlib.Algebra.Ring.Int.Defs
import NoteForms.Proofs.Edit.Run

/-! Which place is selected, over all words. Bounds and places are compared as words with a sign, so
the place within the bounds that is nearest to what is asked for is selected as long as all of them
are below 2^63, or none is. Otherwise it is one of the bounds, and need not be the nearer one. An
editor goes to the nearest page as long as the number of that page is at most 2^63; beyond that it
shows the first page. -/

namespace NoteForms.Edit

/-- Of the numbers from `low` to `high`, the nearest to `n`. -/
def nearest (low high n : Int) : Int := max low (min n high)

/-- The word is below 2^63, so it is the same number when it is read with a sign. -/
def Small (v : UInt64) : Prop := v.toNat < 2 ^ 63

instance (v : UInt64) : Decidable (Small v) := inferInstanceAs (Decidable (_ < _))

/-- The bounds leave no choice, or they and the place are all below 2^63, or none is. A maximum
of 2^63 or more does no harm to places up to a minimum that is less. -/
def Comparable (low high v : UInt64) : Prop :=
  low = high ∨ (Small v ↔ Small low) ∧ ((Small high ↔ Small low) ∨ v ≤ low)

instance (low high v : UInt64) : Decidable (Comparable low high v) :=
  inferInstanceAs (Decidable (_ ∨ _))

/-! ### Words with a sign -/

theorem toInt_of_small {v : UInt64} (h : Small v) : v.toInt64.toInt = v.toNat := by
  have hv : v.toInt64.toBitVec.toNat = v.toNat := rfl
  have h : v.toNat < 2 ^ 63 := h
  rw [← Int64.toInt_toBitVec, BitVec.toInt_eq_toNat_cond, hv, if_pos (by omega)]

theorem toInt_of_not_small {v : UInt64} (h : ¬Small v) : v.toInt64.toInt = v.toNat - 2 ^ 64 := by
  have hv : v.toInt64.toBitVec.toNat = v.toNat := rfl
  have h : ¬v.toNat < 2 ^ 63 := h
  rw [← Int64.toInt_toBitVec, BitVec.toInt_eq_toNat_cond, hv, if_neg (by omega)]
  rfl

theorem toNat_eq_of_toInt (v : UInt64) : (v.toNat : Int) =
    if v.toInt64.toInt < 0 then v.toInt64.toInt + 2 ^ 64 else v.toInt64.toInt := by
  have hlt := v.toNat_lt
  by_cases h : Small v
  · rw [toInt_of_small h, if_neg (by omega)]
  · rw [toInt_of_not_small h, if_pos (by omega)]
    omega

/-- A sum that has a sign is exact, even of a word that has none. -/
theorem toInt_add_of_exact {w : UInt64} {steps : Int64} (hlow : -2 ^ 63 ≤ w.toNat + steps.toInt)
    (hhigh : w.toNat + steps.toInt < 2 ^ 63) :
    (w.toInt64 + steps).toInt = w.toNat + steps.toInt := by
  have hw : w.toInt64.toInt = (w.toNat : Int).bmod (2 ^ 64) := by
    rw [← Int64.toInt_toBitVec, BitVec.toInt_eq_toNat_bmod]
    rfl
  rw [Int64.toInt_add, hw, Int.bmod_add_bmod]
  exact Int.bmod_eq_of_le (by omega) (by omega)

/-! ### Bounds -/

namespace Pager

variable {p : Pager} {m : UInt64}

theorem toInt_upper (hm : p.max = some m) : p.upper.toInt =
    if m.toInt64.toInt < p.min.toInt64.toInt then p.min.toInt64.toInt else m.toInt64.toInt := by
  rw [upper, hm]
  simp only [Int64.lt_iff_toInt_lt]
  split <;> rfl

/-- Read with a sign, the nearest place is selected. -/
theorem toInt_clamp (hm : p.max = some m) (v : Int64) : (p.clamp v).toInt64.toInt =
    nearest p.min.toInt64.toInt p.upper.toInt v.toInt := by
  have hle : p.min.toInt64.toInt ≤ p.upper.toInt := by
    rw [toInt_upper hm]
    split <;> omega
  unfold clamp nearest
  rw [Int64.toInt64_toUInt64]
  simp only [Int64.lt_iff_toInt_lt]
  split
  · omega
  · split <;> omega

/-- Between bounds below 2^63 places are exact. -/
theorem clamp_of_small (hm : p.max = some m) (hle : p.min ≤ m) (h : Small m) (v : Int64) :
    ((p.clamp v).toNat : Int) = nearest p.min.toNat m.toNat v.toInt := by
  have hle : p.min.toNat ≤ m.toNat := hle
  have hmin := toInt_of_small (v := p.min) (Nat.lt_of_le_of_lt hle h)
  have hupper : p.upper.toInt = m.toNat := by
    rw [toInt_upper hm, hmin, toInt_of_small h, if_neg (by omega)]
  rw [toNat_eq_of_toInt, toInt_clamp hm, hupper, hmin]
  unfold nearest
  rw [if_neg (by omega)]

/-- A maximum of 2^63 or more counts as below a minimum that is less. -/
theorem clamp_of_apart (hm : p.max = some m) (hmin : Small p.min) (hmax : ¬Small m) (v : Int64) :
    p.clamp v = p.min := by
  have hlt := m.toNat_lt
  have hlow := toInt_of_small hmin
  have hupper : p.upper.toInt = p.min.toNat := by
    rw [toInt_upper hm, hlow, toInt_of_not_small hmax, if_pos (by omega)]
  have hc : ((p.clamp v).toNat : Int) = p.min.toNat := by
    rw [toNat_eq_of_toInt, toInt_clamp hm, hupper, hlow]
    unfold nearest
    rw [if_neg (by omega)]
    omega
  exact UInt64.toNat_inj.mp (Int.ofNat.inj hc)

/-- Between bounds from 2^63 on places are exact that count as negative. -/
theorem clamp_of_not_small (hm : p.max = some m) (hle : p.min ≤ m) (h : ¬Small p.min) (v : Int64) :
    ((p.clamp v).toNat : Int) = nearest p.min.toNat m.toNat (v.toInt + 2 ^ 64) := by
  have hle : p.min.toNat ≤ m.toNat := hle
  have hlt := m.toNat_lt
  have hmin := toInt_of_not_small h
  have hupper : p.upper.toInt = m.toNat - 2 ^ 64 := by
    rw [toInt_upper hm, hmin, toInt_of_not_small fun hs => h (Nat.lt_of_le_of_lt hle hs),
      if_neg (by omega)]
  rw [toNat_eq_of_toInt, toInt_clamp hm, hupper, hmin]
  unfold nearest
  rw [if_pos (by omega)]
  omega

/-! ### When the nearest place is selected -/

/-- The number is selected. -/
def Selects (p : Pager) (n : Int) : Prop := p.value.map (fun i => (i.toNat : Int)) = some n

instance (p : Pager) (n : Int) : Decidable (p.Selects n) := inferInstanceAs (Decidable (_ = _))

theorem clamp_nearest_iff (hm : p.max = some m) (hle : p.min ≤ m) (v : UInt64) :
    ((p.clamp v.toInt64).toNat : Int) = nearest p.min.toNat m.toNat v.toNat ↔
      Comparable p.min m v := by
  have hle' : p.min.toNat ≤ m.toNat := hle
  have hvlt := v.toNat_lt
  have hmlt := m.toNat_lt
  unfold Comparable
  rw [← UInt64.toNat_inj (a := p.min), UInt64.le_iff_toNat_le]
  by_cases hmin : Small p.min
  · by_cases hmax : Small m
    · rw [clamp_of_small hm hle hmax]
      by_cases hv : Small v
      · simp [hmin, hmax, hv, toInt_of_small hv]
      · -- the place is above both bounds, and counts as below them
        have hmax' : m.toNat < 2 ^ 63 := hmax
        have hv' : ¬v.toNat < 2 ^ 63 := hv
        simp only [hmin, hmax, hv, iff_true, false_and, or_false, toInt_of_not_small hv]
        unfold nearest
        omega
    · rw [clamp_of_apart hm hmin hmax]
      have hmin' : p.min.toNat < 2 ^ 63 := hmin
      have hmax' : ¬m.toNat < 2 ^ 63 := hmax
      simp only [hmin, hmax, iff_true, false_or]
      unfold nearest Small
      omega
  · have hmin' : ¬p.min.toNat < 2 ^ 63 := hmin
    have hmax : ¬Small m := fun hs => hmin (Nat.lt_of_le_of_lt hle' hs)
    rw [clamp_of_not_small hm hle hmin]
    by_cases hv : Small v
    · have hv' : v.toNat < 2 ^ 63 := hv
      simp only [hmin, hmax, hv, iff_false, not_true, false_and, or_false, toInt_of_small hv]
      unfold nearest
      omega
    · simp [hmin, hmax, hv, toInt_of_not_small hv]

/-- Sums that have a sign are compared as they are, so bounds from 2^63 on count as below all but
the least of them. -/
theorem clamp_sum_iff (hm : p.max = some m) (hle : p.min ≤ m) {w : UInt64} {steps : Int64}
    (hlow : -2 ^ 63 ≤ w.toNat + steps.toInt) (hhigh : w.toNat + steps.toInt < 2 ^ 63) :
    ((p.clamp (w.toInt64 + steps)).toNat : Int) =
        nearest p.min.toNat m.toNat (w.toNat + steps.toInt) ↔
      p.min = m ∨ Small m ∨ w.toNat + steps.toInt ≤ p.min.toInt64.toInt := by
  have hle' : p.min.toNat ≤ m.toNat := hle
  have hmlt := m.toNat_lt
  have hsum := toInt_add_of_exact hlow hhigh
  rw [← UInt64.toNat_inj (a := p.min)]
  by_cases hmax : Small m
  · rw [clamp_of_small hm hle hmax, hsum]
    simp [hmax]
  · have hmax' : ¬m.toNat < 2 ^ 63 := hmax
    simp only [hmax, false_or]
    by_cases hmin : Small p.min
    · have hmin' : p.min.toNat < 2 ^ 63 := hmin
      rw [clamp_of_apart hm hmin hmax, toInt_of_small hmin]
      unfold nearest
      omega
    · have hmin' : ¬p.min.toNat < 2 ^ 63 := hmin
      rw [clamp_of_not_small hm hle hmin, hsum, toInt_of_not_small hmin]
      unfold nearest
      omega

theorem select_nearest_iff (hm : p.max = some m) (hle : p.min ≤ m) (v : UInt64) :
    (p.select (some v)).Selects (nearest p.min.toNat m.toNat v.toNat) ↔ Comparable p.min m v := by
  rw [← clamp_nearest_iff hm hle]
  simp [Selects, select, hm]

/-- What was selected is drawn in by the new maximum. -/
theorem setMax_nearest_iff (hle : p.min ≤ m) {w : UInt64} (hw : p.value = some w) :
    (p.setMax (some m)).Selects (nearest p.min.toNat m.toNat w.toNat) ↔ Comparable p.min m w := by
  rw [← clamp_nearest_iff (p := { p with max := some m }) rfl hle]
  simp [Selects, setMax, hw]

theorem move_nearest_iff (hm : p.max = some m) (hle : p.min ≤ m) {w : UInt64}
    (hw : p.value = some w) {steps : Int64} (hlow : -2 ^ 63 ≤ w.toNat + steps.toInt)
    (hhigh : w.toNat + steps.toInt < 2 ^ 63) :
    (p.move steps).Selects (nearest p.min.toNat m.toNat (w.toNat + steps.toInt)) ↔
      p.min = m ∨ Small m ∨ w.toNat + steps.toInt ≤ p.min.toInt64.toInt := by
  rw [← clamp_sum_iff hm hle hlow hhigh]
  simp [Selects, move, hw]

end Pager

/-! ### Pages -/

namespace Editor

variable {e : Editor}

theorem Kept.run (h : e.Kept) (as : List Action) : (e.run as).Kept := by
  induction as generalizing e with
  | nil => exact h
  | cons a as ih => exact ih (h.act a)

/-- The page that is shown for a number other than zero. -/
theorem Kept.page_goToPage (h : e.Kept) (hc : 0 < e.count) (hw : e.count < 2 ^ 64) {n : UInt64}
    (hn : 1 ≤ n) : (e.goToPage n).page =
      if n.toNat ≤ 2 ^ 63 ∧ e.count ≤ 2 ^ 63 then min n.toNat e.count else 1 := by
  obtain ⟨m, hm⟩ : ∃ m, last? e.count = some m := ⟨_, if_neg (Nat.pos_iff_ne_zero.mp hc)⟩
  have hlast := toNat_last_of_word hw hm
  have hmax : e.pager.max = some m := h.pager.max.trans hm
  have hmin : e.pager.min.toNat = 0 := by rw [h.pager.min]; rfl
  have hsmall : Small e.pager.min := by unfold Small; omega
  have hle : e.pager.min ≤ m := UInt64.le_iff_toNat_le.mpr (by omega)
  have hn' : 1 ≤ n.toNat := hn
  have hne : n ≠ 0 := by
    rintro rfl
    exact absurd hn' (by decide)
  have hindex : (n - 1).toNat = n.toNat - 1 := UInt64.toNat_sub_of_le n 1 hn
  have hpage : (e.goToPage n).page = (e.pager.clamp (n - 1).toInt64).toNat + 1 := by
    simp [goToPage, hne, page, Pager.select, hmax]
  rw [hpage]
  by_cases hcount : e.count ≤ 2 ^ 63
  · have hms : Small m := by unfold Small; omega
    have hclamp := Pager.clamp_of_small hmax hle hms (n - 1).toInt64
    by_cases hpast : n.toNat ≤ 2 ^ 63
    · rw [toInt_of_small (by unfold Small; omega), hmin] at hclamp
      rw [if_pos ⟨hpast, hcount⟩]
      unfold nearest at hclamp
      omega
    · -- the number counts as negative
      rw [toInt_of_not_small (by unfold Small; omega), hmin] at hclamp
      have hlt := n.toNat_lt
      rw [if_neg fun hp => hpast hp.1]
      unfold nearest at hclamp
      omega
  · rw [Pager.clamp_of_apart hmax hsmall (by unfold Small; omega), hmin,
      if_neg fun hp => hcount hp.2]

/-- The nearest page is shown, unless the number of the page has no sign or there are too many
records. -/
theorem Kept.page_nearest_iff (h : e.Kept) (hc : 0 < e.count) (hw : e.count < 2 ^ 64) {n : UInt64}
    (hn : 1 ≤ n) : (e.goToPage n).page = min n.toNat e.count ↔
      n = 1 ∨ e.count = 1 ∨ n.toNat ≤ 2 ^ 63 ∧ e.count ≤ 2 ^ 63 := by
  have hn' : 1 ≤ n.toNat := hn
  have hone : n = 1 ↔ n.toNat = 1 := UInt64.toNat_inj.symm
  rw [h.page_goToPage hc hw hn, hone]
  split <;> omega

/-- A greater number shows an earlier page only beyond all numbers with a sign. -/
theorem Kept.page_le_iff (h : e.Kept) (hc : 0 < e.count) (hw : e.count < 2 ^ 64) {n n' : UInt64}
    (hn : 1 ≤ n) (hle : n ≤ n') : (e.goToPage n).page ≤ (e.goToPage n').page ↔
      n = 1 ∨ e.count = 1 ∨ n'.toNat ≤ 2 ^ 63 ∨ 2 ^ 63 < n.toNat ∨ 2 ^ 63 < e.count := by
  have hn' : 1 ≤ n.toNat := hn
  have hle' : n.toNat ≤ n'.toNat := hle
  have hone : n = 1 ↔ n.toNat = 1 := UInt64.toNat_inj.symm
  rw [h.page_goToPage hc hw hn, h.page_goToPage hc hw (UInt64.le_trans hn hle), hone]
  split <;> split <;> omega

/-- Places are selected, drawn in by a new maximum, or moved to by a sum that has a sign. What is
selected then is the place within the bounds that is nearest exactly if the bounds and the place
can be compared; sums are compared as they are. An editor is started and used in any way, and has
records. For a page it shows the nearest one, and for a greater number no earlier page, unless the
number or that of the records is above 2^63. -/
theorem places_nearest_iff {p : Pager} {m : UInt64} (hle : p.min ≤ m) {initial : Record}
    {revision : Nat} {records : List Record} {as : List Action} {e : Editor}
    (he : e = (start initial revision records).run as) (hc : 0 < e.count) (hw : e.count < 2 ^ 64) :
    (p.max = some m → ∀ v, (p.select (some v)).Selects (nearest p.min.toNat m.toNat v.toNat) ↔
      Comparable p.min m v) ∧
    (∀ w, p.value = some w → ((p.setMax (some m)).Selects (nearest p.min.toNat m.toNat w.toNat) ↔
      Comparable p.min m w)) ∧
    (p.max = some m → ∀ (w : UInt64) (steps : Int64), p.value = some w →
      -2 ^ 63 ≤ w.toNat + steps.toInt → w.toNat + steps.toInt < 2 ^ 63 →
      ((p.move steps).Selects (nearest p.min.toNat m.toNat (w.toNat + steps.toInt)) ↔
        p.min = m ∨ Small m ∨ w.toNat + steps.toInt ≤ p.min.toInt64.toInt)) ∧
    ∀ n : UInt64, 1 ≤ n →
      ((e.goToPage n).page = min n.toNat e.count ↔
        n = 1 ∨ e.count = 1 ∨ n.toNat ≤ 2 ^ 63 ∧ e.count ≤ 2 ^ 63) ∧
      ∀ n', n ≤ n' → ((e.goToPage n).page ≤ (e.goToPage n').page ↔
        n = 1 ∨ e.count = 1 ∨ n'.toNat ≤ 2 ^ 63 ∨ 2 ^ 63 < n.toNat ∨ 2 ^ 63 < e.count) := by
  have h : e.Kept := he ▸ (start_kept initial revision records).run as
  refine ⟨fun hm v => Pager.select_nearest_iff hm hle v,
    fun w hw => Pager.setMax_nearest_iff hle hw,
    fun hm w steps hw hlow hhigh => Pager.move_nearest_iff hm hle hw hlow hhigh, ?_⟩
  intro n hn
  exact ⟨h.page_nearest_iff hc hw hn, fun n' hle => h.page_le_iff hc hw hn hle⟩

/-- Bounds from 2^63 on, and a place between them. -/
def beyond : Pager := ⟨9223372036854775808, some 9223372036854775813, some 9223372036854775810⟩

def twoPages : Editor := start [] 1 [[], []]

/-- Bounds and places without a sign are as good as those with one, and a step back stops at the
minimum. The last page that has a sign is drawn in to the last of two. -/
theorem places_nearest_iff_beyond :
    (beyond.select (some 9223372036854775817)).Selects 9223372036854775813 ∧
      (beyond.setMax (some 9223372036854775813)).Selects 9223372036854775810 ∧
      ((⟨3, some 9, some 5⟩ : Pager).move (-20)).Selects 3 ∧
      (twoPages.goToPage 9223372036854775808).page = 2 ∧
      (twoPages.goToPage 2).page ≤ (twoPages.goToPage 9223372036854775808).page := by
  have hle : beyond.min ≤ 9223372036854775813 := by decide +kernel
  have hrun : twoPages = (start [] 1 [[], []]).run [] := rfl
  obtain ⟨hselect, hdraw, -, hpage⟩ :=
    places_nearest_iff hle hrun (by decide +kernel) (by decide +kernel)
  have hle' : (⟨3, some 9, some 5⟩ : Pager).min ≤ 9 := by decide +kernel
  obtain ⟨-, -, hmove, -⟩ := places_nearest_iff hle' hrun (by decide +kernel) (by decide +kernel)
  have hback := (hmove rfl 5 (-20) rfl (by decide +kernel) (by decide +kernel)).mpr
    (by decide +kernel)
  exact ⟨(hselect rfl _).mpr (by decide +kernel), (hdraw _ rfl).mpr (by decide +kernel), hback,
    (hpage 9223372036854775808 (by decide +kernel)).1.mpr (by decide +kernel),
    ((hpage 2 (by decide +kernel)).2 _ (by decide +kernel)).mpr (by decide +kernel)⟩

/-- The page after it counts as negative, and the first of two pages is shown. -/
theorem goToPage_wraps :
    twoPages.count = 2 ∧
      (twoPages.goToPage 9223372036854775809).page ≠ min 9223372036854775809 2 ∧
      ¬(twoPages.goToPage 2).page ≤ (twoPages.goToPage 9223372036854775809).page := by
  decide +kernel

end Editor

end NoteForms.Edit
