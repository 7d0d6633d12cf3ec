import NoteForms.Json.Equality
import NoteForms.Json.Reader
import NoteForms.Proofs.Json.Entries

/-! Values whose objects, at any depth, have each key once. Objects are made by storing entries one
after the other, so all that is read from a text is of this kind. Of such values each is the same
as itself, which one with a repeated key need not be. -/

namespace NoteForms

theorem Double.same_self (x : Double) : x.same x = true := by simp [same]

namespace Json

/-- The value holds no other values. -/
def isScalar : Json → Bool
  | .arr _ | .obj _ => false
  | _ => true

/-- No object in the value has a key twice. -/
inductive Distinct : Json → Prop where
  | scalar {v : Json} (h : v.isScalar = true) : Distinct v
  | arr {vs : List Json} (h : ∀ v ∈ vs, Distinct v) : Distinct (.arr vs)
  | obj {fields : List (String × Json)} (hk : (Entries.keys fields).Nodup)
    (h : ∀ e ∈ fields, Distinct e.2) : Distinct (.obj fields)

theorem distinct_arr {vs : List Json} : (Json.arr vs).Distinct ↔ ∀ v ∈ vs, v.Distinct := by
  constructor
  · intro h
    cases h with
    | scalar h => contradiction
    | arr h => exact h
  · exact .arr

end Json

namespace Object

/-- Neither the object nor any in it has a key twice. -/
def Distinct (o : Object) : Prop := (Json.obj o).Distinct

variable {o : Object}

theorem distinct_iff : o.Distinct ↔ (Entries.keys o).Nodup ∧ ∀ e ∈ o, e.2.Distinct := by
  constructor
  · intro h
    cases h with
    | scalar h => contradiction
    | obj hk h => exact ⟨hk, h⟩
  · exact fun h => .obj h.1 h.2

theorem distinct_nil : Distinct [] := .obj List.nodup_nil nofun

theorem Distinct.lookup (ho : o.Distinct) {k : String} {v : Json} (hv : o.lookup k = some v) :
    v.Distinct := (distinct_iff.mp ho).2 _ (Entries.mem_of_lookup hv)

theorem Distinct.put (ho : o.Distinct) (k : String) {v : Json} (hv : v.Distinct) :
    Distinct (o.put k v) := by
  obtain ⟨hk, h⟩ := distinct_iff.mp ho
  refine .obj (Entries.put_nodup hk k v) fun e he => ?_
  rcases Entries.eq_or_mem_of_mem_put he with rfl | he
  · exact hv
  · exact h e he

end Object

namespace Json

theorem Distinct.get? {v w : Json} (hv : v.Distinct) {k : String} (hw : v.get? k = some w) :
    w.Distinct := by
  cases v with
  | obj fields => exact Object.Distinct.lookup hv hw
  | _ => contradiction

theorem Distinct.asObject? {v : Json} (hv : v.Distinct) {o : Object}
    (ho : v.asObject? = some o) : o.Distinct := by
  cases v with
  | obj fields =>
    rw [← Option.some.inj ho]
    exact hv
  | _ => contradiction

/-! ### Sameness -/

theorem sameItems_self {vs : List Json} (h : ∀ v ∈ vs, same v v = true) :
    sameItems vs vs = true := by
  induction vs with
  | nil => rfl
  | cons v vs ih =>
    rw [sameItems, Bool.and_eq_true]
    exact ⟨h v List.mem_cons_self, ih fun w hw => h w (List.mem_cons_of_mem v hw)⟩

/-- Each entry is found again among all. -/
theorem sameFields_of_lookup {xs ys : List (String × Json)}
    (h : ∀ e ∈ xs, ys.lookup e.1 = some e.2 ∧ same e.2 e.2 = true) :
    sameFields xs ys = true := by
  induction xs with
  | nil => rfl
  | cons e xs ih =>
    obtain ⟨hl, hs⟩ := h e List.mem_cons_self
    rw [sameFields, hl, Bool.and_eq_true]
    exact ⟨hs, ih fun d hd => h d (List.mem_cons_of_mem e hd)⟩

theorem Distinct.same_self {v : Json} (h : v.Distinct) : same v v = true := by
  induction h with
  | @scalar v h =>
    cases v with
    | null => rfl
    | bool | int | str => simp [same]
    | float x => exact Double.same_self x
    | arr | obj => contradiction
  | arr _ ih => exact sameItems_self ih
  | obj hk _ ih =>
    rw [same, beq_self_eq_true, Bool.true_and]
    exact sameFields_of_lookup fun e he => ⟨(Entries.lookup_eq_some_iff hk).mpr he, ih e he⟩

/-! ### Reading -/

/-- What a reader takes, if it succeeds, is of a kind. -/
def Yields {α : Type} (P : α → Prop) (r : Except Stop (α × List Char)) : Prop :=
  ∀ x rest, r = .ok (x, rest) → P x

section Yields

variable {α β : Type} {P : α → Prop} {Q : β → Prop}

theorem yields_ok {x : α} (hx : P x) (rest : List Char) : Yields P (.ok (x, rest)) := by
  intro y ys h
  obtain ⟨rfl, -⟩ := Prod.mk.inj (Except.ok.inj h)
  exact hx

theorem yields_error (e : Stop) : Yields P (.error e) := nofun

theorem Yields.bind {r : Except Stop (α × List Char)} (hr : Yields P r)
    {f : α × List Char → Except Stop (β × List Char)}
    (hf : ∀ x rest, P x → Yields Q (f (x, rest))) : Yields Q (r >>= f) := by
  match r, hr with
  | .error e, _ => exact yields_error e
  | .ok (x, rest), hr => exact hf x rest (hr x rest rfl)

/-- A step before that only moves on. -/
theorem yields_bind {γ : Type} {r : Except Stop γ} {f : γ → Except Stop (β × List Char)}
    (hf : ∀ x, Yields Q (f x)) :
    Yields Q (r >>= f) := by
  cases r with
  | error e => exact yields_error e
  | ok x => exact hf x

theorem Yields.map {r : Except Stop (α × List Char)} (hr : Yields P r) {f : α → β} (hf : ∀ x, P x → Q (f x)) :
    Yields Q (r.map fun (x, rest) => (f x, rest)) := by
  match r, hr with
  | .error e, _ => exact yields_error e
  | .ok (x, rest), hr => exact yields_ok (hf x (hr x rest rfl)) rest

end Yields

/-- A reader of scalars. -/
abbrev YieldsScalar (r : Step Json) : Prop := Yields (fun v => v.isScalar = true) r

theorem scalar_ok {v : Json} (hv : v.isScalar = true) (rest : List Char) :
    YieldsScalar (.ok (v, rest)) := yields_ok (P := fun v : Json => v.isScalar = true) hv rest

theorem word_yields {v : Json} (hv : v.isScalar = true) (ws cs : List Char) :
    YieldsScalar (word v ws cs) := by
  induction ws generalizing cs with
  | nil => exact scalar_ok hv cs
  | cons w ws ih =>
    cases cs with
    | nil => exact yields_error _
    | cons c cs =>
      rw [word]
      split
      · exact ih cs
      · exact yields_error _

section Number

variable (positive : Bool) (digits : Nat) (e : Int) (cs : List Char)

theorem floatOf_yields : YieldsScalar (floatOf positive digits e cs) := by
  unfold floatOf
  split
  · exact scalar_ok rfl cs
  · exact yields_error _

theorem exponentPart_yields : YieldsScalar (exponentPart positive digits e cs) := by
  unfold exponentPart
  split
  split
  · exact yields_error _
  · split
    · exact yields_error _
    · split
      · exact floatOf_yields _ _ _ _
      · split
        · exact yields_error _
        · exact scalar_ok rfl _

theorem afterDigits_yields : YieldsScalar (afterDigits positive digits e cs) := by
  unfold afterDigits
  split
  · exact exponentPart_yields _ _ _ _
  · exact exponentPart_yields _ _ _ _
  · exact floatOf_yields _ _ _ _

theorem fractionPart_yields : YieldsScalar (fractionPart positive digits e cs) := by
  unfold fractionPart
  split
  split
  · exact afterDigits_yields _ _ _ _
  · split
    · split <;> exact yields_error _
    · exact afterDigits_yields _ _ _ _

theorem wholePart_yields : YieldsScalar (wholePart positive digits cs) := by
  unfold wholePart
  split
  · exact fractionPart_yields _ _ _ _
  · exact exponentPart_yields _ _ _ _
  · exact exponentPart_yields _ _ _ _
  · split
    · exact scalar_ok rfl _
    · split <;> exact scalar_ok rfl _

theorem longPart_yields (dropped : Nat) :
    YieldsScalar (longPart positive digits dropped cs) := by
  unfold longPart
  split
  · exact fractionPart_yields _ _ _ _
  · exact afterDigits_yields _ _ _ _

theorem number_yields : YieldsScalar (number positive cs) := by
  unfold number
  split
  · exact yields_error _
  · split
    · exact yields_error _
    · exact wholePart_yields _ _ _
  · split
    · split
      split
      · exact longPart_yields _ _ _ _
      · exact wholePart_yields _ _ _
    · exact yields_error _

end Number

theorem YieldsScalar.distinct {r : Step Json} (h : YieldsScalar r) : Yields Distinct r :=
  fun v rest hr => .scalar (h v rest hr)

/-- What the readers of values, items and entries take with so much fuel. -/
structure Reads (fuel : Nat) : Prop where
  value : ∀ depth cs, Yields Distinct (value depth fuel cs)
  items : ∀ depth first cs, Yields (fun vs => ∀ v ∈ vs, v.Distinct) (items depth first fuel cs)
  entries : ∀ depth first read cs, Object.Distinct read →
    Yields Object.Distinct (entries depth first read fuel cs)

namespace Reads

variable {fuel : Nat} (h : Reads fuel)

include h

theorem value_succ (depth : Nat) (cs : List Char) : Yields Distinct (Json.value depth (fuel + 1) cs) := by
  rw [Json.value]
  split
  · exact yields_error _
  · exact (word_yields rfl _ _).distinct
  · exact (word_yields rfl _ _).distinct
  · exact (word_yields rfl _ _).distinct
  · exact (number_yields _ _).distinct
  · split
    · exact yields_error _
    · exact (h.items _ _ _).map fun _ => .arr
  · split
    · split
      · exact yields_error _
      · exact (h.entries _ _ _ _ Object.distinct_nil).map fun _ hes => hes
    · split
      · have hs (cs : List Char) : Yields (fun _ => True) (string cs) := fun _ _ _ => trivial
        exact (hs _).map fun _ _ => .scalar rfl
      · split
        · exact (number_yields _ _).distinct
        · exact yields_error _

theorem items_succ (depth : Nat) (first : Bool) (cs : List Char) :
    Yields (fun vs => ∀ v ∈ vs, v.Distinct) (Json.items depth first (fuel + 1) cs) := by
  rw [Json.items]
  split
  · exact yields_error _
  · exact yields_ok nofun _
  · refine yields_bind fun start => (h.value _ _).bind fun v rest hv =>
      (h.items _ _ _).bind fun vs rest hvs => yields_ok (fun w hw => ?_) _
    rcases List.mem_cons.mp hw with rfl | hw
    · exact hv
    · exact hvs w hw

theorem entries_succ (depth : Nat) (first : Bool) {read : Object} (hr : read.Distinct)
    (cs : List Char) : Yields Object.Distinct (Json.entries depth first read (fuel + 1) cs) := by
  rw [Json.entries]
  split
  · exact yields_error _
  · split
    · exact yields_ok hr _
    · exact yields_bind fun start => yields_bind fun (k, rest) => yields_bind fun rest =>
        (h.value _ _).bind fun v rest hv => h.entries _ _ _ _ (hr.put k hv)

end Reads

theorem reads (fuel : Nat) : Reads fuel := by
  induction fuel with
  | zero =>
    refine ⟨fun _ _ => ?_, fun _ _ _ => ?_, fun _ _ _ _ _ => ?_⟩
    · rw [value]
      exact yields_error _
    · rw [items]
      exact yields_error _
    · rw [entries]
      exact yields_error _
  | succ fuel ih =>
    exact ⟨ih.value_succ, ih.items_succ, fun depth first _ cs hr => ih.entries_succ depth first hr cs⟩

/-- What is read from a text has no key twice. -/
theorem read_distinct {text : String} {v : Json} (h : read text = .ok v) : v.Distinct := by
  unfold read readChars at h
  have hy := (reads (2 * text.toList.length + 2)).value 128 text.toList
  cases hv : value 128 (2 * text.toList.length + 2) text.toList with
  | error e =>
    rw [hv] at h
    contradiction
  | ok p =>
    obtain ⟨w, rest⟩ := p
    rw [hv] at h
    simp only [bind, Except.bind] at h
    split at h
    · rw [← Except.ok.inj h]
      exact hy w rest hv
    · contradiction

end Json

end NoteForms
