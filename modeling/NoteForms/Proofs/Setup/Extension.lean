import Mathlib.Data.List.TakeWhile
import NoteForms.Setup.Configuration

/-! Two readings of a path that agree. Whether the whole text of a file is a JSON value is read
off the end of its path; its extension is read off the last name, after the last dot there.
There is no slash in an extension, so the last name ends as the path does, and the dots in the
names of folders do not matter; there is no dot in it either, so the last dot is the one in
front of it. -/

namespace NoteForms.Setup

/-! ### After the last -/

theorem afterLast?_append {c : Char} {after : List Char} (h : c ∉ after) (before : List Char) :
    afterLast? c (before ++ c :: after) = some after := by
  have hrev : (before ++ c :: after).reverse = after.reverse ++ c :: before.reverse := by simp
  have hpos : ∀ d ∈ after.reverse, decide (d ≠ c) = true := by
    intro d hd
    have hne : d ≠ c := fun he => h (he ▸ List.mem_reverse.mp hd)
    simpa using hne
  have hmem : (before ++ c :: after).contains c = true := by simp
  rw [afterLast?, if_pos hmem, hrev, List.takeWhile_append_of_pos hpos,
    List.takeWhile_cons_of_neg (by simp), List.append_nil, List.reverse_reverse]

theorem afterLast?_eq_none_iff {c : Char} {cs : List Char} : afterLast? c cs = none ↔ c ∉ cs := by
  simp [afterLast?]

theorem afterLast?_eq_some_iff {c : Char} {cs after : List Char} :
    afterLast? c cs = some after ↔ ∃ before, cs = before ++ c :: after ∧ c ∉ after := by
  constructor
  · intro h
    have hmem : c ∈ cs.reverse := by
      by_contra hno
      rw [afterLast?_eq_none_iff.mpr fun hc => hno (List.mem_reverse.mpr hc)] at h
      contradiction
    -- the last one is the first from the end
    obtain ⟨as, bs, hrev, has⟩ := List.eq_append_cons_of_mem hmem
    have hcs : cs = bs.reverse ++ c :: as.reverse := by
      rw [← List.reverse_reverse cs, hrev]
      simp
    have has' : c ∉ as.reverse := fun hc => has (List.mem_reverse.mp hc)
    rw [hcs, afterLast?_append has'] at h
    rw [← Option.some.inj h]
    exact ⟨bs.reverse, hcs, has'⟩
  · rintro ⟨before, rfl, hno⟩
    exact afterLast?_append hno before

/-! ### The last name -/

/-- What stands after the last slash of a path, or all of it. -/
def lastName (cs : List Char) : List Char := (afterLast? '/' cs).getD cs

theorem exists_append_lastName (cs : List Char) : ∃ folder, cs = folder ++ lastName cs := by
  unfold lastName
  cases h : afterLast? '/' cs with
  | none => exact ⟨[], rfl⟩
  | some name =>
    obtain ⟨before, hcs, -⟩ := afterLast?_eq_some_iff.mp h
    exact ⟨before ++ ['/'], by simpa using hcs⟩

/-- Text without a slash goes to the last name. -/
theorem lastName_append {ending : List Char} (h : '/' ∉ ending) (cs : List Char) :
    lastName (cs ++ ending) = lastName cs ++ ending := by
  unfold lastName
  cases hc : afterLast? '/' cs with
  | none =>
    have hno : '/' ∉ cs ++ ending := by
      rw [List.mem_append, not_or]
      exact ⟨afterLast?_eq_none_iff.mp hc, h⟩
    rw [afterLast?_eq_none_iff.mpr hno]
    rfl
  | some name =>
    obtain ⟨before, rfl, hname⟩ := afterLast?_eq_some_iff.mp hc
    have hno : '/' ∉ name ++ ending := by
      rw [List.mem_append, not_or]
      exact ⟨hname, h⟩
    rw [List.append_assoc, List.cons_append, afterLast?_append hno]
    rfl

/-! ### Extensions -/

theorem extension?_eq (path : String) : extension? path =
    ((afterLast? '.' (lastName path.toList)).filter (!·.isEmpty)).map String.ofList := by
  unfold extension? lastName
  dsimp only
  cases afterLast? '.' ((afterLast? '/' path.toList).getD path.toList) with
  | none => rfl
  | some cs => cases cs <;> rfl

theorem extension?_eq_some {path ext : String} :
    extension? path = some ext ↔
      ext ≠ "" ∧ afterLast? '.' (lastName path.toList) = some ext.toList := by
  have hempty : ext.toList.isEmpty = false ↔ ext ≠ "" := by simp
  rw [extension?_eq, Option.map_eq_some_iff]
  constructor
  · rintro ⟨cs, hcs, rfl⟩
    rw [Option.filter_eq_some_iff] at hcs
    rw [← hempty, String.toList_ofList]
    exact ⟨by simpa using hcs.2, hcs.1⟩
  · rintro ⟨hne, hcs⟩
    refine ⟨ext.toList, Option.filter_eq_some_iff.mpr ⟨hcs, ?_⟩, String.ofList_toList⟩
    rw [hempty.mpr hne]
    rfl

/-- A path has an extension exactly if it ends with a dot and that. -/
theorem extension?_eq_some_iff {path ext : String} (hslash : '/' ∉ ext.toList)
    (hdot : '.' ∉ ext.toList) (hne : ext ≠ "") :
    extension? path = some ext ↔ '.' :: ext.toList <:+ path.toList := by
  rw [extension?_eq_some, afterLast?_eq_some_iff]
  constructor
  · rintro ⟨-, before, hname, -⟩
    obtain ⟨folder, hpath⟩ := exists_append_lastName path.toList
    exact ⟨folder ++ before, by rw [hpath, hname, List.append_assoc]⟩
  · rintro ⟨start, hpath⟩
    have hno : '/' ∉ '.' :: ext.toList := by simp [hslash]
    refine ⟨hne, lastName start, ?_, hdot⟩
    rw [← hpath, lastName_append hno]

/-- Whatever the path, the file is taken for a JSON one exactly if that is its extension. -/
theorem FileKey.isJson_iff_extension (f : FileKey) :
    f.isJson = true ↔ extension? f.path = some "json" := by
  have hext : ".json".toList = '.' :: "json".toList := by decide
  rw [FileKey.isJson, isJsonPath, List.isSuffixOf_iff_suffix, hext,
    extension?_eq_some_iff (by decide) (by decide) (by decide)]

-- A name that is hidden, a dot in a folder, and a path that ends with a slash.
example : (["a/.json", "a.json/b", "a.json/"].map fun path => (FileKey.mk path "k").isJson) =
    [true, false, false] := by decide

end NoteForms.Setup
