/-! Values stored under names. -/

namespace Abacus

/-- Values under names, each name once, in the order in which the names came first. -/
structure Store (α : Type) where
  entries : List (String × α)
deriving DecidableEq, Repr

namespace Store

variable {α : Type}

/-- The store without names. -/
def empty : Store α := ⟨[]⟩

instance : EmptyCollection (Store α) := ⟨empty⟩

/-- The value under a name. -/
def get? (s : Store α) (name : String) : Option α := s.entries.lookup name

/-- Whether there is a value under a name. -/
def contains (s : Store α) (name : String) : Bool := (s.get? name).isSome

/-- The entries with the value under a name replaced, or with a new entry at the end. -/
def setEntry (name : String) (value : α) : List (String × α) → List (String × α)
  | [] => [(name, value)]
  | entry :: rest =>
    if entry.1 = name then (name, value) :: rest else entry :: setEntry name value rest

/-- The store with a value put under a name. -/
def set (s : Store α) (name : String) (value : α) : Store α := ⟨setEntry name value s.entries⟩

/-- The store with the values of another one on top. -/
def extend (s upper : Store α) : Store α :=
  upper.entries.foldr (fun (name, value) s => s.set name value) s

/-- The store without a name and its value. -/
def erase (s : Store α) (name : String) : Store α := ⟨s.entries.filter (·.1 != name)⟩

@[simp] theorem get?_empty (name : String) : (empty : Store α).get? name = none := rfl

theorem get?_set_self (s : Store α) (name : String) (value : α) :
    (s.set name value).get? name = some value := by
  obtain ⟨entries⟩ := s
  simp only [set, get?]
  induction entries with
  | nil => simp [setEntry]
  | cons entry rest ih =>
    unfold setEntry
    split
    · simp
    · next other =>
      rw [List.lookup_cons]
      simp [beq_eq_false_iff_ne.mpr (Ne.symm other), ih]

theorem get?_set_ne (s : Store α) {name other : String} (value : α) (h : other ≠ name) :
    (s.set name value).get? other = s.get? other := by
  obtain ⟨entries⟩ := s
  simp only [set, get?]
  induction entries with
  | nil => simp [setEntry, List.lookup_cons, beq_eq_false_iff_ne.mpr h]
  | cons entry rest ih =>
    obtain ⟨key, old⟩ := entry
    unfold setEntry
    split
    · next same => simp only at same; subst same; simp [List.lookup_cons, beq_eq_false_iff_ne.mpr h]
    · simp only [List.lookup_cons, ih]

theorem get?_extend (s upper : Store α) (name : String) :
    (s.extend upper).get? name = (upper.get? name).or (s.get? name) := by
  obtain ⟨entries⟩ := upper
  simp only [extend, get?]
  induction entries with
  | nil => rfl
  | cons entry rest ih =>
    obtain ⟨key, value⟩ := entry
    rw [List.foldr_cons, List.lookup_cons]
    by_cases h : name = key
    · subst h
      rw [beq_self_eq_true]
      exact get?_set_self _ name value
    · rw [beq_eq_false_iff_ne.mpr h, ← ih]
      exact get?_set_ne _ value h

/-- The same values under the same names, in whatever order the names came. -/
def Same (s s' : Store α) : Prop := ∀ name, s.get? name = s'.get? name

theorem Same.contains_eq {s s' : Store α} (h : s.Same s') (name : String) :
    s.contains name = s'.contains name := by
  rw [contains, contains, h name]

theorem Same.set {s s' : Store α} (h : s.Same s') (name : String) (value : α) :
    (s.set name value).Same (s'.set name value) := by
  intro other
  by_cases hName : other = name
  · rw [hName, get?_set_self, get?_set_self]
  · rw [get?_set_ne _ _ hName, get?_set_ne _ _ hName, h other]

theorem contains_eq_true_iff {s : Store α} {name : String} :
    s.contains name = true ↔ ∃ value, (name, value) ∈ s.entries := by
  obtain ⟨entries⟩ := s
  simp only [contains, get?]
  induction entries with
  | nil => simp
  | cons entry rest ih =>
    obtain ⟨key, value⟩ := entry
    rw [List.lookup_cons]
    by_cases h : name = key
    · simp [h]
    · simp [beq_eq_false_iff_ne.mpr h, ih, h]

/-- A new name comes behind the others. -/
theorem set_of_contains_eq_false {s : Store α} {name : String} (h : s.contains name = false)
    (value : α) : s.set name value = ⟨s.entries ++ [(name, value)]⟩ := by
  obtain ⟨entries⟩ := s
  simp only [set, mk.injEq]
  induction entries with
  | nil => rfl
  | cons entry rest ih =>
    obtain ⟨key, old⟩ := entry
    have hOther : key ≠ name := by
      rintro rfl
      simp [contains, get?] at h
    have hRest : (⟨rest⟩ : Store α).contains name = false := by
      simpa [contains, get?, List.lookup_cons, beq_eq_false_iff_ne.mpr hOther.symm] using h
    simp [setEntry, hOther, ih hRest]

/-- Erasing a name takes back that it was put there. -/
theorem erase_append_self {s : Store α} {name : String} (h : s.contains name = false)
    (value : α) : erase ⟨s.entries ++ [(name, value)]⟩ name = s := by
  have hOthers : ∀ entry ∈ s.entries, (entry.1 != name) = true := by
    intro entry hMem
    refine bne_iff_ne.mpr fun hKey => ?_
    have hContains : s.contains name = true := contains_eq_true_iff.mpr ⟨entry.2, hKey ▸ hMem⟩
    rw [h] at hContains
    cases hContains
  simp [erase, List.filter_eq_self.mpr hOthers]

theorem get?_erase_self (s : Store α) (name : String) : (s.erase name).get? name = none := by
  obtain ⟨entries⟩ := s
  simp only [erase, get?]
  induction entries with
  | nil => rfl
  | cons entry rest ih =>
    by_cases h : entry.1 = name
    · simp [h, ih]
    · rw [List.filter_cons_of_pos (by simp [h]), List.lookup_cons]
      simp [beq_eq_false_iff_ne.mpr (Ne.symm h), ih]

end Store

end Abacus
