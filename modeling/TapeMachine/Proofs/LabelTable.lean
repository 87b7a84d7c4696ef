import TapeMachine.LabelTable

/-! Lookups in label tables.  `get?_insert` says what a binding does to every name, and `ext_get?`
that a table is determined by its lookups, so that tables built in different orders can be
compared. -/

namespace TapeMachine.LabelTable

@[simp] theorem get?_empty (name : String) : empty.get? name = none := rfl

theorem lookup_cons_ite (entry : String × Nat) (entries : List (String × Nat)) (name : String) :
    (entry :: entries).lookup name =
      if name = entry.1 then some entry.2 else entries.lookup name := by
  rw [List.lookup_cons]
  by_cases h : name = entry.1
  · simp [h]
  · rw [beq_false_of_ne h]
    simp [h]

theorem lookup_insertEntry (name : String) (position : Nat) (entries : List (String × Nat))
    (other : String) :
    (insertEntry name position entries).lookup other =
      if other = name then some position else entries.lookup other := by
  induction entries with
  | nil => rw [insertEntry, lookup_cons_ite]
  | cons first rest ih =>
    unfold insertEntry
    split
    · rw [lookup_cons_ite]
    · split
      case isTrue hSame =>
        rw [lookup_cons_ite, lookup_cons_ite, ← hSame]
        split <;> rfl
      case isFalse hOther =>
        rw [lookup_cons_ite, lookup_cons_ite, ih]
        by_cases h : other = first.1
        · simp [h, Ne.symm hOther]
        · simp [h]

/-- A binding decides the lookup of its own name and no other. -/
@[simp] theorem get?_insert (table : LabelTable) (name : String) (position : Nat)
    (other : String) :
    (table.insert name position).get? other =
      if other = name then some position else table.get? other :=
  lookup_insertEntry name position table.entries other

section Order

variable {entries : List (String × Nat)} {first : String × Nat} {name : String}

theorem lookup_eq_none_of_lt (h : ∀ entry ∈ entries, name < entry.1) :
    entries.lookup name = none := by
  rw [List.lookup_eq_none_iff]
  intro entry hEntry
  have hLess := h entry hEntry
  rw [bne_iff_ne]
  rintro rfl
  exact String.lt_irrefl _ hLess

/-- No bound name comes before the first one. -/
theorem first_le_of_lookup (hOrder : (first :: entries).Pairwise fun a b => a.1 < b.1)
    (h : (first :: entries).lookup name ≠ none) : first.1 ≤ name := by
  obtain ⟨hFirst, -⟩ := List.pairwise_cons.1 hOrder
  apply String.not_lt.1
  intro hLess
  refine h (lookup_eq_none_of_lt fun entry hEntry => ?_)
  rcases List.mem_cons.1 hEntry with rfl | hEntry
  · exact hLess
  · exact String.lt_trans hLess (hFirst entry hEntry)

theorem lookup_of_mem {entry : String × Nat} (hOrder : entries.Pairwise fun a b => a.1 < b.1)
    (h : entry ∈ entries) : entries.lookup entry.1 = some entry.2 := by
  induction entries with
  | nil => cases h
  | cons first rest ih =>
    obtain ⟨hFirst, hRest⟩ := List.pairwise_cons.1 hOrder
    rw [lookup_cons_ite]
    rcases List.mem_cons.1 h with rfl | hLater
    · rw [if_pos rfl]
    · have hOther : entry.1 ≠ first.1 := by
        intro hSame
        exact String.lt_irrefl _ (hSame ▸ hFirst entry hLater)
      rw [if_neg hOther, ih hRest hLater]

end Order

/-- Every entry is what the lookup of its name gives. -/
theorem get?_of_mem (table : LabelTable) {entry : String × Nat} (h : entry ∈ table.entries) :
    table.get? entry.1 = some entry.2 :=
  lookup_of_mem table.ordered h

theorem eq_of_lookup_eq {xs ys : List (String × Nat)}
    (hxs : xs.Pairwise fun a b => a.1 < b.1) (hys : ys.Pairwise fun a b => a.1 < b.1)
    (h : ∀ name, xs.lookup name = ys.lookup name) : xs = ys := by
  induction xs generalizing ys with
  | nil =>
    cases ys with
    | nil => rfl
    | cons y ys =>
      have := h y.1
      simp [lookup_cons_ite] at this
  | cons x xs ih =>
    cases ys with
    | nil =>
      have := h x.1
      simp [lookup_cons_ite] at this
    | cons y ys =>
      -- Each first name is bound on the other side too, so neither comes before the other.
      have hKey : x.1 = y.1 := by
        apply String.le_antisymm
        · apply first_le_of_lookup hxs
          rw [h, lookup_cons_ite]
          simp
        · apply first_le_of_lookup hys
          rw [← h, lookup_cons_ite]
          simp
      have hValue : x.2 = y.2 := by
        have := h x.1
        rw [lookup_cons_ite, lookup_cons_ite] at this
        simpa [hKey] using this
      obtain ⟨hx, hxs⟩ := List.pairwise_cons.1 hxs
      obtain ⟨hy, hys⟩ := List.pairwise_cons.1 hys
      rw [Prod.ext hKey hValue, ih hxs hys]
      intro name
      by_cases hName : name = x.1
      · rw [hName, lookup_eq_none_of_lt hx, hKey, lookup_eq_none_of_lt hy]
      · have := h name
        rw [lookup_cons_ite, lookup_cons_ite, ← hKey] at this
        simpa [hName] using this

/-- Tables with the same lookups are equal. -/
theorem ext_get? {a b : LabelTable} (h : ∀ name, a.get? name = b.get? name) : a = b := by
  have hEntries : a.entries = b.entries := eq_of_lookup_eq a.ordered b.ordered h
  cases a
  cases b
  cases hEntries
  rfl

end TapeMachine.LabelTable
