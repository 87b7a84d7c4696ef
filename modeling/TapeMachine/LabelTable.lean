/-! Label tables: names with the positions they stand for, in increasing order of name by code
point.  A table holds each name once, so two tables with the same bindings are equal. -/

namespace TapeMachine

/-- Names with their positions, in strictly increasing order of name. -/
structure LabelTable where
  /-- The names and positions, in order. -/
  entries : List (String × Nat)
  /-- The names strictly increase. -/
  ordered : entries.Pairwise fun a b => a.1 < b.1

namespace LabelTable

instance : DecidableEq LabelTable := fun a b =>
  if h : a.entries = b.entries then
    isTrue (by cases a; cases b; cases h; rfl)
  else isFalse fun e => h (e ▸ rfl)

/-- Binds a name in a list of entries: before the first greater name, or in place of the entry of
the same name. -/
def insertEntry (name : String) (position : Nat) : List (String × Nat) → List (String × Nat)
  | [] => [(name, position)]
  | entry :: rest =>
    if name < entry.1 then (name, position) :: entry :: rest
    else if name = entry.1 then (name, position) :: rest
    else entry :: insertEntry name position rest

/-- Inserting adds the new entry and no other. -/
theorem mem_insertEntry {name : String} {position : Nat} {entries : List (String × Nat)}
    {entry : String × Nat} (h : entry ∈ insertEntry name position entries) :
    entry = (name, position) ∨ entry ∈ entries := by
  induction entries with
  | nil => simpa [insertEntry] using h
  | cons first rest ih =>
    unfold insertEntry at h
    split at h
    · simpa using h
    · split at h
      · rcases List.mem_cons.1 h with h | h
        · exact .inl h
        · exact .inr (List.mem_cons_of_mem _ h)
      · rcases List.mem_cons.1 h with h | h
        · exact .inr (h ▸ List.mem_cons_self)
        · exact (ih h).imp_right (List.mem_cons_of_mem _)

/-- Inserting keeps the names in order. -/
theorem pairwise_insertEntry (name : String) (position : Nat) {entries : List (String × Nat)}
    (h : entries.Pairwise fun a b => a.1 < b.1) :
    (insertEntry name position entries).Pairwise fun a b => a.1 < b.1 := by
  induction entries with
  | nil => simp [insertEntry]
  | cons first rest ih =>
    obtain ⟨hFirst, hRest⟩ := List.pairwise_cons.1 h
    unfold insertEntry
    split
    case isTrue hLess =>
      refine List.pairwise_cons.2 ⟨fun entry hEntry => ?_, h⟩
      rcases List.mem_cons.1 hEntry with rfl | hEntry
      · exact hLess
      · exact String.lt_trans hLess (hFirst entry hEntry)
    case isFalse hNotLess =>
      split
      case isTrue hSame =>
        exact List.pairwise_cons.2 ⟨fun entry hEntry => hSame ▸ hFirst entry hEntry, hRest⟩
      case isFalse hOther =>
        refine List.pairwise_cons.2 ⟨fun entry hEntry => ?_, ih hRest⟩
        rcases mem_insertEntry hEntry with rfl | hEntry
        · exact Decidable.byContradiction fun hNotGreater => hOther
            (String.le_antisymm (String.not_lt.1 hNotGreater) (String.not_lt.1 hNotLess))
        · exact hFirst entry hEntry

/-- The table without names. -/
def empty : LabelTable :=
  ⟨[], .nil⟩

/-- The table in which a name stands for a position, whatever it stood for before. -/
def insert (table : LabelTable) (name : String) (position : Nat) : LabelTable :=
  ⟨insertEntry name position table.entries, pairwise_insertEntry name position table.ordered⟩

/-- The position that a name stands for. -/
def get? (table : LabelTable) (name : String) : Option Nat :=
  table.entries.lookup name

/-- The table of a list of bindings, where a later binding of a name replaces an earlier one. -/
def ofList (bindings : List (String × Nat)) : LabelTable :=
  bindings.foldl (fun table binding => table.insert binding.1 binding.2) empty

end LabelTable

end TapeMachine
