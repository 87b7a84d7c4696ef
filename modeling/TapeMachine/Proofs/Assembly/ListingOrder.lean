import TapeMachine.Proofs.Assembly.Listing

/-! The order of the lines of a listing.  Each line is a row, of a label or of an instruction; a
label stands after as many instructions as its position says, or after all of them. -/

namespace TapeMachine.Program

/-! ### Rows -/

/-- A line of a listing: a label with the position it stands for, or the instruction at a
position. -/
inductive Row where
  | label (name : String) (position : Nat)
  | code (position : Nat) (instruction : Instruction)

namespace Row

/-- An instruction is shown after its position, which has at least four digits. -/
def text : Row → String
  | label name _ => name ++ ":"
  | code position instruction =>
    String.ofList (List.replicate (4 - (Text.decimal position).length) '0')
      ++ Text.decimal position ++ "  " ++ instruction.text

def label? : Row → Option (String × Nat)
  | label name position => some (name, position)
  | code _ _ => none

def code? : Row → Option (Instruction × Nat)
  | label _ _ => none
  | code position instruction => some (instruction, position)

def ofLabel (entry : String × Nat) : Row :=
  label entry.1 entry.2

/-- A label stands before the instructions from its position on and after the others. -/
def Before : Row → Row → Prop
  | label _ position, code place _ => position ≤ place
  | code place _, label _ position => place < position
  | _, _ => True

theorem code?_eq_some_iff {row : Row} {x : Instruction × Nat} :
    row.code? = some x ↔ row = code x.2 x.1 := by
  cases row <;> simp [code?, Prod.ext_iff, and_comm]

theorem text_code (position : Nat) (i : Instruction) :
    (code position i).text = instructionLine position i := by
  simp [text, instructionLine, Text.zeroPad, Text.decimal]

end Row

open Row

def rowsFrom (position : Nat) : List Instruction → List (String × Nat) → List Row
  | [], labels => labels.map ofLabel
  | i :: is, labels =>
    (labels.takeWhile fun entry => entry.2 == position).map ofLabel
      ++ code position i
        :: rowsFrom (position + 1) is (labels.dropWhile fun entry => entry.2 == position)

section Rows

variable (position : Nat) (is : List Instruction) (labels : List (String × Nat))

theorem listingFrom_eq_rows :
    listingFrom position is labels = (rowsFrom position is labels).map text := by
  induction is generalizing position labels with
  | nil => rw [listingFrom, rowsFrom, List.map_map]; rfl
  | cons i is ih =>
    rw [listingFrom, rowsFrom, List.map_append, List.map_cons, List.map_map, ih, text_code]
    rfl

theorem filterMap_label?_map (labels : List (String × Nat)) :
    (labels.map ofLabel).filterMap label? = labels := by
  rw [List.filterMap_map]
  exact List.filterMap_some

theorem filterMap_code?_map (labels : List (String × Nat)) :
    (labels.map ofLabel).filterMap code? = [] := by
  rw [List.filterMap_map]
  exact List.filterMap_eq_nil_iff.2 fun _ _ => rfl

theorem labels_rowsFrom : (rowsFrom position is labels).filterMap label? = labels := by
  induction is generalizing position labels with
  | nil => exact filterMap_label?_map labels
  | cons i is ih =>
    rw [rowsFrom, List.filterMap_append, filterMap_label?_map, List.filterMap_cons_none rfl, ih,
      List.takeWhile_append_dropWhile]

theorem codes_rowsFrom : (rowsFrom position is labels).filterMap code? = is.zipIdx position := by
  induction is generalizing position labels with
  | nil => exact filterMap_code?_map labels
  | cons i is ih =>
    rw [rowsFrom, List.filterMap_append, filterMap_code?_map, List.nil_append, List.zipIdx_cons,
      ← ih (position + 1) (labels.dropWhile fun entry => entry.2 == position)]
    rfl

end Rows

theorem pairwise_rowsFrom {position : Nat} {is : List Instruction} {labels : List (String × Nat)}
    (hOrdered : labels.Pairwise fun a b => a.2 ≤ b.2)
    (hFrom : ∀ entry ∈ labels, position ≤ entry.2) :
    (rowsFrom position is labels).Pairwise Before := by
  have hLabels (labels : List (String × Nat)) : (labels.map ofLabel).Pairwise Before :=
    List.pairwise_map.2 (List.pairwise_of_forall fun _ _ => trivial)
  induction is generalizing position labels with
  | nil => exact hLabels labels
  | cons i is ih =>
    have hLater (entry : String × Nat)
        (hEntry : entry ∈ labels.dropWhile fun entry => entry.2 == position) :
        position + 1 ≤ entry.2 :=
      position_lt_of_mem_dropWhile hOrdered hFrom hEntry
    have hRest := ih (hOrdered.sublist (List.dropWhile_sublist _)) hLater
    rw [rowsFrom, List.pairwise_append, List.pairwise_cons]
    refine ⟨hLabels _, ⟨?_, hRest⟩, ?_⟩
    · intro row hRow
      cases row with
      | code => trivial
      | label name place =>
        refine hLater (name, place) ?_
        rw [← labels_rowsFrom (position + 1) is (labels.dropWhile _)]
        exact List.mem_filterMap.2 ⟨_, hRow, rfl⟩
    · intro row hRow other hOther
      obtain ⟨entry, hEntry, rfl⟩ := List.mem_map.1 hRow
      have hHere : entry.2 = position := by simpa using List.mem_takeWhile_imp hEntry
      cases other with
      | label => trivial
      | code place j =>
        show entry.2 ≤ place
        rcases List.mem_cons.1 hOther with hSame | hAfter
        · cases hSame
          omega
        · have hIndex : (j, place) ∈ is.zipIdx (position + 1) := by
            rw [← codes_rowsFrom (position + 1) is (labels.dropWhile _)]
            exact List.mem_filterMap.2 ⟨_, hAfter, rfl⟩
          have := List.le_snd_of_mem_zipIdx hIndex
          dsimp only at this
          omega

/-- In a list with positions, the entries below a bound are as many as the bound says. -/
theorem length_of_zipIdx {before after : List (Instruction × Nat)} {is : List Instruction}
    {position : Nat} (h : before ++ after = is.zipIdx) (hBefore : ∀ x ∈ before, x.2 < position)
    (hAfter : ∀ x ∈ after, position ≤ x.2) : before.length = min position is.length := by
  have hLength : before.length + after.length = is.length := by
    rw [← List.length_append, h, List.length_zipIdx]
  have hIndex (k : Nat) (x : Instruction × Nat) (hx : (before ++ after)[k]? = some x) :
      x.2 = k := by
    rw [h, List.getElem?_zipIdx] at hx
    obtain ⟨i, -, rfl⟩ := Option.map_eq_some_iff.1 hx
    simp
  have hLow : before.length ≤ position := by
    by_contra hMore
    have hLess : position < before.length := by omega
    have hx := hIndex position before[position] (by
      rw [List.getElem?_append_left hLess, List.getElem?_eq_getElem hLess])
    have := hBefore _ (List.getElem_mem hLess)
    omega
  have hHigh : position ≤ before.length ∨ after = [] := by
    cases after with
    | nil => exact .inr rfl
    | cons x rest =>
      left
      have hx := hIndex before.length x (by simp)
      have := hAfter x List.mem_cons_self
      omega
  rcases hHigh with hReached | rfl
  · omega
  · rw [List.length_nil] at hLength
    omega

theorem length_codes_before {before after : List Row} {name : String} {position : Nat}
    {is : List Instruction} (h : (before ++ label name position :: after).Pairwise Before)
    (hCodes : (before ++ label name position :: after).filterMap code? = is.zipIdx) :
    (before.filterMap code?).length = min position is.length := by
  obtain ⟨-, hLater, hEarlier⟩ := List.pairwise_append.1 h
  rw [List.filterMap_append, List.filterMap_cons_none rfl] at hCodes
  refine length_of_zipIdx hCodes ?_ ?_
  · intro x hx
    obtain ⟨row, hRow, hCode⟩ := List.mem_filterMap.1 hx
    obtain rfl := code?_eq_some_iff.1 hCode
    exact hEarlier _ hRow _ List.mem_cons_self
  · intro x hx
    obtain ⟨row, hRow, hCode⟩ := List.mem_filterMap.1 hx
    obtain rfl := code?_eq_some_iff.1 hCode
    exact (List.pairwise_cons.1 hLater).1 _ hRow

/-- A listing has a row for each instruction, in order, and one for each label, by position and
then by name; a label has before it the instructions before its position, which are all of them if
it is at the end or beyond. -/
theorem listing_in_order (program : Program) :
    ∃ rows : List Row,
      program.listing = String.join (rows.map fun row => row.text ++ "\n") ∧
      rows.filterMap code? = program.instructions.zipIdx ∧
      (rows.filterMap label?).Perm program.labels.entries ∧
      (rows.filterMap label?).Pairwise Precedes ∧
      ∀ before name position after, rows = before ++ label name position :: after →
        (before.filterMap code?).length = min position program.length := by
  have hSorted := sortByPosition_precedes program.labels.ordered
  have hCodes := codes_rowsFrom 0 program.instructions (sortByPosition program.labels.entries)
  have hLabels := labels_rowsFrom 0 program.instructions (sortByPosition program.labels.entries)
  refine ⟨rowsFrom 0 program.instructions (sortByPosition program.labels.entries), ?_, hCodes,
    ?_, ?_, ?_⟩
  · rw [listing, listingLines, listingFrom_eq_rows, List.map_map]
    rfl
  · rw [hLabels]
    exact sortByPosition_perm _
  · rwa [hLabels]
  · intro before name position after hRows
    have hPlaced : (rowsFrom 0 program.instructions
        (sortByPosition program.labels.entries)).Pairwise Before :=
      pairwise_rowsFrom (hSorted.imp Precedes.position_le) fun _ _ => Nat.zero_le _
    rw [hRows] at hPlaced hCodes
    exact length_codes_before hPlaced hCodes

example :
    listing ⟨[.term, .ret], .ofList [("on", 1), ("at", 1), ("far", 9), ("end", 2), ("past", 2)]⟩ =
      "0000  TERM\nat:\non:\n0001  RET\nend:\npast:\nfar:\n" := by
  decide +kernel

end TapeMachine.Program
