import TapeMachine.Proofs.Assembly.Jumps
import TapeMachine.Proofs.Assembly.RoundTrip

/-! The listing of an assembled program determines the program.  Lines with a blank show
instructions and lines without one show labels, whatever the names are, because a name holds no
blank.  So a listing gives back the labels before each instruction and those at the end
(`listingFrom_injective`), and a label table is what is left of its entries in any order. -/

namespace TapeMachine

open Source

/-! ### Printed instructions -/

theorem Operand.text_injective {a b : Operand} (h : a.text = b.text) : a = b := by
  have hSpelling : spelling a.text = spelling b.text := by rw [h]
  rw [spelling_text, spelling_text, Spelling.mk.injEq] at hSpelling
  obtain ⟨hNumber, hMark⟩ := hSpelling
  have hPayload : some a.payload = some b.payload := by
    rw [← Numeral.int64?_ofInt64, hNumber, Numeral.int64?_ofInt64]
  cases a
  cases b
  cases hPayload
  cases hMark
  rfl

theorem Opcode.mnemonic_injective {op op' : Opcode} (h : op.mnemonic = op'.mnemonic) :
    op = op' := by
  have hRead : some op = some op' := by
    rw [← Opcode.ofMnemonic?_mnemonic, h, Opcode.ofMnemonic?_mnemonic]
  exact Option.some.inj hRead

namespace Instruction

theorem words_injective {i j : Instruction} (h : i.words = j.words) : i = j := by
  obtain ⟨hMnemonic, hTexts⟩ := List.cons.inj h
  exact eq_of_operands (Opcode.mnemonic_injective hMnemonic)
    (List.map_injective_iff.2 (fun _ _ => Operand.text_injective) hTexts)

theorem text_injective {i j : Instruction} (h : i.text = j.text) : i = j := by
  have hWords (k : Instruction) : (tokenize k.text).map Token.text = k.words := by
    rw [text_eq_intercalate]
    exact texts_tokenize fun word hWord => isWord_of_mem_words hWord
  apply words_injective
  rw [← hWords i, h, hWords j]

theorem isLine_text (i : Instruction) : Text.IsLine i.text := by
  rw [text_eq_intercalate, words]
  exact isLine_intercalate fun word hWord => isWord_of_mem_words hWord

end Instruction

namespace Program

/-! ### Labels by position -/

theorem insertByPosition_perm (entry : String × Nat) (entries : List (String × Nat)) :
    (insertByPosition entry entries).Perm (entry :: entries) := by
  induction entries with
  | nil => exact .refl _
  | cons first rest ih =>
    unfold insertByPosition
    split
    · exact .refl _
    · exact (ih.cons first).trans (.swap entry first rest)

/-- The order of labels in a listing: by position, and at one position by name. -/
def Precedes (a b : String × Nat) : Prop :=
  a.2 < b.2 ∨ a.2 = b.2 ∧ a.1 < b.1

theorem Precedes.position_le {a b : String × Nat} (h : Precedes a b) : a.2 ≤ b.2 := by
  unfold Precedes at h
  omega

theorem insertByPosition_precedes (entry : String × Nat) {entries : List (String × Nat)}
    (h : entries.Pairwise Precedes) (hLast : ∀ other ∈ entries, other.1 < entry.1) :
    (insertByPosition entry entries).Pairwise Precedes := by
  induction entries with
  | nil => exact List.pairwise_singleton _ _
  | cons first rest ih =>
    obtain ⟨hFirst, hRest⟩ := List.pairwise_cons.1 h
    unfold insertByPosition
    split
    case isTrue hBefore =>
      refine List.pairwise_cons.2 ⟨?_, h⟩
      intro other hOther
      left
      rcases List.mem_cons.1 hOther with rfl | hLater
      · exact hBefore
      · have := (hFirst other hLater).position_le
        omega
    case isFalse hAfter =>
      obtain ⟨hNamed, hNamedRest⟩ := List.forall_mem_cons.1 hLast
      refine List.pairwise_cons.2 ⟨?_, ih hRest hNamedRest⟩
      intro other hOther
      rcases List.mem_cons.1 ((insertByPosition_perm entry rest).mem_iff.1 hOther) with rfl | hLater
      · rcases Nat.lt_or_eq_of_le (Nat.not_lt.1 hAfter) with hLess | hSame
        · exact .inl hLess
        · exact .inr ⟨hSame, hNamed⟩
      · exact hFirst other hLater

theorem sortByPosition_perm (entries : List (String × Nat)) :
    (sortByPosition entries).Perm entries := by
  have hFold (entries sorted : List (String × Nat)) :
      (entries.foldl (fun sorted entry => insertByPosition entry sorted) sorted).Perm
        (entries ++ sorted) := by
    induction entries generalizing sorted with
    | nil => exact .refl _
    | cons entry entries ih =>
      have hInsert := (insertByPosition_perm entry sorted).append_left entries
      exact ((ih _).trans hInsert).trans List.perm_middle
  have hAll := hFold entries []
  rwa [List.append_nil] at hAll

theorem sortByPosition_precedes {entries : List (String × Nat)}
    (h : entries.Pairwise fun a b => a.1 < b.1) : (sortByPosition entries).Pairwise Precedes := by
  -- Entries come in the order of their names, so each is inserted after those of its position.
  have hFold (entries sorted : List (String × Nat)) (h : entries.Pairwise fun a b => a.1 < b.1)
      (hSorted : sorted.Pairwise Precedes) (hLater : ∀ a ∈ sorted, ∀ b ∈ entries, a.1 < b.1) :
      (entries.foldl (fun sorted entry => insertByPosition entry sorted) sorted).Pairwise
        Precedes := by
    induction entries generalizing sorted with
    | nil => exact hSorted
    | cons entry entries ih =>
      obtain ⟨hEntry, hEntries⟩ := List.pairwise_cons.1 h
      refine ih _ hEntries (insertByPosition_precedes entry hSorted fun a ha =>
        hLater a ha entry List.mem_cons_self) ?_
      intro a ha b hb
      rcases List.mem_cons.1 ((insertByPosition_perm entry sorted).mem_iff.1 ha) with rfl | hOld
      · exact hEntry b hb
      · exact hLater a hOld b (List.mem_cons_of_mem _ hb)
  exact hFold entries [] h .nil (by simp)

theorem position_lt_of_mem_dropWhile {position : Nat} {labels : List (String × Nat)}
    (hOrdered : labels.Pairwise fun a b => a.2 ≤ b.2) (hFrom : ∀ entry ∈ labels, position ≤ entry.2)
    {entry : String × Nat}
    (h : entry ∈ labels.dropWhile fun entry => entry.2 == position) : position < entry.2 := by
  induction labels with
  | nil => cases h
  | cons first rest ih =>
    obtain ⟨hFirst, hRest⟩ := List.pairwise_cons.1 hOrdered
    obtain ⟨hFirstFrom, hRestFrom⟩ := List.forall_mem_cons.1 hFrom
    by_cases hHere : first.2 = position
    · rw [List.dropWhile_cons_of_pos (by simpa using hHere)] at h
      exact ih hRest hRestFrom h
    · rw [List.dropWhile_cons_of_neg (by simpa using hHere)] at h
      rcases List.mem_cons.1 h with rfl | hLater
      · omega
      · have := hFirst entry hLater
        omega

/-! ### Lines -/

/-- What the lines of a listing from `position` on are made of: labels in order of their positions,
which lie between the first instruction and the end. -/
structure Shown (position : Nat) (is : List Instruction) (labels : List (String × Nat)) :
    Prop where
  names : ∀ entry ∈ labels, IsName entry.1
  within : ∀ entry ∈ labels, position ≤ entry.2 ∧ entry.2 ≤ position + is.length
  ordered : labels.Pairwise fun a b => a.2 ≤ b.2

section Lines

variable {position : Nat} {labels labels' : List (String × Nat)}

theorem blank_not_mem_labelLine {name : String} (h : IsName name) :
    ' ' ∉ (labelLine name).toList := by
  intro hBlank
  rw [labelLine, String.toList_append, List.mem_append] at hBlank
  rcases hBlank with hName | hColon
  · exact absurd (h.unbroken.unbroken ' ' hName) (by decide)
  · exact absurd hColon (by decide)

theorem blank_mem_instructionLine (position : Nat) (i : Instruction) :
    ' ' ∈ (instructionLine position i).toList := by
  simp [instructionLine]

theorem instructionLine_injective {i j : Instruction}
    (h : instructionLine position i = instructionLine position j) : i = j := by
  apply Instruction.text_injective
  have hChars := congrArg String.toList h
  simp only [instructionLine, String.toList_append, List.append_cancel_left_eq] at hChars
  exact String.toList_inj.1 hChars

/-- The lines of labels at one position give back the labels. -/
theorem eq_of_labelLines (h : ∀ entry ∈ labels, entry.2 = position)
    (h' : ∀ entry ∈ labels', entry.2 = position)
    (hLines : labels.map (fun entry => labelLine entry.1) =
      labels'.map fun entry => labelLine entry.1) : labels = labels' := by
  induction labels generalizing labels' with
  | nil => rw [List.map_eq_nil_iff.1 hLines.symm]
  | cons entry labels ih =>
    obtain ⟨entry', rest, rfl, hLine, hRest⟩ := List.map_eq_cons_iff.1 hLines.symm
    obtain ⟨hHere, hLater⟩ := List.forall_mem_cons.1 h
    obtain ⟨hHere', hLater'⟩ := List.forall_mem_cons.1 h'
    have hName : entry'.1 = entry.1 := by
      have hChars := congrArg String.toList hLine
      simp only [labelLine, String.toList_append, List.append_cancel_right_eq] at hChars
      exact String.toList_inj.1 hChars
    rw [ih hLater hLater' hRest.symm, Prod.ext hName (hHere'.trans hHere.symm)]

theorem takeWhile_labelLines (h : ∀ entry ∈ labels, IsName entry.1) (i : Instruction)
    (rest : List String) :
    (labels.map (fun entry => labelLine entry.1) ++ instructionLine position i :: rest).takeWhile
        (fun line => !line.toList.contains ' ') =
      labels.map fun entry => labelLine entry.1 := by
  have hLabels : ∀ line ∈ labels.map (fun entry => labelLine entry.1),
      (!line.toList.contains ' ') = true := by
    intro line hLine
    obtain ⟨entry, hEntry, rfl⟩ := List.mem_map.1 hLine
    simpa using blank_not_mem_labelLine (h entry hEntry)
  rw [List.takeWhile_append_of_pos hLabels, List.takeWhile_cons_of_neg, List.append_nil]
  simpa using blank_mem_instructionLine position i

/-- Labels alone never show an instruction. -/
theorem instructionLine_not_mem (h : ∀ entry ∈ labels, IsName entry.1) (position : Nat)
    (i : Instruction) :
    instructionLine position i ∉ labels.map fun entry => labelLine entry.1 := by
  intro hLine
  obtain ⟨entry, hEntry, hSame⟩ := List.mem_map.1 hLine
  exact blank_not_mem_labelLine (h entry hEntry) (hSame ▸ blank_mem_instructionLine position i)

namespace Shown

variable {i : Instruction} {is : List Instruction}

theorem at_end (h : Shown position [] labels) : ∀ entry ∈ labels, entry.2 = position := by
  intro entry hEntry
  have hWithin := h.within entry hEntry
  rw [List.length_nil] at hWithin
  omega

theorem tail (h : Shown position (i :: is) labels) :
    Shown (position + 1) is (labels.dropWhile fun entry => entry.2 == position) := by
  have hSublist := List.dropWhile_sublist (l := labels) fun entry => entry.2 == position
  refine ⟨fun entry hEntry => h.names entry (hSublist.subset hEntry), ?_,
    h.ordered.sublist hSublist⟩
  intro entry hEntry
  have hWithin := h.within entry (hSublist.subset hEntry)
  have hFrom (entry : String × Nat) (hEntry : entry ∈ labels) : position ≤ entry.2 :=
    (h.within entry hEntry).1
  have hPast := position_lt_of_mem_dropWhile h.ordered hFrom hEntry
  rw [List.length_cons] at hWithin
  omega

end Shown

/-- Lines from one position on show one list of instructions with one list of labels. -/
theorem listingFrom_injective {is is' : List Instruction} (h : Shown position is labels)
    (h' : Shown position is' labels')
    (hLines : listingFrom position is labels = listingFrom position is' labels') :
    is = is' ∧ labels = labels' := by
  induction is generalizing position is' labels labels' with
  | nil =>
    cases is' with
    | nil => exact ⟨rfl, eq_of_labelLines h.at_end h'.at_end hLines⟩
    | cons i' is' =>
      refine absurd ?_ (instructionLine_not_mem h.names position i')
      rw [listingFrom, listingFrom] at hLines
      rw [hLines]
      exact List.mem_append_right _ List.mem_cons_self
  | cons i is ih =>
    cases is' with
    | nil =>
      refine absurd ?_ (instructionLine_not_mem h'.names position i)
      rw [listingFrom, listingFrom] at hLines
      rw [← hLines]
      exact List.mem_append_right _ List.mem_cons_self
    | cons i' is' =>
      have hTaken {labels : List (String × Nat)} (entry : String × Nat)
          (hEntry : entry ∈ labels.takeWhile fun entry => entry.2 == position) :
          entry ∈ labels ∧ entry.2 = position :=
        ⟨(List.takeWhile_sublist _).subset hEntry, by simpa using List.mem_takeWhile_imp hEntry⟩
      rw [listingFrom, listingFrom] at hLines
      have hBefore := congrArg (List.takeWhile fun line => !line.toList.contains ' ') hLines
      rw [takeWhile_labelLines fun entry hEntry => h.names entry (hTaken entry hEntry).1,
        takeWhile_labelLines fun entry hEntry => h'.names entry (hTaken entry hEntry).1] at hBefore
      rw [hBefore] at hLines
      obtain ⟨hLine, hRest⟩ := List.cons.inj (List.append_cancel_left hLines)
      obtain ⟨rfl, hLeft⟩ := ih h.tail h'.tail hRest
      have hHere := eq_of_labelLines (fun entry hEntry => (hTaken entry hEntry).2)
        (fun entry hEntry => (hTaken entry hEntry).2) hBefore
      refine ⟨by rw [instructionLine_injective hLine], ?_⟩
      calc
        labels = _ := (List.takeWhile_append_dropWhile (p := fun entry => entry.2 == position)).symm
        _ = _ := by rw [hHere, hLeft]
        _ = labels' := List.takeWhile_append_dropWhile

end Lines

/-! ### Listings -/

theorem isLine_labelLine {name : String} (h : IsName name) : Text.IsLine (labelLine name) := by
  refine ⟨by simp [labelLine], ?_⟩
  intro c hc
  rw [labelLine, String.toList_append, List.mem_append] at hc
  rcases hc with hName | hColon
  · have hVisible := h.unbroken.unbroken c hName
    constructor <;> rintro rfl <;> exact absurd hVisible (by decide)
  · obtain rfl : c = ':' := by simpa using hColon
    decide

theorem isLine_instructionLine (position : Nat) (i : Instruction) :
    Text.IsLine (instructionLine position i) := by
  refine ⟨by simp [instructionLine], ?_⟩
  intro c hc
  rw [instructionLine, String.toList_append, String.toList_append, List.mem_append,
    List.mem_append] at hc
  obtain (hNumber | hBlank) | hText := hc
  · have hDigit : Numeral.isDigit c = true := by
      rw [Text.zeroPad, String.toList_ofList, List.mem_append] at hNumber
      rcases hNumber with hZero | hDigits
      · rw [(List.mem_replicate.1 hZero).2]
        decide
      · exact Numeral.isDigit_of_mem_toDigits hDigits
    exact (Numeral.isPlain_of_isDigit hDigit).unbroken
  · obtain rfl : c = ' ' := by simpa using hBlank
    decide
  · exact i.isLine_text.unbroken c hText

theorem isLine_of_mem_listingFrom {position : Nat} {is : List Instruction}
    {labels : List (String × Nat)} (h : ∀ entry ∈ labels, IsName entry.1) {line : String}
    (hLine : line ∈ listingFrom position is labels) : Text.IsLine line := by
  have hLabel {labels : List (String × Nat)} (h : ∀ entry ∈ labels, IsName entry.1)
      (hLine : line ∈ labels.map fun entry => labelLine entry.1) : Text.IsLine line := by
    obtain ⟨entry, hEntry, rfl⟩ := List.mem_map.1 hLine
    exact isLine_labelLine (h entry hEntry)
  induction is generalizing position labels with
  | nil => exact hLabel h hLine
  | cons i is ih =>
    rw [listingFrom, List.mem_append, List.mem_cons] at hLine
    rcases hLine with hBefore | rfl | hAfter
    · exact hLabel (fun entry hEntry => h entry ((List.takeWhile_sublist _).subset hEntry)) hBefore
    · exact isLine_instructionLine position i
    · exact ih (fun entry hEntry => h entry ((List.dropWhile_sublist _).subset hEntry)) hAfter

theorem lines_listing {program : Program} (h : ∀ entry ∈ program.labels.entries, IsName entry.1) :
    Text.lines program.listing = program.listingLines := by
  apply Text.lines_join
  intro line hLine
  refine (isLine_of_mem_listingFrom (fun entry hEntry => ?_) hLine).isRow
  exact h entry ((sortByPosition_perm _).mem_iff.1 hEntry)

end Program

namespace LabelTable

/-- A table is determined by its entries in any order. -/
theorem eq_of_perm {a b : LabelTable} (h : a.entries.Perm b.entries) : a = b := by
  have hEntries : a.entries = b.entries := by
    refine h.eq_of_pairwise (fun x y _ _ hxy hyx => ?_) a.ordered b.ordered
    exact absurd (String.lt_trans hxy hyx) (String.lt_irrefl _)
  cases a
  cases b
  cases hEntries
  rfl

end LabelTable

namespace Assembly

open Program

theorem shown_of_assemble {source : String} {program : Program}
    (h : assemble source = .ok program) :
    Shown 0 program.instructions (sortByPosition program.labels.entries) := by
  have hBound {entry : String × Nat} (hEntry : entry ∈ sortByPosition program.labels.entries) :
      program.labels.get? entry.1 = some entry.2 :=
    program.labels.get?_of_mem ((sortByPosition_perm _).mem_iff.1 hEntry)
  refine ⟨fun entry hEntry => isName_of_get? h (hBound hEntry), ?_,
    (sortByPosition_precedes program.labels.ordered).imp Precedes.position_le⟩
  intro entry hEntry
  have hPosition : entry.2 ≤ program.instructions.length := position_le_length h (hBound hEntry)
  omega

/-- Two programs that were assembled and have the same listing are the same program: the same
instructions and the same labels. -/
theorem listing_determines_program {source source' : String} {program program' : Program}
    (h : assemble source = .ok program) (h' : assemble source' = .ok program')
    (hListing : program.listing = program'.listing) : program = program' := by
  have hShown := shown_of_assemble h
  have hShown' := shown_of_assemble h'
  have hNames {source : String} {program : Program} (h : assemble source = .ok program) :
      ∀ entry ∈ program.labels.entries, IsName entry.1 := by
    intro entry hEntry
    exact isName_of_get? h (program.labels.get?_of_mem hEntry)
  have hLines : program.listingLines = program'.listingLines := by
    rw [← lines_listing (hNames h), hListing, lines_listing (hNames h')]
  obtain ⟨hInstructions, hSorted⟩ := listingFrom_injective hShown hShown' hLines
  have hLabels : program.labels = program'.labels := by
    apply LabelTable.eq_of_perm
    have hPerm := sortByPosition_perm program.labels.entries
    rw [hSorted] at hPerm
    exact hPerm.symm.trans (sortByPosition_perm _)
  cases program
  cases program'
  cases hInstructions
  cases hLabels
  rfl

/-- A source with labels that read like a position and like a mnemonic, two of them at the same
place and one at the end. -/
def lookalikes : String :=
  "0001:\nTERM: JMP 0001 // on and on\n0000: SET -1 &2\nend:"

/-- The words of `lookalikes` in other lines. -/
def lookalikesSpread : String :=
  "0001:\n\nTERM:\n  jmp '0001'\n0000:\nset -01 &2\n end:\n"

theorem listing_determines_program_lookalikes :
    ∃ program program' : Program,
      assemble lookalikes = .ok program ∧ assemble lookalikesSpread = .ok program' ∧
      program.listing = "0001:\nTERM:\n0000  JMP 0\n0000:\n0001  SET -1 &2\nend:\n" ∧
      program.listing = program'.listing ∧ program = program' := by
  have hAssemble : assemble lookalikes =
      .ok ⟨[.jump 0, .set (-1) (.reference 2)],
        .ofList [("0000", 1), ("0001", 0), ("TERM", 0), ("end", 2)]⟩ := by
    decide +kernel
  have hAssemble' : assemble lookalikesSpread =
      .ok ⟨[.jump 0, .set (-1) (.reference 2)],
        .ofList [("0000", 1), ("0001", 0), ("TERM", 0), ("end", 2)]⟩ := by
    decide +kernel
  exact ⟨_, _, hAssemble, hAssemble', by decide +kernel, rfl,
    listing_determines_program hAssemble hAssemble' rfl⟩

end Assembly

end TapeMachine
