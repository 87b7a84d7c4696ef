import TapeMachine.Proofs.Assembly.Operands
import TapeMachine.Proofs.Assembly.Survey
import TapeMachine.Proofs.Numeral
import TapeMachine.Proofs.Source.Words

/-! Writing instructions out and assembling them again.  The source gives every instruction a line
of its own, labelled with its position, and ends with a label for the position after the last.  The
proof has two halves that meet at `Labelled`: the lines of the source are read as such lines, and
such lines assemble to the instructions. -/

namespace TapeMachine

open Source

/-! ### Printed operands and instructions -/

theorem Numeral.isPlain_of_isDigit {c : Char} (h : isDigit c = true) : IsPlain c := by
  simp only [isDigit, Bool.and_eq_true, decide_eq_true_eq, Char.le_def, UInt32.le_iff_toNat_le] at h
  have hLow : 0x30 ≤ c.toNat := h.1
  have hHigh : c.toNat ≤ 0x39 := h.2
  refine ⟨by omega, by omega, ?_⟩
  rintro rfl
  exact absurd hLow (by decide)

theorem Numeral.isWord_ofInt64 (v : Int64) : IsWord (ofInt64 v) := by
  refine ⟨fun hEmpty => ofInt64_ne_nil v (by simp [hEmpty]), fun c hc => ?_⟩
  obtain rfl | hDigit := mem_ofInt64 hc
  · decide
  · exact isPlain_of_isDigit hDigit

theorem Text.isWord_decimal (n : Nat) : IsWord (Text.decimal n) := by
  refine ⟨?_, fun c hc => ?_⟩
  · simp [← String.toList_eq_nil_iff, Text.decimal_toList, Nat.toDigits_ne_nil]
  · rw [Text.decimal_toList] at hc
    exact Numeral.isPlain_of_isDigit (Numeral.isDigit_of_mem_toDigits hc)

theorem Opcode.isWord_mnemonic (op : Opcode) : IsWord op.mnemonic := by
  cases op with
  | arithmetic operation => cases operation <;> decide
  | branch condition => cases condition <;> decide
  | _ => decide

theorem Opcode.ofMnemonic?_mnemonic (op : Opcode) : ofMnemonic? op.mnemonic = some op := by
  cases op with
  | arithmetic operation => cases operation <;> decide
  | branch condition => cases condition <;> decide
  | _ => decide

namespace Operand

variable (operand : Operand)

theorem isWord_text : IsWord operand.text := by
  have hNumber := Numeral.isWord_ofInt64 operand.payload
  unfold text
  split
  · exact IsWord.append (by decide) hNumber
  · exact hNumber

/-- A printed operand keeps its mark and its number. -/
theorem spelling_text :
    spelling operand.text = ⟨Numeral.ofInt64 operand.payload, operand.isReference⟩ := by
  have hUnmarked {c : Char} (hc : c ∈ (Numeral.ofInt64 operand.payload).toList) :
      c ≠ '&' ∧ c ≠ '\x27' := by
    obtain rfl | hDigit := Numeral.mem_ofInt64 hc
    · decide
    · constructor <;> rintro rfl <;> exact absurd hDigit (by decide)
  cases hReference : operand.isReference with
  | true => simp [text, hReference, spelling]
  | false =>
    simp only [text, hReference, Bool.false_eq_true, if_false]
    unfold spelling unquote
    split
    case h_1 hText => exact absurd rfl (hUnmarked (hText ▸ List.mem_cons_self)).1
    case h_2 =>
      split
      case h_1 hText => exact absurd rfl (hUnmarked (hText ▸ List.mem_cons_self)).2
      case h_2 => rw [String.ofList_toList]

end Operand

namespace Instruction

/-- The words of an instruction in a source, its mnemonic first. -/
def words (i : Instruction) : List String :=
  i.opcode.mnemonic :: i.operands.map Operand.text

theorem isWord_of_mem_words {i : Instruction} {word : String} (h : word ∈ i.words) :
    IsWord word := by
  obtain rfl | hOperand := List.mem_cons.1 h
  · exact i.opcode.isWord_mnemonic
  · obtain ⟨operand, -, rfl⟩ := List.mem_map.1 hOperand
    exact operand.isWord_text

theorem text_eq_intercalate (i : Instruction) : i.text = " ".intercalate i.words := by
  have hFold (operands : List Operand) (s : String) :
      operands.foldl (fun s operand => s ++ " " ++ operand.text) s =
        " ".intercalate (s :: operands.map Operand.text) := by
    induction operands generalizing s with
    | nil => simp
    | cons operand operands ih =>
      rw [List.foldl_cons, ih, List.map_cons, String.intercalate_cons_cons,
        String.intercalate_cons_append]
  exact hFold i.operands i.opcode.mnemonic

end Instruction

namespace Assembly

/-! ### Reading what was printed -/

/-- The tokens of a line are the words of a printed instruction. -/
structure Spells (code : Code) (i : Instruction) : Prop where
  mnemonic : code.mnemonic.text = i.opcode.mnemonic
  operands : code.operands.map Token.text = i.operands.map Operand.text

section Reading

variable {labels : LabelTable} {line : Line}

/-- A label slot holds a position whose decimal text is in the table, and stands for it there. -/
def Known (labels : LabelTable) (slot : Role × Operand) : Prop :=
  slot.1 = .label →
    labels.get? (Numeral.ofInt64 slot.2.payload) = some slot.2.payload.toInt.toNat

theorem operand_text (op : Opcode) (place : Nat) {slot : Role × Operand}
    (hFit : slot.1.violation? slot.2 = none) (hKnown : Known labels slot) :
    operand labels op place slot.1 slot.2.text = .ok slot.2 := by
  obtain ⟨role, payload, isReference⟩ := slot
  have hSpelling := Operand.spelling_text ⟨payload, isReference⟩
  have hRead := Numeral.int64?_ofInt64 payload
  cases role with
  | address =>
    refine operand_address_eq_ok_iff.2 ⟨payload, ?_, ?_⟩ <;> rw [hSpelling]
    exact hRead
  | value =>
    cases isReference with
    | true => simp [Role.violation?] at hFit
    | false =>
      refine operand_value_eq_ok_iff.2 ⟨?_, payload, ?_, rfl⟩ <;> rw [hSpelling]
      exact hRead
  | label =>
    obtain ⟨rfl, hSign⟩ := Role.label_violation?_eq_none_iff.1 hFit
    refine operand_label_eq_ok_iff.2 ⟨?_, payload.toInt.toNat, ?_, ?_⟩
    · rw [hSpelling]
    · rw [hSpelling]
      exact hKnown rfl
    · exact congrArg Operand.direct (Position.payload_ofPayload hSign)

theorem operandsFrom_texts {op : Opcode} {place : Nat} {tokens : List Token} {roles : List Role}
    {operands : List Operand} (hTexts : tokens.map Token.text = operands.map Operand.text)
    (hRead : ∀ slot ∈ roles.zip operands, ∀ place,
      operand labels op place slot.1 slot.2.text = .ok slot.2)
    (hLength : operands.length = roles.length) :
    operandsFrom labels line op place tokens roles = .ok operands := by
  induction operands generalizing place tokens roles with
  | nil =>
    rw [List.map_nil, List.map_eq_nil_iff] at hTexts
    rw [hTexts, operandsFrom]
    rintro _ _ _ _ ⟨⟩
  | cons value operands ih =>
    cases roles with
    | nil => cases hLength
    | cons role roles =>
      obtain ⟨token, tokens, rfl, hText, hTexts⟩ := List.map_eq_cons_iff.1 hTexts
      have hFirst := hRead (role, value) List.mem_cons_self place
      have hRest : operandsFrom labels line op (place + 1) tokens roles = .ok operands :=
        ih hTexts (fun slot hSlot => hRead slot (List.mem_cons_of_mem _ hSlot))
          (Nat.succ.inj hLength)
      rw [operandsFrom, hText, hFirst, hRest]
      rfl

theorem instruction_of_spells {code : Code} {i : Instruction} (h : Spells code i)
    (hKnown : ∀ slot ∈ i.opcode.roles.zip i.operands, Known labels slot) :
    instruction labels line code = .ok i := by
  have hRead (slot : Role × Operand) (hSlot : slot ∈ i.opcode.roles.zip i.operands) (place : Nat) :
      operand labels i.opcode place slot.1 slot.2.text = .ok slot.2 :=
    operand_text i.opcode place (Instruction.violation?_eq_none hSlot) (hKnown slot hSlot)
  have hLength : code.operands.length = i.operands.length := by
    simpa using congrArg List.length h.operands
  refine instruction_eq_ok_iff.2 ⟨?_, hLength.trans i.operands_length, ?_⟩
  · rw [h.mnemonic, Opcode.ofMnemonic?_mnemonic]
  · exact operandsFrom_texts h.operands hRead i.operands_length

end Reading

/-! ### Lines under their own positions -/

/-- Lines that hold instructions from `position` on, each labelled with its own position, and after
them a line that only labels the next position. -/
inductive Labelled : Nat → List Line → List Instruction → Prop
  | last {position : Nat} {line : Line} (hName : line.name? = some (Text.decimal position))
      (hCode : line.code? = none) : Labelled position [line] []
  | next {position : Nat} {line : Line} {code : Code} {lines : List Line} {i : Instruction}
      {is : List Instruction} (hName : line.name? = some (Text.decimal position))
      (hCode : line.code? = some code) (hSpells : Spells code i)
      (hRest : Labelled (position + 1) lines is) : Labelled position (line :: lines) (i :: is)

section Labelled

variable {position : Nat} {lines : List Line} {is : List Instruction}

theorem Labelled.labelNames (h : Labelled position lines is) :
    labelNames lines = (List.range' position (is.length + 1)).map Text.decimal := by
  induction h with
  | last hName hCode => simp [Source.labelNames, hName]
  | next hName hCode hSpells hRest ih =>
    rw [Source.labelNames, List.filterMap_cons_some hName, ← Source.labelNames, ih]
    rfl

theorem Labelled.spells (h : Labelled position lines is) :
    List.Forall₂ (fun entry i => Spells entry.2 i) (codeLines lines) is := by
  induction h with
  | last hName hCode => simp [codeLines, hCode]
  | next hName hCode hSpells hRest ih =>
    rw [codeLines, List.filterMap_cons_some (by rw [hCode]; rfl), ← codeLines]
    exact .cons hSpells ih

theorem get?_definitionsFrom_decimal {line : Line}
    (hName : line.name? = some (Text.decimal position)) (lines : List Line) {name : String}
    {found : Nat} :
    (definitionsFrom position (line :: lines)).get? name = some found ↔
      name = Text.decimal position ∧ found = position ∨
      name ≠ Text.decimal position ∧
        (definitionsFrom (position + (codeLines [line]).length) lines).get? name = some found := by
  rw [get?_definitionsFrom_cons, hName]
  by_cases hSame : Text.decimal position = name
  · simp [hSame, eq_comm]
  · simp [hSame, Ne.symm hSame]

/-- The decimal text of every position stands for it, and nothing else is a label. -/
theorem Labelled.get?_eq_some_iff (h : Labelled position lines is) {name : String} {found : Nat} :
    (definitionsFrom position lines).get? name = some found ↔
      position ≤ found ∧ found ≤ position + is.length ∧ name = Text.decimal found := by
  induction h with
  | last hName hCode =>
    rw [get?_definitionsFrom_decimal hName, definitionsFrom, LabelTable.get?_empty, List.length_nil]
    constructor
    · rintro (⟨rfl, rfl⟩ | ⟨-, ⟨⟩⟩)
      exact ⟨Nat.le_refl found, Nat.le_refl found, rfl⟩
    · rintro ⟨hLow, hHigh, rfl⟩
      obtain rfl := Nat.le_antisymm hLow hHigh
      exact .inl ⟨rfl, rfl⟩
  | @next position line code lines i is hName hCode hSpells hRest ih =>
    have hOne : (codeLines [line]).length = 1 := by simp [codeLines, hCode]
    rw [get?_definitionsFrom_decimal hName, hOne, ih, List.length_cons]
    constructor
    · rintro (⟨rfl, rfl⟩ | ⟨-, hLow, hHigh, rfl⟩)
      · exact ⟨Nat.le_refl found, by omega, rfl⟩
      · exact ⟨by omega, by omega, rfl⟩
    · rintro ⟨hLow, hHigh, rfl⟩
      obtain rfl | hLater := Nat.eq_or_lt_of_le hLow
      · exact .inl ⟨rfl, rfl⟩
      -- A later position has another text, so the label of this line does not hide it.
      · refine .inr ⟨fun hSame => ?_, hLater, by omega, rfl⟩
        have := Text.decimal_injective hSame
        omega

/-- Lines under their own positions assemble, if no instruction goes beyond the last. -/
theorem assemble_of_labelled {source : String} (h : Labelled 0 (numberedLines source) is)
    (hTargets : ∀ i ∈ is, ∀ slot ∈ i.opcode.roles.zip i.operands, slot.1 = .label →
      slot.2.payload.toInt ≤ is.length) :
    assemble source = .ok ⟨is, definitionsFrom 0 (numberedLines source)⟩ := by
  have hDistinct : (labelNames (numberedLines source)).Nodup := by
    rw [h.labelNames]
    have hPositions : (List.range' 0 (is.length + 1)).Nodup := List.nodup_range'
    exact List.pairwise_map.2 (hPositions.imp fun hOther => mt Text.decimal_injective hOther)
  have hKnown (i : Instruction) (hi : i ∈ is) (slot : Role × Operand)
      (hSlot : slot ∈ i.opcode.roles.zip i.operands) :
      Known (definitionsFrom 0 (numberedLines source)) slot := by
    intro hLabel
    have hTarget := hTargets i hi slot hSlot hLabel
    have hFit := Instruction.violation?_eq_none hSlot
    rw [hLabel] at hFit
    obtain ⟨-, hSign⟩ := Role.label_violation?_eq_none_iff.1 hFit
    rw [Numeral.ofInt64_of_not_neg hSign, h.get?_eq_some_iff]
    exact ⟨Nat.zero_le _, by omega, rfl⟩
  refine assemble_eq_ok_iff.2 ⟨?_, rfl, ?_⟩
  · exact redefinitionFrom?_eq_none_iff.2 ⟨hDistinct, fun name _ => List.not_mem_nil⟩
  · refine List.forall₂_iff_zip.2 ⟨h.spells.length_eq, fun {entry i} hEntry => ?_⟩
    have hSpells := List.forall₂_zip h.spells hEntry
    exact instruction_of_spells hSpells (hKnown i (List.of_mem_zip hEntry).2)

end Labelled

/-! ### The source -/

/-- Instructions from `position` on in lines `position: instruction`, and a last line with the label
of the position after them. -/
def labelledLines (position : Nat) : List Instruction → List String
  | [] => [Text.decimal position ++ ":"]
  | i :: is => (Text.decimal position ++ ": " ++ i.text) :: labelledLines (position + 1) is

/-- The source text that writes instructions out, each labelled with its position. -/
def labelledSource (is : List Instruction) : String :=
  "\n".intercalate (labelledLines 0 is)

theorem isWord_label (position : Nat) : IsWord (Text.decimal position ++ ":") :=
  (Text.isWord_decimal position).append (by decide)

theorem label?_decimal {token : Token} {position : Nat}
    (h : token.text = Text.decimal position ++ ":") :
    token.label? = some (Text.decimal position) := by
  have hDigits : ':' ∉ Nat.toDigits 10 position := fun hColon =>
    absurd (Numeral.isDigit_of_mem_toDigits hColon) (by decide)
  have hReverse : token.text.toList.reverse = ':' :: (Nat.toDigits 10 position).reverse := by
    simp [h, Text.decimal_toList]
  simp [Token.label?, hReverse, Nat.toDigits_ne_nil, hDigits, Text.decimal]

theorem labelledLine_eq_intercalate (position : Nat) (i : Instruction) :
    Text.decimal position ++ ": " ++ i.text =
      " ".intercalate ((Text.decimal position ++ ":") :: i.words) := by
  have hColon : ": " = ":" ++ " " := rfl
  rw [i.text_eq_intercalate, Instruction.words, String.intercalate_cons_cons, hColon]
  simp only [String.append_assoc]

/-- A line that starts with a position and a colon defines it and holds the other words. -/
theorem read_labelled {line : Line} {position : Nat} {rest : List String}
    (hText : line.text = " ".intercalate ((Text.decimal position ++ ":") :: rest))
    (hRest : ∀ word ∈ rest, IsWord word) :
    line.name? = some (Text.decimal position) ∧
      ∃ tokens, tokens.map Token.text = rest ∧ line.code? = Code.ofTokens? tokens := by
  have hWords : ∀ word ∈ (Text.decimal position ++ ":") :: rest, IsWord word :=
    List.forall_mem_cons.2 ⟨isWord_label position, hRest⟩
  have hTexts := hText ▸ texts_tokenize hWords
  obtain ⟨first, tokens, hTokens, hFirst, hRest⟩ := List.map_eq_cons_iff.1 hTexts
  have hStatement : Statement.ofLine? line =
      some ⟨line, some ⟨Text.decimal position, first.column⟩, Code.ofTokens? tokens⟩ := by
    simp [Statement.ofLine?, hTokens, label?_decimal hFirst]
  refine ⟨?_, tokens, hRest, ?_⟩
  · simp [Line.name?, Line.label?, hStatement]
  · simp [Line.code?, hStatement]

theorem labelled_of_texts {position : Nat} {lines : List Line} {is : List Instruction}
    (h : lines.map Line.text = labelledLines position is) : Labelled position lines is := by
  induction is generalizing position lines with
  | nil =>
    obtain ⟨line, rfl, hText⟩ := List.map_eq_singleton_iff.1 h
    obtain ⟨hName, tokens, hTokens, hCode⟩ :=
      read_labelled (hText.trans String.intercalate_singleton.symm) (by simp)
    obtain rfl := List.map_eq_nil_iff.1 hTokens
    exact .last hName hCode
  | cons i is ih =>
    obtain ⟨line, lines, rfl, hText, hTexts⟩ := List.map_eq_cons_iff.1 h
    rw [labelledLine_eq_intercalate] at hText
    obtain ⟨hName, tokens, hTokens, hCode⟩ :=
      read_labelled hText fun word hWord => Instruction.isWord_of_mem_words hWord
    obtain ⟨mnemonic, operands, rfl, hMnemonic, hOperands⟩ := List.map_eq_cons_iff.1 hTokens
    exact .next hName hCode ⟨hMnemonic, hOperands⟩ (ih hTexts)

theorem isLine_of_mem_labelledLines {position : Nat} {is : List Instruction} {line : String}
    (h : line ∈ labelledLines position is) : Text.IsLine line := by
  induction is generalizing position with
  | nil =>
    obtain rfl := List.mem_singleton.1 h
    have hLine := isLine_intercalate (List.forall_mem_singleton.2 (isWord_label position))
    rwa [String.intercalate_singleton] at hLine
  | cons i is ih =>
    obtain rfl | hRest := List.mem_cons.1 h
    · rw [labelledLine_eq_intercalate]
      exact isLine_intercalate (List.forall_mem_cons.2
        ⟨isWord_label position, fun word hWord => Instruction.isWord_of_mem_words hWord⟩)
    · exact ih hRest

theorem lines_labelledSource (is : List Instruction) :
    Text.lines (labelledSource is) = labelledLines 0 is ∧
      Text.lines (labelledSource is ++ "\n") = labelledLines 0 is := by
  have hSome : labelledLines 0 is ≠ [] := by cases is <;> simp [labelledLines]
  exact Text.lines_intercalate hSome fun line hLine => isLine_of_mem_labelledLines hLine

/-- Instructions written out under their positions assemble to the same instructions, with the
decimal texts of their positions and of the position after them as labels; a line feed at the end
changes nothing. -/
theorem assemble_labelledSource {is : List Instruction}
    (hTargets : ∀ i ∈ is, ∀ slot ∈ i.opcode.roles.zip i.operands, slot.1 = .label →
      slot.2.payload.toInt ≤ is.length) :
    ∃ labels : LabelTable,
      assemble (labelledSource is) = .ok ⟨is, labels⟩ ∧
      assemble (labelledSource is ++ "\n") = .ok ⟨is, labels⟩ ∧
      ∀ name position, labels.get? name = some position ↔
        position ≤ is.length ∧ name = Text.decimal position := by
  obtain ⟨hLines, hEnded⟩ := lines_labelledSource is
  have hSame : numberedLines (labelledSource is ++ "\n") = numberedLines (labelledSource is) := by
    rw [numberedLines, numberedLines, hLines, hEnded]
  have hLabelled : Labelled 0 (numberedLines (labelledSource is)) is :=
    labelled_of_texts ((texts_numberedLines _).trans hLines)
  refine ⟨definitionsFrom 0 (numberedLines (labelledSource is)), ?_, ?_, fun name position => ?_⟩
  · exact assemble_of_labelled hLabelled hTargets
  · rw [← hSame] at hLabelled ⊢
    exact assemble_of_labelled hLabelled hTargets
  · rw [hLabelled.get?_eq_some_iff, Nat.zero_add]
    exact and_iff_right (Nat.zero_le position)

/-- Instructions with the least literal, a reference, and targets at both ends of the program. -/
def extremes : List Instruction :=
  [.set Int64.minValue (.reference 3), .branch .less (.direct 0) (.direct (-1)) (.ofPayload 3),
    .call (.ofPayload 0)]

theorem assemble_labelledSource_extremes :
    labelledSource extremes =
        "0: SET -9223372036854775808 &3\n1: JLT 0 -1 3\n2: CALL 0\n3:" ∧
      (∀ i ∈ extremes, ∀ slot ∈ i.opcode.roles.zip i.operands, slot.1 = .label →
        slot.2.payload.toInt ≤ extremes.length) ∧
      ∃ labels : LabelTable,
        assemble (labelledSource extremes) = .ok ⟨extremes, labels⟩ ∧
        assemble (labelledSource extremes ++ "\n") = .ok ⟨extremes, labels⟩ ∧
        ∀ name position, labels.get? name = some position ↔
          position ≤ extremes.length ∧ name = Text.decimal position := by
  have hTargets : ∀ i ∈ extremes, ∀ slot ∈ i.opcode.roles.zip i.operands, slot.1 = .label →
      slot.2.payload.toInt ≤ extremes.length := by decide
  exact ⟨by decide, hTargets, assemble_labelledSource hTargets⟩

end Assembly

end TapeMachine
