import TapeMachine.Proofs.Assembly.Location
import TapeMachine.Proofs.Assembly.RoundTrip

/-! The checks of the assembler and those of `Instruction.build` agree.  What the assembler reads at
the places of an opcode can be built, so that the check at the end of a line never fails, and what
can be built is read back from its own text once the table has a label for its position. -/

namespace TapeMachine.Assembly

open Source

/-- The operands that tokens write at the places of an opcode, all of them accepted. -/
def Reads (labels : LabelTable) (op : Opcode) (tokens : List String) (operands : List Operand) :
    Prop :=
  List.Forall₂ (fun slot value => operand labels op slot.2 slot.1.2 slot.1.1 = .ok value)
    ((tokens.zip op.roles).zipIdx 1) operands

/-- A table with the position that an instruction may go to, under its decimal text. -/
def ownLabel (i : Instruction) : LabelTable :=
  match i.target? with
  | some target => LabelTable.empty.insert (Numeral.ofInt64 target.payload) target.val
  | none => .empty

variable {labels : LabelTable} {line : Line} {op : Opcode} {operands : List Operand}

theorem operandsFrom_eq_ok_iff_reads (line : Line) {tokens : List Token} :
    operandsFrom labels line op 1 tokens op.roles = .ok operands ↔
      Reads labels op (tokens.map Token.text) operands := by
  rw [operandsFrom_eq_ok_iff, Reads, List.zip_map_left, List.zipIdx_map,
    List.forall₂_map_left_iff]
  rfl

theorem build_of_reads (hLabels : Addressable labels) {tokens : List String}
    (hLength : tokens.length = op.arity) (h : Reads labels op tokens operands) :
    ∃ i, Instruction.build op operands = .ok i := by
  let code : Code := ⟨⟨op.mnemonic, 1⟩, tokens.map (⟨·, 1⟩)⟩
  have hTexts : code.operands.map Token.text = tokens := by simp [code, Function.comp_def]
  have hCode : code.operands.length = op.arity := by simp [code, hLength]
  rw [← hTexts] at h
  exact build_of_operandsFrom hLabels hCode ((operandsFrom_eq_ok_iff_reads ⟨1, ""⟩).2 h)

/-- On a line with a right number of operands, only the operands can be rejected. -/
theorem instruction_eq_error_iff (hLabels : Addressable labels) {code : Code}
    (hOpcode : Opcode.ofMnemonic? code.mnemonic.text = some op)
    (hLength : code.operands.length = op.arity) (d : Diagnostic) :
    instruction labels line code = .error d ↔
      operandsFrom labels line op 1 code.operands op.roles = .error d := by
  have hLine : instruction labels line code =
      (operandsFrom labels line op 1 code.operands op.roles).bind fun operands =>
        (Instruction.build op operands).mapError (line.reject code.mnemonic.column) := by
    simp only [instruction, hOpcode, ne_eq, hLength, not_true_eq_false, if_false]
    rfl
  rw [hLine]
  cases hOperands : operandsFrom labels line op 1 code.operands op.roles with
  | error rejection => simp [Except.bind]
  | ok operands =>
    obtain ⟨i, hBuild⟩ := build_of_operandsFrom hLabels hLength hOperands
    simp [Except.bind, hBuild, Except.mapError]

theorem addressable_ownLabel (i : Instruction) : Addressable (ownLabel i) := by
  unfold ownLabel
  split
  case h_1 target _ => exact addressable_empty.insert target.isLt _
  case h_2 => exact addressable_empty

theorem known_ownLabel {i : Instruction} {slot : Role × Operand}
    (h : slot ∈ i.opcode.roles.zip i.operands) : Known (ownLabel i) slot := by
  intro hRole
  rcases Instruction.slot_cases h with hOther | ⟨hOther, -⟩ | ⟨target, hTarget, rfl⟩
  · cases hRole.symm.trans hOther
  · cases hRole.symm.trans hOther
  · have hPosition : target.payload.toInt.toNat = target.val := by
      rw [target.toInt_payload, Int.toNat_natCast]
    simp only [ownLabel, hTarget, Operand.direct, LabelTable.get?_insert, if_true, hPosition]

/-- An instruction is read back from the texts of its operands. -/
theorem reads_ownLabel (i : Instruction) :
    Reads (ownLabel i) i.opcode (i.operands.map Operand.text) i.operands := by
  let tokens : List Token := i.operands.map fun operand => ⟨operand.text, 1⟩
  have hTexts : tokens.map Token.text = i.operands.map Operand.text := by
    simp [tokens, Function.comp_def]
  rw [← hTexts]
  apply (operandsFrom_eq_ok_iff_reads ⟨1, ""⟩).1
  refine operandsFrom_texts hTexts (fun slot hSlot place => ?_) i.operands_length
  exact operand_text i.opcode place (Instruction.violation?_eq_none hSlot) (known_ownLabel hSlot)

/-- The assembler and `Instruction.build` accept the same operands: those that tokens write at the
places of an opcode, in the right number, make an instruction, so that a line is rejected for its
operands before its instruction is built or not at all; and those that make an instruction are read
from their texts with some table of labels. -/
theorem validations_agree (op : Opcode) :
    (∀ labels, Addressable labels → ∀ tokens operands, tokens.length = op.arity →
      Reads labels op tokens operands →
        ∃ i, Instruction.build op operands = .ok i ∧ i.opcode = op ∧ i.operands = operands) ∧
    (∀ labels, Addressable labels → ∀ line code,
      Opcode.ofMnemonic? code.mnemonic.text = some op → code.operands.length = op.arity →
        ∀ d, instruction labels line code = .error d ↔
          operandsFrom labels line op 1 code.operands op.roles = .error d) ∧
    (∀ operands i, Instruction.build op operands = .ok i → operands.length = op.arity ∧
      ∃ labels, Addressable labels ∧ Reads labels op (operands.map Operand.text) operands) := by
  refine ⟨fun labels hLabels tokens operands hLength hReads => ?_,
    fun labels hLabels line code hOpcode hLength d =>
      instruction_eq_error_iff hLabels hOpcode hLength d,
    fun operands i hBuild => ?_⟩
  · obtain ⟨i, hBuild⟩ := build_of_reads hLabels hLength hReads
    exact ⟨i, hBuild, Instruction.build_eq_ok_iff.1 hBuild⟩
  · obtain ⟨rfl, rfl⟩ := Instruction.build_eq_ok_iff.1 hBuild
    exact ⟨i.operands_length, ownLabel i, addressable_ownLabel i, reads_ownLabel i⟩

/-- A table with one label, at the greatest position that an operand can write. -/
def farthestLabel : LabelTable :=
  LabelTable.empty.insert "end" 0x7FFFFFFFFFFFFFFF

theorem validations_agree_farthestLabel :
    Addressable farthestLabel ∧
    Reads farthestLabel (.branch .less) ["&+7", "'-0'", "'end'"]
      [.reference 7, .direct 0, .direct Int64.maxValue] ∧
    (∃ i, Instruction.build (.branch .less) [.reference 7, .direct 0, .direct Int64.maxValue] =
      .ok i ∧ i.opcode = .branch .less ∧
      i.operands = [.reference 7, .direct 0, .direct Int64.maxValue]) ∧
    (∀ d, instruction farthestLabel ⟨1, "jlt &+7 '-0' 'end'"⟩
      ⟨⟨"jlt", 1⟩, [⟨"&+7", 5⟩, ⟨"'-0'", 9⟩, ⟨"'end'", 14⟩]⟩ ≠ .error d) ∧
    ∃ labels, Addressable labels ∧ Reads labels (.branch .less) ["&7", "0", "9223372036854775807"]
      [.reference 7, .direct 0, .direct Int64.maxValue] := by
  obtain ⟨hBuild, hLine, hTexts⟩ := validations_agree (.branch .less)
  have hLabels : Addressable farthestLabel := addressable_empty.insert (by decide) _
  have hReads : Reads farthestLabel (.branch .less) ["&+7", "'-0'", "'end'"]
      [.reference 7, .direct 0, .direct Int64.maxValue] :=
    .cons (by decide +kernel) (.cons (by decide +kernel) (.cons (by decide +kernel) .nil))
  obtain ⟨i, hi, hMade⟩ := hBuild farthestLabel hLabels _ _ rfl hReads
  refine ⟨hLabels, hReads, ⟨i, hi, hMade⟩, fun d hError => ?_, (hTexts _ i hi).2⟩
  have hOperands := (hLine farthestLabel hLabels _ _ (by decide) rfl d).1 hError
  rw [(operandsFrom_eq_ok_iff_reads _).2 hReads] at hOperands
  cases hOperands

end TapeMachine.Assembly
