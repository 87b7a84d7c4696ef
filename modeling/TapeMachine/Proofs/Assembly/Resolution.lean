import TapeMachine.Proofs.Assembly.Operands
import TapeMachine.Proofs.Assembly.Survey

/-! Labels in an assembled program.  Every name stands for the number of instructions before the
line that defines it, and every operand that writes a name holds that position, whether the name is
defined before or after its use. -/

namespace TapeMachine.Assembly

open Source

/-- The name that an operand token writes: its text without a pair of quotes around it. -/
def writtenName (token : Token) : String :=
  String.ofList (Operand.unquote token.text.toList)

/-- What a token stands for at a place of the given role: a literal is direct, and a label is the
position of the name it writes. -/
structure Resolves (labels : LabelTable) (slot : Token × Role) (operand : Operand) : Prop where
  literal : slot.2 = .value → operand.isReference = false
  label : slot.2 = .label → operand.isReference = false ∧
    ∃ position, labels.get? (writtenName slot.1) = some position ∧
      operand.payload.toInt = position

/-- The instruction that the tokens of a line write, with every label resolved. -/
structure Assembled (labels : LabelTable) (code : Code) (i : Instruction) : Prop where
  opcode : Opcode.ofMnemonic? code.mnemonic.text = some i.opcode
  tokens : code.operands.length = i.opcode.arity
  arity : i.operands.length = i.opcode.arity
  operands : List.Forall₂ (Resolves labels) (code.operands.zip i.opcode.roles) i.operands

/-- All positions of a table can be written in an operand. -/
def Addressable (labels : LabelTable) : Prop :=
  ∀ name position, labels.get? name = some position → position < 0x8000000000000000

theorem addressable_empty : Addressable .empty :=
  nofun

theorem Addressable.insert {labels : LabelTable} (h : Addressable labels) {position : Nat}
    (hPosition : position < 0x8000000000000000) (name : String) :
    Addressable (labels.insert name position) := by
  intro other found hFound
  rw [LabelTable.get?_insert] at hFound
  split at hFound
  · cases hFound
    exact hPosition
  · exact h other found hFound

theorem resolves_of_operand {labels : LabelTable} (hLabels : Addressable labels) {op : Opcode}
    {place : Nat} {role : Role} {token : Token} {value : Operand}
    (h : operand labels op place role token.text = .ok value) :
    Resolves labels (token, role) value := by
  constructor
  · rintro ⟨⟩
    obtain ⟨-, payload, -, rfl⟩ := operand_value_eq_ok_iff.1 h
    rfl
  · rintro ⟨⟩
    obtain ⟨hReference, position, hPosition, rfl⟩ := operand_label_eq_ok_iff.1 h
    rw [Operand.spelling_body hReference] at hPosition
    exact ⟨rfl, position, hPosition, Int64.toInt_ofNat_of_lt (hLabels _ _ hPosition)⟩

theorem assembled_of_instruction {labels : LabelTable} (hLabels : Addressable labels)
    {line : Line} {code : Code} {i : Instruction} (h : instruction labels line code = .ok i) :
    Assembled labels code i := by
  obtain ⟨hOpcode, hTokens, hOperands⟩ := instruction_eq_ok_iff.1 h
  refine ⟨hOpcode, hTokens, i.operands_length, ?_⟩
  rw [← List.zipIdx_map_fst 1 (code.operands.zip i.opcode.roles), List.forall₂_map_left_iff]
  refine (operandsFrom_eq_ok_iff.1 hOperands).imp fun slot value hSlot => ?_
  exact resolves_of_operand hLabels hSlot

section Program

variable {source : String} {program : Program}

theorem length_of_assemble (h : assemble source = .ok program) :
    program.length = (codeLines (numberedLines source)).length := by
  obtain ⟨-, -, hCode⟩ := assemble_eq_ok_iff.1 h
  exact hCode.length_eq.symm

/-- The names of the table are the names that lines define. -/
theorem get?_ne_none_iff (h : assemble source = .ok program) {name : String} :
    program.labels.get? name ≠ none ↔ name ∈ labelNames (numberedLines source) := by
  obtain ⟨-, hLabels, -⟩ := assemble_eq_ok_iff.1 h
  rw [hLabels, ne_eq, get?_definitionsFrom_eq_none_iff, not_not]

/-- A label of an assembled program stands for a position in it or for its end. -/
theorem position_le_length (h : assemble source = .ok program) {name : String} {position : Nat}
    (hName : program.labels.get? name = some position) : position ≤ program.length := by
  obtain ⟨-, hLabels, -⟩ := assemble_eq_ok_iff.1 h
  rw [hLabels] at hName
  have := get?_definitionsFrom_le 0 name _ hName
  rw [length_of_assemble h]
  omega

theorem addressable_of_assemble (h : assemble source = .ok program)
    (hSize : program.length < 0x8000000000000000) : Addressable program.labels := by
  intro name position hName
  have := position_le_length h hName
  omega

/-- Every instruction is the one that its line writes. -/
theorem assembled_of_assemble (h : assemble source = .ok program)
    (hSize : program.length < 0x8000000000000000) :
    List.Forall₂ (fun entry i => Assembled program.labels entry.2 i)
      (codeLines (numberedLines source)) program.instructions := by
  obtain ⟨-, -, hCode⟩ := assemble_eq_ok_iff.1 h
  exact hCode.imp fun entry i hEntry =>
    assembled_of_instruction (addressable_of_assemble h hSize) hEntry

/-- A name stands for the number of instructions before the line that defines it. -/
theorem get?_of_assemble (h : assemble source = .ok program) {before after : List Line}
    {line : Line} {name : String} (hLines : numberedLines source = before ++ line :: after)
    (hName : line.name? = some name) :
    program.labels.get? name = some (codeLines before).length := by
  obtain ⟨hReport, hLabels, -⟩ := assemble_eq_ok_iff.1 h
  rw [hLines, redefinitionFrom?_append, Option.or_eq_none_iff, redefinitionFrom?,
    Option.or_eq_none_iff, List.nil_append, redefinition?_eq_none_iff] at hReport
  have hNew : (definitionsFrom 0 before).get? name = none :=
    (get?_definitionsFrom_eq_none_iff 0 name before).2 (hReport.2.1 name hName)
  rw [hLabels, hLines, get?_definitionsFrom_append, get?_definitionsFrom_cons, hNew, hName]
  simp

/-- An assembled source has the labels that its lines define, each at the number of instructions
before its line, and the instructions that its lines write, with these positions in place of the
names. -/
theorem assemble_resolves (h : assemble source = .ok program)
    (hSize : (codeLines (numberedLines source)).length < 0x8000000000000000) :
    (∀ name, (∃ position, program.labels.get? name = some position) ↔
      ∃ line ∈ numberedLines source, line.name? = some name) ∧
    (∀ before line after name, numberedLines source = before ++ line :: after →
      line.name? = some name →
        program.labels.get? name = some (codeLines before).length ∧
        (codeLines before).length ≤ program.length) ∧
    List.Forall₂ (fun entry i => Assembled program.labels entry.2 i)
      (codeLines (numberedLines source)) program.instructions := by
  rw [← length_of_assemble h] at hSize
  refine ⟨fun name => ?_, fun before line after name hLines hName => ?_,
    assembled_of_assemble h hSize⟩
  · obtain ⟨-, hLabels, -⟩ := assemble_eq_ok_iff.1 h
    have hNames := get?_definitionsFrom_eq_none_iff 0 name (numberedLines source)
    rw [hLabels, ← Option.ne_none_iff_exists', ne_eq, hNames, not_not, labelNames,
      List.mem_filterMap]
  · have hPosition := get?_of_assemble h hLines hName
    exact ⟨hPosition, position_le_length h hPosition⟩

end Program

/-- A source with a blank line, a comment, jumps forward and back, and a label at the end. -/
def jumpsBothWays : String :=
  "JMP 'end'\n\nmid: OUT 0 // print\n  JMP mid\nend:"

theorem assemble_resolves_jumpsBothWays :
    ∃ program : Program, assemble jumpsBothWays = .ok program ∧
      program.instructions = [.jump (.ofPayload 3), .output (.direct 0), .jump (.ofPayload 1)] ∧
      (codeLines (numberedLines jumpsBothWays)).length < 0x8000000000000000 ∧
      (∀ name, (∃ position, program.labels.get? name = some position) ↔
        ∃ line ∈ numberedLines jumpsBothWays, line.name? = some name) ∧
      (∀ before line after name, numberedLines jumpsBothWays = before ++ line :: after →
        line.name? = some name →
          program.labels.get? name = some (codeLines before).length ∧
          (codeLines before).length ≤ program.length) ∧
      List.Forall₂ (fun entry i => Assembled program.labels entry.2 i)
        (codeLines (numberedLines jumpsBothWays)) program.instructions := by
  have hAssemble : assemble jumpsBothWays =
      .ok ⟨[.jump (.ofPayload 3), .output (.direct 0), .jump (.ofPayload 1)],
        .ofList [("mid", 1), ("end", 3)]⟩ := by decide +kernel
  have hSize : (codeLines (numberedLines jumpsBothWays)).length < 0x8000000000000000 := by
    rw [← length_of_assemble hAssemble]
    decide
  exact ⟨_, hAssemble, rfl, hSize, assemble_resolves hAssemble hSize⟩

end TapeMachine.Assembly
