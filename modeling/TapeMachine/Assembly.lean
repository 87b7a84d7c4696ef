import TapeMachine.Diagnostic
import TapeMachine.Program

/-! The assembler.  A first pass over the statements of a source records every label at the
position of the next instruction, and the first label that is defined again.  A second pass reads
the instructions with the labels known, so labels may be used before they are defined.  The
rejection of the earliest line is reported, and on one line a label defined again comes before the
instruction. -/

namespace TapeMachine.Assembly

open Source

/-- The operand that a token writes at a place of the given role, which is counted from 1. -/
def operand (labels : LabelTable) (op : Opcode) (place : Nat) (role : Role) (token : String) :
    Except Rejection Operand :=
  let spelling := Operand.spelling token
  let invalid (violation : Violation) : Rejection :=
    .invalidOperand op.mnemonic place token violation.reason
  if role = .label then
    if spelling.isReference then .error (invalid .labelReference)
    else
      match labels.get? spelling.body with
      | some position => .ok (.direct (Int64.ofNat position))
      | none => .error (.unknownLabel spelling.body)
  else
    match Numeral.int64? spelling.body with
    | none => .error (.nonNumericOperand op.mnemonic place token)
    | some payload =>
      match role.violation? ⟨payload, spelling.isReference⟩ with
      | some violation => .error (invalid violation)
      | none => .ok ⟨payload, spelling.isReference⟩

/-- The operands that tokens write at the places from `place` on, up to the first one refused. -/
def operandsFrom (labels : LabelTable) (line : Line) (op : Opcode) (place : Nat) :
    List Token → List Role → Except Diagnostic (List Operand)
  | token :: tokens, role :: roles => do
    let first ← (operand labels op place role token.text).mapError (line.reject token.column)
    let rest ← operandsFrom labels line op (place + 1) tokens roles
    return first :: rest
  | _, _ => .ok []

/-- The instruction on a line.  A wrong number of operands is reported at the first surplus
operand, or at the mnemonic if operands are missing. -/
def instruction (labels : LabelTable) (line : Line) (code : Code) :
    Except Diagnostic Instruction := do
  let reject := line.reject
  match Opcode.ofMnemonic? code.mnemonic.text with
  | none => .error (reject code.mnemonic.column (.unknownInstruction code.mnemonic.text))
  | some op =>
    if code.operands.length ≠ op.arity then
      let culprit := (code.operands[op.arity]?).getD code.mnemonic
      .error (reject culprit.column
        (.arityMismatch op.mnemonic op.arity code.operands.length))
    else
      let operands ← operandsFrom labels line op 1 code.operands op.roles
      (Instruction.build op operands).mapError (reject code.mnemonic.column)

/-- What the first pass knows of the statements read so far. -/
structure Survey where
  /-- The labels, each at its first definition. -/
  labels : LabelTable
  /-- The lines that hold an instruction, in order. -/
  code : Array (Line × Code)
  /-- The first definition of a label that was already defined. -/
  duplicate? : Option Diagnostic

namespace Survey

/-- The survey of no statements. -/
def empty : Survey :=
  ⟨.empty, #[], none⟩

/-- Records a label at the position of the next instruction.  A label that is already defined
keeps its position. -/
def define (survey : Survey) (line : Line) (label : Label) : Survey :=
  match survey.labels.get? label.name with
  | none => { survey with labels := survey.labels.insert label.name survey.code.size }
  | some _ =>
    let diagnostic := line.reject label.column (.duplicateLabel label.name)
    { survey with duplicate? := survey.duplicate? <|> some diagnostic }

/-- Records the label and then the instruction of a statement. -/
def add (survey : Survey) (statement : Statement) : Survey :=
  let survey := match statement.label? with
    | some label => survey.define statement.toLine label
    | none => survey
  match statement.code? with
  | some code => { survey with code := survey.code.push (statement.toLine, code) }
  | none => survey

/-- The lines to assemble: those before the first label defined again. -/
def pending (survey : Survey) : List (Line × Code) :=
  match survey.duplicate? with
  | some duplicate => survey.code.toList.takeWhile fun entry => entry.1.number < duplicate.line
  | none => survey.code.toList

end Survey

/-- The first pass over a source. -/
def survey (source : String) : Survey :=
  (statements source).foldl Survey.add .empty

/-- Assembles a source text, or reports its earliest rejection. -/
def assemble (source : String) : Except Diagnostic Program := do
  let survey := survey source
  let instructions ← survey.pending.mapM fun (line, code) => instruction survey.labels line code
  match survey.duplicate? with
  | some duplicate => .error duplicate
  | none => return ⟨instructions, survey.labels⟩

end TapeMachine.Assembly
