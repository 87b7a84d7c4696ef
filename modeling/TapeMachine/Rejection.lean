import TapeMachine.Text.Layout

/-! The reasons for which the assembler refuses a source line, and `Instruction.build` a list of
operands, with the words in which they are reported. -/

namespace TapeMachine

/-- Why a line or an instruction is refused. -/
inductive Rejection where
  /-- The mnemonic is not in the instruction table. -/
  | unknownInstruction (name : String)
  /-- No line defines the label. -/
  | unknownLabel (label : String)
  /-- A literal or an address is not a signed integer; operands are counted from 1. -/
  | nonNumericOperand (instruction : String) (position : Nat) (token : String)
  /-- An operand has a form that its role forbids. -/
  | invalidOperand (instruction : String) (position : Nat) (token reason : String)
  /-- There are more or fewer operands than the instruction takes. -/
  | arityMismatch (instruction : String) (expected actual : Nat)
  /-- An earlier line defines the label. -/
  | duplicateLabel (label : String)
  deriving DecidableEq, Repr

/-- The words for a rejection. -/
def Rejection.message : Rejection → String
  | unknownInstruction name => s!"unknown instruction '{name}'"
  | unknownLabel label => s!"unknown label '{label}'"
  | nonNumericOperand instruction position token =>
    s!"instruction {instruction} got non-numeric parameter[#" ++ Text.decimal position
      ++ s!"] '{token}'"
  | invalidOperand instruction position token reason =>
    s!"instruction {instruction} parameter[#" ++ Text.decimal position ++ s!"] '{token}' {reason}"
  | arityMismatch instruction expected actual =>
    s!"instruction {instruction} expects " ++ Text.decimal expected ++ " operand(s) but got "
      ++ Text.decimal actual
  | duplicateLabel label => s!"duplicate label '{label}'"

end TapeMachine
