import TapeMachine.Opcode
import TapeMachine.Operand
import TapeMachine.Rejection

/-! Instructions.  Each operation takes the operands that its roles ask for, so an instruction that
exists is well formed: literals and positions are never references, and positions are never
negative.  `Instruction.build` makes one from an opcode and a list of operands or says why it
cannot, and `opcode` and `operands` take it apart again. -/

namespace TapeMachine

/-- A position in a program to which an instruction may go: a number below `2^63`, so that it is
also a non-negative operand payload. -/
abbrev Position := Fin 0x8000000000000000

namespace Position

/-- The position that a non-negative operand payload writes. -/
def ofPayload (payload : Int64) : Position :=
  ⟨payload.toInt.toNat, by have := payload.toInt_lt; omega⟩

/-- The operand payload that writes a position. -/
def payload (p : Position) : Int64 :=
  Int64.ofNat p.val

end Position

/-- The ways in which an operand can be unfit for its role. -/
inductive Violation where
  | literalReference
  | labelReference
  | negativePosition
  deriving DecidableEq, Repr

/-- The words for a violation. -/
def Violation.reason : Violation → String
  | literalReference => "is a literal and must not be a reference"
  | labelReference => "is a label and must not be a reference"
  | negativePosition => "is not a valid instruction position"

/-- Why an operand may not fill a place of the given role, if it may not. -/
def Role.violation? (role : Role) (operand : Operand) : Option Violation :=
  match role with
  | .value => if operand.isReference then some .literalReference else none
  | .address => none
  | .label =>
    if operand.isReference then some .labelReference
    else if operand.payload < 0 then some .negativePosition
    else none

/-- An operation with its operands. -/
inductive Instruction where
  | set (value : Int64) (dst : Operand)
  | mov (src dst : Operand)
  | time (dst : Operand)
  | input (dst : Operand)
  | output (src : Operand)
  | arithmetic (operation : Arithmetic) (a b dst : Operand)
  | jump (target : Position)
  | branch (condition : Comparison) (a b : Operand) (target : Position)
  | call (target : Position)
  | ret
  | term
  deriving DecidableEq, Repr

namespace Instruction

/-- The operation of an instruction. -/
def opcode : Instruction → Opcode
  | set _ _ => .set
  | mov _ _ => .mov
  | time _ => .time
  | input _ => .input
  | output _ => .output
  | arithmetic operation _ _ _ => .arithmetic operation
  | jump _ => .jump
  | branch condition _ _ _ => .branch condition
  | call _ => .call
  | ret => .ret
  | term => .term

/-- The operands of an instruction, in source order. -/
def operands : Instruction → List Operand
  | set value dst => [.direct value, dst]
  | mov src dst => [src, dst]
  | time dst => [dst]
  | input dst => [dst]
  | output src => [src]
  | arithmetic _ a b dst => [a, b, dst]
  | jump target => [.direct target.payload]
  | branch _ a b target => [a, b, .direct target.payload]
  | call target => [.direct target.payload]
  | ret => []
  | term => []

/-- The source form of an instruction: the mnemonic and the operands, divided by blanks. -/
def text (i : Instruction) : String :=
  i.operands.foldl (fun s operand => s ++ " " ++ operand.text) i.opcode.mnemonic

/-- The mnemonic of an instruction. -/
def mnemonic (i : Instruction) : String :=
  i.opcode.mnemonic

/-- The operand at a place for a literal, which is counted from 1. -/
def literal (op : Opcode) (place : Nat) (operand : Operand) : Except Rejection Int64 :=
  match Role.value.violation? operand with
  | some violation =>
    .error (.invalidOperand op.mnemonic place operand.text violation.reason)
  | none => .ok operand.payload

/-- The operand at a place for a position, which is counted from 1. -/
def position (op : Opcode) (place : Nat) (operand : Operand) : Except Rejection Position :=
  match Role.label.violation? operand with
  | some violation =>
    .error (.invalidOperand op.mnemonic place operand.text violation.reason)
  | none => .ok (Position.ofPayload operand.payload)

/-- Makes an instruction of an opcode and its operands.  The number of operands is checked first
and then each operand, from the left. -/
def build (op : Opcode) (operands : List Operand) : Except Rejection Instruction :=
  match op, operands with
  | .set, [value, dst] => (literal op 1 value).map fun v => .set v dst
  | .mov, [src, dst] => .ok (.mov src dst)
  | .time, [dst] => .ok (.time dst)
  | .input, [dst] => .ok (.input dst)
  | .output, [src] => .ok (.output src)
  | .arithmetic operation, [a, b, dst] => .ok (.arithmetic operation a b dst)
  | .jump, [target] => (position op 1 target).map .jump
  | .branch condition, [a, b, target] => (position op 3 target).map (.branch condition a b)
  | .call, [target] => (position op 1 target).map .call
  | .ret, [] => .ok .ret
  | .term, [] => .ok .term
  | _, _ => .error (.arityMismatch op.mnemonic op.arity operands.length)

end Instruction

end TapeMachine

