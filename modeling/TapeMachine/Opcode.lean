/-! The instruction set: every operation with its mnemonic, its number, the role of each operand
and the category under which its executions are counted. -/

namespace TapeMachine

/-- How an operand is used. -/
inductive Role where
  /-- A literal integer, which is never a reference. -/
  | value
  /-- The address of a value cell, direct or through a reference. -/
  | address
  /-- A position in the program, written as a label. -/
  | label
  deriving DecidableEq, Repr

/-- The name of a role. -/
def Role.name : Role → String
  | .value => "Value"
  | .address => "Addr"
  | .label => "Label"

/-- The families of operations that a profile counts apart. -/
inductive Category where
  | memory
  | arithmetic
  | branch
  | call
  | console
  | control
  deriving DecidableEq, Repr

namespace Category

/-- Every category, in the order in which profiles show them. -/
def all : List Category :=
  [.memory, .arithmetic, .branch, .call, .console, .control]

/-- The name of a category in profiles. -/
def name : Category → String
  | memory => "Memory"
  | arithmetic => "Arithmetic"
  | branch => "Branch"
  | call => "Call"
  | console => "Console I/O"
  | control => "Control"

/-- The category with the given name. -/
def ofName? (name : String) : Option Category :=
  all.find? fun category => category.name == name

end Category

/-- The binary integer operations. -/
inductive Arithmetic where
  | add
  | sub
  | mul
  | div
  | mod
  deriving DecidableEq, Repr

/-- The conditions on which a branch jumps. -/
inductive Comparison where
  | greater
  | equal
  | less
  deriving DecidableEq, Repr

/-- The operations of the machine. -/
inductive Opcode where
  /-- Writes a literal to a cell. -/
  | set
  /-- Copies a cell. -/
  | mov
  /-- Writes the clock reading to a cell. -/
  | time
  /-- Writes an integer read from one line of input to a cell. -/
  | input
  /-- Prints a cell on a line of its own. -/
  | output
  /-- Combines two cells into a third. -/
  | arithmetic (operation : Arithmetic)
  /-- Continues at a position. -/
  | jump
  /-- Continues at a position if the comparison of two cells holds. -/
  | branch (condition : Comparison)
  /-- Continues at a position and remembers where it came from. -/
  | call
  /-- Continues after the last call not yet returned from. -/
  | ret
  /-- Ends the run. -/
  | term
  deriving DecidableEq, Repr

namespace Opcode

/-- Every opcode, in the order of the instruction table. -/
def all : List Opcode :=
  [.set, .mov, .time, .input, .output, .arithmetic .add, .arithmetic .sub, .arithmetic .mul,
    .arithmetic .div, .arithmetic .mod, .jump, .branch .greater, .branch .equal, .branch .less,
    .call, .ret, .term]

/-- The upper-case name of an operation in source texts. -/
def mnemonic : Opcode → String
  | set => "SET"
  | mov => "MOV"
  | time => "TIME"
  | input => "IN"
  | output => "OUT"
  | arithmetic .add => "ADD"
  | arithmetic .sub => "SUB"
  | arithmetic .mul => "MUL"
  | arithmetic .div => "DIV"
  | arithmetic .mod => "MOD"
  | jump => "JMP"
  | branch .greater => "JGT"
  | branch .equal => "JEQ"
  | branch .less => "JLT"
  | call => "CALL"
  | ret => "RET"
  | term => "TERM"

/-- The number of an operation. -/
def code : Opcode → Nat
  | set => 1
  | mov => 14
  | time => 18
  | input => 2
  | output => 3
  | arithmetic .add => 4
  | arithmetic .sub => 5
  | arithmetic .mul => 6
  | arithmetic .div => 7
  | arithmetic .mod => 8
  | jump => 10
  | branch .greater => 11
  | branch .equal => 12
  | branch .less => 13
  | call => 16
  | ret => 17
  | term => 15

/-- The role of each operand, in source order. -/
def roles : Opcode → List Role
  | set => [.value, .address]
  | mov => [.address, .address]
  | time => [.address]
  | input => [.address]
  | output => [.address]
  | arithmetic _ => [.address, .address, .address]
  | jump => [.label]
  | branch _ => [.address, .address, .label]
  | call => [.label]
  | ret => []
  | term => []

/-- The number of operands. -/
def arity (op : Opcode) : Nat :=
  op.roles.length

/-- The category under which executions are counted. -/
def category : Opcode → Category
  | set | mov | time => .memory
  | input | output => .console
  | arithmetic _ => .arithmetic
  | jump | branch _ => .branch
  | call | ret => .call
  | term => .control

/-- The opcode that a name means in a source text, where the case of ASCII letters is free. -/
def ofMnemonic? (name : String) : Option Opcode :=
  all.find? fun op => name.toList.map Char.toUpper == op.mnemonic.toList

end Opcode

end TapeMachine
