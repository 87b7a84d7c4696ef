import TapeMachine.Instruction
import TapeMachine.LabelTable

/-! Programs, and the listing that shows one.  A label of a program stands for the position of the
instruction after it, so it may also stand for the end of the program. -/

namespace TapeMachine

/-- A list of instructions with the labels that name positions in it. -/
structure Program where
  instructions : List Instruction
  labels : LabelTable
  deriving DecidableEq

namespace Program

/-- The number of instructions. -/
def length (program : Program) : Nat :=
  program.instructions.length

/-- The instruction at a position. -/
def get? (program : Program) (position : Nat) : Option Instruction :=
  program.instructions[position]?

/-- Puts an entry before the first one with a greater position. -/
def insertByPosition (entry : String × Nat) : List (String × Nat) → List (String × Nat)
  | [] => [entry]
  | first :: rest =>
    if entry.2 < first.2 then entry :: first :: rest else first :: insertByPosition entry rest

/-- Label entries by increasing position; entries of one position keep their order. -/
def sortByPosition (entries : List (String × Nat)) : List (String × Nat) :=
  entries.foldl (fun sorted entry => insertByPosition entry sorted) []

/-- The line of a listing that shows a label. -/
def labelLine (name : String) : String :=
  name ++ ":"

/-- The line of a listing that shows an instruction: its position in at least four digits, two
blanks and its source form. -/
def instructionLine (position : Nat) (instruction : Instruction) : String :=
  Text.zeroPad 4 position ++ "  " ++ instruction.text

/-- The lines of a listing from `position` on, for labels sorted by position and not yet shown:
before each instruction its labels, and the labels left over at the end. -/
def listingFrom (position : Nat) :
    List Instruction → List (String × Nat) → List String
  | [], labels => labels.map fun entry => labelLine entry.1
  | instruction :: rest, labels =>
    (labels.takeWhile fun entry => entry.2 == position).map (fun entry => labelLine entry.1)
      ++ instructionLine position instruction
        :: listingFrom (position + 1) rest (labels.dropWhile fun entry => entry.2 == position)

/-- The lines of the listing of a program. -/
def listingLines (program : Program) : List String :=
  listingFrom 0 program.instructions (sortByPosition program.labels.entries)

/-- The listing of a program: every line followed by a line feed. -/
def listing (program : Program) : String :=
  String.join (program.listingLines.map (· ++ "\n"))

end Program

end TapeMachine
