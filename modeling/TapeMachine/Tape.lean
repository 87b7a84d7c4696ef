import TapeMachine.Numeral

/-! Tapes: a fixed number of cells, each unset until it is first written.  Cells can be written
again but never become unset, and an access outside the tape fails and never makes it longer. -/

namespace TapeMachine

/-- A fixed number of cells that are unset or hold a value. -/
structure Tape (α : Type) where
  cells : Array (Option α)
  deriving DecidableEq, Repr

namespace Tape

variable {α : Type}

/-- Why an access to a tape fails. -/
inductive Error where
  /-- The address is negative or not below the capacity. -/
  | outOfBounds (address : Int64) (capacity : Nat)
  /-- The cell was never written. -/
  | uninitialized (address : Nat)
  deriving DecidableEq, Repr

/-- The words for an address outside a memory of the given capacity. -/
def outsideMessage (address : Int64) (capacity : Nat) : String :=
  "address " ++ Numeral.ofInt64 address ++ " is outside memory, allowed addresses are [0, "
    ++ Text.decimal capacity ++ ")"

/-- The words for a read of an unset cell. -/
def unsetMessage (address : Nat) : String :=
  "cell #" ++ Text.decimal address ++ " was read before it was written"

/-- The words for a failed access. -/
def Error.message : Error → String
  | outOfBounds address capacity => outsideMessage address capacity
  | uninitialized address => unsetMessage address

/-- A tape of unset cells. -/
def blank (capacity : Nat) : Tape α :=
  ⟨Array.replicate capacity none⟩

/-- A tape whose first cells hold the given values and whose other cells are unset. -/
def ofList (capacity : Nat) (values : List α) : Tape α :=
  ⟨(values.map some).toArray ++ Array.replicate (capacity - values.length) none⟩

/-- The number of cells. -/
abbrev capacity (tape : Tape α) : Nat :=
  tape.cells.size

/-- The cell that an address names. -/
def index (tape : Tape α) (address : Int64) : Except Error (Fin tape.capacity) :=
  if h : 0 ≤ address.toInt ∧ address.toInt.toNat < tape.capacity then
    .ok ⟨address.toInt.toNat, h.2⟩
  else .error (.outOfBounds address tape.capacity)

/-- The content of a cell, if it is set. -/
def get (tape : Tape α) (address : Int64) : Except Error (Option α) :=
  (tape.index address).map fun i => tape.cells[i]

/-- The content of a cell, which has to be set. -/
def read (tape : Tape α) (address : Int64) : Except Error α :=
  match tape.index address with
  | .error e => .error e
  | .ok i =>
    match tape.cells[i] with
    | some value => .ok value
    | none => .error (.uninitialized i)

/-- The tape with a cell overwritten; an address outside the tape changes nothing. -/
def put (tape : Tape α) (address : Int64) (value : α) : Tape α :=
  if 0 ≤ address.toInt then ⟨tape.cells.setIfInBounds address.toInt.toNat (some value)⟩ else tape

/-- Overwrites a cell, which has to be on the tape. -/
def write (tape : Tape α) (address : Int64) (value : α) : Except Error (Tape α) :=
  (tape.index address).map fun _ => tape.put address value

/-- The set cells with their addresses, in increasing order. -/
def written (tape : Tape α) : List (Nat × α) :=
  tape.cells.toList.zipIdx.filterMap fun cell => cell.1.map fun value => (cell.2, value)

end Tape

end TapeMachine
