import TapeMachine.Opcode

/-! Profiles: how many instructions of each category were executed.  Counts and totals stop at the
greatest 64-bit number instead of passing it. -/

namespace TapeMachine

/-- The number of executed instructions of each category. -/
structure Profile where
  memory : Nat
  arithmetic : Nat
  branch : Nat
  call : Nat
  console : Nat
  control : Nat
  deriving DecidableEq, Repr

namespace Profile

/-- The greatest count. -/
def maxCount : Nat := 0xFFFFFFFFFFFFFFFF

/-- The sum of two counts, or the greatest count if that is less. -/
def sum (a b : Nat) : Nat :=
  min (a + b) maxCount

/-- The profile of a machine that has executed nothing. -/
def zero : Profile :=
  ⟨0, 0, 0, 0, 0, 0⟩

/-- The count of a category. -/
def get (p : Profile) : Category → Nat
  | .memory => p.memory
  | .arithmetic => p.arithmetic
  | .branch => p.branch
  | .call => p.call
  | .console => p.console
  | .control => p.control

/-- Counts more executions of a category. -/
def add (p : Profile) (category : Category) (amount : Nat) : Profile :=
  match category with
  | .memory => { p with memory := sum p.memory amount }
  | .arithmetic => { p with arithmetic := sum p.arithmetic amount }
  | .branch => { p with branch := sum p.branch amount }
  | .call => { p with call := sum p.call amount }
  | .console => { p with console := sum p.console amount }
  | .control => { p with control := sum p.control amount }

/-- The categories with their counts. -/
def counts (p : Profile) : List (Category × Nat) :=
  Category.all.map fun category => (category, p.get category)

/-- The count of all categories together. -/
def total (p : Profile) : Nat :=
  p.counts.foldl (fun subtotal entry => sum subtotal entry.2) 0

end Profile

end TapeMachine
