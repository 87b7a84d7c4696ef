/-! Clocks.  A clock is the sequence of the times that it is going to show: a reading gives the
first of them and leaves the others, and nothing is said of how they follow each other. -/

namespace TapeMachine

/-- A clock that shows times of type `α`. -/
structure Clock (α : Type) where
  /-- What the readings from now on show, in order. -/
  reading : Nat → α

namespace Clock

variable {α : Type}

/-- Reads a clock. -/
def now (clock : Clock α) : α × Clock α :=
  (clock.reading 0, ⟨fun n => clock.reading (n + 1)⟩)

/-- A clock that has stopped. -/
def stopped (time : α) : Clock α :=
  ⟨fun _ => time⟩

/-- A clock that goes on by a nanosecond with every reading, and wraps around. -/
def ticking (start : Int64) : Clock Int64 :=
  ⟨fun n => start + Int64.ofNat n⟩

instance : Coe Int64 (Clock Int64) :=
  ⟨ticking⟩

end Clock

end TapeMachine
