import TapeMachine.Tape

/-! Faults: what stops a machine before its program ends, with the instruction that it happened
at. -/

namespace TapeMachine

/-- What went wrong. -/
inductive Fault.Cause where
  /-- An address outside the value tape. -/
  | outOfBounds (address : Int64) (capacity : Nat)
  /-- A read of a cell that was never written. -/
  | uninitializedRead (address : Nat)
  /-- A division or remainder by zero. -/
  | divisionByZero
  /-- An input line that is not a signed integer. -/
  | inputParseFailure (input : String)
  /-- The number of instructions allowed has been executed. -/
  | cycleLimitExceeded (limit : Nat)
  /-- The program does not fit on the instruction tape. -/
  | programTooLarge (length capacity : Nat)
  /-- The console could not read or write, for the given reason. -/
  | console (reason : String)
  deriving DecidableEq, Repr

/-- The words for a cause. -/
def Fault.Cause.message : Fault.Cause → String
  | outOfBounds address capacity => Tape.outsideMessage address capacity
  | uninitializedRead address => Tape.unsetMessage address
  | divisionByZero => "division by zero"
  | inputParseFailure input => s!"input '{input}' is not an integer"
  | cycleLimitExceeded limit => "cycle limit of " ++ Text.decimal limit ++ " instructions exceeded"
  | programTooLarge length capacity =>
    "program has " ++ Text.decimal length ++ " instructions but the instruction tape holds "
      ++ Text.decimal capacity
  | console reason => "console failure: " ++ reason

/-- The cause that a failed access to the value tape is. -/
def Tape.Error.cause : Tape.Error → Fault.Cause
  | outOfBounds address capacity => .outOfBounds address capacity
  | uninitialized address => .uninitializedRead address

/-- A cause at the instruction that raised it. -/
structure Fault where
  /-- The position of the instruction. -/
  pc : Nat
  mnemonic : String
  cause : Fault.Cause
  deriving DecidableEq, Repr

/-- The instruction and the cause, in one line. -/
def Fault.message (fault : Fault) : String :=
  "instruction " ++ Text.decimal fault.pc ++ s!" ({fault.mnemonic}): " ++ fault.cause.message

end TapeMachine
