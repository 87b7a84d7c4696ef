import TapeMachine.Diagnostic
import TapeMachine.Fault

/-! Failures: every way in which assembling and running a file can go wrong, in the words shown to
its user. -/

namespace TapeMachine

/-- Why a file was not run to its end. -/
inductive Failure where
  /-- The source is refused. -/
  | assembly (diagnostic : Diagnostic)
  /-- The machine stopped with a fault. -/
  | runtime (fault : Fault)
  /-- A file could not be read or written, for the given reason. -/
  | file (path reason : String)
  deriving DecidableEq, Repr

namespace Failure

/-- The words for a failure. -/
def message : Failure → String
  | assembly diagnostic => "assembly failed at " ++ diagnostic.message
  | runtime fault => "execution failed at " ++ fault.message
  | file path reason => s!"io error on {path}: {reason}"

/-- What led to a failure, from the nearest cause to the farthest. -/
def causes : Failure → List String
  | assembly diagnostic => [diagnostic.message, diagnostic.rejection.message]
  | runtime fault =>
    match fault.cause with
    | .console reason => [fault.message, fault.cause.message, reason]
    | cause => [fault.message, cause.message]
  | file _ reason => [reason]

end Failure

end TapeMachine
