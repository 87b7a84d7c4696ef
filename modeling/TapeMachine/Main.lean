import Std.Time.DateTime.Timestamp
import TapeMachine.CommandLine.Run

/-! The command on the console, the files and the clock of a process.  It does what
`CommandLine.execute` describes, but shows each text as soon as it is known and reads standard input
one line at a time. -/

namespace TapeMachine.Terminal

open CommandLine

/-- What is written before a line is read from a terminal. -/
def inputPrompt : String := "Input: "

/-- The time now, in nanoseconds since the start of 1970. -/
def nanosNow : IO Int := do
  return (← Std.Time.Timestamp.now).toNanosecondsSinceUnixEpoch.val

/-- The timestamp of the time now. -/
def stampNow : IO Timestamp := do
  return .ofMoment (.ofNanos (← nanosNow))

/-- The job with its log lines at the time now. -/
def stamped (job : Job) : IO Job := do
  let time ← stampNow
  return { job with times := { job.times with logged := fun _ => time } }

/-- The microseconds since a reading of the monotonic clock. -/
def microsSince (start : Nat) : IO Nat := do
  return ((← IO.monoNanosNow) - start) / 1000

/-- The reason for a failed file operation. -/
def reasonOf : IO.Error → String
  | .noFileOrDirectory _ _ _ => Directory.noSuchFile
  | .inappropriateType _ 20 _ => Directory.notDirectory
  | .inappropriateType _ _ _ => Directory.isDirectory
  | .permissionDenied _ _ _ => "Permission denied (os error 13)"
  | failure => toString failure

/-- Reads the bytes of a file. -/
def readBytes (path : String) : IO (Except String (List UInt8)) := do
  try return .ok (← IO.FS.readBinFile path).toList
  catch failure => return .error (reasonOf failure)

/-- Writes a text to a file. -/
def writeText (path text : String) : IO (Except String Unit) := do
  try
    IO.FS.writeFile path text
    return .ok ()
  catch failure => return .error (reasonOf failure)

/-- Reads bytes up to and with the next line feed, after the given ones. -/
partial def readLineBytes (stdin : IO.FS.Stream) (reversed : List UInt8) : IO (List UInt8) := do
  match (← stdin.read 1).toList with
  | [] => return reversed.reverse
  | byte :: _ =>
    if byte = 10 then return (byte :: reversed).reverse
    else readLineBytes stdin (byte :: reversed)

/-- The machine with new lines of its trace at the time now. -/
def timed (m : Machine (Option Trace.Log)) : IO (Machine (Option Trace.Log)) := do
  let time ← stampNow
  return { m with trace := m.trace.map fun log => log.atTime time }

/-- Steps a machine until it stops: a line is read before a step that needs one, and what a step
writes is shown at once. -/
partial def drive (m : Machine (Option Trace.Log)) (prompt? : Option String) :
    IO (Except Fault Halt × Machine (Option Trace.Log)) := do
  let m ← timed m
  let line ←
    if m.readsNext then do
      let stdout ← IO.getStdout
      stdout.putStr (prompt?.getD "")
      stdout.flush
      readLineBytes (← IO.getStdin) []
    else pure []
  let clock := Int64.ofInt (← nanosNow)
  let (result, m, console) := m.step (Host.Console.start line none (.stopped clock))
  let stdout ← IO.getStdout
  stdout.putStr console.output
  stdout.flush
  match result with
  | .error fault => return (.error fault, m)
  | .ok (some halt) => return (.ok halt, m)
  | .ok none => drive m prompt?

/-- Shows the end of a run and gives its exit status. -/
def conclude (job : Job) (result : Except Failure Halt) : IO UInt32 := do
  let (exit, last) := (← stamped job).conclude result
  IO.eprint last
  return exit.toUInt32

/-- Runs an assembled program. -/
def runProgram (job : Job) (source : String) (program : Program) : IO UInt32 := do
  match job.load source program with
  | .error fault => conclude job (.error (.runtime fault))
  | .ok m =>
    let prompt? := if ← (← IO.getStdin).isTty then some inputPrompt else none
    let start ← IO.monoNanosNow
    let (result, m) ← drive m prompt?
    let running ← microsSince start
    let job ← stamped { job with times := { job.times with running } }
    IO.eprint (job.executedText m)
    let ended := result.mapError Failure.runtime
    match job.trace? (← timed m) result with
    | none => conclude job ended
    | some (path, trace) =>
      match ← writeText path trace.render with
      | .error reason => conclude job (.error (.file path reason))
      | .ok () =>
        IO.eprint ((← stamped job).writtenText path trace)
        conclude job ended

/-- Reads, assembles and runs the file of a job. -/
def runFile (job : Job) : IO UInt32 := do
  match job.source (← readBytes job.options.file) with
  | .error failure => conclude job (.error failure)
  | .ok source =>
    IO.eprint ((← stamped job).readText source)
    let start ← IO.monoNanosNow
    match Assembly.assemble source with
    | .error diagnostic => conclude job (.error (.assembly diagnostic))
    | .ok program =>
      let assembling ← microsSince start
      let job ← stamped { job with times := { job.times with assembling } }
      IO.eprint (job.assembledText program)
      runProgram job source program

/-- Carries out a command line. -/
def command (arguments : List String) : IO UInt32 := do
  let settings ← ["TAPEVM_MEMORY", "TAPEVM_INSTRUCTIONS", "TERM", "NO_COLOR"].mapM fun name =>
    return (name, ← IO.getEnv name)
  let environment (name : String) : Option String := (settings.lookup name).join
  match parse environment arguments with
  | .error usage =>
    IO.eprint s!"error: {usage.message}\n"
    return 2
  | .ok .version =>
    IO.print versionText
    return 0
  | .ok .help =>
    IO.print helpText
    return 0
  | .ok (.run options) =>
    runFile ⟨options, options.logging (coloursAllowed environment), .hidden⟩

end TapeMachine.Terminal

/-- Carries out the command line of the process. -/
def main (arguments : List String) : IO UInt32 :=
  TapeMachine.Terminal.command arguments
