import TapeMachine.Assembly
import TapeMachine.CommandLine.Options
import TapeMachine.Directory
import TapeMachine.Failure
import TapeMachine.Host.Console
import TapeMachine.Log
import TapeMachine.Profile.Table
import TapeMachine.Trace.Log

/-! Runs of a source file from the command line.  The output of the program goes to standard output
and all else to standard error, in the order of the phases: reading and assembling, running, writing
the trace, and the outcome. -/

namespace TapeMachine.CommandLine

/-- What a log line is about. -/
inductive Phase where
  | reading
  | assembling
  | running
  | writing
  | concluding
  deriving DecidableEq, Repr

/-- The clock readings that a run shows. -/
structure Times where
  /-- The time put on the log line of a phase. -/
  logged : Phase → Timestamp
  /-- The clock that is read for each row of the trace. -/
  rows : Clock Timestamp
  /-- The microseconds that assembling took. -/
  assembling : Nat
  /-- The microseconds that the run took. -/
  running : Nat

/-- The clock readings of a run that hides them. -/
def Times.hidden : Times :=
  ⟨fun _ => .hidden, .hidden, 0, 0⟩

/-- Whether the environment allows colours: the terminal is known and not dumb, and no variable
turns colours off. -/
def coloursAllowed (environment : String → Option String) : Bool :=
  match environment "TERM", environment "NO_COLOR" with
  | some terminal, none => terminal ≠ "dumb"
  | _, _ => false

/-- Which messages a run logs, and how. -/
def Options.logging (options : Options) (colour : Bool) : Log.Settings where
  minimum := if options.quiet then .warn else if options.verbose then .debug else .info
  showTimestamp := !options.noTimestamp
  colour := colour

/-- A run of the command line: its options and how it logs. -/
structure Job where
  options : Options
  logging : Log.Settings
  times : Times

namespace Job

/-- The log line of a phase. -/
def log (job : Job) (phase : Phase) (level : Log.Level) (message : String) : String :=
  job.logging.line (job.times.logged phase) level message

/-- The source text that the bytes of the file hold, or why there is none. -/
def source (job : Job) (content : Except String (List UInt8)) : Except Failure String :=
  (content.bind Text.decode).mapError (.file job.options.file)

/-- What is shown once the file is read. -/
def readText (job : Job) (source : String) : String :=
  job.log .reading .debug
    s!"read {Text.decimal source.utf8ByteSize} bytes from {job.options.file}"

/-- What is shown once the source is assembled. -/
def assembledText (job : Job) (program : Program) : String :=
  let elapsed := Text.decimal job.times.assembling
  let size := Text.decimal program.length
  job.log .assembling .info s!"Compiled {job.options.file} in {elapsed}μs ({size} instructions)"
    ++ if job.options.listing then program.listing else ""

/-- What is shown after the run of a machine. -/
def executedText {τ : Type} (job : Job) (m : Machine τ) : String :=
  let count := Text.decimal m.cycles
  let elapsed := Text.decimal job.times.running
  job.log .running .debug s!"Executed {count} instructions in {elapsed}μs"
    ++ if job.options.stats then m.profile.table else ""

/-- The machine at the start of a program, with a trace log if one is to be written. -/
def load (job : Job) (source : String) (program : Program) :
    Except Fault (Machine (Option Trace.Log)) :=
  Machine.load program job.options.config
    (job.options.logs?.map fun _ => Trace.Log.start source job.times.rows)

/-- The trace to write and its path: the trace of the run with a last line for the fault that ended
it, if one did. -/
def trace? (job : Job) (m : Machine (Option Trace.Log)) (result : Except Fault Halt) :
    Option (String × Trace.Log) :=
  match job.options.logs?, m.trace, result with
  | some path, some trace, .ok _ => some (path, trace)
  | some path, some trace, .error fault => some (path, trace.note ("error: " ++ fault.message))
  | _, _, _ => none

/-- What is shown once the trace is written to a path. -/
def writtenText (job : Job) (path : String) (trace : Trace.Log) : String :=
  job.log .writing .info s!"Trace written to {path} ({Text.decimal trace.length} entries)"

/-- The exit status and what is shown last. -/
def conclude (job : Job) (result : Except Failure Halt) : Nat × String :=
  match result with
  | .ok .terminated => (0, job.log .concluding .debug "Program terminated")
  | .ok .endOfProgram =>
    (0, job.log .concluding .debug "Program ran past its last instruction")
  | .ok .faulted => (1, "")
  | .error (.assembly diagnostic) => (1, diagnostic.render job.options.file)
  | .error failure => (1, job.log .concluding .error failure.message)

end Job

/-- What a run leaves behind. -/
structure Outcome where
  exit : Nat
  stdout : String
  stderr : String
  directory : Directory
  deriving DecidableEq

namespace Job

/-- The outcome of a run with a result, after what was already written. -/
def outcome (job : Job) (result : Except Failure Halt) (stdout stderr : String)
    (directory : Directory) : Outcome :=
  let (exit, last) := job.conclude result
  ⟨exit, stdout, stderr ++ last, directory⟩

/-- Runs a program and writes its trace if one is asked for.  A trace that cannot be written is
reported in place of the result of the run. -/
def runProgram (job : Job) (fuel : Nat) (source : String) (program : Program)
    (console : Host.Console) (directory : Directory) (shown : String) : Option Outcome :=
  match job.load source program with
  | .error fault => some (job.outcome (.error (.runtime fault)) "" shown directory)
  | .ok m =>
    let (result?, m, console) := m.run fuel console
    result?.map fun result =>
      let shown := shown ++ job.executedText m
      let ended := result.mapError Failure.runtime
      match job.trace? m result with
      | none => job.outcome ended console.output shown directory
      | some (path, trace) =>
        match directory.write path (Text.encode trace.render) with
        | .error reason => job.outcome (.error (.file path reason)) console.output shown directory
        | .ok directory =>
          job.outcome ended console.output (shown ++ job.writtenText path trace) directory

/-- Reads, assembles and runs the file.  There is no outcome if the program is still running after
`fuel` steps. -/
def run (job : Job) (fuel : Nat) (console : Host.Console) (directory : Directory) :
    Option Outcome :=
  match job.source (directory.read job.options.file) with
  | .error failure => some (job.outcome (.error failure) "" "" directory)
  | .ok source =>
    let shown := job.readText source
    match Assembly.assemble source with
    | .error diagnostic => some (job.outcome (.error (.assembly diagnostic)) "" shown directory)
    | .ok program =>
      job.runProgram fuel source program console directory (shown ++ job.assembledText program)

end Job

/-- What the version request prints. -/
def versionText : String := "tapevm 0.3.0\n"

/-- What the help request prints. -/
def helpText : String :=
  "Assemble and run a tape machine program\n\n"
    ++ "Usage: tapevm [OPTIONS] <FILE>\n\n"
    ++ "Arguments:\n"
    ++ "  <FILE>  Assembly source file to run\n\n"
    ++ "Options:\n"
    ++ "      --logs <PATH>       Write the execution trace to PATH when the run ends\n"
    ++ "      --memory <N>        Number of value cells [env: TAPEVM_MEMORY=] [default: 256]\n"
    ++ "      --instructions <N>  Number of instruction cells [env: TAPEVM_INSTRUCTIONS=]"
    ++ " [default: 256]\n"
    ++ "      --max-cycles <N>    Fail once more than N instructions have been executed\n"
    ++ "      --listing           Print the assembled program before running it\n"
    ++ "      --stats             Print executed instructions per category after the run\n"
    ++ "  -q, --quiet             Only log warnings and errors\n"
    ++ "  -v, --verbose           Also log debug messages\n"
    ++ "      --no-timestamp      Omit timestamps from log lines\n"
    ++ "  -h, --help              Print help\n"
    ++ "  -V, --version           Print version\n"

/-- Carries out a command line on a console and a directory. -/
def execute (environment : String → Option String) (arguments : List String) (times : Times)
    (fuel : Nat) (console : Host.Console) (directory : Directory) : Option Outcome :=
  match parse environment arguments with
  | .error usage => some ⟨2, "", s!"error: {usage.message}\n", directory⟩
  | .ok .version => some ⟨0, versionText, "", directory⟩
  | .ok .help => some ⟨0, helpText, "", directory⟩
  | .ok (.run options) =>
    let job : Job := ⟨options, options.logging (coloursAllowed environment), times⟩
    job.run fuel console directory

end TapeMachine.CommandLine
