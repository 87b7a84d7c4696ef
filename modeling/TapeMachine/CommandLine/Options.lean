import TapeMachine.Machine

/-! The arguments of the command line.  They are read from the left and the first that is wrong ends
the reading, but a request for the version or for help before it is granted.  What only the whole
line can show, a missing file or flags that exclude each other, is checked at the end. -/

namespace TapeMachine.CommandLine

/-- What a run is asked to do. -/
structure Options where
  /-- The source file. -/
  file : String
  /-- Where the trace is written. -/
  logs? : Option String
  /-- The number of value cells. -/
  memory : Nat
  /-- The number of instruction cells. -/
  instructions : Nat
  /-- The number of instructions that may be executed. -/
  maxCycles? : Option Nat
  /-- Whether the program is listed before it runs. -/
  listing : Bool
  /-- Whether the profile is shown after the run. -/
  stats : Bool
  /-- Whether only warnings and errors are logged. -/
  quiet : Bool
  /-- Whether debug messages are logged. -/
  verbose : Bool
  /-- Whether log lines have no timestamp. -/
  noTimestamp : Bool
  deriving DecidableEq, Repr

/-- The machine that a run is asked for. -/
def Options.config (options : Options) : Config :=
  ⟨options.instructions, options.memory, options.maxCycles?⟩

/-- What a command line asks for. -/
inductive Request where
  | run (options : Options)
  | version
  | help
  deriving DecidableEq, Repr

/-- Why a command line is refused. -/
inductive UsageError where
  | unexpectedArgument (argument : String)
  | missingValue (option : String)
  | surplusValue (option : String)
  | invalidValue (option value : String)
  | repeated (option : String)
  | missingFile
  | conflict
  deriving DecidableEq, Repr

/-- The words for a refusal. -/
def UsageError.message : UsageError → String
  | unexpectedArgument argument => s!"unexpected argument '{argument}'"
  | missingValue option => s!"a value is required for '{option}'"
  | surplusValue option => s!"no value is taken by '{option}'"
  | invalidValue option value => s!"invalid value '{value}' for '{option}'"
  | repeated option => s!"the argument '{option}' cannot be used more than once"
  | missingFile => "the argument FILE is required"
  | conflict => "'--quiet' cannot be used with '--verbose'"

/-- The options that take a value. -/
inductive Setting where
  | logs
  | memory
  | instructions
  | maxCycles
  deriving DecidableEq, Repr

/-- The options that take no value. -/
inductive Flag where
  | listing
  | stats
  | quiet
  | verbose
  | noTimestamp
  deriving DecidableEq, Repr

/-- What an option name stands for. -/
inductive Keyword where
  | setting (setting : Setting)
  | flag (flag : Flag)
  | version
  | help
  deriving DecidableEq, Repr

/-- The option of a long name, which is written after two dashes. -/
def Keyword.ofLong? : String → Option Keyword
  | "logs" => some (.setting .logs)
  | "memory" => some (.setting .memory)
  | "instructions" => some (.setting .instructions)
  | "max-cycles" => some (.setting .maxCycles)
  | "listing" => some (.flag .listing)
  | "stats" => some (.flag .stats)
  | "quiet" => some (.flag .quiet)
  | "verbose" => some (.flag .verbose)
  | "no-timestamp" => some (.flag .noTimestamp)
  | "version" => some .version
  | "help" => some .help
  | _ => none

/-- The option of a letter, which is written after one dash. -/
def Keyword.ofShort? : Char → Option Keyword
  | 'q' => some (.flag .quiet)
  | 'v' => some (.flag .verbose)
  | 'V' => some .version
  | 'h' => some .help
  | _ => none

/-- What the arguments read so far have set. -/
structure Draft where
  file? : Option String
  logs? : Option String
  memory? : Option Nat
  instructions? : Option Nat
  maxCycles? : Option Nat
  /-- The flags that were given. -/
  flags : List Flag
  deriving DecidableEq, Repr

namespace Draft

/-- The draft before the first argument. -/
def empty : Draft :=
  ⟨none, none, none, none, none, []⟩

/-- A path, which is never empty. -/
def path (option value : String) : Except UsageError String :=
  if value = "" then .error (.missingValue option) else .ok value

/-- A size or limit. -/
def number (option value : String) : Except UsageError Nat :=
  match Numeral.natural64? value with
  | some n => .ok n
  | none => .error (.invalidValue option value)

/-- A place that can be filled once. -/
def once {α : Type} (option : String) (old : Option α) (new : Except UsageError α) :
    Except UsageError (Option α) :=
  match new, old with
  | .error e, _ => .error e
  | .ok _, some _ => .error (.repeated option)
  | .ok value, none => .ok (some value)

/-- Takes the value of an option. -/
def set (d : Draft) (setting : Setting) (value : String) : Except UsageError Draft :=
  match setting with
  | .logs => do
    let logs? ← once "--logs" d.logs? (path "--logs" value)
    return { d with logs? }
  | .memory => do
    let memory? ← once "--memory" d.memory? (number "--memory" value)
    return { d with memory? }
  | .instructions => do
    let instructions? ← once "--instructions" d.instructions? (number "--instructions" value)
    return { d with instructions? }
  | .maxCycles => do
    let maxCycles? ← once "--max-cycles" d.maxCycles? (number "--max-cycles" value)
    return { d with maxCycles? }

/-- Takes a flag, which is written as the given argument. -/
def raise (d : Draft) (argument : String) (flag : Flag) : Except UsageError Draft :=
  if flag ∈ d.flags then .error (.repeated argument) else .ok { d with flags := flag :: d.flags }

/-- Takes an argument that is no option. -/
def positional (d : Draft) (argument : String) : Except UsageError Draft :=
  match d.file? with
  | some _ => .error (.unexpectedArgument argument)
  | none => do return { d with file? := some (← path "FILE" argument) }

/-- A size that no option gives: the value of an environment variable, or 256. -/
def fallback (environment : String → Option String) (name : String) : Except UsageError Nat :=
  match environment name with
  | some value => number name value
  | none => .ok 256

/-- The options at the end of the command line. -/
def finish (d : Draft) (environment : String → Option String) : Except UsageError Options := do
  let memory ← match d.memory? with
    | some n => .ok n
    | none => fallback environment "TAPEVM_MEMORY"
  let instructions ← match d.instructions? with
    | some n => .ok n
    | none => fallback environment "TAPEVM_INSTRUCTIONS"
  let quiet := Flag.quiet ∈ d.flags
  let verbose := Flag.verbose ∈ d.flags
  match d.file? with
  | none => .error .missingFile
  | some file =>
    if quiet ∧ verbose then .error .conflict
    else
      return {
        file
        logs? := d.logs?
        memory
        instructions
        maxCycles? := d.maxCycles?
        listing := Flag.listing ∈ d.flags
        stats := Flag.stats ∈ d.flags
        quiet
        verbose
        noTimestamp := Flag.noTimestamp ∈ d.flags }

end Draft

/-- The forms of an argument. -/
inductive Shape where
  /-- Two dashes, after which every argument is a file. -/
  | separator
  /-- A long option, with its value if one is attached. -/
  | long (name : String) (value? : Option String)
  /-- Options of one letter. -/
  | short (letters : List Char)
  /-- A file or the value of an option; a single dash is one. -/
  | plain
  deriving DecidableEq, Repr

/-- The form of an argument. -/
def Shape.of (argument : String) : Shape :=
  match argument.toList with
  | ['-', '-'] => .separator
  | '-' :: '-' :: body =>
    let name := String.ofList (body.takeWhile (· ≠ '='))
    match body.dropWhile (· ≠ '=') with
    | _ :: value => .long name (some (String.ofList value))
    | [] => .long name none
  | '-' :: letter :: letters => .short (letter :: letters)
  | _ => .plain

/-- Reads the letters of one argument; a request for the version or for help ends the reading. -/
def readLetters (d : Draft) (argument : String) :
    List Char → Except UsageError (Draft ⊕ Request)
  | [] => .ok (.inl d)
  | letter :: letters =>
    match Keyword.ofShort? letter with
    | some (.flag flag) => do readLetters (← d.raise argument flag) argument letters
    | some .version => .ok (.inr .version)
    | some .help => .ok (.inr .help)
    | some (.setting _) | none => .error (.unexpectedArgument argument)

/-- Reads the arguments after the separator, which are all files. -/
def readFiles (d : Draft) : List String → Except UsageError Draft
  | [] => .ok d
  | argument :: rest => do readFiles (← d.positional argument) rest

/-- Reads the arguments from the left. -/
def readArguments (environment : String → Option String) (d : Draft) :
    List String → Except UsageError Request
  | [] => do return .run (← d.finish environment)
  | argument :: rest =>
    match Shape.of argument with
    | .separator => do
      let d ← readFiles d rest
      return .run (← d.finish environment)
    | .plain => do readArguments environment (← d.positional argument) rest
    | .short letters => do
      match ← readLetters d argument letters with
      | .inl d => readArguments environment d rest
      | .inr request => return request
    | .long name value? =>
      match Keyword.ofLong? name, value? with
      | some (.setting setting), some value => do
        readArguments environment (← d.set setting value) rest
      | some (.setting setting), none =>
        match rest with
        | [] => .error (.missingValue argument)
        | value :: rest =>
          if Shape.of value = .plain then do
            readArguments environment (← d.set setting value) rest
          else .error (.missingValue argument)
      | some (.flag flag), none => do readArguments environment (← d.raise argument flag) rest
      | some .version, none => .ok .version
      | some .help, none => .ok .help
      | some _, some _ => .error (.surplusValue argument)
      | none, _ => .error (.unexpectedArgument argument)

/-- What a command line asks for, given the variables of the environment. -/
def parse (environment : String → Option String) (arguments : List String) :
    Except UsageError Request :=
  readArguments environment .empty arguments

end TapeMachine.CommandLine
