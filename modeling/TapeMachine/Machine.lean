import TapeMachine.Event
import TapeMachine.Fault
import TapeMachine.Host
import TapeMachine.Profile
import TapeMachine.Program
import TapeMachine.Text.Blank
import TapeMachine.Trace

/-! The machine: an instruction tape, a value tape, a program counter and a stack of calls.  One
step executes one instruction.  An instruction first makes all its checks and yields an event, and
only then the event changes the machine, so a step that faults leaves the tapes, the counter and
the calls as they were. -/

namespace TapeMachine

/-- The sizes of a machine and the number of instructions it may execute. -/
structure Config where
  /-- The number of instruction cells. -/
  instructions : Nat := 256
  /-- The number of value cells. -/
  values : Nat := 256
  /-- The number of instructions that may be executed, if there is a bound. -/
  limit? : Option Nat := none
  deriving DecidableEq, Repr

/-- Why a machine no longer executes instructions. -/
inductive Halt where
  /-- An instruction ended the run. -/
  | terminated
  /-- There is no instruction at the program counter. -/
  | endOfProgram
  /-- An instruction raised a fault. -/
  | faulted
  deriving DecidableEq, Repr

/-- The cells that a program reads and writes. -/
abbrev Memory := Tape Int64

namespace Memory

/-- The value of a cell. -/
def load (memory : Memory) (address : Int64) : Except Fault.Cause Int64 :=
  (memory.read address).mapError Tape.Error.cause

/-- The effective address of an operand: a reference is followed once. -/
def resolve (memory : Memory) (operand : Operand) : Except Fault.Cause Int64 :=
  if operand.isReference then memory.load operand.payload else .ok operand.payload

/-- The cell that a source operand names and its value. -/
def source (memory : Memory) (operand : Operand) : Except Fault.Cause Reading := do
  let address ← memory.resolve operand
  let value ← memory.load address
  return ⟨address, value⟩

/-- Checks that a cell can be written. -/
def requireCell (memory : Memory) (address : Int64) : Except Fault.Cause Unit :=
  ((memory.index address).map fun _ => ()).mapError Tape.Error.cause

end Memory

/-- A machine that reports its instructions to a sink of type `τ`. -/
structure Machine (τ : Type) where
  /-- The program; the cells after its last instruction are unset. -/
  instructions : Tape Instruction
  values : Memory
  /-- The position of the next instruction. -/
  pc : Nat
  /-- The positions of the calls not yet returned from, the last one first. -/
  calls : List Nat
  config : Config
  /-- The number of instructions executed, one that raised a fault included. -/
  cycles : Nat
  profile : Profile
  trace : τ
  /-- Why the machine has stopped, if it has. -/
  halted? : Option Halt

namespace Machine

variable {τ σ : Type}

/-- A machine at the start of a program.  A program that does not fit on the instruction tape is
refused at its first instruction left over. -/
def load (program : Program) (config : Config) (trace : τ) : Except Fault (Machine τ) :=
  match program.get? config.instructions with
  | some surplus =>
    .error ⟨config.instructions, surplus.mnemonic,
      .programTooLarge program.length config.instructions⟩
  | none => .ok {
      instructions := .ofList config.instructions program.instructions
      values := .blank config.values
      pc := 0
      calls := []
      config
      cycles := 0
      profile := .zero
      trace
      halted? := none }

/-- The instruction at the program counter, if the counter is on the tape and its cell is set. -/
def current? (m : Machine τ) : Option Instruction :=
  match m.instructions.get (Int64.ofNat m.pc) with
  | .ok instruction => instruction
  | .error _ => none

/-- Checks an instruction and finds what it does, in this order: the source operands from the left,
the divisor, the reference in the destination, the console, and last the destination's bounds. -/
def perform [Host σ] (m : Machine τ) (instruction : Instruction) (host : σ) :
    Except Fault.Cause Event × σ :=
  match instruction with
  | .set value dst =>
    let event : Except Fault.Cause Event := do
      let dst ← m.values.resolve dst
      m.values.requireCell dst
      return .set value dst
    (event, host)
  | .mov src dst =>
    let event : Except Fault.Cause Event := do
      let src ← m.values.source src
      let dst ← m.values.resolve dst
      m.values.requireCell dst
      return .move src dst
    (event, host)
  | .time dst =>
    match m.values.resolve dst with
    | .error cause => (.error cause, host)
    | .ok dst =>
      let (now, host) := Host.now host
      ((m.values.requireCell dst).map fun _ => .time now dst, host)
  | .input dst =>
    match m.values.resolve dst with
    | .error cause => (.error cause, host)
    | .ok dst =>
      match Host.readLine host with
      | (.error reason, host) => (.error (.console reason), host)
      | (.ok line, host) =>
        let input := Text.trim line
        match Numeral.int64? input with
        | none => (.error (.inputParseFailure input), host)
        | some value => ((m.values.requireCell dst).map fun _ => .input value dst, host)
  | .output src =>
    match m.values.source src with
    | .error cause => (.error cause, host)
    | .ok src =>
      match Host.writeLine (Numeral.ofInt64 src.value) host with
      | (.error reason, host) => (.error (.console reason), host)
      | (.ok (), host) => (.ok (.output src), host)
  | .arithmetic operation a b dst =>
    let event : Except Fault.Cause Event := do
      let a ← m.values.source a
      let b ← m.values.source b
      match operation.apply? a.value b.value with
      | none => .error .divisionByZero
      | some result =>
        let dst ← m.values.resolve dst
        m.values.requireCell dst
        return .arithmetic operation a b dst result
    (event, host)
  | .jump target => (.ok (.jump target), host)
  | .branch condition a b target =>
    let event : Except Fault.Cause Event := do
      let a ← m.values.source a
      let b ← m.values.source b
      return .branch condition a b target (condition.holds a.value b.value)
    (event, host)
  | .call target => (.ok (.call target), host)
  | .ret =>
    match m.calls with
    | [] => (.ok .idleReturn, host)
    | site :: _ => (.ok (.ret (site + 1)), host)
  | .term => (.ok .terminate, host)

/-- Counts one execution of an instruction. -/
def count (m : Machine τ) (instruction : Instruction) : Machine τ :=
  { m with
    cycles := m.cycles + 1
    profile := m.profile.add instruction.opcode.category 1 }

/-- Gives an event of the current instruction to the sink, if it wants one. -/
def report [Trace.Sink τ] (m : Machine τ) (instruction : Instruction) (event : Event) :
    Machine τ :=
  if Trace.Sink.enabled m.trace then
    let entry : Trace.Entry := ⟨m.cycles, m.pc, instruction.mnemonic, event.detail⟩
    { m with trace := Trace.Sink.record m.trace entry }
  else m

/-- The machine after an event: its write, its position, its calls and, if it ends the run, the
halt. -/
def commit (m : Machine τ) (event : Event) : Machine τ :=
  { m with
    values := match event.write? with
      | some (address, value) => m.values.put address value
      | none => m.values
    pc := event.successor m.pc
    calls := event.calls m.pc m.calls
    halted? := if event = .terminate then some .terminated else m.halted? }

/-- Executes the instruction at the program counter of a machine that has not stopped. -/
def cycle [Host σ] [Trace.Sink τ] (m : Machine τ) (host : σ) :
    Except Fault (Option Halt) × Machine τ × σ :=
  match m.current? with
  | none => (.ok (some .endOfProgram), { m with halted? := some .endOfProgram }, host)
  | some instruction =>
    match m.config.limit?.filter (· ≤ m.cycles) with
    | some limit => (.error ⟨m.pc, instruction.mnemonic, .cycleLimitExceeded limit⟩, m, host)
    | none =>
      match m.perform instruction host with
      | (.error cause, host) =>
        (.error ⟨m.pc, instruction.mnemonic, cause⟩, m.count instruction, host)
      | (.ok event, host) =>
        let m := ((m.report instruction event).commit event).count instruction
        (.ok m.halted?, m, host)

/-- Whether the next step reads a line of input. -/
def readsNext (m : Machine τ) : Bool :=
  match m.halted?, m.current? with
  | none, some (.input dst) =>
    (m.config.limit?.filter (· ≤ m.cycles)).isNone && (m.values.resolve dst).isOk
  | _, _ => false

/-- Executes one instruction.  A machine that has stopped does nothing and gives its halt again; an
instruction that raises a fault stops the machine. -/
def step [Host σ] [Trace.Sink τ] (m : Machine τ) (host : σ) :
    Except Fault (Option Halt) × Machine τ × σ :=
  match m.halted? with
  | some halt => (.ok (some halt), m, host)
  | none =>
    match m.cycle host with
    | (.error fault, m, host) => (.error fault, { m with halted? := some .faulted }, host)
    | done => done

/-- Executes instructions until the machine stops, but at most `fuel` steps; without a result the
machine is still running. -/
def run [Host σ] [Trace.Sink τ] (fuel : Nat) (m : Machine τ) (host : σ) :
    Option (Except Fault Halt) × Machine τ × σ :=
  match fuel with
  | 0 => (none, m, host)
  | fuel + 1 =>
    match m.step host with
    | (.error fault, m, host) => (some (.error fault), m, host)
    | (.ok (some halt), m, host) => (some (.ok halt), m, host)
    | (.ok none, m, host) => run fuel m host

end Machine

/-- Runs a program with the given number of value cells on an instruction tape that holds it,
without a trace. -/
def Program.run {σ : Type} [Host σ] (fuel : Nat) (program : Program) (values : Nat) (host : σ) :
    Option (Except Fault Halt) × σ :=
  let config : Config := { instructions := max program.length 256, values }
  match Machine.load program config Trace.Discard.mk with
  | .error fault => (some (.error fault), host)
  | .ok m =>
    let (result?, _, host) := m.run fuel host
    (result?, host)

end TapeMachine
