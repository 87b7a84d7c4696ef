import TapeMachine.CommandLine.Run
import TapeMachine.Proofs.Machine.Checks
import TapeMachine.Proofs.Text

/-! What a run of the command line leaves behind.  Standard output holds the lines of the `OUT`
instructions that succeeded (`after_output`), and the exit status tells whether the program was
assembled, loaded and run to its end.  Both depend on the content of the file, the input and the
sizes of the machine only, whatever else the command line asks for (`run_of_runnable`). -/

namespace TapeMachine

/-! ### Standard output -/

namespace Machine

open Host

variable {τ σ : Type} {m : Machine τ} {console : Console}

theorem perform_output_console (src : Operand) :
    (m.perform (.output src) console).2 =
      if (m.perform (.output src) console).1.isOk then
        { console with output := console.output ++ m.values.shown src ++ "\n" }
      else console := by
  cases hSrc : m.values.source src with
  | error cause =>
    simp only [perform, hSrc]
    rfl
  | ok reading =>
    rw [Memory.shown_of_source hSrc]
    simp only [perform, hSrc]
    rfl

/-- An instruction that is no `OUT` prints nothing on a console without a prompt. -/
theorem perform_quiet (hPrompt : console.prompt? = none) {i : Instruction}
    (h : ∀ src, i ≠ .output src) :
    (m.perform i console).2.prompt? = none ∧
      (m.perform i console).2.output = console.output := by
  cases i with
  | output src => exact absurd rfl (h src)
  | time dst =>
    rw [perform_time]
    split <;> exact ⟨hPrompt, rfl⟩
  | input dst =>
    rw [perform_input]
    split
    · simp [Host.readLine, hPrompt]
    · exact ⟨hPrompt, rfl⟩
  | ret =>
    unfold perform
    cases m.calls <;> exact ⟨hPrompt, rfl⟩
  | _ => exact ⟨hPrompt, rfl⟩

variable [Trace.Sink τ]

/-- The line that the next step prints: it executes an `OUT`, and succeeds. -/
def outputLine? [Host σ] (m : Machine τ) (host : σ) : Option String :=
  match m.executing? with
  | some (.output src) => if (m.step host).1.isOk then some (m.values.shown src) else none
  | _ => none

/-- The lines that the first `n` steps print. -/
def outputLines [Host σ] (m : Machine τ) (host : σ) : Nat → List String
  | 0 => []
  | n + 1 => m.outputLines host n ++ ((m.after host n).1.outputLine? (m.after host n).2).toList

theorem step_isOk [Host σ] {i : Instruction} (h : m.executing? = some i)
    (host : σ) : (m.step host).1.isOk = (m.perform i host).1.isOk := by
  rw [step_of_executing? h]
  rcases m.perform i host with ⟨cause | event, host'⟩ <;> rfl

theorem step_output (hPrompt : console.prompt? = none) :
    (m.step console).2.2.prompt? = none ∧
      (m.step console).2.2.output =
        console.output ++ String.join ((m.outputLine? console).toList.map (· ++ "\n")) := by
  unfold outputLine?
  cases hExecuting : m.executing? with
  | none =>
    rw [(step_idle hExecuting console).2]
    simp [hPrompt]
  | some i =>
    rw [step_host hExecuting, step_isOk hExecuting]
    cases i with
    | output src =>
      rw [perform_output_console]
      dsimp only
      split <;> simp [hPrompt, String.append_assoc]
    | _ => simpa using perform_quiet hPrompt (by rintro _ ⟨⟩)

/-- On a console without a prompt the first `n` steps show the lines that they print. -/
theorem after_output (m : Machine τ) (hPrompt : console.prompt? = none) (n : Nat) :
    (m.after console n).2.prompt? = none ∧
      (m.after console n).2.output =
        console.output ++ String.join ((m.outputLines console n).map (· ++ "\n")) := by
  induction n with
  | zero => simp [after, outputLines, hPrompt]
  | succ n ih =>
    obtain ⟨hBefore, hLines⟩ := ih
    obtain ⟨hAfter, hLine⟩ := step_output (m := (m.after console n).1) hBefore
    refine ⟨hAfter, ?_⟩
    rw [after, hLine, hLines, outputLines]
    simp [String.append_assoc]

theorem StopsAt.output {m' : Machine τ} {input : List UInt8} {clock : Clock Int64} {n : Nat}
    {final : Except Fault Halt} {console' : Console}
    (h : m.StopsAt (Console.start input none clock) n final m' console') :
    console'.output = String.join
      ((m.outputLines (Console.start input none clock) (n + 1)).map (· ++ "\n")) := by
  have hPrompt : (Console.start input none clock).prompt? = none := rfl
  have hOutput := (m.after_output hPrompt (n + 1)).2
  rw [h.state] at hOutput
  exact hOutput.trans String.empty_append

end Machine

/-- A path at which a file can be made or replaced, whatever its content. -/
def Directory.Writable (d : Directory) (path : String) : Prop :=
  ∀ content, ∃ d', d.write path content = .ok d'

namespace CommandLine

open Machine Host

/-! ### One run -/

/-- The content of a source file is a text that is assembled to a program, which fits on the
instruction tape. -/
def Runnable (content : Except String (List UInt8)) (config : Config) (program : Program) : Prop :=
  ∃ bytes source, content = .ok bytes ∧ Text.decode bytes = .ok source ∧
    Assembly.assemble source = .ok program ∧ program.length ≤ config.instructions

theorem Runnable.unique {content : Except String (List UInt8)} {config : Config}
    {program program' : Program} (h : Runnable content config program)
    (h' : Runnable content config program') : program = program' := by
  obtain ⟨bytes, source, rfl, hSource, hProgram, -⟩ := h
  obtain ⟨_, source', ⟨⟩, hSource', hProgram', -⟩ := h'
  rw [hSource] at hSource'
  cases hSource'
  rw [hProgram] at hProgram'
  cases hProgram'
  rfl

namespace Job

variable {job : Job} {directory : Directory} {console console' : Console}

theorem source_eq_ok_iff {content : Except String (List UInt8)} {source : String} :
    job.source content = .ok source ↔
      ∃ bytes, content = .ok bytes ∧ Text.decode bytes = .ok source :=
  Outcome.mapError_eq_ok_iff.trans Outcome.bind_eq_ok_iff

end Job

/-! ### All command lines -/

theorem execute_of_parse {environment : String → Option String} {arguments : List String}
    {options : Options} (h : parse environment arguments = .ok (.run options)) (times : Times)
    (fuel : Nat) (console : Console) (directory : Directory) :
    execute environment arguments times fuel console directory =
      Job.run ⟨options, options.logging (coloursAllowed environment), times⟩ fuel console
        directory := by
  unfold execute
  rw [h]

/-- The sizes of a small machine for `printThenFail`. -/
def smallConfig : Config :=
  ⟨4, 2, none⟩

/-- A command line that asks for a small machine, a listing and a trace, and for few messages. -/
def traceQuietly : List String :=
  ["--memory", "2", "--instructions=4", "-q", "--listing", "--logs=run.log", "a.asm"]

end CommandLine

end TapeMachine
