import TapeMachine.Proofs.Machine.Control
import TapeMachine.Proofs.Machine.Run
import TapeMachine.Proofs.Profile

/-! Steps that raise a fault.  Such a step stops the machine and counts the instruction, unless the
limit forbade it, and leaves everything else as it was (`step_eq_error`). -/

namespace TapeMachine

open Outcome

/-! ### Causes -/

/-- The causes that an instruction raises, and not the machine before it executes one. -/
def Fault.Cause.OfInstruction : Fault.Cause → Prop
  | outOfBounds _ _ | uninitializedRead _ | divisionByZero | inputParseFailure _ | console _ => True
  | cycleLimitExceeded _ | programTooLarge _ _ => False

theorem Tape.Error.cause_ofInstruction (e : Tape.Error) : e.cause.OfInstruction := by
  cases e <;> trivial

namespace Memory

variable {P : Fault.Cause → Prop} (hTape : ∀ e : Tape.Error, P e.cause) (memory : Memory)

include hTape

theorem failsWith_load (address : Int64) : FailsWith P (memory.load address) :=
  .mapError hTape

theorem failsWith_requireCell (address : Int64) : FailsWith P (memory.requireCell address) :=
  .mapError hTape

theorem failsWith_resolve (operand : Operand) : FailsWith P (memory.resolve operand) := by
  unfold resolve
  split
  · exact memory.failsWith_load hTape operand.payload
  · exact .ok operand.payload

theorem failsWith_source (operand : Operand) : FailsWith P (memory.source operand) := by
  apply FailsWith.bind (memory.failsWith_resolve hTape operand)
  intro address
  apply FailsWith.bind (memory.failsWith_load hTape address)
  intro value
  exact .ok (Reading.mk address value)

/-- The destination of a write, with both its checks. -/
theorem failsWith_destination {α : Type} (dst : Operand) (result : Int64 → α) :
    FailsWith P (do
      let address ← memory.resolve dst
      memory.requireCell address
      return result address) := by
  apply FailsWith.bind (memory.failsWith_resolve hTape dst)
  intro address
  apply FailsWith.bind (memory.failsWith_requireCell hTape address)
  intro _
  exact .ok (result address)

end Memory

namespace Machine

variable {τ σ : Type}

/-! ### Counts -/

/-- No category has more executions than there were instructions executed. -/
def Tallied (m : Machine τ) : Prop :=
  ∀ category, m.profile.get category ≤ m.cycles

theorem tallied_initial (program : Program) (config : Config) (trace : τ) :
    (initial program config trace).Tallied :=
  fun category => Nat.le_of_eq (Profile.get_zero category)

/-- Below the greatest number of cycles no count is at its greatest, so that it grows. -/
theorem Tallied.get_add_one {m : Machine τ} (h : m.Tallied) (hCycles : m.cycles < UInt64.size - 1)
    (counted category : Category) :
    (m.profile.add counted 1).get category =
      m.profile.get category + if category = counted then 1 else 0 := by
  have hBefore := h category
  have hMax : Profile.maxCount = UInt64.size - 1 := rfl
  rw [Profile.get_add]
  unfold Profile.sum
  split <;> omega

/-! ### Steps -/

variable [Host σ]

/-- The causes that an instruction can fail with: a failed access to the memory, a zero divisor, a
line that is no number, and what the console answers in place of a line. -/
theorem failsWith_perform_of {P : Fault.Cause → Prop} {host : σ}
    (hTape : ∀ e : Tape.Error, P e.cause) (hZero : P .divisionByZero)
    (hInput : ∀ line, (Host.readLine host).1 = .ok line → P (.inputParseFailure (Text.trim line)))
    (hRead : ∀ reason, (Host.readLine host).1 = .error reason → P (.console reason))
    (hWrite : ∀ line reason, (Host.writeLine line host).1 = .error reason → P (.console reason))
    (m : Machine τ) (i : Instruction) : FailsWith P (m.perform i host).1 := by
  cases i with
  | set value dst => exact m.values.failsWith_destination hTape dst _
  | mov src dst =>
    apply FailsWith.bind (m.values.failsWith_source hTape src)
    intro reading
    exact m.values.failsWith_destination hTape dst _
  | time dst =>
    have hDst := m.values.failsWith_resolve hTape dst
    simp only [perform]
    split
    case h_1 cause hResolve => exact .error (hDst cause hResolve)
    case h_2 address _ => exact .map (m.values.failsWith_requireCell hTape address)
  | input dst =>
    have hDst := m.values.failsWith_resolve hTape dst
    simp only [perform]
    split
    case h_1 cause hResolve => exact .error (hDst cause hResolve)
    case h_2 address _ =>
      split
      case h_1 reason _ hAnswer => exact .error (hRead reason (by rw [hAnswer]))
      case h_2 line _ hAnswer =>
        split
        · exact .error (hInput line (by rw [hAnswer]))
        · exact .map (m.values.failsWith_requireCell hTape address)
  | output src =>
    have hSrc := m.values.failsWith_source hTape src
    simp only [perform]
    split
    case h_1 cause hSource => exact .error (hSrc cause hSource)
    case h_2 reading _ =>
      split
      case h_1 reason _ hAnswer => exact .error (hWrite _ reason (by rw [hAnswer]))
      case h_2 => exact .ok _
  | arithmetic operation a b dst =>
    apply FailsWith.bind (m.values.failsWith_source hTape a)
    intro x
    apply FailsWith.bind (m.values.failsWith_source hTape b)
    intro y
    split
    · exact .error hZero
    · exact m.values.failsWith_destination hTape dst _
  | branch condition a b target =>
    apply FailsWith.bind (m.values.failsWith_source hTape a)
    intro x
    apply FailsWith.bind (m.values.failsWith_source hTape b)
    intro y
    exact .ok _
  | jump target | call target | term => exact .ok _
  | ret =>
    simp only [perform]
    split <;> exact .ok _

/-- The limit is not a cause that an instruction fails with. -/
theorem failsWith_perform (m : Machine τ) (i : Instruction) (host : σ) :
    FailsWith Fault.Cause.OfInstruction (m.perform i host).1 :=
  m.failsWith_perform_of Tape.Error.cause_ofInstruction trivial (fun _ _ => trivial)
    (fun _ _ => trivial) (fun _ _ _ => trivial) i

variable [Trace.Sink τ] {m m' : Machine τ} {host host' : σ}

/-- A step gives a fault of the instruction at the counter: the limit was spent and nothing was
done, or the instruction was executed, counted and failed. -/
theorem step_eq_error {fault : Fault} (h : m.step host = (.error fault, m', host')) :
    ∃ i, m.current? = some i ∧ fault.pc = m.pc ∧ fault.mnemonic = i.mnemonic ∧
      ((∃ limit, fault.cause = .cycleLimitExceeded limit ∧
          m' = { m with halted? := some .faulted } ∧ host' = host) ∨
        fault.cause.OfInstruction ∧ m' = { m.count i with halted? := some .faulted }) := by
  have hOutcome := m.step_outcome host
  rw [h] at hOutcome
  cases hOutcome with
  | @limited i limit _ hCurrent _ =>
    exact ⟨i, hCurrent, rfl, rfl, .inl ⟨limit, rfl, rfl, rfl⟩⟩
  | @faulted i cause _ hExecuting hPerform =>
    obtain ⟨-, -, hCurrent⟩ := executing?_eq_some_iff.1 hExecuting
    have hCause : cause.OfInstruction := m.failsWith_perform i host cause (by rw [hPerform])
    exact ⟨i, hCurrent, rfl, rfl, .inr ⟨hCause, rfl⟩⟩

theorem Tallied.step (h : m.Tallied) (host : σ) : (m.step host).2.1.Tallied := by
  intro category
  have hBefore := h category
  cases hExecuting : m.executing? with
  | none =>
    obtain ⟨hCycles, hProfile⟩ := step_counts_nothing hExecuting host
    rwa [hCycles, hProfile]
  | some i =>
    obtain ⟨hCycles, hProfile⟩ := step_counts hExecuting host
    rw [hCycles, hProfile, Profile.get_add]
    unfold Profile.sum
    split <;> omega

/-- A step of a running program that gives a fault leaves the values, the counter, the calls, the
program and the trace as they were, and stops the machine.  The fault names the instruction at the
counter.  That instruction is counted, in total and in its category, unless the limit forbade it;
then nothing is counted and the host is not used. -/
theorem fault_leaves_state {program : Program} {config : Config} {trace : τ} {start : Machine τ}
    {host₀ : σ} {n : Nat} {fault : Fault} (hLoad : load program config trace = .ok start)
    (hAfter : start.after host₀ n = (m, host)) (hCycles : m.cycles < UInt64.size - 1)
    (hStep : m.step host = (.error fault, m', host')) :
    (m'.values = m.values ∧ m'.pc = m.pc ∧ m'.calls = m.calls ∧
      m'.instructions = m.instructions ∧ m'.trace = m.trace) ∧
    m'.halted? = some .faulted ∧ fault.pc = m.pc ∧
    ∃ i, program.get? m.pc = some i ∧ fault.mnemonic = i.mnemonic ∧
      ((∀ limit, fault.cause ≠ .cycleLimitExceeded limit) →
        m'.cycles = m.cycles + 1 ∧
        ∀ category, m'.profile.get category =
          m.profile.get category + if category = i.opcode.category then 1 else 0) ∧
      ∀ limit, fault.cause = .cycleLimitExceeded limit →
        m'.cycles = m.cycles ∧ m'.profile = m.profile ∧ host' = host := by
  obtain ⟨-, rfl⟩ := load_eq_ok_iff.1 hLoad
  obtain ⟨i, hCurrent, hPc, hMnemonic, hEnd⟩ := step_eq_error hStep
  have hAddressed : Addressed program config.instructions m := by
    have hEvery := after_induction host₀ (addressed_initial program config trace)
      (fun _ host h => h.step host) n
    rwa [hAfter] at hEvery
  have hTallied : m.Tallied := by
    have hEvery := after_induction host₀ (tallied_initial program config trace)
      (fun _ host h => h.step host) n
    rwa [hAfter] at hEvery
  have hAt := hAddressed.get?_of_current? hCurrent
  rcases hEnd with ⟨limit, hCause, rfl, rfl⟩ | ⟨hCause, rfl⟩
  · refine ⟨⟨rfl, rfl, rfl, rfl, rfl⟩, rfl, hPc, i, hAt, hMnemonic, fun hOther => ?_,
      fun _ _ => ⟨rfl, rfl, rfl⟩⟩
    exact absurd hCause (hOther limit)
  · refine ⟨⟨rfl, rfl, rfl, rfl, rfl⟩, rfl, hPc, i, hAt, hMnemonic,
      fun _ => ⟨rfl, hTallied.get_add_one hCycles i.opcode.category⟩, fun limit hLimit => ?_⟩
    rw [hLimit] at hCause
    exact hCause.elim

/-- A program that divides by zero. -/
def divideByZero : Program :=
  ⟨[.set 4 (.direct 0), .set 0 (.direct 1),
    .arithmetic .div (.direct 0) (.direct 1) (.direct 2)], .ofList []⟩

/-- A small machine at the start of `divideByZero`, with a trace. -/
def beforeDivision (limit? : Option Nat) : Machine Trace.Memory :=
  initial divideByZero ⟨4, 3, limit?⟩ ⟨#[]⟩

theorem fault_leaves_state_divideByZero :
    ∃ m host m' host',
      load divideByZero ⟨4, 3, none⟩ (Trace.Memory.mk #[]) = .ok (beforeDivision none) ∧
      (beforeDivision none).after noInput 2 = (m, host) ∧ m.cycles < UInt64.size - 1 ∧
      m.step host = (.error ⟨2, "DIV", .divisionByZero⟩, m', host') ∧
      m'.values = m.values ∧ m'.trace = m.trace ∧ m'.cycles = m.cycles + 1 := by
  have hLoad : load divideByZero ⟨4, 3, none⟩ (Trace.Memory.mk #[]) = .ok (beforeDivision none) :=
    load_eq_ok_iff.2 ⟨show divideByZero.length ≤ 4 by decide, rfl⟩
  have hCycles : ((beforeDivision none).after noInput 2).1.cycles = 2 := by decide +kernel
  have hAnswer : (beforeDivision none).answer noInput 2 = .error ⟨2, "DIV", .divisionByZero⟩ := by
    decide +kernel
  obtain ⟨m, host, hAfter⟩ : ∃ m host, (beforeDivision none).after noInput 2 = (m, host) :=
    ⟨_, _, rfl⟩
  unfold answer at hAnswer
  rw [hAfter] at hCycles hAnswer
  have hBelow : m.cycles < UInt64.size - 1 := by
    have hTwo : m.cycles = 2 := hCycles
    rw [hTwo]
    decide
  rcases hStep : m.step host with ⟨result, m', host'⟩
  obtain rfl : result = .error ⟨2, "DIV", .divisionByZero⟩ := by rwa [hStep] at hAnswer
  obtain ⟨⟨hValues, -, -, -, hTrace⟩, -, -, i, -, -, hCounted, -⟩ :=
    fault_leaves_state hLoad hAfter hBelow hStep
  exact ⟨m, host, m', host', hLoad, hAfter, hBelow, hStep, hValues, hTrace, (hCounted nofun).1⟩

end Machine

end TapeMachine
