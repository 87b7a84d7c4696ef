import TapeMachine.Machine
import TapeMachine.Proofs.Outcome
import TapeMachine.Proofs.Tape

/-! What one step of a machine can do.  `StepOutcome` has a rule for each way in which a step ends,
and `Performs` one for each instruction that succeeds, with all its checks; `step_outcome` and
`performs_of_perform` say that there are no others.  The equations `step_of_..` give the result of a
step in each of its four situations.  `after` repeats steps. -/

namespace TapeMachine

namespace Memory

variable {memory : Memory}

theorem inBounds_of_requireCell {address : Int64} (h : memory.requireCell address = .ok ()) :
    memory.InBounds address := by
  by_contra hOutside
  simp [requireCell, Tape.index_of_not_inBounds hOutside, Except.map, Except.mapError] at h

theorem read_of_source {operand : Operand} {r : Reading} (h : memory.source operand = .ok r) :
    memory.read r.address = .ok r.value := by
  obtain ⟨address, -, h⟩ := Outcome.bind_eq_ok_iff.1 h
  obtain ⟨value, hLoad, ⟨⟩⟩ := Outcome.bind_eq_ok_iff.1 h
  exact Outcome.mapError_eq_ok_iff.1 hLoad

end Memory

namespace Machine

variable {τ σ : Type}

/-- The instruction that the next step executes: none if the machine has stopped, if it has spent
its limit or if there is no instruction at its counter. -/
def executing? (m : Machine τ) : Option Instruction :=
  match m.halted?, m.config.limit?.filter (· ≤ m.cycles) with
  | none, none => m.current?
  | _, _ => none

theorem executing?_eq_some_iff {m : Machine τ} {i : Instruction} :
    m.executing? = some i ↔
      m.halted? = none ∧ m.config.limit?.filter (· ≤ m.cycles) = none ∧ m.current? = some i := by
  unfold executing?
  cases m.halted? <;> cases m.config.limit?.filter (· ≤ m.cycles) <;> simp

theorem executing?_eq_none_of_current? {m : Machine τ} (h : m.current? = none) :
    m.executing? = none := by
  unfold executing?
  split
  · exact h
  · rfl

/-! ### Fields -/

section Fields

variable (m : Machine τ) (i : Instruction) (event : Event)

@[simp] theorem count_instructions : (m.count i).instructions = m.instructions := rfl
@[simp] theorem count_pc : (m.count i).pc = m.pc := rfl
@[simp] theorem count_calls : (m.count i).calls = m.calls := rfl
@[simp] theorem count_config : (m.count i).config = m.config := rfl
@[simp] theorem count_cycles : (m.count i).cycles = m.cycles + 1 := rfl
@[simp] theorem count_profile : (m.count i).profile = m.profile.add i.opcode.category 1 := rfl

@[simp] theorem commit_instructions : (m.commit event).instructions = m.instructions := rfl
@[simp] theorem commit_pc : (m.commit event).pc = event.successor m.pc := rfl
@[simp] theorem commit_calls : (m.commit event).calls = event.calls m.pc m.calls := rfl
@[simp] theorem commit_config : (m.commit event).config = m.config := rfl
@[simp] theorem commit_cycles : (m.commit event).cycles = m.cycles := rfl
@[simp] theorem commit_profile : (m.commit event).profile = m.profile := rfl

variable [Trace.Sink τ]

@[simp] theorem report_instructions : (m.report i event).instructions = m.instructions := by
  unfold report; split <;> rfl

@[simp] theorem report_values : (m.report i event).values = m.values := by
  unfold report; split <;> rfl

@[simp] theorem report_pc : (m.report i event).pc = m.pc := by
  unfold report; split <;> rfl

@[simp] theorem report_calls : (m.report i event).calls = m.calls := by
  unfold report; split <;> rfl

@[simp] theorem report_config : (m.report i event).config = m.config := by
  unfold report; split <;> rfl

@[simp] theorem report_cycles : (m.report i event).cycles = m.cycles := by
  unfold report; split <;> rfl

@[simp] theorem report_profile : (m.report i event).profile = m.profile := by
  unfold report; split <;> rfl

end Fields

/-! ### The start of a program -/

/-- A machine at the start of a program that fits on its tape. -/
def initial (program : Program) (config : Config) (trace : τ) : Machine τ where
  instructions := .ofList config.instructions program.instructions
  values := .blank config.values
  pc := 0
  calls := []
  config := config
  cycles := 0
  profile := .zero
  trace := trace
  halted? := none

theorem load_eq_ok_iff {program : Program} {config : Config} {trace : τ} {m : Machine τ} :
    load program config trace = .ok m ↔
      program.length ≤ config.instructions ∧ m = initial program config trace := by
  cases hSurplus : program.get? config.instructions with
  | some surplus =>
    have hLong : config.instructions < program.length := (List.getElem?_eq_some_iff.1 hSurplus).1
    simp only [load, hSurplus, reduceCtorEq, false_iff, not_and]
    omega
  | none =>
    have hFits : program.length ≤ config.instructions := List.getElem?_eq_none_iff.1 hSurplus
    simp only [load, hSurplus, Except.ok.injEq, hFits, true_and]
    exact eq_comm

theorem load_eq_error_iff {program : Program} {config : Config} {trace : τ} {fault : Fault} :
    load program config trace = .error fault ↔
      ∃ surplus, program.get? config.instructions = some surplus ∧
        fault = ⟨config.instructions, surplus.mnemonic,
          .programTooLarge program.length config.instructions⟩ := by
  cases hSurplus : program.get? config.instructions with
  | some surplus =>
    simp only [load, hSurplus, Except.error.injEq, Option.some.injEq, exists_eq_left']
    exact eq_comm
  | none => simp [load, hSurplus]

/-! ### Instructions -/

variable [Host σ]

/-- What an instruction does depends on the values and the pending calls only. -/
theorem perform_congr {τ' : Type} {m : Machine τ} {m' : Machine τ'} (hValues : m.values = m'.values)
    (hCalls : m.calls = m'.calls) (i : Instruction) (host : σ) :
    m.perform i host = m'.perform i host := by
  unfold perform
  rw [hValues, hCalls]

/-- The instructions that succeed, with the event and the host after it. -/
inductive Performs (m : Machine τ) (host : σ) : Instruction → Event → σ → Prop
  | set {value : Int64} {dst : Operand} {address : Int64}
      (hDst : m.values.resolve dst = .ok address)
      (hCell : m.values.requireCell address = .ok ()) :
      Performs m host (.set value dst) (.set value address) host
  | mov {src dst : Operand} {reading : Reading} {address : Int64}
      (hSrc : m.values.source src = .ok reading)
      (hDst : m.values.resolve dst = .ok address)
      (hCell : m.values.requireCell address = .ok ()) :
      Performs m host (.mov src dst) (.move reading address) host
  | time {dst : Operand} {address : Int64}
      (hDst : m.values.resolve dst = .ok address)
      (hCell : m.values.requireCell address = .ok ()) :
      Performs m host (.time dst) (.time (Host.now host).1 address) (Host.now host).2
  | input {dst : Operand} {address value : Int64} {line : String} {host' : σ}
      (hDst : m.values.resolve dst = .ok address)
      (hLine : Host.readLine host = (.ok line, host'))
      (hValue : Numeral.int64? (Text.trim line) = some value)
      (hCell : m.values.requireCell address = .ok ()) :
      Performs m host (.input dst) (.input value address) host'
  | output {src : Operand} {reading : Reading} {host' : σ}
      (hSrc : m.values.source src = .ok reading)
      (hLine : Host.writeLine (Numeral.ofInt64 reading.value) host = (.ok (), host')) :
      Performs m host (.output src) (.output reading) host'
  | arithmetic {operation : Arithmetic} {a b dst : Operand} {x y : Reading} {address result : Int64}
      (hA : m.values.source a = .ok x)
      (hB : m.values.source b = .ok y)
      (hResult : operation.apply? x.value y.value = some result)
      (hDst : m.values.resolve dst = .ok address)
      (hCell : m.values.requireCell address = .ok ()) :
      Performs m host (.arithmetic operation a b dst) (.arithmetic operation x y address result)
        host
  | jump {target : Position} : Performs m host (.jump target) (.jump target) host
  | branch {condition : Comparison} {a b : Operand} {x y : Reading} {target : Position}
      (hA : m.values.source a = .ok x)
      (hB : m.values.source b = .ok y) :
      Performs m host (.branch condition a b target)
        (.branch condition x y target (condition.holds x.value y.value)) host
  | call {target : Position} : Performs m host (.call target) (.call target) host
  | ret {site : Nat} {rest : List Nat} (hCalls : m.calls = site :: rest) :
      Performs m host .ret (.ret (site + 1)) host
  | idleReturn (hCalls : m.calls = []) : Performs m host .ret .idleReturn host
  | term : Performs m host .term .terminate host

/-- An instruction that succeeds has passed its checks. -/
theorem performs_of_perform {m : Machine τ} {host host' : σ} {i : Instruction} {event : Event}
    (h : m.perform i host = (.ok event, host')) : Performs m host i event host' := by
  cases i with
  | set value dst =>
    simp only [perform, Prod.mk.injEq] at h
    obtain ⟨h, rfl⟩ := h
    obtain ⟨address, hDst, h⟩ := Outcome.bind_eq_ok_iff.1 h
    obtain ⟨⟨⟩, hCell, ⟨⟩⟩ := Outcome.bind_eq_ok_iff.1 h
    exact .set hDst hCell
  | mov src dst =>
    simp only [perform, Prod.mk.injEq] at h
    obtain ⟨h, rfl⟩ := h
    obtain ⟨reading, hSrc, h⟩ := Outcome.bind_eq_ok_iff.1 h
    obtain ⟨address, hDst, h⟩ := Outcome.bind_eq_ok_iff.1 h
    obtain ⟨⟨⟩, hCell, ⟨⟩⟩ := Outcome.bind_eq_ok_iff.1 h
    exact .mov hSrc hDst hCell
  | time dst =>
    simp only [perform] at h
    split at h
    · cases h
    case h_2 address hDst =>
      obtain ⟨hEvent, rfl⟩ := Prod.mk.inj h
      obtain ⟨⟨⟩, hCell, rfl⟩ := Outcome.map_eq_ok_iff.1 hEvent
      exact .time hDst hCell
  | input dst =>
    simp only [perform] at h
    split at h
    · cases h
    case h_2 address hDst =>
      split at h
      · cases h
      case h_2 line host₁ hLine =>
        split at h
        · cases h
        case h_2 value hValue =>
          obtain ⟨hEvent, rfl⟩ := Prod.mk.inj h
          obtain ⟨⟨⟩, hCell, rfl⟩ := Outcome.map_eq_ok_iff.1 hEvent
          exact .input hDst hLine hValue hCell
  | output src =>
    simp only [perform] at h
    split at h
    · cases h
    case h_2 reading hSrc =>
      split at h
      · cases h
      case h_2 host₁ hLine =>
        cases h
        exact .output hSrc hLine
  | arithmetic operation a b dst =>
    simp only [perform, Prod.mk.injEq] at h
    obtain ⟨h, rfl⟩ := h
    obtain ⟨x, hA, h⟩ := Outcome.bind_eq_ok_iff.1 h
    obtain ⟨y, hB, h⟩ := Outcome.bind_eq_ok_iff.1 h
    split at h
    · cases h
    case h_2 result hResult =>
      obtain ⟨address, hDst, h⟩ := Outcome.bind_eq_ok_iff.1 h
      obtain ⟨⟨⟩, hCell, ⟨⟩⟩ := Outcome.bind_eq_ok_iff.1 h
      exact .arithmetic hA hB hResult hDst hCell
  | jump target =>
    cases h
    exact .jump
  | branch condition a b target =>
    simp only [perform, Prod.mk.injEq] at h
    obtain ⟨h, rfl⟩ := h
    obtain ⟨x, hA, h⟩ := Outcome.bind_eq_ok_iff.1 h
    obtain ⟨y, hB, ⟨⟩⟩ := Outcome.bind_eq_ok_iff.1 h
    exact .branch hA hB
  | call target =>
    cases h
    exact .call
  | ret =>
    simp only [perform] at h
    split at h
    case h_1 hCalls =>
      cases h
      exact .idleReturn hCalls
    case h_2 site rest hCalls =>
      cases h
      exact .ret hCalls
  | term =>
    cases h
    exact .term

/-- What an instruction writes is on the tape. -/
theorem Performs.write_inBounds {m : Machine τ} {host host' : σ} {i : Instruction} {event : Event}
    (h : Performs m host i event host') {address value : Int64}
    (hWrite : event.write? = some (address, value)) : m.values.InBounds address := by
  cases h with
  | set _ hCell | mov _ _ hCell | time _ hCell | input _ _ _ hCell | arithmetic _ _ _ _ hCell =>
    cases hWrite
    exact Memory.inBounds_of_requireCell hCell
  | _ => cases hWrite

/-! ### Steps -/

variable [Trace.Sink τ]

/-- The ways in which a step ends: its result, and the machine and the host after it. -/
inductive StepOutcome (m : Machine τ) (host : σ) :
    Except Fault (Option Halt) × Machine τ × σ → Prop
  | stopped {halt : Halt} (hHalted : m.halted? = some halt) :
      StepOutcome m host (.ok (some halt), m, host)
  | ended (hHalted : m.halted? = none) (hCurrent : m.current? = none) :
      StepOutcome m host
        (.ok (some .endOfProgram), { m with halted? := some .endOfProgram }, host)
  | limited {i : Instruction} {limit : Nat} (hHalted : m.halted? = none)
      (hCurrent : m.current? = some i)
      (hLimit : m.config.limit?.filter (· ≤ m.cycles) = some limit) :
      StepOutcome m host
        (.error ⟨m.pc, i.mnemonic, .cycleLimitExceeded limit⟩,
          { m with halted? := some .faulted }, host)
  | faulted {i : Instruction} {cause : Fault.Cause} {host' : σ} (hExecuting : m.executing? = some i)
      (hPerform : m.perform i host = (.error cause, host')) :
      StepOutcome m host
        (.error ⟨m.pc, i.mnemonic, cause⟩, { m.count i with halted? := some .faulted }, host')
  | executed {i : Instruction} {event : Event} {host' : σ} (hExecuting : m.executing? = some i)
      (hPerforms : Performs m host i event host') :
      StepOutcome m host
        (.ok (((m.report i event).commit event).count i).halted?,
          ((m.report i event).commit event).count i, host')

theorem step_of_halted? {m : Machine τ} {halt : Halt} (h : m.halted? = some halt) (host : σ) :
    m.step host = (.ok (some halt), m, host) := by
  unfold step
  rw [h]

theorem step_of_current?_eq_none {m : Machine τ} (hHalted : m.halted? = none)
    (hCurrent : m.current? = none) (host : σ) :
    m.step host = (.ok (some .endOfProgram), { m with halted? := some .endOfProgram }, host) := by
  unfold step cycle
  rw [hHalted, hCurrent]

theorem step_of_limit {m : Machine τ} {i : Instruction} {limit : Nat} (hHalted : m.halted? = none)
    (hCurrent : m.current? = some i) (hLimit : m.config.limit?.filter (· ≤ m.cycles) = some limit)
    (host : σ) :
    m.step host =
      (.error ⟨m.pc, i.mnemonic, .cycleLimitExceeded limit⟩, { m with halted? := some .faulted },
        host) := by
  unfold step cycle
  rw [hHalted, hCurrent]
  simp only [hLimit]

theorem step_of_executing? {m : Machine τ} {i : Instruction} (h : m.executing? = some i)
    (host : σ) :
    m.step host =
      match m.perform i host with
      | (.error cause, host') =>
        (.error ⟨m.pc, i.mnemonic, cause⟩, { m.count i with halted? := some .faulted }, host')
      | (.ok event, host') =>
        (.ok (((m.report i event).commit event).count i).halted?,
          ((m.report i event).commit event).count i, host') := by
  obtain ⟨hHalted, hLimit, hCurrent⟩ := executing?_eq_some_iff.1 h
  unfold step cycle
  rw [hHalted, hCurrent]
  simp only [hLimit]
  rcases m.perform i host with ⟨cause | event, host'⟩ <;> rfl

theorem step_outcome (m : Machine τ) (host : σ) : StepOutcome m host (m.step host) := by
  cases hHalted : m.halted? with
  | some halt =>
    rw [step_of_halted? hHalted]
    exact .stopped hHalted
  | none =>
    cases hCurrent : m.current? with
    | none =>
      rw [step_of_current?_eq_none hHalted hCurrent]
      exact .ended hHalted hCurrent
    | some i =>
      cases hLimit : m.config.limit?.filter (· ≤ m.cycles) with
      | some limit =>
        rw [step_of_limit hHalted hCurrent hLimit]
        exact .limited hHalted hCurrent hLimit
      | none =>
        have hExecuting : m.executing? = some i :=
          executing?_eq_some_iff.2 ⟨hHalted, hLimit, hCurrent⟩
        rw [step_of_executing? hExecuting]
        rcases hPerform : m.perform i host with ⟨cause | event, host'⟩
        · exact .faulted hExecuting hPerform
        · exact .executed hExecuting (performs_of_perform hPerform)

@[simp] theorem step_instructions (m : Machine τ) (host : σ) :
    (m.step host).2.1.instructions = m.instructions := by
  have hOutcome := m.step_outcome host
  generalize m.step host = outcome at hOutcome ⊢
  cases hOutcome with
  | executed => simp
  | _ => rfl

@[simp] theorem step_config (m : Machine τ) (host : σ) : (m.step host).2.1.config = m.config := by
  have hOutcome := m.step_outcome host
  generalize m.step host = outcome at hOutcome ⊢
  cases hOutcome with
  | executed => simp
  | _ => rfl

/-- A step counts the instruction that it executes, also when the instruction raises a fault. -/
theorem step_counts {m : Machine τ} {i : Instruction} (h : m.executing? = some i) (host : σ) :
    (m.step host).2.1.cycles = m.cycles + 1 ∧
      (m.step host).2.1.profile = m.profile.add i.opcode.category 1 := by
  rw [step_of_executing? h]
  rcases m.perform i host with ⟨cause | event, host'⟩ <;> simp

theorem step_counts_nothing {m : Machine τ} (h : m.executing? = none) (host : σ) :
    (m.step host).2.1.cycles = m.cycles ∧ (m.step host).2.1.profile = m.profile := by
  have hOutcome := m.step_outcome host
  generalize m.step host = outcome at hOutcome ⊢
  cases hOutcome with
  | stopped | ended | limited => exact ⟨rfl, rfl⟩
  | faulted hExecuting | executed hExecuting =>
    rw [h] at hExecuting
    cases hExecuting

theorem step_cycles_bounds (m : Machine τ) (host : σ) :
    m.cycles ≤ (m.step host).2.1.cycles ∧ (m.step host).2.1.cycles ≤ m.cycles + 1 := by
  cases h : m.executing? with
  | none =>
    have hCycles := (step_counts_nothing h host).1
    omega
  | some i =>
    have hCycles := (step_counts h host).1
    omega

/-- The machine and the host after `n` steps. -/
def after (m : Machine τ) (host : σ) : Nat → Machine τ × σ
  | 0 => (m, host)
  | n + 1 => ((m.after host n).1.step (m.after host n).2).2

/-- What every step keeps holds in every state that steps lead to. -/
theorem after_induction {P : Machine τ → Prop} {m : Machine τ} (host : σ) (hStart : P m)
    (hStep : ∀ (m : Machine τ) (host : σ), P m → P (m.step host).2.1) (n : Nat) :
    P (m.after host n).1 := by
  induction n with
  | zero => exact hStart
  | succ n ih => exact hStep _ _ ih

@[simp] theorem after_config (m : Machine τ) (host : σ) (n : Nat) :
    (m.after host n).1.config = m.config := by
  induction n with
  | zero => rfl
  | succ n ih => rw [after, step_config, ih]

end Machine

end TapeMachine
