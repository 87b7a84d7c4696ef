import TapeMachine.Proofs.Machine.Commuting
import TapeMachine.Proofs.Machine.Faults
import TapeMachine.Proofs.Tape

/-! Loading a program, and the size of the instruction tape.  A program is refused when it is longer
than the tape.  On any tape that holds it, the counter finds the same instruction or none: past the
end of the program it does not matter whether it is on an unset cell or off the tape.  So machines
that differ in the size of that tape take the same steps (`commutes_retaped`). -/

namespace TapeMachine

namespace Machine

variable {τ σ : Type} {program : Program} {capacity : Nat} {m : Machine τ}

/-- The machine with the program on an instruction tape of another capacity. -/
def retaped (program : Program) (capacity : Nat) (m : Machine τ) : Machine τ :=
  { m with
    instructions := .ofList capacity program.instructions
    config := { m.config with instructions := capacity } }

theorem refit_retaped [Trace.Sink τ] (program : Program) (capacity : Nat) :
    Refit (retaped program capacity : Machine τ → Machine τ) where
  pc _ := rfl
  cycles _ := rfl
  limit? _ := rfl
  halted? _ := rfl
  halt _ _ := rfl
  count _ _ := rfl
  report m i event := by
    unfold report retaped
    split <;> rfl

namespace Addressed

/-- What the counter finds depends on the program and not on the tape. -/
theorem current?_eq (h : Addressed program capacity m) :
    m.current? = if m.pc < 0x8000000000000000 then program.get? m.pc else none := by
  by_cases hPc : m.pc < 0x8000000000000000
  · rw [if_pos hPc, Machine.current?_eq h.tape hPc]
  · rw [if_neg hPc]
    cases hCurrent : m.current? with
    | none => rfl
    | some i => exact absurd (h.pc_lt hCurrent) hPc

theorem current?_of_length_le (h : Addressed program capacity m) (hEnd : program.length ≤ m.pc) :
    m.current? = none := by
  rw [h.current?_eq]
  split
  · exact List.getElem?_eq_none hEnd
  · rfl

theorem retaped (h : Addressed program capacity m) (capacity' : Nat) :
    Addressed program capacity' (m.retaped program capacity') :=
  ⟨rfl, h.pc, h.calls⟩

end Addressed

theorem exists_load_eq_error_iff {config : Config} {trace : τ} :
    (∃ fault, load program config trace = .error fault) ↔
      config.instructions < program.length := by
  constructor
  · rintro ⟨fault, hFault⟩
    obtain ⟨surplus, hSurplus, -⟩ := load_eq_error_iff.1 hFault
    exact (List.getElem?_eq_some_iff.1 hSurplus).1
  · intro hLong
    exact ⟨_, load_eq_error_iff.2 ⟨_, List.getElem?_eq_getElem hLong, rfl⟩⟩

variable [Host σ] [Trace.Sink τ] {host : σ}

/-- No step notices the size of the instruction tape. -/
theorem commutes_retaped (h : Addressed program capacity m) (capacity' : Nat) (host : σ) :
    Commutes (retaped program capacity') m host := by
  refine (refit_retaped program capacity').commutes ?_ (fun i _ => ?_) fun _ _ _ _ => rfl
  · rw [h.current?_eq, (h.retaped capacity').current?_eq]
    rfl
  · have hValues : (m.retaped program capacity').values = m.values := rfl
    have hCalls : (m.retaped program capacity').calls = m.calls := rfl
    exact perform_congr hValues hCalls i host

/-- A machine that has loaded its program does not find it too large later. -/
theorem answer_ne_programTooLarge {n : Nat} {fault : Fault}
    (h : m.answer host n = .error fault) (length capacity : Nat) :
    fault.cause ≠ .programTooLarge length capacity := by
  intro hCause
  unfold answer at h
  rcases hStep : (m.after host n).1.step (m.after host n).2 with ⟨result, m', host'⟩
  obtain rfl : result = .error fault := by rwa [hStep] at h
  obtain ⟨-, -, -, -, ⟨limit, hLimit, -⟩ | ⟨hInstruction, -⟩⟩ := step_eq_error hStep
  · rw [hCause] at hLimit
    cases hLimit
  · rw [hCause] at hInstruction
    exact hInstruction

/-- A run that fails has met its fault in one of its steps. -/
theorem exists_answer_of_run {fuel : Nat} {fault : Fault}
    (h : (m.run fuel host).1 = some (.error fault)) : ∃ n, m.answer host n = .error fault := by
  rcases hRun : m.run fuel host with ⟨result?, m', host'⟩
  obtain rfl : result? = some (.error fault) := by rwa [hRun] at h
  obtain ⟨n, -, hStops⟩ := run_eq_some_iff.1 hRun
  exact ⟨n, hStops.answer⟩

/-- The machine on which `Program.run` runs a program. -/
def roomy (program : Program) (values : Nat) : Machine Trace.Discard :=
  initial program { instructions := max program.length 256, values } .mk

theorem program_run_eq (program : Program) (fuel values : Nat) (host : σ) :
    program.run fuel values host =
      (((roomy program values).run fuel host).1, ((roomy program values).run fuel host).2.2) := by
  have hLoad : load program { instructions := max program.length 256, values } Trace.Discard.mk =
      .ok (roomy program values) :=
    load_eq_ok_iff.2 ⟨Nat.le_max_left _ _, rfl⟩
  unfold Program.run
  simp only [hLoad]

/-- Machines at the start of a program on tapes of two sizes make one and the same run. -/
theorem commutes_retaped_initial (program : Program) (config : Config) (trace : τ) (capacity : Nat)
    (host : σ) (n : Nat) :
    Commutes (retaped program capacity) ((initial program config trace).after host n).1
      ((initial program config trace).after host n).2 :=
  commutes_retaped (addressed_after program config trace host n) capacity _

/-- A program of fewer than `2^63` instructions is refused when it is longer than the instruction
tape, at the first instruction left over, with its length and the size of the tape.  Otherwise its
instructions can be written on the tape one after another, and on every tape that holds it the steps
give the same results and leave the same host and the same machine but for that tape.  A counter
past the end of the program ends the run, be it on the tape or not.  So `Program.run` never finds
the program too large, and gives what a machine with any tape that holds the program gives. -/
theorem load_any_capacity {program : Program} (hSize : program.length < 0x8000000000000000)
    (config : Config) (trace : τ) :
    ((∃ fault, load program config trace = .error fault) ↔
      config.instructions < program.length) ∧
    (∀ fault, load program config trace = .error fault →
      ∃ surplus, program.get? config.instructions = some surplus ∧
        fault = ⟨config.instructions, surplus.mnemonic,
          .programTooLarge program.length config.instructions⟩) ∧
    (∀ start, load program config trace = .ok start →
      Tape.writeFrom 0 program.instructions (.blank config.instructions) =
        .ok start.instructions ∧
      ∀ capacity other, load program { config with instructions := capacity } trace = .ok other →
        ∀ (host : σ) (n : Nat), other.answer host n = start.answer host n ∧
          ∃ m m' host', start.after host n = (m, host') ∧ other.after host n = (m', host') ∧
            m'.pc = m.pc ∧ m'.cycles = m.cycles ∧ m'.profile = m.profile ∧ m'.calls = m.calls ∧
            m'.values = m.values ∧ m'.trace = m.trace ∧ m'.halted? = m.halted? ∧
            (m.halted? = none → program.length ≤ m.pc →
              start.answer host n = .ok (some .endOfProgram))) ∧
    ∀ (values fuel : Nat) (host : σ),
      (∀ fault length capacity, (program.run fuel values host).1 = some (.error fault) →
        fault.cause ≠ .programTooLarge length capacity) ∧
      ∀ capacity start, load program ⟨capacity, values, none⟩ Trace.Discard.mk = .ok start →
        program.run fuel values host =
          ((start.run fuel host).1, (start.run fuel host).2.2) := by
  refine ⟨exists_load_eq_error_iff, fun fault hFault => load_eq_error_iff.1 hFault,
    fun start hStart => ?_, fun values fuel host => ⟨fun fault length capacity hFault => ?_,
      fun capacity start hStart => ?_⟩⟩
  · obtain ⟨hFits, rfl⟩ := load_eq_ok_iff.1 hStart
    refine ⟨Tape.writeFrom_blank hFits (Nat.le_of_lt hSize), fun capacity other hOther host n => ?_⟩
    obtain ⟨-, rfl⟩ := load_eq_ok_iff.1 hOther
    have hSteps := commutes_retaped_initial program config trace capacity host
    refine ⟨answer_of_commutes fun k _ => hSteps k, _, _, _, rfl,
      after_of_commutes fun k _ => hSteps k, rfl, rfl, rfl, rfl, rfl, rfl, rfl,
      fun hRunning hEnd => ?_⟩
    have hCurrent := (addressed_after program config trace host n).current?_of_length_le hEnd
    unfold answer
    rw [step_of_current?_eq_none hRunning hCurrent]
  · rw [program_run_eq] at hFault
    obtain ⟨n, hAnswer⟩ := exists_answer_of_run hFault
    exact answer_ne_programTooLarge hAnswer length capacity
  · obtain ⟨-, rfl⟩ := load_eq_ok_iff.1 hStart
    have hRun := run_of_commutes
      (commutes_retaped_initial program { instructions := max program.length 256, values }
        Trace.Discard.mk capacity host) fuel
    rw [program_run_eq]
    exact congrArg (fun done => (done.1, done.2.2)) hRun.symm

/-- A program that jumps past its end. -/
def jumpPastEnd : Program :=
  ⟨[.set 3 (.direct 0), .jump (.ofPayload 5)], .ofList []⟩

/-- A small machine at the start of `jumpPastEnd`. -/
def beforeJump (instructions : Nat) : Machine Trace.Discard :=
  initial jumpPastEnd ⟨instructions, 1, none⟩ .mk

/-- The jump ends the run where it leads off the tape, on a tape that just holds the program, and
where it leads to an unset cell, on a longer one.  A tape of one cell is too short. -/
theorem load_any_capacity_jumpPastEnd :
    jumpPastEnd.length < 0x8000000000000000 ∧
    load jumpPastEnd ⟨1, 1, none⟩ Trace.Discard.mk =
      .error ⟨1, "JMP", .programTooLarge 2 1⟩ ∧
    load jumpPastEnd ⟨2, 1, none⟩ Trace.Discard.mk = .ok (beforeJump 2) ∧
    load jumpPastEnd ⟨8, 1, none⟩ Trace.Discard.mk = .ok (beforeJump 8) ∧
    ((beforeJump 2).after noInput 2).1.pc = 5 ∧
    (beforeJump 2).answer noInput 2 = .ok (some .endOfProgram) ∧
    (beforeJump 8).answer noInput 2 = .ok (some .endOfProgram) ∧
    (jumpPastEnd.run 3 1 noInput).1 = some (.ok .endOfProgram) := by
  have hSize : jumpPastEnd.length < 0x8000000000000000 := by decide
  have hLoad (capacity : Nat) (hFits : 2 ≤ capacity) :
      load jumpPastEnd ⟨capacity, 1, none⟩ Trace.Discard.mk = .ok (beforeJump capacity) :=
    load_eq_ok_iff.2 ⟨hFits, rfl⟩
  have hPc : ((beforeJump 2).after noInput 2).1.pc = 5 := by decide +kernel
  have hRunning : ((beforeJump 2).after noInput 2).1.halted? = none := by decide +kernel
  have hRun : ((beforeJump 2).run 3 noInput).1 = some (.ok .endOfProgram) := by decide +kernel
  obtain ⟨hFails, hWhere, -, -⟩ :=
    load_any_capacity (σ := Host.Scripted) hSize ⟨1, 1, none⟩ Trace.Discard.mk
  obtain ⟨fault, hFault⟩ := hFails.2 (by decide)
  obtain ⟨surplus, hSurplus, rfl⟩ := hWhere fault hFault
  obtain rfl := Option.some.inj hSurplus
  obtain ⟨-, -, hSteps, hFree⟩ :=
    load_any_capacity (σ := Host.Scripted) hSize ⟨2, 1, none⟩ Trace.Discard.mk
  obtain ⟨hSame, m, -, host', hAfter, -, -, -, -, -, -, -, -, hEnd⟩ :=
    (hSteps _ (hLoad 2 (by decide))).2 8 _ (hLoad 8 (by decide)) noInput 2
  rw [hAfter] at hPc hRunning
  have hPast : jumpPastEnd.length ≤ m.pc := by
    rw [show m.pc = 5 from hPc]
    decide
  have hAnswer := hEnd hRunning hPast
  refine ⟨hSize, hFault, hLoad 2 (by decide), hLoad 8 (by decide), ?_, hAnswer,
    hSame.trans hAnswer, ?_⟩
  · rw [hAfter]
    exact hPc
  · rw [(hFree 1 3 noInput).2 2 _ (hLoad 2 (by decide))]
    exact hRun

end Machine

end TapeMachine
