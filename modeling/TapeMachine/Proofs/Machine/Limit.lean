import TapeMachine.Proofs.Machine.Run

/-! Limits on the number of executed instructions.  A machine with a limit takes the same steps as
the machine without it as long as they are within the limit (`step_withLimit`); the first
instruction past the limit stops it before anything is done (`step_withLimit_spent`).  So a run with
a limit is the run without it, or the part of it that the limit pays for. -/

namespace TapeMachine.Machine

variable {τ σ : Type}

/-- The machine with a limit on the instructions it may execute. -/
def withLimit (m : Machine τ) (limit : Nat) : Machine τ :=
  { m with config := { m.config with limit? := some limit } }

/-- The next step executes nothing, or an instruction that the limit still pays for. -/
def Affords (m : Machine τ) (limit : Nat) : Prop :=
  ∀ i, m.executing? = some i → m.cycles < limit

section Commutes

variable (m : Machine τ) (limit : Nat) (i : Instruction) (event : Event)

theorem report_withLimit [Trace.Sink τ] :
    (m.withLimit limit).report i event = (m.report i event).withLimit limit := by
  unfold report withLimit
  split <;> rfl

theorem perform_withLimit [Host σ] (host : σ) :
    (m.withLimit limit).perform i host = m.perform i host := by
  have hValues : (m.withLimit limit).values = m.values := rfl
  have hCalls : (m.withLimit limit).calls = m.calls := rfl
  exact perform_congr hValues hCalls i host

end Commutes

variable [Host σ] [Trace.Sink τ] {m m' : Machine τ} {host host' : σ} {limit : Nat}

/-- A limit that pays for the next instruction makes no difference to the step. -/
theorem step_withLimit (hNone : m.config.limit? = none) (hAffords : m.Affords limit) (host : σ) :
    (m.withLimit limit).step host =
      ((m.step host).1, (m.step host).2.1.withLimit limit, (m.step host).2.2) := by
  cases hHalted : m.halted? with
  | some halt =>
    have hHalted' : (m.withLimit limit).halted? = some halt := hHalted
    rw [step_of_halted? hHalted, step_of_halted? hHalted']
  | none =>
    have hHalted' : (m.withLimit limit).halted? = none := hHalted
    cases hCurrent : m.current? with
    | none =>
      have hCurrent' : (m.withLimit limit).current? = none := hCurrent
      rw [step_of_current?_eq_none hHalted hCurrent, step_of_current?_eq_none hHalted' hCurrent']
      rfl
    | some i =>
      have hCurrent' : (m.withLimit limit).current? = some i := hCurrent
      have hExecuting : m.executing? = some i :=
        executing?_eq_some_iff.2 ⟨hHalted, by rw [hNone]; rfl, hCurrent⟩
      have hUnspent : ¬limit ≤ m.cycles := Nat.not_le.2 (hAffords i hExecuting)
      have hExecuting' : (m.withLimit limit).executing? = some i :=
        executing?_eq_some_iff.2 ⟨hHalted', by simp [withLimit, hUnspent], hCurrent'⟩
      rw [step_of_executing? hExecuting, step_of_executing? hExecuting', perform_withLimit]
      rcases m.perform i host with ⟨cause | event, host'⟩
      · rfl
      · simp only [report_withLimit]
        rfl

/-- A spent limit stops the machine at the next instruction and leaves all else as it is. -/
theorem step_withLimit_spent {i : Instruction} (hExecuting : m.executing? = some i)
    (hSpent : limit ≤ m.cycles) (host : σ) :
    (m.withLimit limit).step host =
      (.error ⟨m.pc, i.mnemonic, .cycleLimitExceeded limit⟩,
        { m.withLimit limit with halted? := some .faulted }, host) := by
  obtain ⟨hHalted, -, hCurrent⟩ := executing?_eq_some_iff.1 hExecuting
  have hLimit : (m.withLimit limit).config.limit?.filter (· ≤ (m.withLimit limit).cycles) =
      some limit := by
    simp [withLimit, hSpent]
  have hHalted' : (m.withLimit limit).halted? = none := hHalted
  have hCurrent' : (m.withLimit limit).current? = some i := hCurrent
  exact step_of_limit hHalted' hCurrent' hLimit host

theorem after_withLimit (hNone : m.config.limit? = none) {n : Nat}
    (hAffords : ∀ k < n, (m.after host k).1.Affords limit) :
    (m.withLimit limit).after host n =
      ((m.after host n).1.withLimit limit, (m.after host n).2) := by
  induction n with
  | zero => rfl
  | succ n ih =>
    have hNone' : (m.after host n).1.config.limit? = none := by rw [after_config, hNone]
    rw [after, ih fun k hk => hAffords k (Nat.lt_succ_of_lt hk),
      step_withLimit hNone' (hAffords n (Nat.lt_succ_self n)), after]

theorem answer_withLimit (hNone : m.config.limit? = none) {n : Nat}
    (hAffords : ∀ k ≤ n, (m.after host k).1.Affords limit) :
    (m.withLimit limit).answer host n = m.answer host n := by
  have hNone' : (m.after host n).1.config.limit? = none := by rw [after_config, hNone]
  unfold answer
  rw [after_withLimit hNone fun k hk => hAffords k (Nat.le_of_lt hk),
    step_withLimit hNone' (hAffords n (Nat.le_refl n))]

/-- A run that stops within the limit is the same run with the limit. -/
theorem StopsAt.withLimit {n : Nat} {final : Except Fault Halt}
    (h : m.StopsAt host n final m' host') (hNone : m.config.limit? = none)
    (hCycles : m'.cycles ≤ limit) :
    (m.withLimit limit).StopsAt host n final (m'.withLimit limit) host' := by
  have hAffords (k : Nat) (hk : k ≤ n) : (m.after host k).1.Affords limit := by
    intro i hExecuting
    have hNext : (m.after host (k + 1)).1.cycles = (m.after host k).1.cycles + 1 :=
      (step_counts hExecuting _).1
    have hMono : (m.after host (k + 1)).1.cycles ≤ (m.after host (n + 1)).1.cycles :=
      cycles_mono (Nat.succ_le_succ hk)
    have hLast : (m.after host (n + 1)).1.cycles = m'.cycles := by rw [h.state]
    omega
  refine ⟨fun k hk => ?_, ?_, ?_⟩
  · rw [answer_withLimit hNone fun j hj => hAffords j (Nat.le_trans hj (Nat.le_of_lt hk))]
    exact h.before k hk
  · rw [answer_withLimit hNone hAffords]
    exact h.answer
  · rw [after_withLimit hNone fun k hk => hAffords k (Nat.le_of_lt_succ hk), h.state]

/-- A machine that still runs after as many steps as the limit allows, and has an instruction to
execute, is stopped there by the limit. -/
theorem stopsAt_withLimit_spent (hNone : m.config.limit? = none) (hCycles : m.cycles = 0)
    {i : Instruction} (hExecuting : (m.after host limit).1.executing? = some i) :
    (m.withLimit limit).StopsAt host limit
      (.error ⟨(m.after host limit).1.pc, i.mnemonic, .cycleLimitExceeded limit⟩)
      { (m.after host limit).1.withLimit limit with halted? := some .faulted }
      (m.after host limit).2 := by
  obtain ⟨hRunning, -, -⟩ := executing?_eq_some_iff.1 hExecuting
  have hSteps (k : Nat) (hk : k ≤ limit) : (m.after host k).1.cycles = k := by
    rw [cycles_of_running (running_of_le hRunning hk), hCycles, Nat.zero_add]
  have hAffords (k : Nat) (hk : k < limit) : (m.after host k).1.Affords limit := by
    intro j _
    rw [hSteps k (Nat.le_of_lt hk)]
    exact hk
  have hStep := step_withLimit_spent hExecuting (Nat.le_of_eq (hSteps limit (Nat.le_refl _)).symm)
    (m.after host limit).2
  have hAfter : (m.withLimit limit).after host limit =
      ((m.after host limit).1.withLimit limit, (m.after host limit).2) :=
    after_withLimit hNone hAffords
  refine ⟨fun k hk => ?_, ?_, ?_⟩
  · rw [answer_withLimit hNone fun j hj => hAffords j (Nat.lt_of_le_of_lt hj hk)]
    exact answer_of_running hRunning hk
  · unfold answer
    rw [hAfter, hStep]
    rfl
  · rw [after, hAfter, hStep]

/-- A machine without a limit stops having executed at most `limit` instructions, or has another
one to execute after `limit` steps. -/
theorem returns_or_executing? (hNone : m.config.limit? = none) (hRunning : m.halted? = none)
    (hCycles : m.cycles = 0) (host : σ) (limit : Nat) :
    (∃ final m' host', m.Returns host final m' host' ∧ m'.cycles ≤ limit) ∨
      ∃ i, (m.after host limit).1.executing? = some i := by
  cases hHalted : (m.after host limit).1.halted? with
  | some halt =>
    cases limit with
    | zero =>
      have hStart : m.halted? = some halt := hHalted
      rw [hRunning] at hStart
      cases hStart
    | succ limit =>
      obtain ⟨n, hn, final, m', host', hStops⟩ := exists_stopsAt hHalted
      have hLast : (m.after host (n + 1)).1.cycles = m'.cycles := by rw [hStops.state]
      have hLe := m.cycles_le_add host (n + 1)
      exact .inl ⟨final, m', host', returns_iff.2 ⟨n, hStops⟩, by omega⟩
  | none =>
    have hSteps := cycles_of_running hHalted
    cases hCurrent : (m.after host limit).1.current? with
    | none =>
      -- The program ends here, and finding that out costs no instruction.
      have hStep := step_of_current?_eq_none hHalted hCurrent (m.after host limit).2
      have hStops : m.StopsAt host limit (.ok .endOfProgram)
          { (m.after host limit).1 with halted? := some .endOfProgram } (m.after host limit).2 := by
        refine ⟨fun k hk => answer_of_running hHalted hk, ?_, ?_⟩
        · unfold answer
          rw [hStep]
          rfl
        · rw [after, hStep]
      refine .inl ⟨_, _, _, returns_iff.2 ⟨limit, hStops⟩, ?_⟩
      show (m.after host limit).1.cycles ≤ limit
      omega
    | some i =>
      have hConfig : (m.after host limit).1.config.limit? = none := by rw [after_config, hNone]
      exact .inr ⟨i, executing?_eq_some_iff.2 ⟨hHalted, by rw [hConfig]; rfl, hCurrent⟩⟩

/-! ### Termination -/

/-- A limit is never passed. -/
theorem cycles_le_limit (hLimit : m.config.limit? = some limit) (hCycles : m.cycles ≤ limit)
    (host : σ) (n : Nat) : (m.after host n).1.cycles ≤ limit := by
  induction n with
  | zero => exact hCycles
  | succ n ih =>
    cases hExecuting : (m.after host n).1.executing? with
    | none => rwa [after, (step_counts_nothing hExecuting _).1]
    | some i =>
      obtain ⟨-, hUnspent, -⟩ := executing?_eq_some_iff.1 hExecuting
      have hLess : (m.after host n).1.cycles < limit := by
        simpa [hLimit] using hUnspent
      rw [after, (step_counts hExecuting _).1]
      exact hLess

/-- A run with a limit returns, after one step more than the limit at the latest. -/
theorem run_returns_of_limit (hLimit : m.config.limit? = some limit) (hCycles : m.cycles = 0)
    (host : σ) : ∃ final m' host', m.run (limit + 1) host = (some final, m', host') := by
  cases hHalted : (m.after host (limit + 1)).1.halted? with
  | none =>
    have hSteps := cycles_of_running hHalted
    have hLe := cycles_le_limit hLimit (by omega) host (limit + 1)
    omega
  | some halt =>
    obtain ⟨n, hn, final, m', host', hStops⟩ := exists_stopsAt hHalted
    exact ⟨final, m', host', hStops.run (Nat.lt_succ_of_le hn)⟩

/-! ### Runs with and without a limit -/

/-- A run of a program with a limit is compared with the run without one.  If the latter stops
having executed no more instructions than the limit allows, the former stops with the same result,
the same machine but for its limit, and the same host.  Otherwise it stops at the limit, at the
instruction that the other would execute next after as many steps, in the state of the other there.
So it returns, and its count of instructions, a 64-bit number, stays within the limit. -/
theorem run_with_limit {program : Program} {config : Config} {trace : τ}
    {unlimited limited : Machine τ} (limit : UInt64) (host : σ)
    (hUnlimited : load program { config with limit? := none } trace = .ok unlimited)
    (hLimited : load program { config with limit? := some limit.toNat } trace = .ok limited) :
    (∀ final m host', unlimited.Returns host final m host' → m.cycles ≤ limit.toNat →
      limited.Returns host final (m.withLimit limit.toNat) host') ∧
    ((¬∃ final m host', unlimited.Returns host final m host' ∧ m.cycles ≤ limit.toNat) →
      ∃ i m host', unlimited.after host limit.toNat = (m, host') ∧ m.cycles = limit.toNat ∧
        m.executing? = some i ∧
        limited.Returns host (.error ⟨m.pc, i.mnemonic, .cycleLimitExceeded limit.toNat⟩)
          { m.withLimit limit.toNat with halted? := some .faulted } host') ∧
    (∃ final m host', limited.run (limit.toNat + 1) host = (some final, m, host')) ∧
    ∀ n, (limited.after host n).1.cycles ≤ limit.toNat ∧
      (limited.after host n).1.cycles < UInt64.size := by
  obtain ⟨-, hUnlimited⟩ := load_eq_ok_iff.1 hUnlimited
  obtain ⟨-, hLimited⟩ := load_eq_ok_iff.1 hLimited
  obtain rfl : limited = unlimited.withLimit limit.toNat := by rw [hLimited, hUnlimited]; rfl
  have hNone : unlimited.config.limit? = none := by rw [hUnlimited]; rfl
  have hRunning : unlimited.halted? = none := by rw [hUnlimited]; rfl
  have hCycles : unlimited.cycles = 0 := by rw [hUnlimited]; rfl
  have hSome : (unlimited.withLimit limit.toNat).config.limit? = some limit.toNat := rfl
  have hCycles' : (unlimited.withLimit limit.toNat).cycles = 0 := hCycles
  refine ⟨fun final m host' hReturns hLe => ?_, fun hNever => ?_,
    run_returns_of_limit hSome hCycles' host, fun n => ?_⟩
  · obtain ⟨n, hStops⟩ := returns_iff.1 hReturns
    exact returns_iff.2 ⟨n, hStops.withLimit hNone hLe⟩
  · obtain ⟨i, hExecuting⟩ :=
      (returns_or_executing? hNone hRunning hCycles host limit.toNat).resolve_left hNever
    obtain ⟨hStill, -, -⟩ := executing?_eq_some_iff.1 hExecuting
    refine ⟨i, _, _, rfl, ?_, hExecuting,
      returns_iff.2 ⟨_, stopsAt_withLimit_spent hNone hCycles hExecuting⟩⟩
    rw [cycles_of_running hStill, hCycles, Nat.zero_add]
  · have hLe := cycles_le_limit hSome (by omega) host n
    exact ⟨hLe, Nat.lt_of_le_of_lt hLe limit.toNat_lt_size⟩

/-- A program of two instructions that writes a line. -/
def writeOne : Program :=
  ⟨[.set 1 (.direct 0), .output (.direct 0)], .ofList []⟩

/-- A small machine at the start of `writeOne`. -/
def beforeWrite (limit? : Option Nat) : Machine Trace.Discard :=
  initial writeOne ⟨4, 1, limit?⟩ .mk

/-- Two instructions are enough for `writeOne`, and one is not. -/
theorem run_with_limit_writeOne :
    (∀ limit?, load writeOne ⟨4, 1, limit?⟩ Trace.Discard.mk = .ok (beforeWrite limit?)) ∧
    (∃ m host', (beforeWrite none).Returns noInput (.ok .endOfProgram) m host' ∧ m.cycles = 2 ∧
      (beforeWrite (some 2)).Returns noInput (.ok .endOfProgram) (m.withLimit 2) host') ∧
    ∃ m host', (beforeWrite none).after noInput 1 = (m, host') ∧
      (beforeWrite (some 1)).Returns noInput (.error ⟨1, "OUT", .cycleLimitExceeded 1⟩)
        { m.withLimit 1 with halted? := some .faulted } host' := by
  have hLoad (limit? : Option Nat) :
      load writeOne { (⟨4, 1, none⟩ : Config) with limit? } Trace.Discard.mk =
        .ok (beforeWrite limit?) :=
    load_eq_ok_iff.2 ⟨show writeOne.length ≤ 4 by decide, rfl⟩
  have hBefore : ∀ k < 2, (beforeWrite none).answer noInput k = .ok none := by decide +kernel
  have hAnswer : (beforeWrite none).answer noInput 2 = (Except.ok .endOfProgram).map some := by
    decide +kernel
  have hCycles : ((beforeWrite none).after noInput 3).1.cycles = 2 := by decide +kernel
  have hPc : ((beforeWrite none).after noInput 1).1.pc = 1 := by decide +kernel
  have hNext : ((beforeWrite none).after noInput 1).1.executing? = some (.output (.direct 0)) := by
    decide +kernel
  obtain ⟨done, host₁, hThird⟩ : ∃ done host₁, (beforeWrite none).after noInput 3 = (done, host₁) :=
    ⟨_, _, rfl⟩
  replace hCycles : done.cycles = 2 := by rwa [hThird] at hCycles
  have hDone : (beforeWrite none).Returns noInput (.ok .endOfProgram) done host₁ :=
    returns_iff.2 ⟨2, hBefore, hAnswer, hThird⟩
  have hEnough := (run_with_limit 2 noInput (hLoad none) (hLoad (some 2))).1 _ _ _ hDone
    (Nat.le_of_eq hCycles)
  refine ⟨hLoad, ⟨done, host₁, hDone, hCycles, hEnough⟩, ?_⟩
  have hOne : (1 : UInt64).toNat = 1 := rfl
  have hSpent := (run_with_limit 1 noInput (hLoad none) (hLoad (some 1))).2.1
  rw [hOne] at hSpent
  have hNever :
      ¬∃ final m host', (beforeWrite none).Returns noInput final m host' ∧ m.cycles ≤ 1 := by
    rintro ⟨_, _, _, hReturns, hLe⟩
    obtain ⟨-, rfl, -⟩ := hReturns.unique hDone
    omega
  obtain ⟨i, m, host', hAfter, -, hExecuting, hReturns⟩ := hSpent hNever
  rw [hAfter] at hPc hNext
  obtain rfl := Option.some.inj (hNext.symm.trans hExecuting)
  rw [hPc] at hReturns
  exact ⟨m, host', hAfter, hReturns⟩

end TapeMachine.Machine
