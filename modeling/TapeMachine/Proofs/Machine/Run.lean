import TapeMachine.Host.Scripted
import TapeMachine.Proofs.Machine.Step

/-! Runs as repeated steps.  `returns_iff` says that a run returns at the first step that gives a
halt or a fault, in the state after that step; a machine that has stopped stays in its state, and
one that has not has executed an instruction with every step. -/

namespace TapeMachine.Machine

variable {τ σ : Type} [Host σ] [Trace.Sink τ] {m m' : Machine τ} {host host' : σ}

/-! ### Halts -/

/-- The halt of a machine after a step with the given result. -/
def haltOf : Except Fault (Option Halt) → Option Halt
  | .ok halt? => halt?
  | .error _ => some .faulted

theorem haltOf_eq_none_iff {result : Except Fault (Option Halt)} :
    haltOf result = none ↔ result = .ok none := by
  cases result <;> simp [haltOf]

theorem exists_map_some_of_haltOf {result : Except Fault (Option Halt)} {halt : Halt}
    (h : haltOf result = some halt) : ∃ final : Except Fault Halt, result = final.map some := by
  cases result with
  | error fault => exact ⟨.error fault, rfl⟩
  | ok halt? =>
    cases h
    exact ⟨.ok halt, rfl⟩

theorem step_halted? (m : Machine τ) (host : σ) :
    (m.step host).2.1.halted? = haltOf (m.step host).1 := by
  have hOutcome := m.step_outcome host
  generalize m.step host = outcome at hOutcome ⊢
  cases hOutcome with
  | stopped hHalted => exact hHalted
  | _ => rfl

/-- A machine that is still running after a step has executed an instruction. -/
theorem executing?_of_step_running (h : (m.step host).2.1.halted? = none) :
    ∃ i, m.executing? = some i := by
  have hOutcome := m.step_outcome host
  generalize m.step host = outcome at hOutcome h
  cases hOutcome with
  | stopped hHalted =>
    rw [hHalted] at h
    cases h
  | ended | limited | faulted => cases h
  | executed hExecuting => exact ⟨_, hExecuting⟩

/-! ### Steps one after another -/

theorem after_add (m : Machine τ) (host : σ) (n k : Nat) :
    (m.after host n).1.after (m.after host n).2 k = m.after host (n + k) := by
  induction k with
  | zero => rfl
  | succ k ih => rw [after, ih, ← Nat.add_assoc, ← after]

/-- What step number `n` gives, from 0. -/
def answer (m : Machine τ) (host : σ) (n : Nat) : Except Fault (Option Halt) :=
  ((m.after host n).1.step (m.after host n).2).1

theorem answer_after (m : Machine τ) (host : σ) (n k : Nat) :
    (m.after host n).1.answer (m.after host n).2 k = m.answer host (n + k) := by
  unfold answer
  rw [after_add]

theorem after_succ_halted? (m : Machine τ) (host : σ) (n : Nat) :
    (m.after host (n + 1)).1.halted? = haltOf (m.answer host n) :=
  step_halted? _ _

theorem after_of_halted? {n k : Nat} {halt : Halt} (h : (m.after host n).1.halted? = some halt)
    (hk : n ≤ k) : m.after host k = m.after host n := by
  induction hk with
  | refl => rfl
  | step _ ih => rw [after, ih, step_of_halted? h]

theorem answer_of_halted? {n k : Nat} {halt : Halt} (h : (m.after host n).1.halted? = some halt)
    (hk : n ≤ k) : m.answer host k = .ok (some halt) := by
  unfold answer
  rw [after_of_halted? h hk, step_of_halted? h]

theorem running_of_le {n k : Nat} (h : (m.after host k).1.halted? = none) (hn : n ≤ k) :
    (m.after host n).1.halted? = none := by
  cases hHalted : (m.after host n).1.halted? with
  | none => rfl
  | some halt =>
    rw [after_of_halted? hHalted hn, hHalted] at h
    cases h

theorem answer_of_running {n k : Nat} (h : (m.after host n).1.halted? = none) (hk : k < n) :
    m.answer host k = .ok none := by
  have hNext := running_of_le h hk
  rw [after_succ_halted?] at hNext
  exact haltOf_eq_none_iff.1 hNext

/-- As long as a machine runs, it executes one instruction with every step. -/
theorem cycles_of_running {n : Nat} (h : (m.after host n).1.halted? = none) :
    (m.after host n).1.cycles = m.cycles + n := by
  induction n with
  | zero => rfl
  | succ n ih =>
    obtain ⟨i, hExecuting⟩ := executing?_of_step_running h
    rw [after, (step_counts hExecuting _).1, ih (running_of_le h (Nat.le_succ n)),
      Nat.add_assoc]

theorem cycles_mono {n k : Nat} (h : n ≤ k) :
    (m.after host n).1.cycles ≤ (m.after host k).1.cycles := by
  induction h with
  | refl => exact Nat.le_refl _
  | step _ ih => exact Nat.le_trans ih (step_cycles_bounds _ _).1

theorem cycles_le_add (m : Machine τ) (host : σ) (n : Nat) :
    (m.after host n).1.cycles ≤ m.cycles + n := by
  induction n with
  | zero => exact Nat.le_refl _
  | succ n ih => exact Nat.le_trans (step_cycles_bounds _ _).2 (Nat.succ_le_succ ih)

/-! ### Runs -/

/-- A run returns `final` and leaves the machine and the host as given. -/
def Returns (m : Machine τ) (host : σ) (final : Except Fault Halt) (m' : Machine τ) (host' : σ) :
    Prop :=
  ∃ fuel, m.run fuel host = (some final, m', host')

/-- Step number `n` is the first that gives a halt or a fault. -/
structure StopsAt (m : Machine τ) (host : σ) (n : Nat) (final : Except Fault Halt)
    (m' : Machine τ) (host' : σ) : Prop where
  before : ∀ k < n, m.answer host k = .ok none
  answer : m.answer host n = final.map some
  state : m.after host (n + 1) = (m', host')

variable {final : Except Fault Halt}

/-- A machine that has stopped after some steps has stopped at one of them. -/
theorem exists_stopsAt {n : Nat} {halt : Halt}
    (h : (m.after host (n + 1)).1.halted? = some halt) :
    ∃ k ≤ n, ∃ final m' host', m.StopsAt host k final m' host' := by
  have hLast {n : Nat} {halt : Halt} (h : (m.after host (n + 1)).1.halted? = some halt)
      (hBefore : ∀ k < n, m.answer host k = .ok none) :
      ∃ final m' host', m.StopsAt host n final m' host' := by
    rw [after_succ_halted?] at h
    obtain ⟨final, hFinal⟩ := exists_map_some_of_haltOf h
    exact ⟨final, _, _, hBefore, hFinal, rfl⟩
  induction n generalizing halt with
  | zero => exact ⟨0, Nat.le_refl 0, hLast h nofun⟩
  | succ n ih =>
    cases hn : (m.after host (n + 1)).1.halted? with
    | some earlier =>
      obtain ⟨k, hk, hStops⟩ := ih hn
      exact ⟨k, Nat.le_succ_of_le hk, hStops⟩
    | none => exact ⟨n + 1, Nat.le_refl _, hLast h fun k hk => answer_of_running hn hk⟩

/-- A run passes every step that gives neither a halt nor a fault. -/
theorem run_of_answers {n : Nat} (h : ∀ k < n, m.answer host k = .ok none) (fuel : Nat) :
    m.run (n + fuel) host = (m.after host n).1.run fuel (m.after host n).2 := by
  induction n generalizing fuel with
  | zero => rw [Nat.zero_add, after]
  | succ n ih =>
    have hLast : ((m.after host n).1.step (m.after host n).2).1 = .ok none :=
      h n (Nat.lt_succ_self n)
    rw [Nat.add_assoc, Nat.add_comm 1, ih fun k hk => h k (Nat.lt_succ_of_lt hk), after, run]
    rcases hStep : (m.after host n).1.step (m.after host n).2 with ⟨result, next, host₁⟩
    obtain rfl : result = .ok none := by rwa [hStep] at hLast
    rfl

theorem StopsAt.run {n fuel : Nat} (h : m.StopsAt host n final m' host') (hn : n < fuel) :
    m.run fuel host = (some final, m', host') := by
  obtain ⟨rest, rfl⟩ := Nat.exists_eq_add_of_lt hn
  have hAnswer := h.answer
  have hState := h.state
  unfold Machine.answer at hAnswer
  rw [after] at hState
  rw [Nat.add_assoc, run_of_answers h.before, Machine.run]
  rcases hStep : (m.after host n).1.step (m.after host n).2 with ⟨result, next, host₁⟩
  rw [hStep] at hAnswer hState
  cases hState
  cases final <;> cases hAnswer <;> rfl

/-- A run of at most `fuel` steps returns when one of them gives a halt or a fault, and then at the
first one. -/
theorem run_eq_some_iff {fuel : Nat} :
    m.run fuel host = (some final, m', host') ↔ ∃ n < fuel, m.StopsAt host n final m' host' := by
  constructor
  · intro hRun
    cases hHalted : (m.after host fuel).1.halted? with
    | none =>
      have hNone := run_of_answers (fun k hk => answer_of_running hHalted hk) 0
      rw [Nat.add_zero, hRun] at hNone
      cases hNone
    | some halt =>
      cases fuel with
      | zero => cases hRun
      | succ fuel =>
        obtain ⟨n, hn, final₁, m₁, host₁, hStops⟩ := exists_stopsAt hHalted
        rw [hStops.run (Nat.lt_succ_of_le hn)] at hRun
        cases hRun
        exact ⟨n, Nat.lt_succ_of_le hn, hStops⟩
  · rintro ⟨n, hn, hStops⟩
    exact hStops.run hn

/-- A run leaves the machine and the host as that many steps leave them. -/
theorem run_state (m : Machine τ) (host : σ) (fuel : Nat) :
    (m.run fuel host).2 = m.after host fuel := by
  cases hHalted : (m.after host fuel).1.halted? with
  | none =>
    have hRunning := run_of_answers (fun k hk => answer_of_running hHalted hk) 0
    rw [Nat.add_zero] at hRunning
    rw [hRunning, run]
  | some halt =>
    cases fuel with
    | zero => rfl
    | succ fuel =>
      obtain ⟨n, hn, final, m', host', hStops⟩ := exists_stopsAt hHalted
      have hStopped : (m.after host (n + 1)).1.halted? = haltOf (final.map some) := by
        rw [after_succ_halted?, hStops.answer]
      rw [hStops.run (Nat.lt_succ_of_le hn), ← hStops.state]
      cases final <;> exact (after_of_halted? hStopped (Nat.succ_le_succ hn)).symm

theorem returns_iff :
    m.Returns host final m' host' ↔ ∃ n, m.StopsAt host n final m' host' := by
  constructor
  · rintro ⟨fuel, hRun⟩
    obtain ⟨n, -, hStops⟩ := run_eq_some_iff.1 hRun
    exact ⟨n, hStops⟩
  · rintro ⟨n, hStops⟩
    exact ⟨n + 1, hStops.run (Nat.lt_succ_self n)⟩

theorem returns_of_halted? {halt : Halt} (h : m.halted? = some halt) (host : σ) :
    m.Returns host (.ok halt) m host := by
  refine ⟨1, ?_⟩
  rw [run, step_of_halted? h]

/-- A run returns one result and leaves one state. -/
theorem Returns.unique {final₁ final₂ : Except Fault Halt} {m₁ m₂ : Machine τ} {host₁ host₂ : σ}
    (h₁ : m.Returns host final₁ m₁ host₁) (h₂ : m.Returns host final₂ m₂ host₂) :
    final₁ = final₂ ∧ m₁ = m₂ ∧ host₁ = host₂ := by
  obtain ⟨n₁, hStops₁⟩ := returns_iff.1 h₁
  obtain ⟨n₂, hStops₂⟩ := returns_iff.1 h₂
  have hRun := hStops₁.run (show n₁ < n₁ + n₂ + 1 by omega)
  rw [hStops₂.run (show n₂ < n₁ + n₂ + 1 by omega)] at hRun
  cases hRun
  exact ⟨rfl, rfl, rfl⟩

/-- A console without input, for runs of small programs. -/
def noInput : Host.Scripted :=
  .ofInput [] 0 0

end TapeMachine.Machine
