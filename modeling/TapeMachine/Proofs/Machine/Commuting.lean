import TapeMachine.Proofs.Machine.Run

/-! Changes of a machine that its steps do not notice.  A change commutes with a step when the step
of the changed machine gives the same result and the same host, and leaves the changed machine of
the step (`Commutes`).  A change that commutes with every step of a run commutes with the run.
`Refit.commutes` covers the changes that keep all but the tapes and their sizes. -/

namespace TapeMachine.Machine

variable {τ σ : Type} [Host σ] [Trace.Sink τ] {f : Machine τ → Machine τ} {m : Machine τ} {host : σ}

/-- The change `f` commutes with the next step. -/
def Commutes (f : Machine τ → Machine τ) (m : Machine τ) (host : σ) : Prop :=
  (f m).step host = ((m.step host).1, f (m.step host).2.1, (m.step host).2.2)

/-! ### Steps one after another -/

theorem after_of_commutes {n : Nat}
    (h : ∀ k < n, Commutes f (m.after host k).1 (m.after host k).2) :
    (f m).after host n = (f (m.after host n).1, (m.after host n).2) := by
  induction n with
  | zero => rfl
  | succ n ih =>
    have hLast : Commutes f (m.after host n).1 (m.after host n).2 := h n (Nat.lt_succ_self n)
    rw [after, ih fun k hk => h k (Nat.lt_succ_of_lt hk), hLast, after]

theorem answer_of_commutes {n : Nat}
    (h : ∀ k ≤ n, Commutes f (m.after host k).1 (m.after host k).2) :
    (f m).answer host n = m.answer host n := by
  have hLast : Commutes f (m.after host n).1 (m.after host n).2 := h n (Nat.le_refl n)
  unfold answer
  rw [after_of_commutes fun k hk => h k (Nat.le_of_lt hk), hLast]

theorem run_of_commutes (h : ∀ k, Commutes f (m.after host k).1 (m.after host k).2) (fuel : Nat) :
    (f m).run fuel host =
      ((m.run fuel host).1, f (m.run fuel host).2.1, (m.run fuel host).2.2) := by
  induction fuel generalizing m host with
  | zero => rfl
  | succ fuel ih =>
    have hFirst : Commutes f m host := h 0
    have hLater (k : Nat) : Commutes f ((m.step host).2.1.after (m.step host).2.2 k).1
        ((m.step host).2.1.after (m.step host).2.2 k).2 := by
      have hShift : (m.step host).2.1.after (m.step host).2.2 k = m.after host (1 + k) :=
        m.after_add host 1 k
      rw [hShift]
      exact h (1 + k)
    have hRest := ih hLater
    rw [run, run, hFirst]
    rcases hStep : m.step host with ⟨fault | halt | none, m', host'⟩
    · rfl
    · rw [hStep] at hRest
      exact hRest
    · rfl

/-! ### Changes of the tapes -/

/-- A change that keeps everything but the tapes and their sizes. -/
structure Refit (f : Machine τ → Machine τ) : Prop where
  pc : ∀ m, (f m).pc = m.pc
  cycles : ∀ m, (f m).cycles = m.cycles
  limit? : ∀ m, (f m).config.limit? = m.config.limit?
  halted? : ∀ m, (f m).halted? = m.halted?
  halt : ∀ m halt, { f m with halted? := some halt } = f { m with halted? := some halt }
  count : ∀ m i, (f m).count i = f (m.count i)
  report : ∀ m i event, (f m).report i event = f (m.report i event)

/-- A change of the tapes commutes with a step if the instruction at the counter, what it does and
the write that follows are the same. -/
theorem Refit.commutes (h : Refit f) (hCurrent : (f m).current? = m.current?)
    (hPerform : ∀ i, m.executing? = some i → (f m).perform i host = m.perform i host)
    (hCommit : ∀ i event host', Performs m host i event host' →
      (f (m.report i event)).commit event = f ((m.report i event).commit event)) :
    Commutes f m host := by
  unfold Commutes
  cases hHalted : m.halted? with
  | some halt =>
    have hHalted' : (f m).halted? = some halt := by rw [h.halted?, hHalted]
    rw [step_of_halted? hHalted, step_of_halted? hHalted']
  | none =>
    have hHalted' : (f m).halted? = none := by rw [h.halted?, hHalted]
    have hLimit' : (f m).config.limit?.filter (· ≤ (f m).cycles) =
        m.config.limit?.filter (· ≤ m.cycles) := by
      rw [h.limit?, h.cycles]
    cases hAt : m.current? with
    | none =>
      rw [hAt] at hCurrent
      rw [step_of_current?_eq_none hHalted hAt, step_of_current?_eq_none hHalted' hCurrent, h.halt]
    | some i =>
      rw [hAt] at hCurrent
      cases hLimit : m.config.limit?.filter (· ≤ m.cycles) with
      | some limit =>
        rw [hLimit] at hLimit'
        rw [step_of_limit hHalted hAt hLimit, step_of_limit hHalted' hCurrent hLimit', h.halt, h.pc]
      | none =>
        rw [hLimit] at hLimit'
        have hExecuting := executing?_eq_some_iff.2 ⟨hHalted, hLimit, hAt⟩
        have hExecuting' := executing?_eq_some_iff.2 ⟨hHalted', hLimit', hCurrent⟩
        rw [step_of_executing? hExecuting, step_of_executing? hExecuting', hPerform i hExecuting]
        rcases hDone : m.perform i host with ⟨cause | event, host'⟩
        · have hFault : { (f m).count i with halted? := some .faulted } =
              f { m.count i with halted? := some .faulted } := by
            rw [h.count, h.halt]
          simp only [hFault, h.pc]
        · simp only [h.report, hCommit i event host' (performs_of_perform hDone), h.count,
            h.halted?]

end TapeMachine.Machine
