import TapeMachine.Proofs.Machine.Control
import TapeMachine.Proofs.Machine.Run

/-! Calls and the returns that match them.  A pending call and the calls below it stay at the bottom
of the stack until the call is returned from, whatever the instructions in between call and jump to,
and the return goes to the position after the call. -/

namespace TapeMachine.Machine

variable {τ σ : Type} [Host σ] [Trace.Sink τ] {m : Machine τ} {host : σ}

theorem step_of_executing?_call {target : Position} (h : m.executing? = some (.call target))
    (host : σ) : (m.step host).2.1.calls = m.pc :: m.calls := by
  rw [step_of_executing? h]
  simp [perform, Event.calls]

theorem step_of_idleReturn (h : m.executing? = some .ret) (hCalls : m.calls = []) (host : σ) :
    (m.step host).2.1.calls = [] ∧ (m.step host).2.1.pc = m.pc + 1 := by
  rw [step_of_executing? h]
  simp [perform, hCalls, Event.calls, Event.successor]

/-- A step keeps a pending call with all calls below it, or returns from that call. -/
theorem suffix_step {site : Nat} {rest : List Nat} (h : site :: rest <:+ m.calls) (host : σ) :
    site :: rest <:+ (m.step host).2.1.calls ∨
      (m.step host).2.1.calls = rest ∧ (m.step host).2.1.pc = site + 1 := by
  rcases m.step_flow host with ⟨-, hCalls⟩ | ⟨i, -, hFlow⟩
  · rw [hCalls]
    exact .inl h
  · generalize (m.step host).2.1.pc = pc at hFlow ⊢
    generalize (m.step host).2.1.calls = calls at hFlow ⊢
    cases hFlow with
    | next | jump | term => exact .inl h
    | call => exact .inl (h.trans (List.suffix_cons m.pc m.calls))
    | ret hCalls =>
      rw [hCalls] at h
      rcases List.suffix_cons_iff.1 h with hTop | hBelow
      · cases hTop
        exact .inr ⟨rfl, rfl⟩
      · exact .inl hBelow

/-- The first state with fewer pending calls than up to `site` is the one after the return from
there. -/
theorem return_of_depth {site : Nat} {rest : List Nat} {k : Nat} (h : site :: rest <:+ m.calls)
    (hDepth : (m.after host k).1.calls.length = rest.length)
    (hFirst : ∀ j < k, (m.after host j).1.calls.length ≠ rest.length) :
    (m.after host k).1.calls = rest ∧ (m.after host k).1.pc = site + 1 := by
  have hDeeper {calls : List Nat} (hSuffix : site :: rest <:+ calls) :
      calls.length ≠ rest.length := by
    have := hSuffix.length_le
    rw [List.length_cons] at this
    omega
  have hPending (j : Nat) (hj : j < k) : site :: rest <:+ (m.after host j).1.calls := by
    induction j with
    | zero => exact h
    | succ j ih =>
      rcases suffix_step (ih (Nat.lt_of_succ_lt hj)) (m.after host j).2 with hNext | ⟨hNext, -⟩
      · exact hNext
      · exact absurd (congrArg List.length hNext) (hFirst (j + 1) hj)
  cases k with
  | zero => exact absurd hDepth (hDeeper h)
  | succ k =>
    rcases suffix_step (hPending k (Nat.lt_succ_self k)) (m.after host k).2 with hNext | hNext
    · exact absurd hDepth (hDeeper hNext)
    · exact hNext

/-- When the stack is as deep again as before a call, for the first time, it is the same stack and
the counter is at the position after the call.  A return without a call to return from goes on to
the next position. -/
theorem return_after_call (m : Machine τ) (host : σ) :
    (∀ n k target, (m.after host n).1.executing? = some (.call target) → n < k →
      (m.after host k).1.calls.length = (m.after host n).1.calls.length →
      (∀ j < k, n < j →
        (m.after host j).1.calls.length ≠ (m.after host n).1.calls.length) →
      (m.after host k).1.calls = (m.after host n).1.calls ∧
        (m.after host k).1.pc = (m.after host n).1.pc + 1) ∧
    ∀ n, (m.after host n).1.executing? = some .ret → (m.after host n).1.calls = [] →
      (m.after host (n + 1)).1.calls = [] ∧
        (m.after host (n + 1)).1.pc = (m.after host n).1.pc + 1 := by
  refine ⟨fun n k target hCall hLater hDepth hFirst => ?_,
    fun n hReturn hCalls => step_of_idleReturn hReturn hCalls _⟩
  obtain ⟨k, rfl⟩ := Nat.exists_eq_add_of_lt hLater
  have hPushed : (m.after host (n + 1)).1.calls =
      (m.after host n).1.pc :: (m.after host n).1.calls :=
    step_of_executing?_call hCall _
  have hShift (j : Nat) :
      (m.after host (n + 1)).1.after (m.after host (n + 1)).2 j = m.after host (n + j + 1) := by
    rw [after_add, Nat.add_right_comm]
  have hPending : (m.after host n).1.pc :: (m.after host n).1.calls <:+
      (m.after host (n + 1)).1.calls :=
    ⟨[], hPushed.symm⟩
  rw [← hShift]
  refine return_of_depth hPending ?_ fun j hj => ?_
  · rw [hShift, hDepth]
  · rw [hShift]
    exact hFirst (n + j + 1) (by omega) (by omega)

/-- A program that returns from nowhere, calls a subroutine that calls another, and ends. -/
def callTwice : Program :=
  ⟨[.ret, .call (.ofPayload 3), .term, .call (.ofPayload 5), .ret, .ret],
    .ofList [("outer", 3), ("inner", 5)]⟩

/-- A small machine at the start of `callTwice`. -/
def beforeCalls : Machine Trace.Discard :=
  initial callTwice ⟨8, 1, none⟩ .mk

theorem return_after_call_callTwice :
    (beforeCalls.after noInput 1).1.executing? = some (.call (.ofPayload 3)) ∧
    (beforeCalls.after noInput 3).1.calls = [3, 1] ∧
    ((beforeCalls.after noInput 5).1.calls = (beforeCalls.after noInput 1).1.calls ∧
      (beforeCalls.after noInput 5).1.pc = (beforeCalls.after noInput 1).1.pc + 1) ∧
    (beforeCalls.after noInput 0).1.executing? = some .ret ∧
    ((beforeCalls.after noInput 1).1.calls = [] ∧
      (beforeCalls.after noInput 1).1.pc = (beforeCalls.after noInput 0).1.pc + 1) := by
  have hCall : (beforeCalls.after noInput 1).1.executing? = some (.call (.ofPayload 3)) := by
    decide +kernel
  have hNested : (beforeCalls.after noInput 3).1.calls = [3, 1] := by decide +kernel
  have hDepth : (beforeCalls.after noInput 5).1.calls.length =
      (beforeCalls.after noInput 1).1.calls.length := by
    decide +kernel
  have hFirst : ∀ j < 5, 1 < j → (beforeCalls.after noInput j).1.calls.length ≠
      (beforeCalls.after noInput 1).1.calls.length := by
    decide +kernel
  have hReturn : (beforeCalls.after noInput 0).1.executing? = some .ret := by decide +kernel
  obtain ⟨hMatched, hIdle⟩ := return_after_call beforeCalls noInput
  exact ⟨hCall, hNested, hMatched 1 5 _ hCall (by decide) hDepth hFirst, hReturn,
    hIdle 0 hReturn rfl⟩

end TapeMachine.Machine
