import TapeMachine.Proofs.Machine.Arithmetic
import TapeMachine.Proofs.Machine.Checks

/-! What a step leaves as it was.  An instruction that succeeds puts a value in the cell that its
destination means in the memory before it (`exists_put_of_destination`), and no step changes a cell
that it does not write (`getElem?_step`), nor do any steps together (`getElem?_after`).  A branch
touches neither the cells nor the calls, and goes to its target when its comparison holds of the two
values as signed integers (`step_branch`). -/

namespace TapeMachine

namespace Comparison

/-- Whether a comparison of two integers of any size holds. -/
def onIntegers : Comparison → Int → Int → Bool
  | greater, x, y => y < x
  | equal, x, y => x = y
  | less, x, y => x < y

theorem holds_eq_onIntegers (condition : Comparison) (x y : Int64) :
    condition.holds x y = condition.onIntegers x.toInt y.toInt := by
  cases condition with
  | greater | less => exact decide_eq_decide.2 Int64.lt_iff_toInt_lt
  | equal => exact decide_eq_decide.2 Int64.toInt_inj.symm

end Comparison

namespace Machine

variable {τ σ : Type} [Host σ] [Trace.Sink τ] {m m' : Machine τ} {host host' : σ}

/-! ### Cells -/

theorem Writes.unique {p q : Nat} (hp : m.Writes host p) (hq : m.Writes host q) : p = q := by
  obtain ⟨i, dst, hExecuting, -, hDst, hTo⟩ := hp
  obtain ⟨_, _, hExecuting', -, hDst', hTo'⟩ := hq
  rw [hExecuting] at hExecuting'
  cases hExecuting'
  rw [hDst] at hDst'
  cases hDst'
  omega

theorem getElem?_step {p : Nat} (h : ¬m.Writes host p) :
    (m.step host).2.1.values.cells[p]? = m.values.cells[p]? := by
  rcases m.step_values host with ⟨hSame, -⟩ | ⟨target, value, -, hPut, hWrites⟩
  · rw [hSame]
  · rw [hPut]
    exact Tape.getElem?_put_of_ne (fun hTo => h ((hWrites p).2 hTo)) value

theorem step_values_of_not_writes (h : ∀ p, ¬m.Writes host p) :
    (m.step host).2.1.values = m.values := by
  rcases m.step_values host with ⟨hSame, -⟩ | ⟨target, _, hBounds, -, hWrites⟩
  · exact hSame
  · exact absurd ((hWrites target.toInt.toNat).2 (Int.toNat_of_nonneg hBounds.1).symm) (h _)

theorem getElem?_after {m : Machine τ} {host : σ} {p n : Nat}
    (h : ∀ k < n, ¬(m.after host k).1.Writes (m.after host k).2 p) :
    (m.after host n).1.values.cells[p]? = m.values.cells[p]? := by
  induction n with
  | zero => rfl
  | succ n ih =>
    rw [after, getElem?_step (h n (Nat.lt_succ_self n))]
    exact ih fun k hk => h k (Nat.lt_succ_of_lt hk)

theorem isSet_after_of_isSet {p : Nat} (h : m.values.IsSet p) (host : σ) (n : Nat) :
    (m.after host n).1.values.IsSet p := by
  apply after_induction (P := fun m => m.values.IsSet p) host h
  intro m host hSet
  exact isSet_step (.inl hSet)

/-- An instruction that succeeds and has a destination puts a value in the cell that its payload
names or, for a reference, in the cell whose address stood there. -/
theorem exists_put_of_destination {i : Instruction} {dst : Operand}
    (hExecuting : m.executing? = some i) (hOk : (m.step host).1.isOk)
    (hDst : i.destination? = some dst) :
    m.values.resolve dst = .ok (m.values.effective dst) ∧
      m.values.InBounds (m.values.effective dst) ∧
      ∃ value, (m.step host).2.1.values = m.values.put (m.values.effective dst) value := by
  rcases hPerform : m.perform i host with ⟨cause | event, host'⟩
  · rw [step_of_executing? hExecuting, hPerform] at hOk
    cases hOk
  · rw [step_values_eq_commit hExecuting hPerform]
    cases performs_of_perform hPerform with
    | set hResolve hCell | mov _ hResolve hCell | time hResolve hCell | input hResolve _ _ hCell
    | arithmetic _ _ _ hResolve hCell =>
      cases hDst
      rw [Memory.effective_of_resolve hResolve]
      exact ⟨hResolve, Memory.inBounds_of_requireCell hCell, _, commit_values_of_write? rfl⟩
    | _ => cases hDst

/-! ### Branches -/

/-- A branch keeps the calls.  If it succeeds, its comparison of the two values decides where it
goes. -/
theorem step_branch {condition : Comparison} {a b : Operand} {target : Position}
    (hExecuting : m.executing? = some (.branch condition a b target)) :
    (m.step host).2.1.calls = m.calls ∧
    ((m.step host).1.isOk → ∃ x y : Int64,
      m.values.content? (m.values.effective a) = some x ∧
      m.values.content? (m.values.effective b) = some y ∧
      (m.step host).2.1.pc =
        if condition.onIntegers x.toInt y.toInt then target.val else m.pc + 1) := by
  rw [step_of_executing? hExecuting]
  rcases hPerform : m.perform (.branch condition a b target) host with ⟨cause | event, host'⟩
  · exact ⟨rfl, nofun⟩
  · cases performs_of_perform hPerform with
    | @branch _ _ _ x y _ hA hB =>
      obtain ⟨hAddressA, hContentA⟩ := Memory.effective_of_source hA
      obtain ⟨hAddressB, hContentB⟩ := Memory.effective_of_source hB
      refine ⟨by simp [Event.calls], fun _ => ⟨x.value, y.value, ?_, ?_, ?_⟩⟩
      · rw [hAddressA, hContentA]
      · rw [hAddressB, hContentB]
      · rw [← Comparison.holds_eq_onIntegers]
        simp only [count_pc, commit_pc, report_pc]
        cases condition.holds x.value y.value <;> rfl

/-! ### All instructions -/

/-- A step keeps the capacity of the memory and the cells that are set.  At most one cell changes:
the one that the destination of an instruction that succeeds means in the memory before the step.  A
step that executes no instruction with a destination, or fails, changes none.  A branch keeps the
calls, and goes to its target if the comparison of its two values as signed integers holds and to
the next position if not.  Any number of steps keeps the capacity, the cells that are set and the
content of the cells that none of them writes. -/
theorem step_changes_destination_only {result : Except Fault (Option Halt)}
    (hStep : m.step host = (result, m', host')) :
    m'.values.capacity = m.values.capacity ∧
    (∀ p : Nat, m.values.IsSet p → m'.values.IsSet p) ∧
    (∀ p q : Nat, m'.values.cells[p]? ≠ m.values.cells[p]? →
      m'.values.cells[q]? ≠ m.values.cells[q]? → p = q) ∧
    (∀ i dst, m.executing? = some i → result.isOk → i.destination? = some dst →
      (if dst.isReference then m.values.content? dst.payload = some (m.values.effective dst)
        else m.values.effective dst = dst.payload) ∧
      (m'.values.content? (m.values.effective dst)).isSome ∧
      ∀ p : Nat, (m.values.effective dst).toInt ≠ p →
        m'.values.cells[p]? = m.values.cells[p]?) ∧
    ((∀ i, m.executing? = some i → i.destination? = none) ∨ result.isOk = false →
      m'.values = m.values) ∧
    (∀ condition a b target, m.executing? = some (.branch condition a b target) →
      m'.calls = m.calls ∧
      (result.isOk → ∃ x y : Int64,
        m.values.content? (m.values.effective a) = some x ∧
        m.values.content? (m.values.effective b) = some y ∧
        m'.pc = if condition.onIntegers x.toInt y.toInt then target.val else m.pc + 1)) ∧
    ∀ n, (m.after host n).1.values.capacity = m.values.capacity ∧
      ∀ p : Nat, (m.values.IsSet p → (m.after host n).1.values.IsSet p) ∧
        ((∀ k < n, ¬(m.after host k).1.Writes (m.after host k).2 p) →
          (m.after host n).1.values.cells[p]? = m.values.cells[p]?) := by
  obtain rfl : (m.step host).2.1 = m' := by rw [hStep]
  obtain rfl : (m.step host).1 = result := by rw [hStep]
  refine ⟨m.step_capacity host, fun p hSet => isSet_step (.inl hSet), ?_, ?_, ?_, ?_, ?_⟩
  · -- A cell that differs has been written, and a step writes one cell.
    intro p q hp hq
    have hWrites {p : Nat} (h : (m.step host).2.1.values.cells[p]? ≠ m.values.cells[p]?) :
        m.Writes host p :=
      by_contra fun hNot => h (getElem?_step hNot)
    exact (hWrites hp).unique (hWrites hq)
  · intro i dst hExecuting hOk hDst
    obtain ⟨hResolve, hBounds, value, hPut⟩ := exists_put_of_destination hExecuting hOk hDst
    rw [hPut, Memory.content?_put hBounds]
    refine ⟨?_, rfl, fun p hOther => Tape.getElem?_put_of_ne hOther value⟩
    split
    case isTrue hReference => exact Memory.content?_of_resolve hResolve hReference
    case isFalse hDirect => exact if_neg hDirect
  · intro hNothing
    apply step_values_of_not_writes
    rintro p ⟨i, dst, hExecuting, hOk, hDst, -⟩
    rcases hNothing with hNone | hFailed
    · rw [hNone i hExecuting] at hDst
      cases hDst
    · rw [hFailed] at hOk
      cases hOk
  · intro condition a b target hExecuting
    exact step_branch hExecuting
  · intro n
    exact ⟨m.after_capacity host n, fun p => ⟨fun hSet => isSet_after_of_isSet hSet host n,
      getElem?_after⟩⟩

/-- A program that writes through a cell to one that holds an address too, and then branches on the
two. -/
def pointOnce : Program :=
  ⟨[.set 1 (.direct 0), .set 2 (.direct 1), .set (-7) (.reference 0),
    .branch .greater (.direct 0) (.direct 1) 0], .ofList []⟩

/-- A machine with three cells at the start of `pointOnce`. -/
def beforePointOnce : Machine Trace.Discard :=
  initial pointOnce ⟨4, 3, none⟩ .mk

/-- The write changes the cell that the pointer names and not the one that this cell named; the
branch after it is taken because -7 is less than 1. -/
theorem step_changes_destination_only_pointOnce :
    ∃ m host m₁ host₁ m₂ host₂, beforePointOnce.after noInput 2 = (m, host) ∧
      m.values = ⟨#[some 1, some 2, none]⟩ ∧ m.step host = (.ok none, m₁, host₁) ∧
      m₁.values.cells[0]? = m.values.cells[0]? ∧ m₁.values.cells[2]? = m.values.cells[2]? ∧
      (m₁.values.content? 1).isSome ∧
      m₁.step host₁ = (.ok none, m₂, host₂) ∧ m₂.values = m₁.values ∧ m₂.calls = m₁.calls ∧
      m₂.pc = 0 := by
  have hStep (n : Nat) (h : beforePointOnce.answer noInput n = .ok none) :
      (beforePointOnce.after noInput n).1.step (beforePointOnce.after noInput n).2 =
        (.ok none, (beforePointOnce.after noInput (n + 1)).1,
          (beforePointOnce.after noInput (n + 1)).2) :=
    Prod.ext h rfl
  have hWrite := hStep 2 (by decide +kernel)
  have hBranch := hStep 3 (by decide +kernel)
  have hWriting : (beforePointOnce.after noInput 2).1.executing? =
      some (.set (-7) (.reference 0)) := by
    decide +kernel
  have hBranching : (beforePointOnce.after noInput 3).1.executing? =
      some (.branch .greater (.direct 0) (.direct 1) 0) := by
    decide +kernel
  have hMeans : (beforePointOnce.after noInput 2).1.values.effective (.reference 0) = 1 := by
    decide +kernel
  obtain ⟨-, -, -, hDestination, -⟩ := step_changes_destination_only hWrite
  obtain ⟨-, hSet, hOthers⟩ := hDestination _ _ hWriting rfl rfl
  rw [hMeans] at hSet hOthers
  obtain ⟨-, -, -, -, hSame, hGoes, -⟩ := step_changes_destination_only hBranch
  obtain ⟨hCalls, hTaken⟩ := hGoes _ _ _ _ hBranching
  obtain ⟨x, y, hX, hY, hPc⟩ := hTaken rfl
  obtain rfl : 1 = x := Option.some.inj (Eq.trans (by decide +kernel) hX)
  obtain rfl : -7 = y := Option.some.inj (Eq.trans (by decide +kernel) hY)
  refine ⟨_, _, _, _, _, _, rfl, by decide +kernel, hWrite, hOthers 0 (by decide),
    hOthers 2 (by decide), hSet, hBranch, hSame (.inl ?_), hCalls, hPc⟩
  intro i hExecuting
  rw [hBranching] at hExecuting
  cases hExecuting
  rfl

end Machine

end TapeMachine
