import TapeMachine.Proofs.Machine.Cells

/-! Arithmetic instructions.  The result of an operation is the exact integer result, wrapped to 64
bits (`toInt_of_apply?`), and quotient and remainder fit together as `Division` says.  The operands,
the pointers and the destination of an instruction are taken from the memory before it, whatever
cells they share, and only the cell of the destination changes (`arithmetic_writes_result`). -/

namespace TapeMachine

namespace Arithmetic

/-- The result of an operation on integers of any size.  Division goes toward zero and a remainder
has the sign of the dividend. -/
def onIntegers : Arithmetic → Int → Int → Int
  | add, x, y => x + y
  | sub, x, y => x - y
  | mul, x, y => x * y
  | div, x, y => x.tdiv y
  | mod, x, y => x.tmod y

/-- The quotient and the remainder of two numbers of 64 bits.  The one quotient that is too large
wraps to the least number. -/
inductive Division (x y : Int64) : Int64 → Int64 → Prop
  | overflow (hx : x = Int64.minValue) (hy : y = -1) : Division x y Int64.minValue 0
  | regular {q r : Int64} (hSum : x.toInt = q.toInt * y.toInt + r.toInt)
      (hLess : r.toInt.natAbs < y.toInt.natAbs)
      (hSign : r.toInt = 0 ∨ r.toInt.sign = x.toInt.sign) : Division x y q r

variable {operation : Arithmetic} {x y result : Int64}

theorem toInt_of_apply? (h : operation.apply? x y = some result) :
    result.toInt = (operation.onIntegers x.toInt y.toInt).bmod UInt64.size := by
  cases operation with
  | add =>
    cases h
    exact Int64.toInt_add x y
  | sub =>
    cases h
    exact Int64.toInt_sub x y
  | mul =>
    cases h
    exact Int64.toInt_mul x y
  | div =>
    obtain ⟨-, rfl⟩ : y ≠ 0 ∧ x / y = result := by simpa [ Arithmetic.apply?] using h
    exact Int64.toInt_div x y
  | mod =>
    obtain ⟨-, rfl⟩ : y ≠ 0 ∧ x % y = result := by simpa [ Arithmetic.apply?] using h
    -- A remainder is never wrapped.
    show (x % y).toInt = (x.toInt.tmod y.toInt).bmod UInt64.size
    rw [← Int64.toInt_mod]
    exact (Int64.toInt_bmod (x % y)).symm

theorem division_of_toInt_div (hy : y ≠ 0) (h : (x / y).toInt = x.toInt.tdiv y.toInt) :
    Division x y (x / y) (x % y) := by
  have hDivisor : y.toInt ≠ 0 := fun hZero => hy (Int64.toInt_inj.1 hZero)
  apply Division.regular
  · rw [h, Int64.toInt_mod, Int.tdiv_mul_add_tmod]
  · rw [Int64.toInt_mod, Int.natAbs_tmod]
    exact Nat.mod_lt _ (Int.natAbs_pos.2 hDivisor)
  · rw [Int64.toInt_mod, Int.sign_tmod]
    by_cases hDvd : y.toInt ∣ x.toInt
    · exact .inl (Int.tmod_eq_zero_of_dvd hDvd)
    · exact .inr (if_neg hDvd)

theorem division (x : Int64) (hy : y ≠ 0) : Division x y (x / y) (x % y) := by
  by_cases hMin : x = Int64.minValue
  · by_cases hOne : y = -1
    · subst hMin hOne
      rw [Int64.minValue_div_neg_one]
      exact .overflow rfl rfl
    · exact division_of_toInt_div hy (Int64.toInt_div_of_ne_right x y hOne)
  · exact division_of_toInt_div hy (Int64.toInt_div_of_ne_left x y hMin)

end Arithmetic

namespace Memory

variable {memory : Memory} {operand : Operand} {address : Int64}

/-- A reference that was followed has the address of its cell as its content. -/
theorem content?_of_resolve (h : memory.resolve operand = .ok address)
    (hReference : operand.isReference) :
    memory.content? operand.payload = some (memory.effective operand) := by
  rw [effective_of_resolve h]
  unfold resolve at h
  rw [if_pos hReference] at h
  exact load_eq_ok_iff.1 h

theorem resolve_of_source {r : Reading} (h : memory.source operand = .ok r) :
    memory.resolve operand = .ok r.address := by
  obtain ⟨address, hAddress, h⟩ := Outcome.bind_eq_ok_iff.1 h
  obtain ⟨value, -, ⟨⟩⟩ := Outcome.bind_eq_ok_iff.1 h
  exact hAddress

theorem content?_put (h : memory.InBounds address) (value : Int64) :
    Memory.content? (memory.put address value) address = some value := by
  have hBounds : (memory.put address value).InBounds address := by
    unfold Tape.InBounds
    rw [Tape.capacity_put]
    exact h
  unfold content?
  rw [Tape.get_of_inBounds hBounds, Tape.getElem?_put h]
  rfl

end Memory

namespace Machine

variable {τ σ : Type} [Host σ] [Trace.Sink τ] {m m' : Machine τ} {host host' : σ}

theorem exists_of_arithmetic {operation : Arithmetic} {a b dst : Operand} {halt? : Option Halt}
    (hExecuting : m.executing? = some (.arithmetic operation a b dst))
    (hStep : m.step host = (.ok halt?, m', host')) :
    ∃ (x y : Reading) (address result : Int64),
      m.values.source a = .ok x ∧ m.values.source b = .ok y ∧
      operation.apply? x.value y.value = some result ∧
      m.values.resolve dst = .ok address ∧ m.values.InBounds address ∧
      m'.values = m.values.put address result := by
  rcases hPerform : m.perform (.arithmetic operation a b dst) host with ⟨cause | event, host₁⟩
  · rw [step_of_executing? hExecuting, hPerform] at hStep
    cases hStep
  · have hValues := step_values_eq_commit hExecuting hPerform
    rw [hStep] at hValues
    cases performs_of_perform hPerform with
    | @arithmetic _ _ _ _ x y address result hA hB hResult hDst hCell =>
      rw [commit_values_of_write? rfl] at hValues
      exact ⟨x, y, address, result, hA, hB, hResult, hDst,
        Memory.inBounds_of_requireCell hCell, hValues⟩

/-- An arithmetic instruction that succeeds leaves its result in the cell that its destination means
and every other cell as it was.  The operands, the pointers and the destination are all those of the
memory before it.  The result is exact but for wrapping, and a quotient and a remainder make up the
dividend. -/
theorem arithmetic_writes_result {operation : Arithmetic} {a b dst : Operand} {halt? : Option Halt}
    (hExecuting : m.executing? = some (.arithmetic operation a b dst))
    (hStep : m.step host = (.ok halt?, m', host')) :
    ∃ x y result : Int64,
      (∀ operand ∈ [a, b, dst], operand.isReference →
        m.values.content? operand.payload = some (m.values.effective operand)) ∧
      m.values.content? (m.values.effective a) = some x ∧
      m.values.content? (m.values.effective b) = some y ∧
      m'.values.content? (m.values.effective dst) = some result ∧
      m'.values.capacity = m.values.capacity ∧
      (∀ p : Nat, (m.values.effective dst).toInt ≠ p → m'.values.cells[p]? = m.values.cells[p]?) ∧
      result.toInt = (operation.onIntegers x.toInt y.toInt).bmod UInt64.size ∧
      (operation = .div ∨ operation = .mod →
        ∃ q r, Arithmetic.Division x y q r ∧ result = if operation = .div then q else r) := by
  obtain ⟨x, y, address, result, hA, hB, hResult, hDst, hBounds, hValues⟩ :=
    exists_of_arithmetic hExecuting hStep
  obtain ⟨hAddressA, hContentA⟩ := Memory.effective_of_source hA
  obtain ⟨hAddressB, hContentB⟩ := Memory.effective_of_source hB
  rw [Memory.effective_of_resolve hDst, hValues]
  refine ⟨x.value, y.value, result, ?_, by rwa [hAddressA], by rwa [hAddressB],
    Memory.content?_put hBounds result, Tape.capacity_put _ _ _, ?_,
    Arithmetic.toInt_of_apply? hResult, ?_⟩
  · intro operand hOperand hReference
    simp only [List.mem_cons, List.not_mem_nil, or_false] at hOperand
    rcases hOperand with rfl | rfl | rfl
    · exact Memory.content?_of_resolve (Memory.resolve_of_source hA) hReference
    · exact Memory.content?_of_resolve (Memory.resolve_of_source hB) hReference
    · exact Memory.content?_of_resolve hDst hReference
  · intro p hOther
    exact Tape.getElem?_put_of_ne hOther result
  · rintro (rfl | rfl)
    · obtain ⟨hDivisor, rfl⟩ : y.value ≠ 0 ∧ x.value / y.value = result := by
        simpa [ Arithmetic.apply?] using hResult
      exact ⟨_, _, Arithmetic.division x.value hDivisor, rfl⟩
    · obtain ⟨hDivisor, rfl⟩ : y.value ≠ 0 ∧ x.value % y.value = result := by
        simpa [ Arithmetic.apply?] using hResult
      exact ⟨_, _, Arithmetic.division x.value hDivisor, rfl⟩

/-- A program that divides the least number by -1 and writes the quotient over the pointer to the
cell it is written to. -/
def divideOverPointer : Program :=
  ⟨[.set (-1) (.direct 0), .set Int64.minValue (.direct 1), .set 2 (.direct 2),
    .arithmetic .div (.direct 1) (.direct 0) (.reference 2)], .ofList []⟩

/-- A small machine at the start of `divideOverPointer`. -/
def beforeDivideOverPointer : Machine Trace.Discard :=
  initial divideOverPointer ⟨4, 3, none⟩ .mk

theorem arithmetic_writes_result_divideOverPointer :
    ∃ m host m' host', beforeDivideOverPointer.after noInput 3 = (m, host) ∧
      m.values = ⟨#[some (-1), some Int64.minValue, some 2]⟩ ∧
      m.executing? = some (.arithmetic .div (.direct 1) (.direct 0) (.reference 2)) ∧
      m.step host = (.ok none, m', host') ∧
      m'.values.content? 2 = some Int64.minValue ∧ m'.values.cells[0]? = m.values.cells[0]? ∧
      ∃ r, Arithmetic.Division Int64.minValue (-1) Int64.minValue r := by
  obtain ⟨m, host, hAfter⟩ : ∃ m host, beforeDivideOverPointer.after noInput 3 = (m, host) :=
    ⟨_, _, rfl⟩
  have hValues : (beforeDivideOverPointer.after noInput 3).1.values =
      ⟨#[some (-1), some Int64.minValue, some 2]⟩ := by
    decide +kernel
  have hExecuting : (beforeDivideOverPointer.after noInput 3).1.executing? =
      some (.arithmetic .div (.direct 1) (.direct 0) (.reference 2)) := by
    decide +kernel
  have hAnswer : beforeDivideOverPointer.answer noInput 3 = .ok none := by
    decide +kernel
  unfold answer at hAnswer
  rw [hAfter] at hValues hExecuting hAnswer
  rcases hStep : m.step host with ⟨result, m', host'⟩
  obtain rfl : result = .ok none := by rwa [hStep] at hAnswer
  obtain ⟨x, y, result, -, hX, hY, hCell, -, hOthers, hResult, hDivision⟩ :=
    arithmetic_writes_result hExecuting hStep
  dsimp only at hValues
  rw [hValues] at hX hY hCell hOthers
  obtain rfl : Int64.minValue = x := Option.some.inj (Eq.trans (by decide +kernel) hX)
  obtain rfl : -1 = y := Option.some.inj (Eq.trans (by decide +kernel) hY)
  obtain ⟨q, r, hDivides, hQuotient⟩ := hDivision (.inl rfl)
  obtain rfl : result = q := hQuotient
  obtain rfl : result = Int64.minValue := by
    apply Int64.toInt_inj.1
    rw [hResult]
    decide +kernel
  refine ⟨m, host, m', host', hAfter, hValues, hExecuting, hStep, hCell, ?_, r, hDivides⟩
  rw [hValues]
  exact hOthers 0 (by decide +kernel)

end Machine

end TapeMachine
