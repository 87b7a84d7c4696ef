import TapeMachine.Host.Scripted
import TapeMachine.Proofs.Machine.Commuting
import TapeMachine.Proofs.Tape

/-! Machines with more memory.  Every access of an instruction is the same on an enlarged memory,
unless it is out of bounds on the smaller one (`perform_enlarged`).  So a step that raises no such
fault commutes with enlarging the memory, and so does a run of such steps. -/

namespace TapeMachine

open Outcome

/-- The cause is an address outside the value tape. -/
def Fault.Cause.OutOfBounds (cause : Fault.Cause) : Prop :=
  ∃ address capacity, cause = .outOfBounds address capacity

namespace Memory

variable (memory : Memory) (capacity : Nat)

theorem load_enlarge (address : Int64) :
    SameUnless Fault.Cause.OutOfBounds (memory.load address)
      (load (memory.enlarge capacity) address) := by
  unfold load
  by_cases h : memory.InBounds address
  · rw [memory.read_enlarge capacity h]
    exact .same _
  · rw [Tape.read_of_not_inBounds h]
    exact .failed ⟨_, _, rfl⟩

theorem resolve_enlarge (operand : Operand) :
    SameUnless Fault.Cause.OutOfBounds (memory.resolve operand)
      (resolve (memory.enlarge capacity) operand) := by
  unfold resolve
  split
  · exact memory.load_enlarge capacity operand.payload
  · exact .same _

theorem source_enlarge (operand : Operand) :
    SameUnless Fault.Cause.OutOfBounds (memory.source operand)
      (source (memory.enlarge capacity) operand) := by
  apply SameUnless.bind (memory.resolve_enlarge capacity operand)
  intro address
  apply SameUnless.bind (memory.load_enlarge capacity address)
  intro value
  exact .same _

theorem requireCell_enlarge (address : Int64) :
    SameUnless Fault.Cause.OutOfBounds (memory.requireCell address)
      (requireCell (memory.enlarge capacity) address) := by
  unfold requireCell
  by_cases h : memory.InBounds address
  · rw [Tape.index_of_inBounds h, Tape.index_of_inBounds (memory.inBounds_enlarge capacity h)]
    exact .same _
  · rw [Tape.index_of_not_inBounds h]
    exact .failed ⟨_, _, rfl⟩

theorem destination_enlarge {α : Type} (dst : Operand) (result : Int64 → α) :
    SameUnless Fault.Cause.OutOfBounds
      (do
        let address ← memory.resolve dst
        memory.requireCell address
        return result address)
      (do
        let address ← resolve (memory.enlarge capacity) dst
        requireCell (memory.enlarge capacity) address
        return result address) := by
  apply SameUnless.bind (memory.resolve_enlarge capacity dst)
  intro address
  apply SameUnless.bind (memory.requireCell_enlarge capacity address)
  intro _
  exact .same _

end Memory

namespace Machine

variable {τ σ : Type}

/-- The machine with unset cells added to its memory, up to a greater capacity. -/
def enlarged (capacity : Nat) (m : Machine τ) : Machine τ :=
  { m with
    values := m.values.enlarge capacity
    config := { m.config with values := capacity } }

theorem refit_enlarged [Trace.Sink τ] (capacity : Nat) :
    Refit (enlarged capacity : Machine τ → Machine τ) where
  pc _ := rfl
  cycles _ := rfl
  limit? _ := rfl
  halted? _ := rfl
  halt _ _ := rfl
  count _ _ := rfl
  report m i event := by
    unfold report enlarged
    split <;> rfl

variable [Host σ]

/-- An instruction does the same with more memory, unless it fails out of bounds. -/
theorem perform_enlarged (m : Machine τ) (capacity : Nat) (i : Instruction) (host : σ) :
    (∃ cause, (m.perform i host).1 = .error cause ∧ cause.OutOfBounds) ∨
      (m.enlarged capacity).perform i host = m.perform i host := by
  -- Instructions that do not use the host are computations on the memory alone.
  have hLast {x y : Except Fault.Cause Event} {host : σ}
      (h : SameUnless Fault.Cause.OutOfBounds x y) :
      (∃ cause, (x, host).1 = .error cause ∧ cause.OutOfBounds) ∨ (y, host) = (x, host) := by
    rcases SameUnless.iff_or.1 h with hFailed | rfl
    · exact .inl hFailed
    · exact .inr rfl
  cases i with
  | set value dst => exact hLast (m.values.destination_enlarge capacity dst _)
  | mov src dst =>
    apply hLast
    apply SameUnless.bind (m.values.source_enlarge capacity src)
    intro reading
    exact m.values.destination_enlarge capacity dst _
  | time dst =>
    rcases SameUnless.iff_or.1 (m.values.resolve_enlarge capacity dst) with ⟨e, hDst, he⟩ | hDst
    · exact .inl ⟨e, by simp only [perform, hDst], he⟩
    · simp only [perform, enlarged, ← hDst]
      cases m.values.resolve dst with
      | error cause => exact .inr rfl
      | ok address => exact hLast ((m.values.requireCell_enlarge capacity address).map _)
  | input dst =>
    rcases SameUnless.iff_or.1 (m.values.resolve_enlarge capacity dst) with ⟨e, hDst, he⟩ | hDst
    · exact .inl ⟨e, by simp only [perform, hDst], he⟩
    · simp only [perform, enlarged, ← hDst]
      cases m.values.resolve dst with
      | error cause => exact .inr rfl
      | ok address =>
        rcases Host.readLine host with ⟨reason | line, host'⟩
        · exact .inr rfl
        · dsimp only
          cases Numeral.int64? (Text.trim line) with
          | none => exact .inr rfl
          | some value => exact hLast ((m.values.requireCell_enlarge capacity address).map _)
  | output src =>
    rcases SameUnless.iff_or.1 (m.values.source_enlarge capacity src) with ⟨e, hSrc, he⟩ | hSrc
    · exact .inl ⟨e, by simp only [perform, hSrc], he⟩
    · exact .inr (by simp only [perform, enlarged, ← hSrc])
  | arithmetic operation a b dst =>
    apply hLast
    apply SameUnless.bind (m.values.source_enlarge capacity a)
    intro x
    apply SameUnless.bind (m.values.source_enlarge capacity b)
    intro y
    split
    · exact .same _
    · exact m.values.destination_enlarge capacity dst _
  | branch condition a b target =>
    apply hLast
    apply SameUnless.bind (m.values.source_enlarge capacity a)
    intro x
    apply SameUnless.bind (m.values.source_enlarge capacity b)
    intro y
    exact .same _
  | jump target | call target | ret | term => exact .inr rfl

/-! ### Steps -/

variable [Trace.Sink τ]

/-- The number of cells never changes. -/
theorem step_capacity (m : Machine τ) (host : σ) :
    (m.step host).2.1.values.capacity = m.values.capacity := by
  have hOutcome := m.step_outcome host
  generalize m.step host = outcome at hOutcome ⊢
  cases hOutcome with
  | stopped | ended | limited | faulted => rfl
  | @executed i event _ _ _ =>
    show ((m.report i event).commit event).values.capacity = m.values.capacity
    unfold commit
    rw [report_values]
    cases event.write? with
    | none => rfl
    | some write => exact Tape.capacity_put _ _ _

/-- A step that is not out of bounds does not notice more memory. -/
theorem commutes_enlarged {m : Machine τ} {host : σ} (capacity : Nat)
    (hBounds : ∀ fault, (m.step host).1 = .error fault → ¬fault.cause.OutOfBounds) :
    Commutes (enlarged capacity) m host := by
  refine (refit_enlarged capacity).commutes rfl (fun i hExecuting => ?_)
    fun i event host' hPerforms => ?_
  · rcases m.perform_enlarged capacity i host with ⟨cause, hFailed, hCause⟩ | hSame
    · refine absurd hCause (hBounds ⟨m.pc, i.mnemonic, cause⟩ ?_)
      rw [step_of_executing? hExecuting]
      rcases hPerform : m.perform i host with ⟨result, host'⟩
      obtain rfl : result = .error cause := by rwa [hPerform] at hFailed
      rfl
    · exact hSame
  · unfold commit enlarged
    rw [report_values]
    cases hWrite : event.write? with
    | none => rfl
    | some write =>
      -- The address was checked on the smaller tape.
      simp only [m.values.put_enlarge capacity (hPerforms.write_inBounds hWrite)]

/-- A program on a machine with more memory is compared with the program on a machine with less.
Loading fails alike.  As long as the smaller machine raises no fault for an address outside its
memory, the steps give the same results and leave the same host and the same machine but for its
memory.  That has the same cells at the addresses of the smaller one, and its others are unset. -/
theorem run_with_more_memory {program : Program} {config : Config} {capacity : Nat}
    (hMore : config.values ≤ capacity) (trace : τ) :
    (∀ fault, load program config trace = .error fault →
      load program { config with values := capacity } trace = .error fault) ∧
    ∀ small, load program config trace = .ok small →
      ∃ large, load program { config with values := capacity } trace = .ok large ∧
      ∀ (host : σ) (n : Nat),
        (∀ k < n, ∀ fault, small.answer host k = .error fault → ¬fault.cause.OutOfBounds) →
        (∀ k < n, large.answer host k = small.answer host k) ∧
        ∃ m m' host', small.after host n = (m, host') ∧ large.after host n = (m', host') ∧
          m'.pc = m.pc ∧ m'.cycles = m.cycles ∧ m'.profile = m.profile ∧ m'.calls = m.calls ∧
          m'.halted? = m.halted? ∧ m'.trace = m.trace ∧
          (∀ p < config.values, m'.values.cells[p]? = m.values.cells[p]?) ∧
          ∀ p, config.values ≤ p → p < capacity → m'.values.cells[p]? = some none := by
  refine ⟨fun fault hFault => load_eq_error_iff.2 (load_eq_error_iff.1 hFault :),
    fun small hSmall => ?_⟩
  obtain ⟨hFits, rfl⟩ := load_eq_ok_iff.1 hSmall
  have hLarge : enlarged capacity (initial program config trace) =
      initial program { config with values := capacity } trace := by
    unfold enlarged initial
    rw [Tape.enlarge_blank hMore]
  refine ⟨enlarged capacity (initial program config trace), load_eq_ok_iff.2 ⟨hFits, hLarge⟩,
    fun host n hBounds => ?_⟩
  have hSteps (k : Nat) (hk : k < n) : Commutes (enlarged capacity)
      ((initial program config trace).after host k).1
      ((initial program config trace).after host k).2 :=
    commutes_enlarged capacity (hBounds k hk)
  have hSize : ((initial program config trace).after host n).1.values.capacity =
      config.values :=
    after_induction (P := fun m => m.values.capacity = config.values) host
      Array.size_replicate
      (fun m host h => (m.step_capacity host).trans h) n
  refine ⟨fun k hk => answer_of_commutes fun j hj => hSteps j (Nat.lt_of_le_of_lt hj hk),
    _, _, _, rfl, after_of_commutes hSteps, rfl, rfl, rfl, rfl, rfl, rfl, fun p hp => ?_,
    fun p hLow hHigh => ?_⟩
  · exact Tape.getElem?_enlarge _ capacity (hSize ▸ hp)
  · exact Tape.getElem?_enlarge_of_le _ capacity (hSize ▸ hLow) hHigh

/-- A program that writes to a cell, and from it, through the address in another cell. -/
def writeThrough : Program :=
  ⟨[.set 1 (.direct 0), .set 7 (.reference 0), .output (.reference 0)], .ofList []⟩

/-- A small machine at the start of `writeThrough`, with a trace. -/
def beforeWriteThrough (values : Nat) : Machine Trace.Memory :=
  initial writeThrough ⟨4, values, none⟩ ⟨#[]⟩

/-- Two cells are enough for `writeThrough`, so with five it does the same. -/
theorem run_with_more_memory_writeThrough :
    load writeThrough ⟨4, 2, none⟩ (Trace.Memory.mk #[]) = .ok (beforeWriteThrough 2) ∧
    (∀ k < 4, ∀ fault, (beforeWriteThrough 2).answer noInput k = .error fault →
      ¬fault.cause.OutOfBounds) ∧
    ∃ large m m' host',
      load writeThrough ⟨4, 5, none⟩ (Trace.Memory.mk #[]) = .ok large ∧
      (beforeWriteThrough 2).after noInput 4 = (m, host') ∧
      large.after noInput 4 = (m', host') ∧ host'.output = #["7"] ∧ m'.cycles = 3 ∧
      m'.trace = m.trace ∧ m'.values.cells[1]? = some (some 7) ∧
      m'.values.cells[4]? = some none := by
  have hLoad : load writeThrough ⟨4, 2, none⟩ (Trace.Memory.mk #[]) = .ok (beforeWriteThrough 2) :=
    load_eq_ok_iff.2 ⟨show writeThrough.length ≤ 4 by decide, rfl⟩
  have hAnswers : ∀ k < 4, ((beforeWriteThrough 2).answer noInput k).isOk = true := by
    decide +kernel
  have hBounds : ∀ k < 4, ∀ fault, (beforeWriteThrough 2).answer noInput k = .error fault →
      ¬fault.cause.OutOfBounds := by
    intro k hk fault hFault
    have hOk := hAnswers k hk
    rw [hFault] at hOk
    cases hOk
  have hOutput : ((beforeWriteThrough 2).after noInput 4).2.output = #["7"] := by decide +kernel
  have hCell : ((beforeWriteThrough 2).after noInput 4).1.values.cells[1]? = some (some 7) := by
    decide +kernel
  have hThree : ((beforeWriteThrough 2).after noInput 4).1.cycles = 3 := by decide +kernel
  obtain ⟨large, hLarge, hSame⟩ :=
    (run_with_more_memory (σ := Host.Scripted) (show 2 ≤ 5 by decide) (Trace.Memory.mk #[])).2 _
      hLoad
  obtain ⟨-, m, m', host', hSmall, hAfter, -, hCycles, -, -, -, hTrace, hBelow, hAbove⟩ :=
    hSame noInput 4 hBounds
  rw [hSmall] at hOutput hCell hThree
  exact ⟨hLoad, hBounds, large, m, m', host', hLarge, hSmall, hAfter, hOutput, hCycles.trans hThree,
    hTrace, (hBelow 1 (by decide)).trans hCell, hAbove 4 (by decide) (by decide)⟩

end Machine

end TapeMachine
