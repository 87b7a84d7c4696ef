import TapeMachine.Proofs.Machine.Run

/-! Which cell an operand means and what steps do to the cells.  A step that succeeds writes the
cell that its destination means and no other, and every other step writes none (`step_values`).  So
a cell that is unset in a state was not written by any step before it (`not_writes_of_isUnset`). -/

namespace TapeMachine

/-! ### Operands -/

namespace Memory

section Views

variable (memory : Memory)

/-- The content of a cell; none if the address is not on the tape or the cell is unset. -/
def content? (address : Int64) : Option Int64 :=
  (memory.get address).toOption.join

/-- The cell that an operand means: the one that its payload names or, for a reference, the one
whose address stands there (0 if nothing does). -/
def effective (operand : Operand) : Int64 :=
  if operand.isReference then (memory.content? operand.payload).getD 0 else operand.payload

/-- The line that shows the content of the cell that an operand means. -/
def shown (operand : Operand) : String :=
  Numeral.ofInt64 ((memory.content? (memory.effective operand)).getD 0)

/-- The cell with this number is on the tape and unset. -/
def IsUnset (address : Nat) : Prop :=
  memory.cells[address]? = some none

/-- The cell with this number is set. -/
def IsSet (address : Nat) : Prop :=
  ∃ value, memory.cells[address]? = some (some value)

end Views

variable {memory : Memory} {address value : Int64} {operand : Operand}

theorem load_eq_ok_iff :
    memory.load address = .ok value ↔ memory.content? address = some value := by
  unfold load content?
  rw [Outcome.mapError_eq_ok_iff, Tape.read_eq]
  rcases memory.get address with e | _ | content <;> simp [Except.toOption]

theorem effective_of_resolve (h : memory.resolve operand = .ok address) :
    memory.effective operand = address := by
  unfold resolve at h
  unfold effective
  split at h
  case isTrue hReference => rw [if_pos hReference, load_eq_ok_iff.1 h, Option.getD_some]
  case isFalse hDirect =>
    cases h
    exact if_neg hDirect

theorem effective_of_source {r : Reading} (h : memory.source operand = .ok r) :
    memory.effective operand = r.address ∧ memory.content? r.address = some r.value := by
  obtain ⟨address, hAddress, h⟩ := Outcome.bind_eq_ok_iff.1 h
  obtain ⟨value, hValue, ⟨⟩⟩ := Outcome.bind_eq_ok_iff.1 h
  exact ⟨effective_of_resolve hAddress, load_eq_ok_iff.1 hValue⟩

theorem shown_of_source {r : Reading} (h : memory.source operand = .ok r) :
    memory.shown operand = Numeral.ofInt64 r.value := by
  obtain ⟨hEffective, hContent⟩ := effective_of_source h
  unfold shown
  rw [hEffective, hContent, Option.getD_some]

end Memory

/-- The operand that names the cell to write. -/
def Instruction.destination? : Instruction → Option Operand
  | set _ dst | mov _ dst | time dst | input dst | arithmetic _ _ _ dst => some dst
  | output _ | jump _ | branch _ _ _ _ | call _ | ret | term => none

/-! ### Steps -/

namespace Machine

variable {τ σ : Type} {m : Machine τ}

theorem commit_values_of_write? {event : Event} {address value : Int64}
    (h : event.write? = some (address, value)) :
    (m.commit event).values = m.values.put address value := by
  unfold commit
  rw [h]

variable [Host σ] {host : σ}

theorem Performs.write?_address {i : Instruction} {event : Event} {host' : σ}
    (h : Performs m host i event host') :
    event.write?.map Prod.fst = i.destination?.map m.values.effective := by
  cases h with
  | set hDst | mov _ hDst | time hDst | input hDst | arithmetic _ _ _ hDst =>
    exact congrArg some (Memory.effective_of_resolve hDst).symm
  | _ => rfl

variable [Trace.Sink τ]

/-- The next step writes the cell with this number: it executes an instruction with its destination
there, and succeeds. -/
def Writes (m : Machine τ) (host : σ) (address : Nat) : Prop :=
  ∃ i dst, m.executing? = some i ∧ (m.step host).1.isOk ∧ i.destination? = some dst ∧
    (m.values.effective dst).toInt = address

/-- A step that executes nothing leaves the memory and the host as they are. -/
theorem step_idle (h : m.executing? = none) (host : σ) :
    (m.step host).2.1.values = m.values ∧ (m.step host).2.2 = host := by
  have hOutcome := m.step_outcome host
  generalize m.step host = outcome at hOutcome ⊢
  cases hOutcome with
  | stopped | ended | limited => exact ⟨rfl, rfl⟩
  | faulted hExecuting | executed hExecuting =>
    rw [h] at hExecuting
    cases hExecuting

theorem step_values_eq_commit {i : Instruction} {event : Event} {host' : σ}
    (hExecuting : m.executing? = some i) (hPerform : m.perform i host = (.ok event, host')) :
    (m.step host).2.1.values = (m.commit event).values := by
  rw [step_of_executing? hExecuting, hPerform]
  simp only [commit, count, report_values]

/-- The cell that a step writes is the one of the event. -/
theorem writes_iff {i : Instruction} {event : Event} {host' : σ} {address : Nat}
    (hExecuting : m.executing? = some i) (hPerform : m.perform i host = (.ok event, host')) :
    m.Writes host address ↔ ∃ write, event.write? = some write ∧ write.1.toInt = address := by
  have hAddress := (performs_of_perform hPerform).write?_address
  constructor
  · rintro ⟨i', dst, hExecutes, -, hDst, hTo⟩
    obtain rfl : i = i' := Option.some.inj (hExecuting.symm.trans hExecutes)
    rw [hDst, Option.map_some] at hAddress
    obtain ⟨write, hWrite, hTarget⟩ := Option.map_eq_some_iff.1 hAddress
    exact ⟨write, hWrite, by rw [hTarget, hTo]⟩
  · rintro ⟨write, hWrite, hTo⟩
    rw [hWrite, Option.map_some] at hAddress
    obtain ⟨dst, hDst, hEffective⟩ := Option.map_eq_some_iff.1 hAddress.symm
    refine ⟨i, dst, hExecuting, ?_, hDst, by rw [hEffective, hTo]⟩
    rw [step_of_executing? hExecuting, hPerform]
    rfl

/-- A step writes no cell and leaves the memory as it is, or it writes one cell and no other. -/
theorem step_values (m : Machine τ) (host : σ) :
    ((m.step host).2.1.values = m.values ∧ ∀ address, ¬m.Writes host address) ∨
    ∃ target value, m.values.InBounds target ∧
      (m.step host).2.1.values = m.values.put target value ∧
      ∀ address, m.Writes host address ↔ target.toInt = address := by
  cases hExecuting : m.executing? with
  | none =>
    refine .inl ⟨(step_idle hExecuting host).1, ?_⟩
    rintro address ⟨i, dst, hExecutes, -⟩
    rw [hExecuting] at hExecutes
    cases hExecutes
  | some i =>
    rcases hPerform : m.perform i host with ⟨cause | event, host'⟩
    · have hStep := step_of_executing? hExecuting host
      rw [hPerform] at hStep
      refine .inl ⟨by rw [hStep]; rfl, ?_⟩
      rintro address ⟨_, _, -, hOk, -⟩
      rw [hStep] at hOk
      cases hOk
    · have hValues := step_values_eq_commit hExecuting hPerform
      cases hWrite : event.write? with
      | none =>
        refine .inl ⟨by rw [hValues, commit, hWrite], ?_⟩
        intro address
        simp [writes_iff hExecuting hPerform, hWrite]
      | some write =>
        refine .inr ⟨write.1, write.2, (performs_of_perform hPerform).write_inBounds hWrite,
          by rw [hValues, commit_values_of_write? hWrite], ?_⟩
        intro address
        simp [writes_iff hExecuting hPerform, hWrite]

/-- A step leaves set cells set, and also sets the cell that it writes. -/
theorem isSet_step {address : Nat} (h : m.values.IsSet address ∨ m.Writes host address) :
    (m.step host).2.1.values.IsSet address := by
  unfold Memory.IsSet at h ⊢
  rcases m.step_values host with ⟨hSame, hNone⟩ | ⟨target, value, hBounds, hPut, hWrites⟩
  · rw [hSame]
    exact h.resolve_right (hNone address)
  · rw [hPut]
    by_cases hTo : target.toInt = address
    · have hNumber : target.toInt.toNat = address := by omega
      exact ⟨value, hNumber ▸ Tape.getElem?_put hBounds value⟩
    · rw [Tape.getElem?_put_of_ne hTo]
      exact h.resolve_right fun hWrite => hTo ((hWrites address).1 hWrite)

theorem isSet_after {m : Machine τ} {host : σ} {address k n : Nat} (hk : k < n)
    (h : (m.after host k).1.Writes (m.after host k).2 address) :
    (m.after host n).1.values.IsSet address := by
  induction hk with
  | refl => exact isSet_step (.inr h)
  | step _ ih => exact isSet_step (.inl ih)

/-- A cell that is unset in a state was not written by any step before it. -/
theorem not_writes_of_isUnset {m : Machine τ} {host : σ} {address k n : Nat}
    (h : (m.after host n).1.values.IsUnset address) (hk : k < n) :
    ¬(m.after host k).1.Writes (m.after host k).2 address := by
  intro hWrites
  obtain ⟨value, hValue⟩ := isSet_after hk hWrites
  rw [h] at hValue
  cases hValue

end Machine

end TapeMachine
