import TapeMachine.Proofs.Machine.Cells
import TapeMachine.Proofs.Machine.Enlargement
import TapeMachine.Proofs.Machine.Hosts
import TapeMachine.Proofs.Machine.Replay

/-! The checks of an instruction.  `checks` lists them in the order in which they are made, each
with the cause of the fault if it fails, and an instruction fails with the cause of the first one
that fails (`checked_perform`).  Every cause in the list tells the truth about the memory and the
host (`truthful_checks`), and a cell that it calls unset was not written by any step before. -/

namespace TapeMachine

open Outcome

/-! ### Checks -/

/-- A check that was made, with the cause of the fault if it failed. -/
abbrev Check := Option Fault.Cause

namespace Check

def answered {α : Type} : Except String α → Check
  | .ok _ => none
  | .error reason => some (.console reason)

/-- The line that was read, if one was, is an integer with blanks around it. -/
def numeric : Except String String → Check
  | .ok line =>
    match Numeral.int64? (Text.trim line) with
    | some _ => none
    | none => some (.inputParseFailure (Text.trim line))
  | .error _ => none

end Check

/-- The cause of the first check that failed. -/
def firstFailure (checks : List Check) : Option Fault.Cause :=
  checks.findSome? id

namespace Memory

variable {σ : Type} (memory : Memory)

def inside (address : Int64) : Check :=
  if memory.InBounds address then none else some (.outOfBounds address memory.capacity)

/-- The cell, if there is one, is set. -/
def assigned (address : Int64) : Check :=
  match memory.get address with
  | .ok none => some (.uninitializedRead address.toInt.toNat)
  | _ => none

def cellChecks (address : Int64) : List Check :=
  [memory.inside address, memory.assigned address]

/-- The checks of the cell that a reference names. -/
def referenceChecks (operand : Operand) : List Check :=
  if operand.isReference then memory.cellChecks operand.payload else []

def sourceChecks (operand : Operand) : List Check :=
  memory.referenceChecks operand ++ memory.cellChecks (memory.effective operand)

def divisorChecks : Instruction → List Check
  | .arithmetic .div _ b _ | .arithmetic .mod _ b _ =>
    [if memory.content? (memory.effective b) = some 0 then some .divisionByZero else none]
  | _ => []

def consoleChecks [Host σ] (host : σ) : Instruction → List Check
  | .input _ => [.answered (Host.readLine host).1, .numeric (Host.readLine host).1]
  | .output src => [.answered (Host.writeLine (memory.shown src) host).1]
  | _ => []

/-- The checks of an instruction, in the order in which they are made. -/
def checks [Host σ] (i : Instruction) (host : σ) : List Check :=
  i.sources.flatMap memory.sourceChecks
    ++ memory.divisorChecks i
    ++ i.destination?.toList.flatMap memory.referenceChecks
    ++ memory.consoleChecks host i
    ++ i.destination?.toList.map fun dst => memory.inside (memory.effective dst)

end Memory

/-- The checks of each instruction. -/
theorem Memory.checks_eq {σ : Type} [Host σ] (memory : Memory) (i : Instruction) (host : σ) :
    memory.checks i host =
      match i with
      | .set _ dst | .time dst =>
        memory.referenceChecks dst ++ [memory.inside (memory.effective dst)]
      | .mov src dst =>
        memory.sourceChecks src
          ++ (memory.referenceChecks dst ++ [memory.inside (memory.effective dst)])
      | .input dst =>
        memory.referenceChecks dst
          ++ ([.answered (Host.readLine host).1, .numeric (Host.readLine host).1]
            ++ [memory.inside (memory.effective dst)])
      | .output src =>
        memory.sourceChecks src ++ [.answered (Host.writeLine (memory.shown src) host).1]
      | .arithmetic _ a b dst =>
        memory.sourceChecks a ++ (memory.sourceChecks b
          ++ (memory.divisorChecks i
            ++ (memory.referenceChecks dst ++ [memory.inside (memory.effective dst)])))
      | .branch _ a b _ => memory.sourceChecks a ++ (memory.sourceChecks b ++ [])
      | .jump _ | .call _ | .ret | .term => [] := by
  unfold checks
  cases i with
  | arithmetic operation a b dst =>
    simp [Instruction.sources, Instruction.destination?, consoleChecks]
  | _ => simp [Instruction.sources, Instruction.destination?, divisorChecks, consoleChecks]

/-- A computation that makes the given checks: it fails with the cause of the first one that fails,
and succeeds if all are passed. -/
inductive Checked {α : Type} (checks : List Check) : Except Fault.Cause α → Prop
  | passed (a : α) (h : firstFailure checks = none) : Checked checks (.ok a)
  | failed {cause : Fault.Cause} (h : firstFailure checks = some cause) :
      Checked checks (.error cause)

theorem firstFailure_append (first second : List Check) :
    firstFailure (first ++ second) = (firstFailure first).or (firstFailure second) :=
  List.findSome?_append

namespace Checked

variable {α β : Type} {first second : List Check} {x : Except Fault.Cause α}

theorem ok (a : α) : Checked [] (.ok a) :=
  .passed a rfl

theorem skip (hx : Checked first x) : Checked (none :: first) x := by
  cases hx with
  | passed a h => exact .passed a h
  | failed h => exact .failed h

theorem bind {f : α → Except Fault.Cause β} (hx : Checked first x)
    (hNext : ∀ a, x = .ok a → Checked second (f a)) : Checked (first ++ second) (x >>= f) := by
  cases hx with
  | failed h =>
    apply Checked.failed
    rw [firstFailure_append, h, Option.some_or]
  | passed a h =>
    have hEqual : firstFailure (first ++ second) = firstFailure second := by
      rw [firstFailure_append, h, Option.none_or]
    show Checked (first ++ second) (f a)
    have hSecond := hNext a rfl
    generalize f a = y at hSecond ⊢
    cases hSecond with
    | passed b hSecond => exact .passed b (hEqual.trans hSecond)
    | failed hSecond => exact .failed (hEqual.trans hSecond)

theorem map (hx : Checked first x) (f : α → β) : Checked first (x.map f) := by
  cases hx with
  | passed a h => exact .passed (f a) h
  | failed h => exact .failed h

theorem error_iff (h : Checked first x) {cause : Fault.Cause} :
    x = .error cause ↔ firstFailure first = some cause := by
  cases h with
  | passed a hNone => simp [hNone]
  | failed hSome => simp [hSome]

theorem exists_error_iff (h : Checked first x) :
    (∃ cause, x = .error cause) ↔ ∃ check ∈ first, check ≠ none := by
  have hSome : (∃ cause, x = .error cause) ↔ firstFailure first ≠ none := by
    rw [Option.ne_none_iff_exists']
    exact exists_congr fun cause => h.error_iff
  rw [hSome, firstFailure, ne_eq, List.findSome?_eq_none_iff]
  simp

end Checked

/-! ### Operands -/

namespace Memory

variable {memory : Memory}

theorem checked_load (memory : Memory) (address : Int64) :
    Checked (memory.cellChecks address) (memory.load address) := by
  unfold cellChecks load inside assigned
  rw [Tape.read_eq]
  by_cases hBounds : memory.InBounds address
  · rw [Tape.get_of_inBounds hBounds, if_pos hBounds]
    cases (memory.cells[address.toInt.toNat]?).join with
    | none => exact .failed rfl
    | some value => exact .passed value rfl
  · rw [Tape.get_of_not_inBounds hBounds, if_neg hBounds]
    exact .failed rfl

theorem checked_resolve (memory : Memory) (operand : Operand) :
    Checked (memory.referenceChecks operand) (memory.resolve operand) := by
  unfold referenceChecks resolve
  split
  · exact memory.checked_load operand.payload
  · exact .ok operand.payload

theorem checked_source (memory : Memory) (operand : Operand) :
    Checked (memory.sourceChecks operand) (memory.source operand) := by
  apply Checked.bind (memory.checked_resolve operand)
  intro address hAddress
  rw [effective_of_resolve hAddress]
  exact (memory.checked_load address).map (Reading.mk address)

theorem checked_requireCell (memory : Memory) (address : Int64) :
    Checked [memory.inside address] (memory.requireCell address) := by
  unfold inside requireCell
  by_cases hBounds : memory.InBounds address
  · rw [if_pos hBounds, Tape.index_of_inBounds hBounds]
    exact .passed () rfl
  · rw [if_neg hBounds, Tape.index_of_not_inBounds hBounds]
    exact .failed rfl

/-- A destination whose bounds are checked right after its reference. -/
theorem checked_destination {α : Type} (memory : Memory) (dst : Operand) (result : Int64 → α) :
    Checked (memory.referenceChecks dst ++ [memory.inside (memory.effective dst)]) (do
      let address ← memory.resolve dst
      memory.requireCell address
      return result address) := by
  apply Checked.bind (memory.checked_resolve dst)
  intro address hAddress
  rw [effective_of_resolve hAddress]
  exact (memory.checked_requireCell address).bind fun _ _ => .ok (result address)

theorem checked_divisor {b : Operand} {y : Int64}
    (h : memory.content? (memory.effective b) = some y) (operation : Arithmetic)
    (a dst : Operand) (x : Int64) :
    Checked (memory.divisorChecks (.arithmetic operation a b dst))
      (( operation.apply? x y).elim (.error .divisionByZero) .ok) := by
  cases operation with
  | add | sub | mul => exact .ok _
  | div | mod =>
    unfold divisorChecks Arithmetic.apply?
    dsimp only
    by_cases hZero : y = 0
    · rw [h, hZero, if_pos rfl, if_pos rfl]
      exact .failed rfl
    · rw [h, if_neg hZero, if_neg fun hSome => hZero (Option.some.inj hSome)]
      exact .passed _ rfl

end Memory

/-! ### Instructions -/

namespace Machine

variable {τ σ : Type}

theorem checked_entered (m : Machine τ) (address : Int64) (answer : Except String String) :
    Checked ([.answered answer, .numeric answer] ++ [m.values.inside address])
      (m.entered address answer) := by
  cases answer with
  | error reason => exact .failed rfl
  | ok line =>
    unfold entered Check.numeric
    dsimp only
    cases Numeral.int64? (Text.trim line) with
    | none => exact .failed rfl
    | some value => exact ((m.values.checked_requireCell address).map _).skip.skip

theorem checked_printed (reading : Reading) (answer : Except String Unit) :
    Checked [.answered answer] (printed reading answer) := by
  cases answer with
  | error reason => exact .failed rfl
  | ok => exact .passed _ rfl

variable [Host σ]

theorem perform_time (m : Machine τ) (dst : Operand) (host : σ) :
    m.perform (.time dst) host =
      (m.values.resolve dst >>= fun address =>
        (m.values.requireCell address).map fun _ => .time (Host.now host).1 address,
      if (m.values.resolve dst).isOk then (Host.now host).2 else host) := by
  unfold perform
  dsimp only
  cases m.values.resolve dst <;> rfl

theorem perform_input (m : Machine τ) (dst : Operand) (host : σ) :
    m.perform (.input dst) host =
      (m.values.resolve dst >>= fun address => m.entered address (Host.readLine host).1,
      if (m.values.resolve dst).isOk then (Host.readLine host).2 else host) := by
  cases hDst : m.values.resolve dst with
  | error cause =>
    simp only [perform, hDst]
    rfl
  | ok address =>
    simp only [perform, hDst, bind, Except.bind, entered]
    rcases Host.readLine host with ⟨reason | line, host'⟩
    · rfl
    · dsimp only
      cases Numeral.int64? (Text.trim line) <;> rfl

theorem perform_output (m : Machine τ) (src : Operand) (host : σ) :
    (m.perform (.output src) host).1 = m.values.source src >>= fun reading =>
      printed reading (Host.writeLine (Numeral.ofInt64 reading.value) host).1 := by
  cases hSrc : m.values.source src with
  | error cause =>
    simp only [perform, hSrc]
    rfl
  | ok reading =>
    simp only [perform, hSrc, bind, Except.bind]
    rcases Host.writeLine (Numeral.ofInt64 reading.value) host with ⟨reason | ⟨⟩, host'⟩ <;> rfl

/-- An instruction fails with the cause of the first of its checks that fails. -/
theorem checked_perform (m : Machine τ) (i : Instruction) (host : σ) :
    Checked (m.values.checks i host) (m.perform i host).1 := by
  rw [Memory.checks_eq]
  cases i with
  | set value dst => exact m.values.checked_destination dst (Event.set value)
  | mov src dst =>
    apply (m.values.checked_source src).bind
    intro reading _
    exact m.values.checked_destination dst (Event.move reading)
  | time dst =>
    rw [perform_time]
    apply (m.values.checked_resolve dst).bind
    intro address hAddress
    rw [Memory.effective_of_resolve hAddress]
    exact (m.values.checked_requireCell address).map _
  | input dst =>
    rw [perform_input]
    apply (m.values.checked_resolve dst).bind
    intro address hAddress
    rw [Memory.effective_of_resolve hAddress]
    exact m.checked_entered address _
  | output src =>
    rw [perform_output]
    apply (m.values.checked_source src).bind
    intro reading hReading
    rw [Memory.shown_of_source hReading]
    exact checked_printed reading _
  | arithmetic operation a b dst =>
    apply (m.values.checked_source a).bind
    intro x _
    apply (m.values.checked_source b).bind
    intro y hY
    obtain ⟨hEffective, hContent⟩ := Memory.effective_of_source hY
    rw [← hEffective] at hContent
    -- The match on the result is the check of the divisor with the rest bound to it.
    have hDivisor := Memory.checked_divisor hContent operation a dst x.value
    have hNext := hDivisor.bind fun result _ =>
      m.values.checked_destination dst (Event.arithmetic operation x y · result)
    cases hApply : operation.apply? x.value y.value <;> rwa [hApply] at hNext
  | branch condition a b target =>
    apply (m.values.checked_source a).bind
    intro x _
    apply (m.values.checked_source b).bind
    intro y _
    exact .ok _
  | jump target | call target | term => exact .ok _
  | ret =>
    unfold perform
    cases m.calls <;> exact .ok _

/-- An instruction with a direct destination outside the tape consumes the line or the clock reading
that it asks for, and then fails. -/
theorem perform_outside {m : Machine τ} {address : Int64} (h : ¬m.values.InBounds address)
    (host : σ) :
    m.perform (.time (.direct address)) host =
      (.error (.outOfBounds address m.values.capacity), (Host.now host).2) ∧
    ∃ cause, m.perform (.input (.direct address)) host =
      (.error cause, (Host.readLine host).2) := by
  have hDirect : m.values.resolve (.direct address) = .ok address := rfl
  have hEffective : m.values.effective (.direct address) = address := rfl
  have hCell : m.values.requireCell address =
      .error (.outOfBounds address m.values.capacity) := by
    unfold Memory.requireCell
    rw [Tape.index_of_not_inBounds h]
    rfl
  constructor
  · simp only [perform, hDirect, hCell, Except.map]
  · obtain ⟨cause, hCause⟩ :=
      (m.checked_perform (.input (.direct address)) host).exists_error_iff.2
        ⟨m.values.inside address, by rw [Memory.checks_eq]; simp [hEffective],
          by simp [Memory.inside, h]⟩
    refine ⟨cause, ?_⟩
    rw [← hCause, perform_input, hDirect]
    rfl

end Machine

/-! ### Causes -/

/-- What a cause names is as it says: an address outside a tape of that capacity, a cell of the tape
that is `unwritten`, or the line that was read, without the blanks around it. -/
def Fault.Cause.Truthful (capacity : Nat) (unwritten : Nat → Prop)
    (answer : Except String String) : Fault.Cause → Prop
  | outOfBounds address size => size = capacity ∧ ¬(0 ≤ address.toInt ∧ address.toInt < capacity)
  | uninitializedRead address => address < capacity ∧ unwritten address
  | inputParseFailure input => ∃ line, answer = .ok line ∧ input = Text.trim line
  | divisionByZero | cycleLimitExceeded _ | programTooLarge _ _ | console _ => True

theorem Fault.Cause.Truthful.imp {capacity : Nat} {P Q : Nat → Prop}
    {answer : Except String String} {cause : Fault.Cause} (h : cause.Truthful capacity P answer)
    (hPQ : ∀ address, P address → Q address) : cause.Truthful capacity Q answer := by
  cases cause with
  | uninitializedRead address => exact ⟨h.1, hPQ address h.2⟩
  | _ => exact h

namespace Memory

variable {σ : Type} {memory : Memory} {cause : Fault.Cause} {answer : Except String String}

theorem truthful_inside {address : Int64} (h : memory.inside address = some cause) :
    cause.Truthful memory.capacity memory.IsUnset answer := by
  unfold inside at h
  split at h
  · cases h
  case isFalse hOutside =>
    cases h
    refine ⟨rfl, ?_⟩
    rintro ⟨hLow, hHigh⟩
    exact hOutside ⟨hLow, by omega⟩

theorem truthful_assigned {address : Int64} (h : memory.assigned address = some cause) :
    cause.Truthful memory.capacity memory.IsUnset answer := by
  unfold assigned at h
  split at h
  case h_2 => cases h
  case h_1 hUnset =>
    cases h
    by_cases hBounds : memory.InBounds address
    · rw [Tape.get_of_inBounds hBounds] at hUnset
      have hHigh := hBounds.2
      refine ⟨hHigh, ?_⟩
      unfold IsUnset
      rw [Array.getElem?_eq_getElem hHigh] at hUnset ⊢
      simpa using hUnset
    · rw [Tape.get_of_not_inBounds hBounds] at hUnset
      cases hUnset

theorem truthful_cellChecks {address : Int64} (h : some cause ∈ memory.cellChecks address) :
    cause.Truthful memory.capacity memory.IsUnset answer := by
  rcases List.mem_pair.1 h with h | h
  · exact truthful_inside h.symm
  · exact truthful_assigned h.symm

theorem truthful_referenceChecks {operand : Operand}
    (h : some cause ∈ memory.referenceChecks operand) :
    cause.Truthful memory.capacity memory.IsUnset answer := by
  unfold referenceChecks at h
  split at h
  · exact truthful_cellChecks h
  · cases h

theorem truthful_sourceChecks {operand : Operand} (h : some cause ∈ memory.sourceChecks operand) :
    cause.Truthful memory.capacity memory.IsUnset answer := by
  rcases List.mem_append.1 h with h | h
  · exact truthful_referenceChecks h
  · exact truthful_cellChecks h

theorem truthful_divisorChecks {i : Instruction} (h : some cause ∈ memory.divisorChecks i) :
    cause.Truthful memory.capacity memory.IsUnset answer := by
  unfold divisorChecks at h
  split at h
  case h_3 => cases h
  all_goals
    have hCheck := List.mem_singleton.1 h
    split at hCheck <;> cases hCheck
    trivial

theorem truthful_consoleChecks [Host σ] {host : σ} {i : Instruction}
    (h : some cause ∈ memory.consoleChecks host i) :
    cause.Truthful memory.capacity memory.IsUnset (Host.readLine host).1 := by
  have hAnswered {α : Type} {answer : Except String α} (h : some cause = Check.answered answer) :
      cause.Truthful memory.capacity memory.IsUnset (Host.readLine host).1 := by
    cases answer <;> cases h
    trivial
  unfold consoleChecks at h
  split at h
  case h_1 dst =>
    rcases List.mem_pair.1 h with h | h
    · exact hAnswered h
    · unfold Check.numeric at h
      split at h
      case h_2 => cases h
      case h_1 line hLine =>
        split at h <;> cases h
        exact ⟨line, hLine, rfl⟩
  case h_2 src => exact hAnswered (List.mem_singleton.1 h)
  case h_3 => cases h

theorem truthful_checks [Host σ] {host : σ} {i : Instruction}
    (h : some cause ∈ memory.checks i host) :
    cause.Truthful memory.capacity memory.IsUnset (Host.readLine host).1 := by
  simp only [checks, List.mem_append, List.mem_flatMap, List.mem_map] at h
  rcases h with (((⟨operand, -, h⟩ | h) | ⟨operand, -, h⟩) | h) | ⟨operand, -, h⟩
  · exact truthful_sourceChecks h
  · exact truthful_divisorChecks h
  · exact truthful_referenceChecks h
  · exact truthful_consoleChecks h
  · exact truthful_inside h

end Memory

/-! ### Steps -/

namespace Machine

variable {τ σ : Type} [Host σ] [Trace.Sink τ] {m : Machine τ} {host : σ}

theorem step_host {i : Instruction} (h : m.executing? = some i) (host : σ) :
    (m.step host).2.2 = (m.perform i host).2 := by
  rw [step_of_executing? h]
  rcases m.perform i host with ⟨cause | event, host'⟩ <;> rfl

theorem step_fails_iff {i : Instruction} (h : m.executing? = some i) {fault : Fault} :
    (m.step host).1 = .error fault ↔
      fault.pc = m.pc ∧ fault.mnemonic = i.mnemonic ∧
        (m.perform i host).1 = .error fault.cause := by
  rw [step_of_executing? h]
  obtain ⟨pc, mnemonic, cause'⟩ := fault
  rcases m.perform i host with ⟨cause | event, host'⟩
  · constructor
    · rintro ⟨⟩
      exact ⟨rfl, rfl, rfl⟩
    · rintro ⟨rfl, rfl, ⟨⟩⟩
      rfl
  · simp

theorem after_capacity (m : Machine τ) (host : σ) (n : Nat) :
    (m.after host n).1.values.capacity = m.values.capacity := by
  induction n with
  | zero => rfl
  | succ n ih => rw [after, step_capacity, ih]

/-- In every state of a program and on every host, an instruction fails when one of its checks
fails, with the cause of the first that does, and a step that executes it gives that cause at the
instruction.  What the cause names is as it says; in particular a cell reported as unset was not
written by any step before.  An instruction that reads the clock or a line does so before the bounds
of its destination are checked. -/
theorem fails_at_first_failed_check {program : Program} {config : Config} {trace : τ}
    {start : Machine τ} {host₀ host₁ : σ} {n : Nat} (hLoad : load program config trace = .ok start)
    (hAfter : start.after host₀ n = (m, host₁)) (i : Instruction) (host : σ) :
    ((∃ cause, (m.perform i host).1 = .error cause) ↔
      ∃ check ∈ m.values.checks i host, check ≠ none) ∧
    (∀ cause, (m.perform i host).1 = .error cause ↔
      firstFailure (m.values.checks i host) = some cause) ∧
    (m.executing? = some i →
      (m.step host).2.2 = (m.perform i host).2 ∧
      ∀ fault, (m.step host).1 = .error fault ↔
        fault.pc = m.pc ∧ fault.mnemonic = i.mnemonic ∧
          firstFailure (m.values.checks i host) = some fault.cause) ∧
    (∀ cause, (m.perform i host).1 = .error cause →
      cause.Truthful config.values
        (fun address => ∀ k < n, ¬(start.after host₀ k).1.Writes (start.after host₀ k).2 address)
        (Host.readLine host).1) ∧
    ∀ address : Int64, ¬(0 ≤ address.toInt ∧ address.toInt < config.values) →
      (i = .time (.direct address) →
        m.perform i host = (.error (.outOfBounds address config.values), (Host.now host).2)) ∧
      (i = .input (.direct address) →
        ∃ cause, m.perform i host = (.error cause, (Host.readLine host).2)) := by
  obtain ⟨-, rfl⟩ := load_eq_ok_iff.1 hLoad
  have hCapacity : m.values.capacity = config.values := by
    have hEvery := after_capacity (initial program config trace) host₀ n
    rw [hAfter] at hEvery
    rw [hEvery]
    exact Array.size_replicate
  have hChecked := m.checked_perform i host
  refine ⟨hChecked.exists_error_iff, fun cause => hChecked.error_iff, ?_, ?_, ?_⟩
  · intro hExecuting
    refine ⟨step_host hExecuting host, ?_⟩
    intro fault
    rw [step_fails_iff hExecuting, hChecked.error_iff]
  · intro cause hCause
    have hFirst := hChecked.error_iff.1 hCause
    have hMember : some cause ∈ m.values.checks i host := by
      obtain ⟨check, hCheck, hSome⟩ := List.exists_of_findSome?_eq_some hFirst
      exact hSome ▸ hCheck
    have hTruthful := Memory.truthful_checks hMember
    rw [hCapacity] at hTruthful
    apply hTruthful.imp
    intro address hUnset k hk
    apply not_writes_of_isUnset _ hk
    rwa [hAfter]
  · intro address hOutside
    have hBounds : ¬m.values.InBounds address := by
      rintro ⟨hLow, hHigh⟩
      exact hOutside ⟨hLow, by omega⟩
    obtain ⟨hTime, hInput⟩ := perform_outside hBounds host
    rw [hCapacity] at hTime
    constructor
    · rintro rfl
      exact hTime
    · rintro rfl
      exact hInput

/-- A program that sets a cell to an address outside a tape of two cells. -/
def pointAway : Program :=
  ⟨[.set 7 (.direct 0)], .ofList []⟩

/-- A machine with two cells at the start of `pointAway`. -/
def beforePointAway : Machine Trace.Discard :=
  initial pointAway ⟨1, 2, none⟩ .mk

/-- A division through the cell that points away, whose divisor is unset and whose destination is
outside the tape, fails with the first of these; a copy of the unset cell fails because no step has
written it. -/
theorem fails_at_first_failed_check_pointAway :
    load pointAway ⟨1, 2, none⟩ Trace.Discard.mk = .ok beforePointAway ∧
    ∃ m host, beforePointAway.after noInput 1 = (m, host) ∧
      (m.perform (.arithmetic .div (.reference 0) (.direct 1) (.direct 9)) noInput).1 =
        .error (.outOfBounds 7 2) ∧
      (m.perform (.mov (.direct 1) (.direct 0)) noInput).1 = .error (.uninitializedRead 1) ∧
      ¬beforePointAway.Writes noInput 1 ∧
      ∃ cause, m.perform (.input (.direct 2)) noInput =
        (.error cause, (Host.readLine noInput).2) := by
  have hLoad : load pointAway ⟨1, 2, none⟩ Trace.Discard.mk = .ok beforePointAway :=
    load_eq_ok_iff.2 ⟨show pointAway.length ≤ 1 by decide, rfl⟩
  obtain ⟨m, host, hAfter⟩ : ∃ m host, beforePointAway.after noInput 1 = (m, host) :=
    ⟨_, _, rfl⟩
  have hValues : m.values = ⟨#[some 7, none]⟩ := by
    have hTape : (beforePointAway.after noInput 1).1.values = ⟨#[some 7, none]⟩ := by
      decide +kernel
    rwa [hAfter] at hTape
  obtain ⟨-, hDivision, -⟩ := fails_at_first_failed_check hLoad hAfter
    (.arithmetic .div (.reference 0) (.direct 1) (.direct 9)) noInput
  obtain ⟨-, hCopy, -, hTruthful, -⟩ := fails_at_first_failed_check hLoad hAfter
    (.mov (.direct 1) (.direct 0)) noInput
  obtain ⟨-, -, -, -, hOutside⟩ := fails_at_first_failed_check hLoad hAfter
    (.input (.direct 2)) noInput
  have hUnset : (m.perform (.mov (.direct 1) (.direct 0)) noInput).1 =
      .error (.uninitializedRead 1) := by
    rw [hCopy, hValues]
    decide +kernel
  refine ⟨hLoad, m, host, hAfter, ?_, hUnset, ?_, ?_⟩
  · rw [hDivision, hValues]
    decide +kernel
  · exact (hTruthful _ hUnset).2 0 Nat.one_pos
  · exact (hOutside 2 (by decide)).2 rfl

end Machine

end TapeMachine
