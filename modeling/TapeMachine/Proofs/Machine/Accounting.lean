import TapeMachine.Proofs.Assembly.RoundTrip
import TapeMachine.Proofs.Machine.Faults
import TapeMachine.Proofs.Machine.Trace

/-! What the cycles, the profile and the trace of a machine say about each other.  `Path` describes
the traces that a program can leave: each entry stands where the instruction of the entry before it
went (`Chooses`).  `Accounted` is what every step keeps as long as the cycles fit in 64 bits: the
counts agree with the entries and with the one instruction that raised a fault, if there is one. -/

namespace TapeMachine

/-- The category of the opcode that an entry names. -/
def Trace.Entry.category? (entry : Trace.Entry) : Option Category :=
  (Opcode.ofMnemonic? entry.mnemonic).map Opcode.category

theorem Trace.Entry.category?_of_mnemonic {entry : Trace.Entry} {i : Instruction}
    (h : entry.mnemonic = i.mnemonic) : entry.category? = some i.opcode.category := by
  unfold category?
  rw [h, Instruction.mnemonic, Opcode.ofMnemonic?_mnemonic]
  rfl

namespace Machine

variable {τ σ : Type}

/-! ### Paths -/

/-- Where an instruction at `pc` goes, and which calls are then pending: a jump, a call and a branch
whose comparison holds go to their target, a return to the position after the last pending call, and
all others to the next position. -/
inductive Chooses (pc : Nat) (calls : List Nat) : Instruction → Event → Nat → List Nat → Prop
  | next {i : Instruction} {event : Event} (hTarget : i.target? = none) (hReturn : i ≠ .ret)
      (hTerm : i ≠ .term) : Chooses pc calls i event (pc + 1) calls
  | jump {target : Position} : Chooses pc calls (.jump target) (.jump target) target.val calls
  | taken {condition : Comparison} {a b : Operand} {x y : Reading} {target : Position}
      (hHolds : condition.holds x.value y.value = true) :
      Chooses pc calls (.branch condition a b target) (.branch condition x y target true)
        target.val calls
  | passed {condition : Comparison} {a b : Operand} {x y : Reading} {target : Position}
      (hFails : condition.holds x.value y.value = false) :
      Chooses pc calls (.branch condition a b target) (.branch condition x y target false)
        (pc + 1) calls
  | call {target : Position} :
      Chooses pc calls (.call target) (.call target) target.val (pc :: calls)
  | ret {site : Nat} {rest : List Nat} (hCalls : calls = site :: rest) :
      Chooses pc calls .ret (.ret (site + 1)) (site + 1) rest
  | idleReturn (hCalls : calls = []) : Chooses pc calls .ret .idleReturn (pc + 1) []
  | term : Chooses pc calls .term .terminate pc calls

theorem Performs.chooses [Host σ] {m : Machine τ} {host host' : σ} {i : Instruction}
    {event : Event} (h : Performs m host i event host') :
    Chooses m.pc m.calls i event (event.successor m.pc) (event.calls m.pc m.calls) := by
  cases h with
  | jump => exact .jump
  | @branch condition _ _ x y _ _ _ =>
    cases hHolds : condition.holds x.value y.value
    · exact .passed hHolds
    · exact .taken hHolds
  | call => exact .call
  | ret hCalls =>
    rw [hCalls]
    exact .ret rfl
  | idleReturn hCalls =>
    rw [hCalls]
    exact .idleReturn rfl
  | term => exact .term
  | _ => exact .next rfl nofun nofun

/-- The entries lead from the start of the program to `pc`, with `calls` pending: the entry with
number `k` has cycle `k` and shows the instruction at its position, and the position of the next one
is where that instruction went. -/
inductive Path (program : Program) : List Trace.Entry → Nat → List Nat → Prop
  | start : Path program [] 0 []
  | snoc {entries : List Trace.Entry} {pc pc' : Nat} {calls calls' : List Nat} {i : Instruction}
      {event : Event} (hPath : Path program entries pc calls) (hAt : program.get? pc = some i)
      (hChooses : Chooses pc calls i event pc' calls') :
      Path program (entries ++ [⟨entries.length, pc, i.mnemonic, event.detail⟩]) pc' calls'

namespace Path

variable {program : Program} {entries : List Trace.Entry} {pc : Nat} {calls : List Nat}

theorem pc_of_nil (h : Path program entries pc calls) (hNil : entries = []) : pc = 0 := by
  cases h with
  | start => rfl
  | snoc => simp at hNil

theorem entry (h : Path program entries pc calls) {k : Nat} {entry : Trace.Entry}
    (hEntry : entries[k]? = some entry) :
    entry.cycle = k ∧ (k = 0 → entry.pc = 0) ∧
      ∃ i, program.get? entry.pc = some i ∧ entry.mnemonic = i.mnemonic := by
  induction h with
  | start => cases hEntry
  | @snoc entries pc pc' calls calls' i event hPath hAt _ ih =>
    rcases Nat.lt_trichotomy k entries.length with hBefore | rfl | hAfter
    · rw [List.getElem?_append_left hBefore] at hEntry
      exact ih hEntry
    · rw [List.getElem?_concat_length] at hEntry
      cases hEntry
      exact ⟨rfl, fun hFirst => hPath.pc_of_nil (List.eq_nil_of_length_eq_zero hFirst), i, hAt, rfl⟩
    · rw [List.getElem?_eq_none (by simp; omega)] at hEntry
      cases hEntry

end Path

/-! ### Instructions that raise a fault -/

section Failures

variable [Host σ]

/-- The instruction that the next step executes, if it raises a fault. -/
def failure? (m : Machine τ) (host : σ) : Option Instruction :=
  m.executing?.bind fun i =>
    match (m.perform i host).1 with
    | .error _ => some i
    | .ok _ => none

theorem failure?_of_executing?_eq_none {m : Machine τ} (h : m.executing? = none) (host : σ) :
    m.failure? host = none := by
  unfold failure?
  rw [h]
  rfl

theorem failure?_of_executing? {m : Machine τ} {i : Instruction} (h : m.executing? = some i)
    (host : σ) :
    m.failure? host = match (m.perform i host).1 with
      | .error _ => some i
      | .ok _ => none := by
  unfold failure?
  rw [h]
  rfl

theorem failure?_eq_some {m : Machine τ} {host : σ} {i : Instruction}
    (h : m.failure? host = some i) :
    m.executing? = some i ∧ ∃ cause host', m.perform i host = (.error cause, host') := by
  cases hExecuting : m.executing? with
  | none =>
    rw [failure?_of_executing?_eq_none hExecuting] at h
    cases h
  | some j =>
    rw [failure?_of_executing? hExecuting] at h
    rcases hPerform : m.perform j host with ⟨cause | event, host'⟩
    · rw [hPerform] at h
      cases h
      exact ⟨rfl, cause, host', hPerform⟩
    · rw [hPerform] at h
      cases h

/-- An executed instruction has raised a fault if the step gives one that is not the limit's. -/
theorem failure?_eq_some_iff [Trace.Sink τ] {program : Program} {capacity : Nat} {m : Machine τ}
    (h : Addressed program capacity m) {host : σ} {i : Instruction} :
    m.failure? host = some i ↔
      ∃ fault, (m.step host).1 = .error fault ∧
        (∀ limit, fault.cause ≠ .cycleLimitExceeded limit) ∧ program.get? fault.pc = some i := by
  have hAt {j : Instruction} (hExecuting : m.executing? = some j) : program.get? m.pc = some j :=
    h.get?_of_current? (executing?_eq_some_iff.1 hExecuting).2.2
  constructor
  · intro hFailure
    obtain ⟨hExecuting, cause, host', hPerform⟩ := failure?_eq_some hFailure
    have hCause : cause.OfInstruction := m.failsWith_perform i host cause (by rw [hPerform])
    refine ⟨⟨m.pc, i.mnemonic, cause⟩, ?_, fun limit hLimit => ?_, hAt hExecuting⟩
    · rw [step_of_executing? hExecuting, hPerform]
    · rw [show cause = .cycleLimitExceeded limit from hLimit] at hCause
      exact hCause
  · rintro ⟨fault, hStep, hCause, hFault⟩
    have hOutcome := m.step_outcome host
    generalize m.step host = outcome at hOutcome hStep
    cases hOutcome with
    | stopped | ended | executed => cases hStep
    | limited =>
      cases hStep
      exact absurd rfl (hCause _)
    | faulted hExecuting hPerform =>
      cases hStep
      rw [failure?_of_executing? hExecuting, hPerform, ← hFault, hAt hExecuting]

end Failures

/-! ### The invariant -/

/-- The profile, the entries and the instruction that raised a fault account for all cycles. -/
structure Accounted (program : Program) (m : Machine τ) (entries : List Trace.Entry)
    (failed : Option Instruction) : Prop where
  total : m.profile.exactTotal = m.cycles
  cycles : entries.length + failed.toList.length = m.cycles
  categories : ∀ category, m.profile.get category =
    entries.countP (fun entry => entry.category? = some category) +
      failed.toList.countP fun i => i.opcode.category = category
  path : Path program entries m.pc m.calls
  halted : failed ≠ none → m.halted? = some .faulted

theorem accounted_initial (program : Program) (config : Config) (trace : τ) :
    Accounted program (initial program config trace) [] none where
  total := rfl
  cycles := rfl
  categories category := Profile.get_zero category
  path := .start
  halted h := absurd rfl h

namespace Accounted

variable {program : Program} {m : Machine τ} {entries : List Trace.Entry}
  {failed : Option Instruction}

theorem failed_eq_none (h : Accounted program m entries failed) (hHalted : m.halted? = none) :
    failed = none := by
  by_contra hFailed
  rw [h.halted hFailed] at hHalted
  cases hHalted

/-- One more instruction is counted in full. -/
theorem profile_add_one (h : Accounted program m entries failed)
    (hCycles : m.cycles + 1 < UInt64.size) (counted : Category) :
    (m.profile.add counted 1).exactTotal = m.cycles + 1 ∧
      ∀ category, (m.profile.add counted 1).get category =
        m.profile.get category + if category = counted then 1 else 0 := by
  have hMax : Profile.maxCount = UInt64.size - 1 := rfl
  have hTallied : m.Tallied := fun category => h.total ▸ m.profile.get_le_exactTotal category
  refine ⟨?_, hTallied.get_add_one (by omega) counted⟩
  rw [Profile.exactTotal_add_one (by rw [h.total]; omega), h.total]

theorem fail (h : Accounted program m entries none) (hCycles : m.cycles + 1 < UInt64.size)
    (i : Instruction) :
    Accounted program { m.count i with halted? := some .faulted } entries (some i) := by
  obtain ⟨hTotal, hCategories⟩ := h.profile_add_one hCycles i.opcode.category
  refine ⟨hTotal, ?_, fun category => ?_, h.path, fun _ => rfl⟩
  · show entries.length + 1 = m.cycles + 1
    rw [← h.cycles, Option.toList_none, List.length_nil, Nat.add_zero]
  · show (m.profile.add i.opcode.category 1).get category = _
    rw [hCategories, h.categories, Option.toList_none, List.countP_nil, Nat.add_zero,
      Option.toList_some, List.countP_singleton]
    simp [eq_comm]

variable [Host σ] {host host' : σ}

/-- After one instruction has raised a fault, no other does. -/
theorem or_failure?_eq_some_iff (h : Accounted program m entries failed) {i : Instruction} :
    failed.or (m.failure? host) = some i ↔ failed = some i ∨ m.failure? host = some i := by
  cases hExecuting : m.executing? with
  | none => simp [failure?_of_executing?_eq_none hExecuting]
  | some j =>
    obtain rfl := h.failed_eq_none (executing?_eq_some_iff.1 hExecuting).1
    simp

variable [Trace.Sink τ]

theorem idle (h : Accounted program m entries failed) (hIdle : m.executing? = none) (host : σ) :
    Accounted program (m.step host).2.1 entries failed := by
  obtain ⟨hCycles, hProfile⟩ := step_counts_nothing hIdle host
  rcases m.step_flow host with ⟨hPc, hCalls⟩ | ⟨i, hExecuting, -⟩
  · refine ⟨?_, ?_, ?_, ?_, fun hFailed => ?_⟩
    · rw [hProfile, hCycles, h.total]
    · rw [hCycles, h.cycles]
    · rw [hProfile]
      exact h.categories
    · rw [hPc, hCalls]
      exact h.path
    · rw [step_of_halted? (h.halted hFailed)]
      exact h.halted hFailed
  · rw [hIdle] at hExecuting
    cases hExecuting

theorem execute (h : Accounted program m entries none) (hCycles : m.cycles + 1 < UInt64.size)
    {i : Instruction} {event : Event} (hAt : program.get? m.pc = some i)
    (hPerforms : Performs m host i event host') :
    Accounted program (((m.report i event).commit event).count i)
      (entries ++ [⟨m.cycles, m.pc, i.mnemonic, event.detail⟩]) none := by
  obtain ⟨hTotal, hCategories⟩ := h.profile_add_one hCycles i.opcode.category
  have hLength : entries.length = m.cycles := h.cycles
  refine ⟨by simpa using hTotal, by simpa using hLength, fun category => ?_, ?_, nofun⟩
  · have hEntry : Trace.Entry.category? ⟨m.cycles, m.pc, i.mnemonic, event.detail⟩ =
        some i.opcode.category :=
      Trace.Entry.category?_of_mnemonic rfl
    rw [count_profile, commit_profile, report_profile, hCategories, h.categories,
      List.countP_append, List.countP_singleton, hEntry]
    simp [eq_comm]
  · rw [← hLength]
    simpa using h.path.snoc hAt hPerforms.chooses

/-- A step accounts for the instruction that it executes. -/
theorem step {capacity : Nat} (h : Accounted program m entries failed)
    (hAddressed : Addressed program capacity m) (host : σ)
    (hCycles : (m.step host).2.1.cycles < UInt64.size) :
    Accounted program (m.step host).2.1 (entries ++ (m.offered? host).toList)
      (failed.or (m.failure? host)) := by
  cases hExecuting : m.executing? with
  | none =>
    rw [offered?_of_executing?_eq_none hExecuting, failure?_of_executing?_eq_none hExecuting,
      Option.or_none, Option.toList_none, List.append_nil]
    exact h.idle hExecuting host
  | some i =>
    -- The machine has not stopped, so no instruction has failed and all cycles have entries.
    obtain ⟨hHalted, -, hCurrent⟩ := executing?_eq_some_iff.1 hExecuting
    obtain rfl := h.failed_eq_none hHalted
    rw [(step_counts hExecuting host).1] at hCycles
    rw [offered?_of_executing? hExecuting, failure?_of_executing? hExecuting,
      step_of_executing? hExecuting]
    rcases hPerform : m.perform i host with ⟨cause | event, host'⟩
    · show Accounted program _ (entries ++ []) (some i)
      rw [List.append_nil]
      exact h.fail hCycles i
    · exact h.execute hCycles (hAddressed.get?_of_current? hCurrent) (performs_of_perform hPerform)

end Accounted

/-! ### Runs -/

section Runs

variable [Host σ] [Trace.Sink τ]

/-- The first instruction to raise a fault in the first `n` steps. -/
def failed? (m : Machine τ) (host : σ) : Nat → Option Instruction
  | 0 => none
  | n + 1 => (m.failed? host n).or ((m.after host n).1.failure? (m.after host n).2)

variable (program : Program) (config : Config) (trace : τ) (host : σ) {n : Nat}

theorem accounted_after
    (hCycles : ((initial program config trace).after host n).1.cycles < UInt64.size) :
    Accounted program ((initial program config trace).after host n).1
      ((initial program config trace).recorded host n)
      ((initial program config trace).failed? host n) := by
  induction n with
  | zero => exact accounted_initial program config trace
  | succ n ih =>
    have hBefore := Nat.lt_of_le_of_lt (cycles_mono (Nat.le_succ n)) hCycles
    exact (ih hBefore).step (addressed_after program config trace host n) _ hCycles

theorem failed?_eq_some_iff
    (hCycles : ((initial program config trace).after host n).1.cycles < UInt64.size)
    {i : Instruction} :
    (initial program config trace).failed? host n = some i ↔
      ∃ k < n, ∃ fault, (initial program config trace).answer host k = .error fault ∧
        (∀ limit, fault.cause ≠ .cycleLimitExceeded limit) ∧ program.get? fault.pc = some i := by
  induction n with
  | zero => simp [failed?]
  | succ n ih =>
    have hBefore := Nat.lt_of_le_of_lt (cycles_mono (Nat.le_succ n)) hCycles
    have hAddressed := addressed_after program config trace host n
    have hAccounted := accounted_after program config trace host hBefore
    rw [failed?, hAccounted.or_failure?_eq_some_iff, ih hBefore, failure?_eq_some_iff hAddressed,
      Nat.exists_lt_succ_right]
    rfl

variable {program config trace host}

/-- In every state of a program that keeps its trace in memory, below `2^64` cycles: the profile
counts all cycles.  The entries are those of a path through the program to the counter and the
pending calls, and there is one for every cycle, but for that of an instruction that was executed
and raised a fault.  Each category has as many executions as entries, and one more if it is the
category of that instruction. -/
theorem trace_accounts_for_cycles {start m : Machine Trace.Memory} {host' : σ}
    (hLoad : load program config (Trace.Memory.mk #[]) = .ok start)
    (hAfter : start.after host n = (m, host')) (hCycles : m.cycles < UInt64.size) :
    m.profile.total = m.cycles ∧
    (∀ (k : Nat) (entry : Trace.Entry), m.trace.entries[k]? = some entry →
      entry.cycle = k ∧ (k = 0 → entry.pc = 0) ∧
        ∃ i, program.get? entry.pc = some i ∧ entry.mnemonic = i.mnemonic) ∧
    Path program m.trace.entries.toList m.pc m.calls ∧
    ∃ failed : Option Instruction,
      (∀ i, failed = some i ↔
        ∃ k < n, ∃ fault, start.answer host k = .error fault ∧
          (∀ limit, fault.cause ≠ .cycleLimitExceeded limit) ∧ program.get? fault.pc = some i) ∧
      (failed ≠ none → m.halted? = some .faulted) ∧
      m.trace.entries.size + failed.toList.length = m.cycles ∧
      ∀ category, m.profile.get category =
        m.trace.entries.toList.countP (fun entry => entry.category? = some category) +
          failed.toList.countP fun i => i.opcode.category = category := by
  obtain ⟨-, rfl⟩ := load_eq_ok_iff.1 hLoad
  obtain rfl : ((initial program config (Trace.Memory.mk #[])).after host n).1 = m := by rw [hAfter]
  have hEntries : ((initial program config (Trace.Memory.mk #[])).after host
      n).1.trace.entries.toList =
        (initial program config (Trace.Memory.mk #[])).recorded host n := by
    rw [after_trace, Trace.foldl_offer_memory]
    rfl
  have hAccounted := accounted_after program config (Trace.Memory.mk #[]) host hCycles
  rw [← hEntries] at hAccounted
  have hMax : Profile.maxCount = UInt64.size - 1 := rfl
  refine ⟨?_, fun k entry hEntry => ?_, hAccounted.path, _, fun i => ?_, hAccounted.halted,
    hAccounted.cycles, hAccounted.categories⟩
  · rw [Profile.total_eq_min, hAccounted.total]
    omega
  · rw [← Array.getElem?_toList] at hEntry
    exact hAccounted.path.entry hEntry
  · exact failed?_eq_some_iff program config (Trace.Memory.mk #[]) host hCycles

end Runs

/-- A program that calls a subroutine and then divides by the zero that the subroutine has set. -/
def callThenDivide : Program :=
  ⟨[.call (.ofPayload 2), .arithmetic .div (.direct 0) (.direct 0) (.direct 0),
    .set 0 (.direct 0), .ret], .ofList [("zero", 2)]⟩

/-- A small machine at the start of `callThenDivide`, with a trace. -/
def beforeCallThenDivide : Machine Trace.Memory :=
  initial callThenDivide ⟨4, 1, none⟩ ⟨#[]⟩

theorem trace_accounts_for_cycles_callThenDivide :
    ∃ m host',
      load callThenDivide ⟨4, 1, none⟩ (Trace.Memory.mk #[]) = .ok beforeCallThenDivide ∧
      beforeCallThenDivide.after noInput 5 = (m, host') ∧ m.cycles = 4 ∧
      m.trace.entries.toList.map Trace.Entry.pc = [0, 2, 3] ∧ m.profile.total = 4 ∧
      Path callThenDivide m.trace.entries.toList m.pc m.calls ∧ m.halted? = some .faulted ∧
      m.profile.get .arithmetic =
        m.trace.entries.toList.countP (fun entry => entry.category? = some .arithmetic) + 1 := by
  have hLoad : load callThenDivide ⟨4, 1, none⟩ (Trace.Memory.mk #[]) = .ok beforeCallThenDivide :=
    load_eq_ok_iff.2 ⟨show callThenDivide.length ≤ 4 by decide, rfl⟩
  have hCycles : (beforeCallThenDivide.after noInput 5).1.cycles = 4 := by decide +kernel
  have hPositions : (beforeCallThenDivide.after noInput 5).1.trace.entries.toList.map
      Trace.Entry.pc = [0, 2, 3] := by
    decide +kernel
  have hAnswer : beforeCallThenDivide.answer noInput 3 =
      .error ⟨1, "DIV", .divisionByZero⟩ := by
    decide +kernel
  obtain ⟨m, host', hAfter⟩ : ∃ m host', beforeCallThenDivide.after noInput 5 = (m, host') :=
    ⟨_, _, rfl⟩
  rw [hAfter] at hCycles hPositions
  have hBelow : m.cycles < UInt64.size := by
    rw [show m.cycles = 4 from hCycles]
    decide
  obtain ⟨hTotal, -, hPath, failed, hFailed, hHalted, -, hCategories⟩ :=
    trace_accounts_for_cycles hLoad hAfter hBelow
  obtain rfl := (hFailed (.arithmetic .div (.direct 0) (.direct 0) (.direct 0))).2
    ⟨3, by decide, _, hAnswer, nofun, rfl⟩
  exact ⟨m, host', hLoad, hAfter, hCycles, hPositions, hTotal.trans hCycles, hPath,
    hHalted nofun, hCategories .arithmetic⟩

end Machine

end TapeMachine
