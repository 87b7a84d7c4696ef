import TapeMachine.Proofs.Machine.Control
import TapeMachine.Proofs.Machine.Trace
import TapeMachine.Proofs.Trace.Detail

/-! Memory from a trace.  The entries of a trace say in their details which cells were written, so
they can be replayed on an empty memory.  `Shows` is what the entry of a step says about the machine
before and after it; a step offers an entry that shows it (`shows_of_offered?`) and changes the
memory as the entry says (`replay_offered?`), and so the whole trace gives the whole memory. -/

namespace TapeMachine

/-- Whether an operation writes to a cell. -/
def Opcode.writes : Opcode → Bool
  | set | mov | time | input | arithmetic _ => true
  | output | jump | branch _ | call | ret | term => false

/-- The operands whose cells an instruction reads for their values. -/
def Instruction.sources : Instruction → List Operand
  | mov src _ | output src => [src]
  | arithmetic _ a b _ | branch _ a b _ => [a, b]
  | set _ _ | time _ | input _ | jump _ | call _ | ret | term => []

namespace Trace

/-! ### Replay -/

namespace Entry

/-- The address and the value that the detail shows, if the operation writes. -/
def write? (entry : Entry) : Option (Int64 × Int64) :=
  if (Opcode.ofMnemonic? entry.mnemonic).any Opcode.writes then written? (items entry.detail)
  else none

/-- The cells that the detail shows as sources, with their values. -/
def sources (entry : Entry) : List Reading :=
  Trace.sources (items entry.detail)

/-- Where the detail of a branch says that it went. -/
def direction? (entry : Entry) : Option Direction :=
  Trace.direction? (items entry.detail)

/-- The memory after the write that an entry shows, if it shows one. -/
def replay (memory : Tape Int64) (entry : Entry) : Except Tape.Error (Tape Int64) :=
  match entry.write? with
  | some (address, value) => memory.write address value
  | none => .ok memory

end Entry

/-- The memory after the writes that entries show, one after another. -/
def replay (memory : Tape Int64) (entries : List Entry) : Except Tape.Error (Tape Int64) :=
  entries.foldlM Entry.replay memory

theorem replay_append (memory : Tape Int64) (entries entries' : List Entry) :
    replay memory (entries ++ entries') =
      replay memory entries >>= fun memory => replay memory entries' :=
  List.foldlM_append

theorem replay_singleton (memory : Tape Int64) (entry : Entry) :
    replay memory [entry] = entry.replay memory := by
  unfold replay
  rw [List.foldlM_cons]
  cases entry.replay memory <;> rfl

end Trace

namespace Machine

variable {τ σ : Type}

/-! ### Entries -/

/-- What an entry says about an instruction and the machine before and after it. -/
structure Shows (entry : Trace.Entry) (i : Instruction) (before after : Machine τ) : Prop where
  pc : entry.pc = before.pc
  mnemonic : entry.mnemonic = i.mnemonic
  /-- There is a write in the detail if the operation writes. -/
  writes : entry.write?.isSome = i.opcode.writes
  /-- The memory has changed by that write only. -/
  values : entry.replay before.values = .ok after.values
  /-- The sources in the detail are those of the operands, though maybe in another order. -/
  sources : ∃ readings, i.sources.mapM before.values.source = .ok readings ∧
    entry.sources.Perm readings
  /-- A source had the value that the detail shows for it. -/
  held : ∀ r ∈ entry.sources, before.values.read r.address = .ok r.value
  /-- A branch has compared the values that its detail shows, and went where it shows. -/
  branch : ∀ condition a b target, i = .branch condition a b target →
    ∃ x y direction, entry.sources = [x, y] ∧ entry.direction? = some direction ∧
      direction = (if condition.holds x.value y.value then .jump target.val else .onward) ∧
      after.pc = direction.position entry.pc

namespace Performs

variable [Host σ] {m : Machine τ} {host host' : σ} {i : Instruction} {event : Event}

theorem writes (h : Performs m host i event host') : event.write?.isSome = i.opcode.writes := by
  cases h <;> rfl

theorem sources (h : Performs m host i event host') :
    ∃ readings, i.sources.mapM m.values.source = .ok readings ∧ event.sources.Perm readings := by
  cases h with
  | @mov src dst reading address hSrc hDst hCell =>
    exact ⟨[reading], Outcome.mapM_eq_ok_iff.2 (.cons hSrc .nil), .refl _⟩
  | @output src reading host' hSrc hLine =>
    exact ⟨[reading], Outcome.mapM_eq_ok_iff.2 (.cons hSrc .nil), .refl _⟩
  | @arithmetic operation a b dst x y address result hA hB =>
    refine ⟨[x, y], Outcome.mapM_eq_ok_iff.2 (.cons hA (.cons hB .nil)), ?_⟩
    cases operation with
    | sub => exact .swap x y [] -- The detail names the subtrahend first.
    | _ => exact .refl _
  | @branch condition a b x y target hA hB =>
    exact ⟨[x, y], Outcome.mapM_eq_ok_iff.2 (.cons hA (.cons hB .nil)), .refl _⟩
  | _ => exact ⟨[], rfl, .refl _⟩

theorem entry_write? (h : Performs m host i event host') (cycle pc : Nat) :
    (Trace.Entry.mk cycle pc i.mnemonic event.detail).write? = event.write? := by
  unfold Trace.Entry.write?
  simp only [Instruction.mnemonic, Opcode.ofMnemonic?_mnemonic, Option.any_some, ← h.writes]
  cases hWrite : event.write? with
  | none => rfl
  | some write => rw [Option.isSome_some, if_pos rfl, Event.written?_items hWrite]

theorem held (h : Performs m host i event host') {r : Reading} (hr : r ∈ event.sources) :
    m.values.read r.address = .ok r.value := by
  obtain ⟨readings, hReadings, hPerm⟩ := h.sources
  obtain ⟨k, hk⟩ := List.mem_iff_getElem?.1 (hPerm.mem_iff.1 hr)
  obtain ⟨operand, -, hSource⟩ :=
    Outcome.getElem?_of_forall₂ (Outcome.mapM_eq_ok_iff.1 hReadings) hk
  exact Memory.read_of_source hSource

theorem replay (h : Performs m host i event host') (cycle pc : Nat) :
    (Trace.Entry.mk cycle pc i.mnemonic event.detail).replay m.values =
      .ok (m.commit event).values := by
  unfold Trace.Entry.replay commit
  rw [h.entry_write?]
  cases hWrite : event.write? with
  | none => rfl
  | some write => exact Tape.write_of_inBounds (h.write_inBounds hWrite) write.2

theorem shows (h : Performs m host i event host') {after : Machine τ}
    (hValues : after.values = (m.commit event).values) (hPc : after.pc = event.successor m.pc) :
    Shows ⟨m.cycles, m.pc, i.mnemonic, event.detail⟩ i m after where
  pc := rfl
  mnemonic := rfl
  writes := by rw [h.entry_write?, h.writes]
  values := by rw [h.replay, hValues]
  sources := by
    unfold Trace.Entry.sources
    rw [event.sources_items]
    exact h.sources
  held r hr := by
    unfold Trace.Entry.sources at hr
    rw [event.sources_items] at hr
    exact h.held hr
  branch := by
    rintro condition a b target rfl
    cases h with
    | @branch _ _ _ x y _ hA hB =>
      refine ⟨x, y, _, Event.sources_items _, Event.direction?_items _ x y target _, rfl, ?_⟩
      rw [hPc]
      cases condition.holds x.value y.value <;> rfl

end Performs

/-! ### Steps -/

variable [Host σ] [Trace.Sink τ]

theorem shows_of_offered? {m : Machine τ} {host : σ} {entry : Trace.Entry}
    (h : m.offered? host = some entry) :
    ∃ i, m.current? = some i ∧ Shows entry i m (m.step host).2.1 := by
  obtain ⟨i, event, host', hExecuting, hPerform, rfl⟩ := offered?_eq_some h
  refine ⟨i, (executing?_eq_some_iff.1 hExecuting).2.2, ?_⟩
  rw [step_of_executing? hExecuting, hPerform]
  apply (performs_of_perform hPerform).shows
  · simp only [commit, count, report_values]
  · simp only [count_pc, commit_pc, report_pc]

/-- A step changes the memory as its entry says, and not at all if it offers none. -/
theorem replay_offered? (m : Machine τ) (host : σ) :
    Trace.replay m.values (m.offered? host).toList = .ok (m.step host).2.1.values := by
  cases hExecuting : m.executing? with
  | none =>
    rw [offered?_of_executing?_eq_none hExecuting]
    have hOutcome := m.step_outcome host
    generalize m.step host = outcome at hOutcome ⊢
    cases hOutcome with
    | stopped | ended | limited => rfl
    | faulted hExecuted | executed hExecuted =>
      rw [hExecuting] at hExecuted
      cases hExecuted
  | some i =>
    rw [offered?_of_executing? hExecuting, step_of_executing? hExecuting]
    rcases hPerform : m.perform i host with ⟨cause | event, host'⟩
    · rfl
    · have hReplay := (performs_of_perform hPerform).replay m.cycles m.pc
      simp only [Except.toOption, Option.map_some, Option.toList_some, Trace.replay_singleton,
        hReplay, commit, count, report_values]

theorem exists_offered?_of_step_running {m : Machine τ} {host : σ}
    (h : (m.step host).2.1.halted? = none) : ∃ entry, m.offered? host = some entry := by
  obtain ⟨i, hExecuting⟩ := executing?_of_step_running h
  rw [step_of_executing? hExecuting] at h
  rw [offered?_of_executing? hExecuting]
  rcases hPerform : m.perform i host with ⟨cause | event, host'⟩
  · rw [hPerform] at h
    cases h
  · exact ⟨_, rfl⟩

/-! ### Runs -/

theorem replay_recorded (m : Machine τ) (host : σ) (n : Nat) :
    Trace.replay m.values (m.recorded host n) = .ok (m.after host n).1.values := by
  induction n with
  | zero => rfl
  | succ n ih =>
    rw [recorded, Trace.replay_append, ih]
    exact replay_offered? _ _

section Entries

variable {m : Machine τ} {host : σ} {n k : Nat} {entry : Trace.Entry}

/-- A machine that has not stopped has an entry for every step. -/
theorem recorded_length (h : (m.after host n).1.halted? = none) :
    (m.recorded host n).length = n := by
  induction n with
  | zero => rfl
  | succ n ih =>
    obtain ⟨last, hLast⟩ := exists_offered?_of_step_running h
    rw [recorded, hLast, List.length_append, ih (running_of_le h (Nat.le_succ n))]
    rfl

/-- The entry with number `k` is that of step number `k`. -/
theorem offered?_of_recorded (h : (m.recorded host n)[k]? = some entry) :
    (m.after host k).1.offered? (m.after host k).2 = some entry := by
  induction n with
  | zero => cases h
  | succ n ih =>
    rw [recorded] at h
    rcases Nat.lt_or_ge k (m.recorded host n).length with hBefore | hFrom
    · rw [List.getElem?_append_left hBefore] at h
      exact ih h
    · rw [List.getElem?_append_right hFrom] at h
      cases hOffered : (m.after host n).1.offered? (m.after host n).2 with
      | none =>
        rw [hOffered] at h
        cases h
      | some last =>
        -- The machine was still running, so this is the entry with number `n`.
        obtain ⟨i, event, host', hExecuting, -, -⟩ := offered?_eq_some hOffered
        have hLength := recorded_length (executing?_eq_some_iff.1 hExecuting).1
        rw [hOffered, Option.toList_some, List.getElem?_singleton] at h
        split at h
        case isTrue hZero =>
          obtain rfl : k = n := by omega
          rw [hOffered, h]
        case isFalse => cases h

end Entries

/-- In every state of a program that keeps its trace in memory, the writes that the entries show,
made one after another on an empty memory, give the memory of the machine.  The entry with number
`k` shows the instruction of step number `k`: the sources in its detail had the values that it gives
for them, and a branch went where it says. -/
theorem trace_determines_memory {program : Program} {config : Config} {n : Nat}
    {start m : Machine Trace.Memory} {host host' : σ}
    (hLoad : load program config (Trace.Memory.mk #[]) = .ok start)
    (hAfter : start.after host n = (m, host')) :
    Trace.replay (.blank config.values) m.trace.entries.toList = .ok m.values ∧
    ∀ (k : Nat) (entry : Trace.Entry), m.trace.entries[k]? = some entry →
      entry.cycle = k ∧ ∃ i, program.get? entry.pc = some i ∧
        Shows entry i (start.after host k).1 (start.after host (k + 1)).1 := by
  obtain ⟨-, rfl⟩ := load_eq_ok_iff.1 hLoad
  have hEntries : m.trace.entries.toList =
      (initial program config (Trace.Memory.mk #[])).recorded host n := by
    have hTrace := after_trace (initial program config (Trace.Memory.mk #[])) host n
    rw [hAfter] at hTrace
    rw [hTrace, Trace.foldl_offer_memory]
    rfl
  constructor
  · have hReplay := replay_recorded (initial program config (Trace.Memory.mk #[])) host n
    rw [hAfter] at hReplay
    rw [hEntries]
    exact hReplay
  · intro k entry hEntry
    rw [← Array.getElem?_toList, hEntries] at hEntry
    have hOffered := offered?_of_recorded hEntry
    obtain ⟨i, hCurrent, hShows⟩ := shows_of_offered? hOffered
    have hAt := (addressed_after program config (Trace.Memory.mk #[]) host k).get?_of_current?
      hCurrent
    rw [← hShows.pc] at hAt
    exact ⟨cycle_of_offered? rfl hOffered, i, hAt, hShows⟩

/-- A program whose subtraction reads a cell, the cell that holds the address of the result, and
writes over the first of them; then it jumps off if the result is greater than the address. -/
def subtractInPlace : Program :=
  ⟨[.set 1 (.direct 0), .set 5 (.reference 0),
    .arithmetic .sub (.direct 1) (.direct 0) (.reference 0),
    .branch .greater (.direct 1) (.direct 0) (.ofPayload 9)], .ofList []⟩

/-- A small machine at the start of `subtractInPlace`, with a trace. -/
def beforeSubtract : Machine Trace.Memory :=
  initial subtractInPlace ⟨4, 2, none⟩ ⟨#[]⟩

theorem trace_determines_memory_subtractInPlace :
    load subtractInPlace ⟨4, 2, none⟩ (Trace.Memory.mk #[]) = .ok beforeSubtract ∧
    ∃ m host', beforeSubtract.after noInput 4 = (m, host') ∧
      m.trace.entries.toList.map Trace.Entry.detail =
        ["Set value '1' into #0", "Set value '5' into #1",
          "Subtract #0 ('1') from #1 ('5') into #1 ('4')",
          "Jump to 9 [#1 ('4') > #0 ('1')]"] ∧
      Trace.replay (.blank 2) m.trace.entries.toList = .ok ⟨#[some 1, some 4]⟩ ∧
      ∃ entry, m.trace.entries[3]? = some entry ∧
        Shows entry (.branch .greater (.direct 1) (.direct 0) (.ofPayload 9))
          (beforeSubtract.after noInput 3).1 m := by
  have hLoad : load subtractInPlace ⟨4, 2, none⟩ (Trace.Memory.mk #[]) = .ok beforeSubtract :=
    load_eq_ok_iff.2 ⟨show subtractInPlace.length ≤ 4 by decide, rfl⟩
  have hDetails : (beforeSubtract.after noInput 4).1.trace.entries.toList.map Trace.Entry.detail =
      ["Set value '1' into #0", "Set value '5' into #1",
        "Subtract #0 ('1') from #1 ('5') into #1 ('4')",
        "Jump to 9 [#1 ('4') > #0 ('1')]"] := by
    decide +kernel
  have hValues : (beforeSubtract.after noInput 4).1.values = ⟨#[some 1, some 4]⟩ := by
    decide +kernel
  have hPc : ((beforeSubtract.after noInput 4).1.trace.entries[3]?).map Trace.Entry.pc =
      some 3 := by
    decide +kernel
  obtain ⟨m, host', hAfter⟩ : ∃ m host', beforeSubtract.after noInput 4 = (m, host') :=
    ⟨_, _, rfl⟩
  obtain ⟨hReplay, hShows⟩ := trace_determines_memory hLoad hAfter
  rw [hAfter] at hDetails hValues hPc
  obtain ⟨entry, hEntry, hAt⟩ := Option.map_eq_some_iff.1 hPc
  obtain ⟨-, i, hInstruction, hLast⟩ := hShows 3 entry hEntry
  rw [hAt] at hInstruction
  cases hInstruction
  rw [hAfter] at hLast
  exact ⟨hLoad, m, host', hAfter, hDetails, hReplay.trans (congrArg _ hValues), entry, hEntry,
    hLast⟩

end Machine

end TapeMachine
