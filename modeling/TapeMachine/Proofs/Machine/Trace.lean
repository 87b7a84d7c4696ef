import TapeMachine.Proofs.Machine.Session
import TapeMachine.Trace.Log

/-! Traces of runs.  `offered?` is the entry that a step offers to the sink, and `recorded` those of
the steps so far; neither depends on the sink.  A step with another sink gives the same result, the
same host and the same machine but for the sink, which has been offered that entry
(`step_withTrace`), and so do all steps together (`after_withTrace`) and any calls (`Session`). -/

namespace TapeMachine

namespace Trace

variable {τ : Type} [Sink τ]

/-- The sink after it was offered an entry, which it takes if it wants entries. -/
def offer (sink : τ) (entry : Entry) : τ :=
  if Sink.enabled sink then Sink.record sink entry else sink

theorem foldl_offer_memory (sink : Memory) (entries : List Entry) :
    (entries.foldl offer sink).entries.toList = sink.entries.toList ++ entries := by
  induction entries generalizing sink with
  | nil => simp
  | cons entry entries ih =>
    rw [List.foldl_cons, ih]
    simp [offer, Sink.enabled, Sink.record]

theorem foldl_offer_lent (sink : τ) (entries : List Entry) :
    entries.foldl offer (Lent.mk sink) = ⟨entries.foldl offer sink⟩ := by
  induction entries generalizing sink with
  | nil => rfl
  | cons entry entries ih =>
    have hOffer : offer (Lent.mk sink) entry = ⟨offer sink entry⟩ := by
      unfold offer
      show (if Sink.enabled sink then _ else _) = _
      split <;> rfl
    rw [List.foldl_cons, List.foldl_cons, hOffer, ih]

/-- The line of a log for an entry. -/
def Log.line (time : Timestamp) (entry : Entry) : String :=
  time.traceText ++ ":  \t" ++ entry.text

/-- A log takes the texts of the entries offered to it. -/
theorem foldl_offer_log (log : Log) (entries : List Entry) :
    entries.foldl offer log = (entries.map Entry.text).foldl Log.note log := by
  rw [List.foldl_map]
  rfl

/-- A log reads its clock once for each text that it takes. -/
theorem Log.lines_foldl_note (log : Log) (texts : List String) :
    (texts.foldl note log).lines.toList = log.lines.toList ++
      texts.mapIdx fun n text => (log.clock.reading n).traceText ++ ":  \t" ++ text := by
  induction texts generalizing log with
  | nil => simp
  | cons text texts ih =>
    rw [List.foldl_cons, ih]
    simp [note, Clock.now, List.mapIdx_cons]

theorem lines_foldl_atTime (log : Log) (time : Timestamp) (entries : List Entry) :
    (entries.foldl offer (log.atTime time)).lines.toList =
      log.lines.toList ++ entries.map (Log.line time) := by
  rw [foldl_offer_log, Log.lines_foldl_note]
  refine congrArg (log.lines.toList ++ ·) (List.ext_getElem (by simp) fun n _ _ => ?_)
  simp [Log.line, Log.atTime, Clock.stopped]

theorem foldl_offer_some (sink : τ) (entries : List Entry) :
    entries.foldl offer (some sink) = some (entries.foldl offer sink) := by
  induction entries generalizing sink with
  | nil => rfl
  | cons entry entries ih =>
    have hOffer : offer (some sink) entry = some (offer sink entry) := by
      unfold offer
      show (if Sink.enabled sink then _ else _) = _
      split <;> rfl
    rw [List.foldl_cons, List.foldl_cons, hOffer, ih]

end Trace

namespace Machine

variable {τ τ' σ : Type}

/-- The machine with another sink in place of its own. -/
def withTrace (m : Machine τ) (trace : τ') : Machine τ' where
  instructions := m.instructions
  values := m.values
  pc := m.pc
  calls := m.calls
  config := m.config
  cycles := m.cycles
  profile := m.profile
  trace := trace
  halted? := m.halted?

/-- The machine without a trace. -/
def untraced (m : Machine τ) : Machine Trace.Discard :=
  m.withTrace .mk

theorem load_withTrace (program : Program) (config : Config) (trace : τ) (trace' : τ') :
    load program config trace' =
      (load program config trace).map fun m => m.withTrace trace' := by
  unfold load
  split <;> rfl

section Entries

variable [Host σ]

theorem perform_withTrace (m : Machine τ) (trace : τ') (i : Instruction) (host : σ) :
    (m.withTrace trace).perform i host = m.perform i host := by
  have hValues : (m.withTrace trace).values = m.values := rfl
  have hCalls : (m.withTrace trace).calls = m.calls := rfl
  exact perform_congr hValues hCalls i host

/-- The entry that the next step offers to the sink.  There is one if the step executes an
instruction and the instruction succeeds. -/
def offered? (m : Machine τ) (host : σ) : Option Trace.Entry :=
  m.executing?.bind fun i => (m.perform i host).1.toOption.map fun event =>
    ⟨m.cycles, m.pc, i.mnemonic, event.detail⟩

theorem offered?_of_executing? {m : Machine τ} {i : Instruction} (h : m.executing? = some i)
    (host : σ) :
    m.offered? host = (m.perform i host).1.toOption.map fun event =>
      ⟨m.cycles, m.pc, i.mnemonic, event.detail⟩ := by
  unfold offered?
  rw [h]
  rfl

theorem offered?_of_executing?_eq_none {m : Machine τ} (h : m.executing? = none) (host : σ) :
    m.offered? host = none := by
  unfold offered?
  rw [h]
  rfl

theorem offered?_eq_some {m : Machine τ} {host : σ} {entry : Trace.Entry}
    (h : m.offered? host = some entry) :
    ∃ i event host', m.executing? = some i ∧ m.perform i host = (.ok event, host') ∧
      entry = ⟨m.cycles, m.pc, i.mnemonic, event.detail⟩ := by
  cases hExecuting : m.executing? with
  | none =>
    rw [offered?_of_executing?_eq_none hExecuting] at h
    cases h
  | some i =>
    rw [offered?_of_executing? hExecuting] at h
    rcases hPerform : m.perform i host with ⟨cause | event, host'⟩
    · rw [hPerform] at h
      cases h
    · rw [hPerform] at h
      cases h
      exact ⟨i, event, host', rfl, hPerform, rfl⟩

theorem report_eq_withTrace [Trace.Sink τ] (m : Machine τ) (i : Instruction) (event : Event) :
    m.report i event =
      m.withTrace (Trace.offer m.trace ⟨m.cycles, m.pc, i.mnemonic, event.detail⟩) := by
  unfold report Trace.offer
  split <;> rfl

end Entries

variable [Host σ] [Trace.Sink τ] [Trace.Sink τ']

/-- A step with another sink differs from the step in the sink only. -/
theorem step_withTrace (m : Machine τ) (trace : τ') (host : σ) :
    (m.withTrace trace).step host =
      ((m.step host).1,
        (m.step host).2.1.withTrace ((m.offered? host).toList.foldl Trace.offer trace),
        (m.step host).2.2) := by
  cases hExecuting : m.executing? with
  | some i =>
    have hExecuting' : (m.withTrace trace).executing? = some i := hExecuting
    rw [offered?_of_executing? hExecuting, step_of_executing? hExecuting,
      step_of_executing? hExecuting', perform_withTrace]
    rcases m.perform i host with ⟨cause | event, host'⟩
    · rfl
    · simp only [report_eq_withTrace]
      rfl
  | none =>
    rw [offered?_of_executing?_eq_none hExecuting]
    have hOutcome := m.step_outcome host
    generalize m.step host = outcome at hOutcome ⊢
    cases hOutcome with
    | stopped hHalted => exact step_of_halted? (m := m.withTrace trace) hHalted host
    | ended hHalted hCurrent =>
      exact step_of_current?_eq_none (m := m.withTrace trace) hHalted hCurrent host
    | limited hHalted hCurrent hLimit =>
      exact step_of_limit (m := m.withTrace trace) hHalted hCurrent hLimit host
    | faulted hExecuted | executed hExecuted =>
      rw [hExecuting] at hExecuted
      cases hExecuted

/-! ### Steps one after another -/

/-- The entries of the first `n` steps. -/
def recorded (m : Machine τ) (host : σ) : Nat → List Trace.Entry
  | 0 => []
  | n + 1 => m.recorded host n ++ ((m.after host n).1.offered? (m.after host n).2).toList

theorem after_withTrace (m : Machine τ) (trace : τ') (host : σ) (n : Nat) :
    (m.withTrace trace).after host n =
      ((m.after host n).1.withTrace ((m.recorded host n).foldl Trace.offer trace),
        (m.after host n).2) := by
  induction n with
  | zero => rfl
  | succ n ih =>
    rw [after, ih, step_withTrace, recorded, List.foldl_append]
    rfl

theorem after_trace (m : Machine τ) (host : σ) (n : Nat) :
    (m.after host n).1.trace = (m.recorded host n).foldl Trace.offer m.trace :=
  congrArg (fun state => state.1.trace) (m.after_withTrace m.trace host n)

theorem cycle_of_offered? {m : Machine τ} {host : σ} (hStart : m.cycles = 0) {n : Nat}
    {entry : Trace.Entry} (h : (m.after host n).1.offered? (m.after host n).2 = some entry) :
    entry.cycle = n := by
  obtain ⟨i, event, host', hExecuting, -, rfl⟩ := offered?_eq_some h
  have hCycles := cycles_of_running (executing?_eq_some_iff.1 hExecuting).1
  rw [hStart, Nat.zero_add] at hCycles
  exact hCycles

/-- The machine and the host after `n` steps, with `times k` as the time of the log in step number
`k`. -/
def timedAfter (m : Machine Trace.Log) (host : σ) (times : Nat → Timestamp) :
    Nat → Machine Trace.Log × σ
  | 0 => (m, host)
  | n + 1 =>
    let state := m.timedAfter host times n
    ((state.1.withTrace (state.1.trace.atTime (times n))).step state.2).2

/-- A log gets a line for every entry, with the time of the step. -/
theorem timedAfter_withTrace {m : Machine τ} (hStart : m.cycles = 0) (log : Trace.Log) (host : σ)
    (times : Nat → Timestamp) (n : Nat) :
    ∃ log' : Trace.Log,
      (m.withTrace log).timedAfter host times n =
        ((m.after host n).1.withTrace log', (m.after host n).2) ∧
      log'.lines.toList = log.lines.toList ++
        (m.recorded host n).map fun entry => Trace.Log.line (times entry.cycle) entry := by
  induction n with
  | zero => exact ⟨log, rfl, by simp [recorded]⟩
  | succ n ih =>
    obtain ⟨log', hState, hLines⟩ := ih
    have hStep := step_withTrace (m.after host n).1 (log'.atTime (times n)) (m.after host n).2
    refine ⟨((m.after host n).1.offered? (m.after host n).2).toList.foldl Trace.offer
      (log'.atTime (times n)), ?_, ?_⟩
    · rw [timedAfter, hState]
      exact congrArg Prod.snd hStep
    · -- An entry is offered by a machine that has not stopped, whose cycles count its steps.
      have hTimes : ∀ entry ∈ ((m.after host n).1.offered? (m.after host n).2).toList,
          Trace.Log.line (times n) entry = Trace.Log.line (times entry.cycle) entry := by
        intro entry hEntry
        rw [cycle_of_offered? hStart (Option.mem_toList.1 hEntry)]
      rw [Trace.lines_foldl_atTime, recorded, List.map_append, ← List.append_assoc, ← hLines,
        ← List.map_congr_left hTimes]

/-! ### Calls -/

theorem step_untraced (m : Machine τ) (host : σ) :
    m.untraced.step host =
      ((m.step host).1, (m.step host).2.1.untraced, (m.step host).2.2) :=
  m.step_withTrace Trace.Discard.mk host

theorem run_untraced (m : Machine τ) (host : σ) (fuel : Nat) :
    m.untraced.run fuel host =
      ((m.run fuel host).1, (m.run fuel host).2.1.untraced, (m.run fuel host).2.2) := by
  induction fuel generalizing m host with
  | zero => rfl
  | succ fuel ih =>
    rw [run, run, step_untraced]
    rcases m.step host with ⟨fault | halt | none, m', host'⟩
    · rfl
    · exact ih m' host'
    · rfl

theorem returns_untraced_iff {m : Machine τ} {host host' : σ} {final : Except Fault Halt}
    {plain : Machine Trace.Discard} :
    m.untraced.Returns host final plain host' ↔
      ∃ m', m.Returns host final m' host' ∧ m'.untraced = plain := by
  constructor
  · rintro ⟨fuel, hRun⟩
    rw [run_untraced] at hRun
    rcases hTraced : m.run fuel host with ⟨result, m', host₁⟩
    rw [hTraced] at hRun
    cases hRun
    exact ⟨m', ⟨fuel, hTraced⟩, rfl⟩
  · rintro ⟨m', ⟨fuel, hRun⟩, rfl⟩
    refine ⟨fuel, ?_⟩
    rw [run_untraced, hRun]

/-- A reply without the trace of its machine. -/
def Reply.untraced (reply : Reply τ σ) : Reply Trace.Discard σ :=
  ⟨reply.call, reply.result, reply.machine.untraced, reply.host⟩

theorem Session.untraced {m : Machine τ} {host : σ} {replies : List (Reply τ σ)}
    (h : Session m host replies) : Session m.untraced host (replies.map Reply.untraced) := by
  induction h with
  | nil => exact .nil
  | @step m m' host host' result rest hStep _ ih =>
    have hPlain : m.untraced.step host = (result, m'.untraced, host') := by
      rw [step_untraced, hStep]
    exact .step hPlain ih
  | run hReturns _ ih => exact .run (returns_untraced_iff.2 ⟨_, hReturns, rfl⟩) ih

theorem exists_session_of_untraced {plain : Machine Trace.Discard} {host : σ}
    {plainReplies : List (Reply Trace.Discard σ)} (h : Session plain host plainReplies)
    {m : Machine τ} (hPlain : m.untraced = plain) :
    ∃ replies, Session m host replies ∧ replies.map Reply.untraced = plainReplies := by
  induction h generalizing m with
  | nil => exact ⟨[], .nil, rfl⟩
  | @step plain plain' host host' result rest hStep _ ih =>
    rw [← hPlain, step_untraced] at hStep
    rcases hTraced : m.step host with ⟨result₁, m', host₁⟩
    rw [hTraced] at hStep
    cases hStep
    obtain ⟨replies, hRest, rfl⟩ := ih rfl
    exact ⟨_, .step hTraced hRest, rfl⟩
  | @run plain plain' host host' final rest hReturns _ ih =>
    rw [← hPlain] at hReturns
    obtain ⟨m', hTraced, hPlain'⟩ := returns_untraced_iff.1 hReturns
    obtain ⟨replies, hRest, rfl⟩ := ih hPlain'
    refine ⟨_, .run hTraced hRest, ?_⟩
    rw [← hPlain']
    rfl

/-- A program is loaded with any sink or with none.  Whatever the sink, the steps, and the calls
`step` and `run` in any order, give what they give without a trace, and leave the same machine but
for its sink, and the same host.  The entries that a sink in memory keeps, lent or not, are those
for which a log on the same run has lines, whatever the times that it reads. -/
theorem trace_only_observes (program : Program) (config : Config) (trace : τ) (host : σ) :
    load program config trace =
      (load program config Trace.Discard.mk).map (fun m => m.withTrace trace) ∧
    ∀ start, load program config Trace.Discard.mk = .ok start →
      (∀ n, (start.withTrace trace).answer host n = start.answer host n ∧
        ((start.withTrace trace).after host n).1.untraced = (start.after host n).1 ∧
        ((start.withTrace trace).after host n).2 = (start.after host n).2) ∧
      (∀ plain, Session start host plain ↔
        ∃ replies, Session (start.withTrace trace) host replies ∧
          replies.map Reply.untraced = plain) ∧
      ∀ n, ∃ entries : List Trace.Entry,
        ((start.withTrace (Trace.Memory.mk #[])).after host n).1.trace.entries.toList = entries ∧
        ((start.withTrace (Trace.Lent.mk (Trace.Memory.mk #[]))).after host
          n).1.trace.sink.entries.toList = entries ∧
        ∀ (source : String) (clock : Clock Timestamp) (times : Nat → Timestamp), ∃ log : Trace.Log,
          (start.withTrace (Trace.Log.start source clock)).timedAfter host times n =
            ((start.after host n).1.withTrace log, (start.after host n).2) ∧
          log.lines.toList =
            entries.map fun entry => Trace.Log.line (times entry.cycle) entry := by
  refine ⟨load_withTrace program config _ trace, fun start hLoad => ⟨fun n => ?_, fun plain => ?_,
    fun n => ⟨start.recorded host n, ?_, ?_, fun source clock times => ?_⟩⟩⟩
  · unfold answer
    rw [after_withTrace, step_withTrace]
    exact ⟨rfl, rfl, rfl⟩
  · constructor
    · intro hPlain
      exact exists_session_of_untraced hPlain rfl
    · rintro ⟨replies, hSession, rfl⟩
      exact hSession.untraced
  · rw [after_withTrace]
    exact Trace.foldl_offer_memory _ _
  · rw [after_withTrace, Trace.foldl_offer_lent]
    exact Trace.foldl_offer_memory _ _
  · obtain ⟨-, rfl⟩ := load_eq_ok_iff.1 hLoad
    exact timedAfter_withTrace rfl (Trace.Log.start source clock) host times n

/-- A console with one number to read. -/
def oneNumber : Host.Scripted :=
  .ofInput ["7"] 0 0

/-- A clock that goes on by a second with every step. -/
def everySecond (step : Nat) : Timestamp :=
  ⟨2024, 1, 1, 13, 45, 30 + step, 250⟩

theorem trace_only_observes_readOne :
    load readOne ⟨4, 1, none⟩ Trace.Discard.mk = .ok beforeRead ∧
    ((beforeRead.withTrace (Trace.Memory.mk #[])).after oneNumber 3).1.trace.entries.toList =
      [⟨0, 0, "SET", "Set value '1' into #0"⟩, ⟨1, 1, "IN", "Input value '7' into #0"⟩,
        ⟨2, 2, "OUT", "Output from #0 ('7')"⟩] ∧
    ((beforeRead.withTrace (Trace.Memory.mk #[])).after oneNumber 3).1.untraced =
      (beforeRead.after oneNumber 3).1 ∧
    ∃ log : Trace.Log,
      (beforeRead.withTrace (Trace.Log.start "" .hidden)).timedAfter oneNumber everySecond 3 =
        ((beforeRead.after oneNumber 3).1.withTrace log, (beforeRead.after oneNumber 3).2) ∧
      log.lines.toList =
        ["2024/01/01 - 13:45:30.000250:  \t[0000] SET  Set value '1' into #0",
          "2024/01/01 - 13:45:31.000250:  \t[0001] IN   Input value '7' into #0",
          "2024/01/01 - 13:45:32.000250:  \t[0002] OUT  Output from #0 ('7')"] := by
  have hLoad : load readOne ⟨4, 1, none⟩ Trace.Discard.mk = .ok beforeRead := rfl
  have hKept : ((beforeRead.withTrace (Trace.Memory.mk #[])).after oneNumber
      3).1.trace.entries.toList =
        [⟨0, 0, "SET", "Set value '1' into #0"⟩, ⟨1, 1, "IN", "Input value '7' into #0"⟩,
          ⟨2, 2, "OUT", "Output from #0 ('7')"⟩] := by
    decide +kernel
  obtain ⟨hSteps, -, hEntries⟩ :=
    (trace_only_observes readOne ⟨4, 1, none⟩ (Trace.Memory.mk #[]) oneNumber).2 beforeRead hLoad
  obtain ⟨entries, hMemory, -, hLog⟩ := hEntries 3
  obtain ⟨log, hState, hLines⟩ := hLog "" .hidden everySecond
  rw [← hMemory, hKept] at hLines
  exact ⟨hLoad, hKept, (hSteps 3).2.1, log, hState, hLines.trans (by decide +kernel)⟩

end Machine

end TapeMachine
