import TapeMachine.Proofs.CommandLine
import TapeMachine.Proofs.Diagnostic
import TapeMachine.Proofs.Trace.Rows

/-! The file that a run with a trace writes.  It shows the source, and below it one row for every
entry that a sink in memory keeps in the same run and one for the fault that ended it
(`trace?_eq_finished`).  No row is broken, so the rows are the last lines of the file
(`Shows.lines`). -/

namespace TapeMachine

theorem Directory.writable_of_place {path name : String} (h : place path = .file name)
    (d : Directory) : d.Writable path := by
  intro content
  unfold write
  rw [h]
  exact ⟨_, rfl⟩

theorem Directory.read_of_write {d d' : Directory} {path : String} {content : List UInt8}
    (h : d.write path content = .ok d') : d'.read path = .ok content := by
  unfold write at h
  split at h
  case h_5 name hPlace =>
    cases h
    simp [read, hPlace, get?]
  all_goals cases h

/-! ### The run -/

namespace Machine

variable {τ τ' σ : Type} [Host σ] [Trace.Sink τ] [Trace.Sink τ'] {m m' : Machine τ}
  {host host' : σ} {n : Nat} {final : Except Fault Halt}

theorem answer_withTrace (m : Machine τ) (trace : τ') (host : σ) (n : Nat) :
    (m.withTrace trace).answer host n = m.answer host n := by
  unfold answer
  rw [after_withTrace, step_withTrace]

/-- A run with another sink stops at the same step, with all entries so far offered to the sink. -/
theorem StopsAt.withTrace (h : m.StopsAt host n final m' host') (trace : τ') :
    (m.withTrace trace).StopsAt host n final
      (m'.withTrace ((m.recorded host (n + 1)).foldl Trace.offer trace)) host' where
  before k hk := by rw [answer_withTrace, h.before k hk]
  answer := by rw [answer_withTrace, h.answer]
  state := by rw [after_withTrace, h.state]

theorem StopsAt.running (h : m.StopsAt host n final m' host') (hStart : m.halted? = none) :
    (m.after host n).1.halted? = none := by
  cases n with
  | zero => exact hStart
  | succ n =>
    rw [after_succ_halted?, h.before n (Nat.lt_succ_self n)]
    rfl

theorem step_ne_faulted (h : m.halted? = none) (host : σ) :
    (m.step host).1 ≠ .ok (some .faulted) := by
  have hOutcome := m.step_outcome host
  generalize m.step host = outcome at hOutcome
  cases hOutcome with
  | stopped hHalted =>
    rw [h] at hHalted
    cases hHalted
  | ended | limited | faulted => nofun
  | @executed i event host' hExecuting =>
    rw [report_eq_withTrace]
    show Except.ok (if event = .terminate then some .terminated else m.halted?) ≠ _
    rw [h]
    split <;> nofun

/-- A machine that had not stopped ends a run as faulted exactly when the run gives a fault. -/
theorem StopsAt.faulted_iff (h : m.StopsAt host n final m' host') (hStart : m.halted? = none) :
    m'.halted? = some .faulted ↔ ∃ fault, final = .error fault := by
  have hHalted : m'.halted? = haltOf (final.map some) := by
    have hAfter := m.after_succ_halted? host n
    rwa [h.state, h.answer] at hAfter
  rw [hHalted]
  rcases final with fault | halt
  · exact iff_of_true rfl ⟨fault, rfl⟩
  · -- Only a machine that has already stopped gives this halt.
    refine iff_of_false ?_ nofun
    rintro ⟨⟩
    exact step_ne_faulted (h.running hStart) _ h.answer

end Machine

/-! ### The file -/

namespace Trace

open Text

/-- A text is the source without the blanks at its end, an empty line, and rows with a line feed
after each. -/
def Shows (file source : String) (rows : List String) : Prop :=
  ∃ kept blanks : String, source = kept ++ blanks ∧
    (∀ c ∈ blanks.toList, isBlank c = true) ∧
    (∀ c ∈ kept.toList.getLast?, isBlank c = false) ∧
    file = kept ++ "\n\n" ++ String.join (rows.map (· ++ "\n"))

theorem foldl_newline (rows : List String) (text : String) :
    rows.foldl (fun text row => text ++ row ++ "\n") text =
      text ++ String.join (rows.map (· ++ "\n")) := by
  induction rows generalizing text with
  | nil => simp
  | cons row rows ih =>
    rw [List.foldl_cons, ih]
    simp [String.append_assoc]

theorem Log.shows_render (log : Log) : Shows log.render log.program log.lines.toList := by
  obtain ⟨ending, hSource, hBlank⟩ := exists_dropEndWhile_append isBlank log.program.toList
  refine ⟨trimEnd log.program, String.ofList ending, ?_, ?_, ?_, ?_⟩
  · rw [trimEnd, ← String.ofList_append, ← hSource, String.ofList_toList]
  · rwa [String.toList_ofList]
  · rw [trimEnd, String.toList_ofList]
    exact getLast?_dropEndWhile isBlank log.program.toList
  · rw [render, ← Array.foldl_toList, foldl_newline]

/-- Only one text shows a source with given rows. -/
theorem Shows.eq {file source : String} {rows : List String} (h : Shows file source rows) :
    file = trimEnd source ++ "\n\n" ++ String.join (rows.map (· ++ "\n")) := by
  obtain ⟨kept, blanks, rfl, hBlanks, hKept, rfl⟩ := h
  have hTrim : dropEndWhile isBlank kept.toList = kept.toList := by
    simpa [dropEndWhile] using dropEndWhile_append_of_kept hKept []
  rw [trimEnd, String.toList_append, dropEndWhile_append hBlanks, hTrim, String.ofList_toList]

theorem Shows.lines {file source : String} {rows : List String} (h : Shows file source rows)
    (hRows : ∀ row ∈ rows, IsRow row) : rows <:+ lines file := by
  obtain ⟨kept, blanks, -, -, -, rfl⟩ := h
  obtain ⟨above, hAbove⟩ := exists_lines_append (kept ++ "\n") (String.join (rows.map (· ++ "\n")))
  refine ⟨above, ?_⟩
  have hFeeds : kept ++ "\n" ++ "\n" = kept ++ "\n\n" := String.append_assoc
  rw [← hFeeds, hAbove, lines_join hRows]

end Trace

/-! ### The command line -/

namespace CommandLine

open Machine Host Text Trace

/-- The text of the last row in the trace of a run that gave a fault. -/
def faultTexts : Except Fault Halt → List String
  | .error fault => ["error: " ++ fault.message]
  | .ok _ => []

namespace Job

variable {job : Job} {directory : Directory} {path source : String} {program : Program}
  {m m' : Machine Trace.Memory} {console console' : Console} {n fuel : Nat}
  {final : Except Fault Halt}

theorem load_of_logs? (hLogs : job.options.logs? = some path)
    (hLoad : Machine.load program job.options.config (Trace.Memory.mk #[]) = .ok m) :
    job.load source program = .ok (m.withTrace (some (Log.start source job.times.rows))) := by
  rw [load, hLogs, load_withTrace program _ (Trace.Memory.mk #[]), hLoad]
  rfl

/-- The log of a run that has stopped. -/
def finished (job : Job) (source : String) (entries : List Entry) (final : Except Fault Halt) :
    Log :=
  (entries.map Entry.text ++ faultTexts final).foldl Log.note (.start source job.times.rows)

theorem finished_program (job : Job) (entries : List Entry) :
    (job.finished source entries final).program = source := by
  apply List.foldlRecOn (motive := fun log : Log => log.program = source)
  · rfl
  · intro log hLog text _
    exact hLog

theorem finished_lines (job : Job) (entries : List Entry) :
    (job.finished source entries final).lines.toList =
      (entries.map Entry.text ++ faultTexts final).mapIdx fun n text =>
        (job.times.rows.reading n).traceText ++ ":  \t" ++ text :=
  Log.lines_foldl_note _ _

theorem trace?_eq_finished (hLogs : job.options.logs? = some path) (entries : List Entry) :
    job.trace? (m.withTrace
      (entries.foldl offer (some (Log.start source job.times.rows)))) final =
      some (path, job.finished source entries final) := by
  have hTrace : (m.withTrace (entries.foldl offer (some (Log.start source job.times.rows)))).trace =
      some ((entries.map Entry.text).foldl Log.note (.start source job.times.rows)) := by
    rw [← foldl_offer_log, ← foldl_offer_some]
    rfl
  unfold trace? finished
  rw [hLogs, hTrace, List.foldl_append]
  cases final <;> rfl

/-- A run that stops leaves its trace at the path and reports the number of rows. -/
theorem run_writes_trace (hLogs : job.options.logs? = some path)
    (hWritable : directory.Writable path)
    (hSource : job.source (directory.read job.options.file) = .ok source)
    (hProgram : Assembly.assemble source = .ok program)
    (hLoad : Machine.load program job.options.config (Trace.Memory.mk #[]) = .ok m)
    (hStops : m.StopsAt console n final m' console') (hFuel : n < fuel) :
    ∃ outcome, job.run fuel console directory = some outcome ∧
      (∃ content, outcome.directory.read path = .ok content ∧
        decode content = .ok (job.finished source (m.recorded console (n + 1)) final).render) ∧
      ∃ before after, outcome.stderr =
        before ++ job.writtenText path (job.finished source (m.recorded console (n + 1)) final) ++
          after := by
  have hRun := (hStops.withTrace (some (Log.start source job.times.rows))).run hFuel
  obtain ⟨written, hWrite⟩ :=
    hWritable (encode (job.finished source (m.recorded console (n + 1)) final).render)
  unfold run
  simp only [hSource, hProgram]
  unfold runProgram
  simp only [load_of_logs? hLogs hLoad, hRun, Option.map_some, trace?_eq_finished hLogs, hWrite]
  exact ⟨_, rfl, ⟨_, Directory.read_of_write hWrite, decode_encode _⟩, _,
    (job.conclude (final.mapError .runtime)).2, rfl⟩

theorem isRow_of_mem_finished (hStops : m.StopsAt console n final m' console') {row : String}
    (h : row ∈ (job.finished source (m.recorded console (n + 1)) final).lines.toList) :
    IsRow row := by
  rw [finished_lines] at h
  obtain ⟨number, hNumber, rfl⟩ := List.mem_mapIdx.1 h
  refine (job.times.rows.reading number).isRow_traceText.around ?_
  generalize hText : (_ : List String)[number] = text
  have hMem := List.getElem_mem hNumber
  rw [hText] at hMem
  rcases List.mem_append.1 hMem with hEntry | hFault
  · obtain ⟨entry, hRecorded, rfl⟩ := List.mem_map.1 hEntry
    exact isRow_of_mem_recorded hRecorded
  · rcases final with fault | halt
    · obtain rfl := List.mem_singleton.1 hFault
      exact .append (by decide) (isRow_of_step_error hStops.answer)
    · cases hFault

end Job

/-- A command line that asks for a trace at a path that can be written, and names a file whose
source is assembled and loaded, leaves the trace of the run there, however the run ends.  Its rows
show the entries that a sink in memory keeps, and last the fault if the run gave one, each with a
clock reading of its own.  None is broken, and they are the last lines of the file, as many as the
run reports. -/
theorem execute_writes_trace_file {environment : String → Option String}
    {arguments : List String} {options : Options} {directory : Directory} {path source : String}
    {bytes : List UInt8} {program : Program} {m m' : Machine Trace.Memory}
    {console console' : Console} {final : Except Fault Halt} (times : Times)
    (hParse : parse environment arguments = .ok (.run options))
    (hLogs : options.logs? = some path) (hWritable : directory.Writable path)
    (hRead : directory.read options.file = .ok bytes) (hDecode : decode bytes = .ok source)
    (hProgram : Assembly.assemble source = .ok program)
    (hLoad : Machine.load program options.config (Trace.Memory.mk #[]) = .ok m)
    (hReturns : m.Returns console final m' console') :
    ∃ (rows : List String) (file : String),
      rows = (m'.trace.entries.toList.map Entry.text ++ faultTexts final).mapIdx (fun n text =>
        (times.rows.reading n).traceText ++ ":  \t" ++ text) ∧
      (m'.halted? = some .faulted ↔ ∃ fault, final = .error fault) ∧
      Shows file source rows ∧ (∀ row ∈ rows, '\n' ∉ row.toList) ∧ rows <:+ lines file ∧
      ∃ enough, ∀ fuel ≥ enough, ∃ outcome,
        execute environment arguments times fuel console directory = some outcome ∧
        (∃ content, outcome.directory.read path = .ok content ∧ decode content = .ok file) ∧
        ∃ before after, outcome.stderr =
          before ++ (options.logging (coloursAllowed environment)).line (times.logged .writing)
            .info s!"Trace written to {path} ({decimal rows.length} entries)" ++ after := by
  obtain ⟨n, hStops⟩ := returns_iff.1 hReturns
  let job : Job := ⟨options, options.logging (coloursAllowed environment), times⟩
  have hInitial : m.trace = Trace.Memory.mk #[] ∧ m.halted? = none := by
    obtain ⟨-, rfl⟩ := load_eq_ok_iff.1 hLoad
    exact ⟨rfl, rfl⟩
  have hEntries : m'.trace.entries.toList = m.recorded console (n + 1) := by
    have hTrace := m.after_trace console (n + 1)
    rw [hStops.state, hInitial.1] at hTrace
    rw [hTrace, foldl_offer_memory]
    rfl
  have hRows : ∀ row ∈ (job.finished source (m.recorded console (n + 1)) final).lines.toList,
      IsRow row := fun _ h => Job.isRow_of_mem_finished hStops h
  have hShows := (job.finished source (m.recorded console (n + 1)) final).shows_render
  rw [Job.finished_program] at hShows
  refine ⟨_, _, ?_, hStops.faulted_iff hInitial.2, hShows, fun row h => (hRows row h).unbroken,
    hShows.lines hRows, n + 1, fun fuel hFuel => ?_⟩
  · rw [hEntries, Job.finished_lines]
  · rw [execute_of_parse hParse]
    exact job.run_writes_trace hLogs hWritable (Job.source_eq_ok_iff.2 ⟨bytes, hRead, hDecode⟩)
      hProgram hLoad hStops hFuel

/-- A source that reads a value, prints it and reads another. -/
def askTwice : String :=
  "IN 0\nOUT 0\nIN 1 \n\n"

/-- The program of `askTwice`. -/
def askTwiceProgram : Program :=
  ⟨[.input (.direct 0), .output (.direct 0), .input (.direct 1)], .ofList []⟩

theorem execute_writes_trace_file_askTwice :
    ∃ directory : Directory,
      directory.read "a.asm" = .ok (encoded askTwice.toList) ∧ directory.Writable "run.log" ∧
      ∃ rows : List String,
        rows = ["2024/01/01 - 13:45:30.000250:  \t[0000] IN   Input value '5' into #0",
          "2024/01/01 - 13:45:31.000250:  \t[0001] OUT  Output from #0 ('5')",
          "2024/01/01 - 13:45:32.000250:  \terror: instruction 2 (IN): " ++
            "input 'x y' is not an integer"] ∧
        ∃ enough, ∀ fuel ≥ enough, ∃ outcome content,
          execute (fun _ => none) traceQuietly { Times.hidden with rows := ⟨everySecond⟩ } fuel
            (Console.start (encoded "5\n x y \n".toList) none (0 : Int64)) directory =
              some outcome ∧
          outcome.directory.read "run.log" = .ok content ∧
          decode content = .ok ("IN 0\nOUT 0\nIN 1\n\n" ++ String.join (rows.map (· ++ "\n"))) := by
  have hStops : (initial askTwiceProgram smallConfig (Trace.Memory.mk #[])).StopsAt
      (Console.start (encoded "5\n x y \n".toList) none (0 : Int64)) 2
      (.error ⟨2, "IN", .inputParseFailure "x y"⟩) _ _ :=
    ⟨by decide +kernel, by decide +kernel, rfl⟩
  have hPlace : Directory.place "run.log" = .file "run.log" := by decide +kernel
  have hWritable : Directory.Writable ⟨[("a.asm", encoded askTwice.toList)]⟩ "run.log" :=
    Directory.writable_of_place hPlace _
  have hRead : Directory.read ⟨[("a.asm", encoded askTwice.toList)]⟩ "a.asm" =
      .ok (encoded askTwice.toList) := by
    decide +kernel
  have hParse : parse (fun _ => none) traceQuietly =
      .ok (.run ⟨"a.asm", some "run.log", 2, 4, none, true, false, true, false, false⟩) := by
    decide +kernel
  have hAssemble : Assembly.assemble askTwice = .ok askTwiceProgram := by decide +kernel
  obtain ⟨rows, file, hRows, -, hShows, -, -, enough, hWritten⟩ :=
    execute_writes_trace_file { Times.hidden with rows := ⟨everySecond⟩ } hParse rfl hWritable hRead
      (decode_eq_ok_iff.2 rfl) hAssemble (load_eq_ok_iff.2 ⟨by decide, rfl⟩)
      (returns_iff.2 ⟨2, hStops⟩)
  have hKept : trimEnd askTwice = "IN 0\nOUT 0\nIN 1" := by decide +kernel
  refine ⟨_, hRead, hWritable, rows, ?_, enough, fun fuel hFuel => ?_⟩
  · rw [hRows]
    decide +kernel
  · obtain ⟨outcome, hExecute, ⟨content, hContent, hFile⟩, -⟩ := hWritten fuel hFuel
    refine ⟨outcome, content, hExecute, hContent, ?_⟩
    rw [hFile, hShows.eq, hKept]
    rfl

end CommandLine

end TapeMachine
