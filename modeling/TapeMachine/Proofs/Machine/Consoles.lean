import TapeMachine.Host.Console
import TapeMachine.Host.Scripted
import TapeMachine.Proofs.Machine.Control
import TapeMachine.Proofs.Machine.Hosts
import TapeMachine.Proofs.Text

/-! A console of bytes and a console of lines.  Both give the pieces of the input between its line
feeds, one with and one without the carriage returns at their ends, and an instruction trims what it
reads.  So as long as no clock is read, a machine does the same on both (`SameConsole`).  What is
shown on the console of bytes is told by the calls that the machine makes in order (`dialogue`): the
prompt for each line read and the lines written, each with a line feed. -/

namespace TapeMachine

namespace Host

variable {σ σ' α : Type}

/-! ### Calls in order -/

/-- A call of a host. -/
inductive Call where
  | readLine
  | writeLine (line : String)
  | now
  deriving DecidableEq

namespace Call

/-- The line that a call writes. -/
def written? : Call → Option String
  | writeLine line => some line
  | readLine | now => none

/-- What a call puts on a console of bytes that shows a prompt. -/
def shown (prompt : String) : Call → String
  | readLine => prompt
  | writeLine line => line ++ "\n"
  | now => ""

end Call

/-- A host that keeps the calls made of it. -/
structure Journalled (σ : Type) where
  host : σ
  /-- The calls in the order in which they were made. -/
  calls : List Call

instance [Host σ] : Host (Journalled σ) where
  readLine h := ((Host.readLine h.host).1, ⟨(Host.readLine h.host).2, h.calls ++ [.readLine]⟩)
  writeLine line h :=
    ((Host.writeLine line h.host).1, ⟨(Host.writeLine line h.host).2, h.calls ++ [.writeLine line]⟩)
  now h := ((Host.now h.host).1, ⟨(Host.now h.host).2, h.calls ++ [.now]⟩)

/-- Keeping the calls changes no answer. -/
theorem simulation_journalled [Host σ] :
    Simulation (fun _ : σ => True) fun h (h' : Journalled σ) => h'.host = h where
  readLine := by
    rintro _ h' rfl -
    exact ⟨rfl, rfl⟩
  writeLine line := by
    rintro rfl -
    exact ⟨rfl, rfl⟩
  now := by
    rintro _ h' rfl -
    exact ⟨rfl, rfl⟩
  readLine_back _ := trivial
  writeLine_back _ _ := trivial
  now_back _ := trivial

/-! ### Consoles that agree -/

/-- Related hosts give lines that are the same but for the blanks around them, write alike and stay
related.  Of their clocks nothing is said. -/
structure SameConsole [Host σ] [Host σ'] (R : σ → σ' → Prop) : Prop where
  readLine : ∀ {h h'}, R h h' →
    (Host.readLine h').1.map Text.trim = (Host.readLine h).1.map Text.trim ∧
      R (Host.readLine h).2 (Host.readLine h').2
  writeLine : ∀ {h h'} (line : String), R h h' →
    (Host.writeLine line h').1 = (Host.writeLine line h).1 ∧
      R (Host.writeLine line h).2 (Host.writeLine line h').2

namespace SameConsole

open Machine

variable [Host σ] [Host σ'] {R : σ → σ' → Prop} {h : σ} {h' : σ'}

theorem made (S : SameConsole R) (hR : R h h') {request : Request α} (hModest : request.Modest) :
    (request.made h').1 = (request.made h).1 ∧ R (request.made h).2 (request.made h').2 := by
  cases request with
  | none result => exact ⟨rfl, hR⟩
  | readLine use => exact (S.readLine hR).imp_left (hModest _ _)
  | writeLine line use => exact (S.writeLine line hR).imp_left (congrArg use)
  | now use => exact hModest.elim

variable {τ : Type} [Trace.Sink τ] {m : Machine τ} {n : Nat}

theorem step (S : SameConsole R) (hR : R h h') (hTime : ∀ dst, m.executing? ≠ some (.time dst)) :
    Lockstep R m h h' := by
  obtain ⟨request, hModest, hRequest⟩ := m.exists_step_request
  obtain ⟨hAnswer, hR'⟩ := S.made hR (hModest hTime)
  constructor <;> rw [hRequest h, hRequest h']
  · rw [hAnswer]
  · rw [hAnswer]
  · exact hR'

theorem inStep (S : SameConsole R)
    (hTime : ∀ k < n, ∀ dst, (m.after h k).1.executing? ≠ some (.time dst)) : InStep R m h n :=
  fun k hk _ hR => S.step hR (hTime k hk)

end SameConsole

/-! ### Lines of a console of bytes -/

namespace Console

theorem splitLine_of_not_mem {line : List UInt8} (h : 10 ∉ line) : splitLine line = (line, []) := by
  induction line with
  | nil => rfl
  | cons byte line ih =>
    obtain ⟨hByte, hLine⟩ := not_or.1 (mt List.mem_cons.2 h)
    rw [splitLine, if_neg (Ne.symm hByte), ih hLine]

theorem splitLine_append {line : List UInt8} (h : 10 ∉ line) (rest : List UInt8) :
    splitLine (line ++ 10 :: rest) = (line ++ [10], rest) := by
  induction line with
  | nil => rfl
  | cons byte line ih =>
    obtain ⟨hByte, hLine⟩ := not_or.1 (mt List.mem_cons.2 h)
    rw [List.cons_append, splitLine, if_neg (Ne.symm hByte), ih hLine, List.cons_append]

/-- The characters of a line end are blank, so a line may keep them until it is trimmed. -/
theorem trim_stripLineEnd (line : String) : Text.trim (stripLineEnd line) = Text.trim line := by
  have hBlank (c : Char) (hc : (c == '\n' || c == '\r') = true) : Text.isBlank c = true := by
    rcases Bool.or_eq_true_iff.1 hc with hc | hc <;> rw [beq_iff_eq.1 hc] <;> decide
  rw [stripLineEnd, Text.trim_dropEndWhile hBlank, String.ofList_toList]

theorem trim_newline (piece : String) : Text.trim (piece ++ "\n") = Text.trim piece := by
  have hBlank : ∀ c ∈ ['\n'], Text.isBlank c = true := List.forall_mem_singleton.2 (by decide)
  have hTrim := Text.trim_append hBlank piece.toList
  rwa [String.ofList_append, String.ofList_toList] at hTrim

/-- The bytes that are left of a text, and the lines that are left of it. -/
inductive Unread : List UInt8 → List String → Prop
  | text (text : String) : Unread (Text.encoded text.toList) (Text.pieces text)
  | nothing : Unread [] []

/-- A line of bytes is the next piece of the text but for the blanks around it. -/
theorem Unread.splitLine {bytes : List UInt8} {lines : List String} (h : Unread bytes lines) :
    (∃ line, Text.decode (splitLine bytes).1 = .ok line ∧
        Text.trim (stripLineEnd line) = Text.trim (lines.headD "")) ∧
      Unread (splitLine bytes).2 lines.tail := by
  have hEncoded {piece : String} (hUnbroken : '\n' ∉ piece.toList) :
      10 ∉ Text.encoded piece.toList :=
    fun hByte => hUnbroken (Text.lineFeed_mem_encoded hByte)
  have hLineFeed : Text.encoded "\n".toList = [10] := by decide
  cases h with
  | nothing => exact ⟨⟨"", Text.decode_eq_ok_iff.2 rfl, trim_stripLineEnd ""⟩, .nothing⟩
  | text text =>
    rcases Text.unbroken_or_newline text with hUnbroken | ⟨piece, rest, hUnbroken, rfl⟩
    · rw [splitLine_of_not_mem (hEncoded hUnbroken), Text.pieces_of_unbroken hUnbroken]
      exact ⟨⟨text, Text.decode_eq_ok_iff.2 rfl, trim_stripLineEnd text⟩, .nothing⟩
    · rw [String.toList_append, String.toList_append, Text.encoded_append, Text.encoded_append,
        hLineFeed, List.append_assoc, List.singleton_append, splitLine_append (hEncoded hUnbroken),
        Text.pieces_newline hUnbroken]
      refine ⟨⟨piece ++ "\n", Text.decode_eq_ok_iff.2 ?_, ?_⟩, .text rest⟩
      · rw [String.toList_append, Text.encoded_append, hLineFeed]
      · rw [trim_stripLineEnd, trim_newline]
        rfl

end Console

/-! ### The two consoles -/

theorem Console.readLine_eq (console : Console) :
    Host.readLine console =
      ((Text.decode (splitLine console.input).1).map stripLineEnd,
        { console with
          input := (splitLine console.input).2
          output := console.output ++ console.prompt?.getD "" }) := rfl

theorem Scripted.readLine_eq (host : Scripted) :
    Host.readLine host = (.ok (host.input.headD ""), { host with input := host.input.tail }) := by
  obtain ⟨input, output, clock, clockStep⟩ := host
  cases input <;> rfl

/-- A console of bytes and a console of lines after the same calls. -/
structure Paired (prompt : String) (h : Journalled Console) (h' : Journalled Scripted) : Prop where
  asks : h.host.prompt?.getD "" = prompt
  calls : h'.calls = h.calls
  unread : Console.Unread h.host.input h'.host.input
  shown : h.host.output = String.join (h.calls.map (Call.shown prompt))
  written : h'.host.output.toList = h.calls.filterMap Call.written?

theorem sameConsole_paired (prompt : String) : SameConsole (Paired prompt) where
  readLine := by
    intro h h' hPaired
    obtain ⟨⟨line, hLine, hTrim⟩, hRest⟩ := hPaired.unread.splitLine
    show (Host.readLine h'.host).1.map Text.trim = (Host.readLine h.host).1.map Text.trim ∧
      Paired prompt ⟨(Host.readLine h.host).2, h.calls ++ [.readLine]⟩
        ⟨(Host.readLine h'.host).2, h'.calls ++ [.readLine]⟩
    rw [Console.readLine_eq, Scripted.readLine_eq, hLine]
    refine ⟨congrArg Except.ok hTrim.symm, hPaired.asks, ?_, hRest, ?_, ?_⟩
    · simp only [hPaired.calls]
    · simp [hPaired.shown, hPaired.asks, Call.shown]
    · simp [hPaired.written, Call.written?]
  writeLine := by
    intro h h' line hPaired
    refine ⟨rfl, hPaired.asks, ?_, hPaired.unread, ?_, ?_⟩
    · show h'.calls ++ [Call.writeLine line] = h.calls ++ [Call.writeLine line]
      rw [hPaired.calls]
    · show h.host.output ++ line ++ "\n" =
        String.join ((h.calls ++ [Call.writeLine line]).map (Call.shown prompt))
      simp [hPaired.shown, Call.shown, String.append_assoc]
    · show (h'.host.output.push line).toList =
        (h.calls ++ [Call.writeLine line]).filterMap Call.written?
      simp [hPaired.written, Call.written?]

end Host

namespace Machine

open Host

variable {τ σ : Type} [Trace.Sink τ]

/-- The calls that the first `n` steps make of the host, in order. -/
def dialogue [Host σ] (m : Machine τ) (host : σ) (n : Nat) : List Call :=
  (m.after (Journalled.mk host []) n).2.calls

theorem after_journalled [Host σ] (m : Machine τ) (host : σ) (n : Nat) :
    m.after (Journalled.mk host []) n =
      ((m.after host n).1, ⟨(m.after host n).2, m.dialogue host n⟩) := by
  have hStart : (Journalled.mk host []).host = host := rfl
  obtain ⟨hSame, hHost⟩ := simulation_journalled.after (m := m) (n := n) hStart trivial
  rw [← hSame, ← hHost]
  rfl

theorem answer_journalled [Host σ] (m : Machine τ) (host : σ) (n : Nat) :
    m.answer (Journalled.mk host []) n = m.answer host n :=
  simulation_journalled.answer rfl trivial (Nat.lt_succ_self n)

theorem run_journalled [Host σ] (m : Machine τ) (host : σ) (n : Nat) :
    (m.run n (Journalled.mk host [])).1 = (m.run n host).1 :=
  simulation_journalled.run rfl trivial

/-- Without a prompt a console of bytes shows the lines written, each with a line feed. -/
theorem shown_without_prompt (calls : List Call) :
    String.join (calls.map (Call.shown "")) =
      String.join ((calls.filterMap Call.written?).map fun line => line ++ "\n") := by
  induction calls with
  | nil => rfl
  | cons call calls ih => cases call <;> simp [Call.shown, Call.written?, List.filterMap_cons, ih]

/-- A machine that executes no `TIME` does the same on a console with the bytes of a text and on one
with the pieces of the text as its lines: the steps and the run give the same results, leave the same
machine and make the same calls.  The lines written are those of the calls, and what is shown are
these lines with line feeds and the prompt at each call for a line. -/
theorem console_agrees_with_lines (m : Machine τ) {bytes : List UInt8} {text : String}
    (hText : Text.decode bytes = .ok text) (prompt? : Option String)
    (clock : Clock Int64) (clock' clockStep : Int64) {n : Nat}
    (hTime : ∀ k < n, ∀ dst,
      (m.after (Console.start bytes prompt? clock) k).1.executing? ≠ some (.time dst)) :
    ∃ (m' : Machine τ) (console : Console) (scripted : Scripted) (calls : List Call)
        (result? : Option (Except Fault Halt)),
      m.run n (Console.start bytes prompt? clock) = (result?, m', console) ∧
      m.run n (Scripted.ofInput (Text.pieces text) clock' clockStep) = (result?, m', scripted) ∧
      (∀ k < n, m.answer (Scripted.ofInput (Text.pieces text) clock' clockStep) k =
        m.answer (Console.start bytes prompt? clock) k) ∧
      m.dialogue (Console.start bytes prompt? clock) n = calls ∧
      m.dialogue (Scripted.ofInput (Text.pieces text) clock' clockStep) n = calls ∧
      scripted.output.toList = calls.filterMap Call.written? ∧
      console.output = String.join (calls.map (Call.shown (prompt?.getD ""))) ∧
      (prompt? = none →
        console.output = String.join (scripted.output.toList.map fun line => line ++ "\n")) := by
  generalize hConsole : Console.start bytes prompt? clock = start at hTime ⊢
  generalize hScripted : Scripted.ofInput (Text.pieces text) clock' clockStep = start'
  have hStart : Paired (prompt?.getD "") ⟨start, []⟩ ⟨start', []⟩ := by
    obtain rfl := Text.decode_eq_ok_iff.1 hText
    subst hConsole hScripted
    exact ⟨rfl, rfl, .text text, rfl, rfl⟩
  have hQuiet (k : Nat) (hk : k < n) (dst : Operand) :
      (m.after (Journalled.mk start []) k).1.executing? ≠ some (.time dst) := by
    rw [after_journalled]
    exact hTime k hk dst
  have hInStep := (sameConsole_paired (prompt?.getD "")).inStep hQuiet
  obtain ⟨hMachine, hHosts⟩ := hInStep.after hStart (Nat.le_refl n)
  have hRun := hInStep.run hStart
  rw [run_journalled, run_journalled] at hRun
  rw [after_journalled, after_journalled] at hMachine hHosts
  refine ⟨(m.after start n).1, (m.after start n).2, (m.after start' n).2, m.dialogue start n,
    (m.run n start).1, ?_, ?_, fun k hk => ?_, rfl, hHosts.calls, hHosts.written, hHosts.shown,
    ?_⟩
  · rw [← run_state]
  · rw [← hRun, ← hMachine, ← run_state]
  · have hAnswer := hInStep.answer hStart hk
    rwa [answer_journalled, answer_journalled] at hAnswer
  · rintro rfl
    exact hHosts.shown.trans (hHosts.written ▸ shown_without_prompt _)

theorem executing?_ne_time {program : Program} (h : ∀ dst, .time dst ∉ program.instructions)
    [Host σ] (config : Config) (trace : τ) (host : σ) (k : Nat) (dst : Operand) :
    ((initial program config trace).after host k).1.executing? ≠ some (.time dst) := by
  intro hExecuting
  obtain ⟨-, -, hCurrent⟩ := executing?_eq_some_iff.1 hExecuting
  have hAt := (addressed_after program config trace host k).get?_of_current? hCurrent
  exact h dst (List.mem_of_getElem? hAt)

/-- A program that reads a number, writes it and reads another. -/
def echo : Program :=
  ⟨[.input (.direct 0), .output (.direct 0), .input (.direct 0)], .ofList []⟩

/-- A small machine at the start of `echo`, with a trace. -/
def beforeEcho : Machine Trace.Memory :=
  initial echo ⟨4, 1, none⟩ ⟨#[]⟩

theorem console_agrees_with_lines_echo :
    Text.decode [55, 13, 10, 32, 120, 13] = .ok "7\r\n x\r" ∧
    Text.pieces "7\r\n x\r" = ["7\r", " x\r"] ∧
    (∀ k < 4, ∀ dst,
      (beforeEcho.after (Console.start [55, 13, 10, 32, 120, 13] (some "? ") (0 : Int64))
        k).1.executing? ≠ some (.time dst)) ∧
    ∃ (m : Machine Trace.Memory) (console : Console) (scripted : Scripted),
      beforeEcho.run 4 (Console.start [55, 13, 10, 32, 120, 13] (some "? ") (0 : Int64)) =
        (some (.error ⟨2, "IN", .inputParseFailure "x"⟩), m, console) ∧
      beforeEcho.run 4 (Scripted.ofInput ["7\r", " x\r"] 5 1) =
        (some (.error ⟨2, "IN", .inputParseFailure "x"⟩), m, scripted) ∧
      console.output = "? 7\n? " ∧ scripted.output.toList = ["7"] := by
  have hText : Text.decode [55, 13, 10, 32, 120, 13] = .ok "7\r\n x\r" :=
    Text.decode_eq_ok_iff.2 (by decide +kernel)
  have hPieces : Text.pieces "7\r\n x\r" = ["7\r", " x\r"] := by decide +kernel
  have hTimeless : ∀ dst, Instruction.time dst ∉ echo.instructions := by simp [echo]
  have hTime (k : Nat) (_ : k < 4) := executing?_ne_time hTimeless ⟨4, 1, none⟩
    (Trace.Memory.mk #[]) (Console.start [55, 13, 10, 32, 120, 13] (some "? ") (0 : Int64)) k
  have hResult : (beforeEcho.run 4 (Scripted.ofInput ["7\r", " x\r"] 5 1)).1 =
      some (.error ⟨2, "IN", .inputParseFailure "x"⟩) := by decide +kernel
  have hCalls : beforeEcho.dialogue (Scripted.ofInput ["7\r", " x\r"] 5 1) 4 =
      [.readLine, .writeLine "7", .readLine] := by decide +kernel
  obtain ⟨m, console, scripted, calls, result?, hRun, hRun', -, -, hSame, hWritten, hShown, -⟩ :=
    console_agrees_with_lines beforeEcho hText (some "? ") (0 : Int64) 5 1 hTime
  rw [hPieces] at hRun' hSame
  obtain rfl := hCalls.symm.trans hSame
  obtain rfl : result? = _ := (congrArg Prod.fst hRun').symm.trans hResult
  exact ⟨hText, hPieces, hTime, m, console, scripted, hRun, hRun', hShown, hWritten⟩

end Machine

end TapeMachine
