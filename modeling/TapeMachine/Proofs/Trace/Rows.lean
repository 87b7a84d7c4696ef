import TapeMachine.Proofs.Machine.Consoles
import TapeMachine.Proofs.Machine.Faults
import TapeMachine.Proofs.Machine.Trace
import TapeMachine.Proofs.Trace.Detail

/-! The texts of a trace log take one line each.  An entry is made of words, numbers and marks
(`isRow_of_mem_recorded`).  The message of a fault may quote a line of the input, but only without
the line feed that ended it and the blanks around it (`isRow_of_step_error`). -/

namespace TapeMachine

open Source

/-! ### Parts of a line -/

namespace Text

theorem IsRow.append {a b : String} (ha : IsRow a) (hb : IsRow b) : IsRow (a ++ b) := by
  constructor
  · rw [String.toList_append, List.mem_append]
    exact not_or.2 ⟨ha.unbroken, hb.unbroken⟩
  · rw [String.toList_append, List.getLast?_append]
    cases hLast : b.toList.getLast? with
    | none => exact ha.ending
    | some c =>
      rw [Option.some_or, ← hLast]
      exact hb.ending

theorem IsRow.around {a b : String} (ha : IsRow a) (hb : IsRow b) {mark : String}
    (hMark : IsRow mark := by decide) : IsRow (a ++ mark ++ b) :=
  (ha.append hMark).append hb

theorem isRow_of_isDigit {s : String} (h : ∀ c ∈ s.toList, Numeral.isDigit c = true) :
    IsRow s := by
  apply isRow_of_forall
  intro c hc
  constructor <;> rintro rfl <;> exact absurd (h _ hc) (by decide)

theorem isRow_decimal (n : Nat) : IsRow (decimal n) :=
  isRow_of_isDigit fun _ => Numeral.isDigit_of_mem_decimal

theorem isRow_zeroPad (width n : Nat) : IsRow (zeroPad width n) := by
  apply isRow_of_isDigit
  intro c hc
  rw [zeroPad, String.toList_ofList, List.mem_append] at hc
  rcases hc with hZero | hDigit
  · rw [(List.mem_replicate.1 hZero).2]
    decide
  · exact Numeral.isDigit_of_mem_toDigits hDigit

theorem isRow_padRight {s : String} (h : IsRow s) (width : Nat) : IsRow (padRight width s) := by
  apply h.append
  apply isRow_of_forall
  intro c hc
  rw [String.toList_ofList] at hc
  rw [(List.mem_replicate.1 hc).2]
  decide

theorem mem_of_mem_trim {s : String} {c : Char} (h : c ∈ (trim s).toList) : c ∈ s.toList := by
  obtain ⟨ending, hKept, -⟩ := exists_dropEndWhile_append isBlank (s.toList.dropWhile isBlank)
  rw [trim, String.toList_ofList] at h
  apply (List.dropWhile_sublist isBlank).subset
  rw [hKept]
  exact List.mem_append_left _ h

/-- A trimmed text has no carriage return at its end. -/
theorem isRow_trim {s : String} (h : '\n' ∉ (trim s).toList) : IsRow (trim s) := by
  refine ⟨h, fun hLast => ?_⟩
  rw [trim, String.toList_ofList] at hLast
  exact absurd (getLast?_dropEndWhile isBlank _ '\r' hLast) (by decide)

end Text

open Text

theorem Numeral.isRow_ofInt64 (v : Int64) : IsRow (ofInt64 v) := by
  unfold ofInt64 ofInt
  split
  · exact .append (by decide) (isRow_decimal _)
  · exact isRow_decimal _

theorem Source.IsWord.isRow {word : String} (h : IsWord word) : IsRow word :=
  isRow_of_forall fun c hc => (h.plain c hc).unbroken

theorem Timestamp.isRow_traceText (t : Timestamp) : IsRow t.traceText := by
  have hDate : IsRow (zeroPad 4 t.year ++ "/" ++ zeroPad 2 t.month ++ "/" ++ zeroPad 2 t.day) :=
    ((isRow_zeroPad 4 t.year).around (isRow_zeroPad 2 t.month)).around (isRow_zeroPad 2 t.day)
  have hClock : IsRow t.clockText :=
    ((isRow_zeroPad 2 t.hour).around (isRow_zeroPad 2 t.minute)).around (isRow_zeroPad 2 t.second)
  exact (hDate.around hClock).around (isRow_zeroPad 6 t.micros)

/-! ### Entries -/

/-- The characters of a detail are marks or belong to its words, or divide them. -/
theorem Event.isRow_detail (event : Event) : IsRow event.detail := by
  apply isRow_of_forall
  intro c hc
  by_cases hMark : Trace.isMark c = true
  · constructor <;> rintro rfl <;> exact absurd hMark (by decide)
  · have hKept : c ∈ (Trace.unmarked event.detail).toList := by
      rw [Trace.unmarked, String.toList_ofList, List.mem_filter]
      exact ⟨hc, by simpa using hMark⟩
    rw [unmarked_detail] at hKept
    obtain hPlain | rfl := mem_intercalate event.isWord_words hKept
    · exact hPlain.unbroken
    · decide

theorem Trace.Entry.isRow_text {entry : Trace.Entry} (hMnemonic : IsRow entry.mnemonic)
    (hDetail : IsRow entry.detail) : IsRow entry.text := by
  have hPlace : IsRow ("[" ++ zeroPad 4 entry.pc) := .append (by decide) (isRow_zeroPad _ _)
  exact (hPlace.around (isRow_padRight hMnemonic 4)).around hDetail

namespace Machine

variable {τ σ : Type} [Host σ] [Trace.Sink τ] {m : Machine τ}

theorem isRow_of_mem_recorded {host : σ} {n : Nat} {entry : Trace.Entry}
    (h : entry ∈ m.recorded host n) : IsRow entry.text := by
  induction n with
  | zero => cases h
  | succ n ih =>
    rw [recorded, List.mem_append, Option.mem_toList] at h
    rcases h with hBefore | hLast
    · exact ih hBefore
    · obtain ⟨i, event, -, -, -, rfl⟩ := offered?_eq_some hLast
      exact Trace.Entry.isRow_text i.opcode.isWord_mnemonic.isRow event.isRow_detail

end Machine

/-! ### Faults -/

/-- A message takes one line if what it quotes from the console does. -/
theorem Fault.Cause.isRow_message {cause : Fault.Cause}
    (hInput : ∀ input, cause = .inputParseFailure input → IsRow input)
    (hReason : ∀ reason, cause = .console reason → IsRow reason) : IsRow cause.message := by
  cases cause with
  | outOfBounds address capacity =>
    have hAddress : IsRow ("address " ++ Numeral.ofInt64 address) :=
      .append (by decide) (Numeral.isRow_ofInt64 address)
    exact (hAddress.around (isRow_decimal capacity)).append (by decide)
  | uninitializedRead address => exact .append (.append (by decide) (isRow_decimal _)) (by decide)
  | divisionByZero => decide
  | inputParseFailure input => exact .append (.append (by decide) (hInput input rfl)) (by decide)
  | cycleLimitExceeded limit => exact .append (.append (by decide) (isRow_decimal _)) (by decide)
  | programTooLarge length capacity =>
    have hLength : IsRow ("program has " ++ decimal length) :=
      .append (by decide) (isRow_decimal length)
    exact hLength.around (isRow_decimal capacity)
  | console reason => exact .append (by decide) (hReason reason rfl)

namespace Host.Console

/-- What is split off as a line is a line. -/
theorem splitLine_fst (bytes : List UInt8) :
    splitLine (splitLine bytes).1 = ((splitLine bytes).1, []) := by
  induction bytes with
  | nil => rfl
  | cons byte bytes ih =>
    by_cases hFeed : byte = 10
    · simp [splitLine, hFeed]
    · simp [splitLine, hFeed, ih]

/-- An input line has no line feed in it once it is trimmed. -/
theorem isRow_trim_readLine {console : Console} {line : String}
    (h : (Host.readLine console).1 = .ok line) : IsRow (trim line) := by
  rw [readLine_eq] at h
  obtain ⟨text, hDecode, rfl⟩ := Outcome.map_eq_ok_iff.1 h
  have hBytes := decode_eq_ok_iff.1 hDecode
  rw [trim_stripLineEnd]
  apply isRow_trim
  rcases unbroken_or_newline text with hUnbroken | ⟨piece, rest, hUnbroken, rfl⟩
  · exact fun hFeed => hUnbroken (mem_of_mem_trim hFeed)
  · -- The line feed of a line is its last byte, so that nothing follows it in the text.
    have hLine := splitLine_fst console.input
    have hLineFeed : encoded "\n".toList = [10] := by decide
    have hPiece : 10 ∉ encoded piece.toList := fun hByte => hUnbroken (lineFeed_mem_encoded hByte)
    rw [hBytes, String.toList_append, String.toList_append, encoded_append, encoded_append,
      hLineFeed, List.append_assoc, List.singleton_append, splitLine_append hPiece,
      Prod.mk.injEq] at hLine
    have hRest : rest = "" := by
      have hEmpty : decode [] = .ok "" := decode_eq_ok_iff.2 rfl
      rw [decode_eq_ok_iff.2 hLine.2.symm] at hEmpty
      exact Except.ok.inj hEmpty
    rw [hRest, String.append_empty, trim_newline]
    exact fun hFeed => hUnbroken (mem_of_mem_trim hFeed)

theorem isRow_reason {console : Console} {reason : String}
    (h : (Host.readLine console).1 = .error reason) : IsRow reason := by
  rw [readLine_eq] at h
  unfold decode at h
  split at h <;> cases h
  decide

end Host.Console

open Host

/-- The message of a fault that a step on a console gives takes one line. -/
theorem Machine.isRow_of_step_error {τ : Type} [Trace.Sink τ] {m : Machine τ} {console : Console}
    {fault : Fault} (h : (m.step console).1 = .error fault) : IsRow fault.message := by
  have hMessage (pc : Nat) (i : Instruction) (cause : Fault.Cause) (hCause : IsRow cause.message) :
      IsRow (Fault.message ⟨pc, i.mnemonic, cause⟩) := by
    have hMnemonic : IsRow i.mnemonic := i.opcode.isWord_mnemonic.isRow
    have hPlace : IsRow ("instruction " ++ decimal pc) := .append (by decide) (isRow_decimal pc)
    exact hPlace.around hCause (.append (.append (by decide) hMnemonic) (by decide))
  have hOutcome := m.step_outcome console
  generalize m.step console = outcome at hOutcome h
  cases hOutcome with
  | stopped | ended | executed => cases h
  | limited =>
    cases h
    exact hMessage _ _ _ (Fault.Cause.isRow_message nofun nofun)
  | @faulted i cause _ _ hPerform =>
    cases h
    have hCauses : Outcome.FailsWith (fun cause => IsRow cause.message)
        (m.perform i console).1 := by
      refine failsWith_perform_of (fun e => ?_) (by decide) (fun line hLine => ?_)
        (fun reason hReason => ?_) nofun m i
      · cases e <;> exact Fault.Cause.isRow_message nofun nofun
      · refine Fault.Cause.isRow_message ?_ nofun
        rintro _ ⟨⟩
        exact Console.isRow_trim_readLine hLine
      · refine Fault.Cause.isRow_message nofun ?_
        rintro _ ⟨⟩
        exact Console.isRow_reason hReason
    exact hMessage _ _ _ (hCauses cause (by rw [hPerform]))

end TapeMachine
