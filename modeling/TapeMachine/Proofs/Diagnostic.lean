import TapeMachine.Diagnostic
import TapeMachine.Proofs.Numeral
import TapeMachine.Proofs.Source.Layout
import TapeMachine.Proofs.Source.Tokens

/-! The picture of a diagnostic.  Its last two lines are the source line after its number, and a
caret that stands under the first character of the word at fault (`Diagnostic.lines_render`). -/

namespace TapeMachine

namespace Text

theorem newline_not_mem_linesFrom {reversed cs line : List Char} (hTaken : '\n' ∉ reversed)
    (h : line ∈ linesFrom reversed cs) : '\n' ∉ line := by
  induction cs generalizing reversed with
  | nil =>
    unfold linesFrom at h
    split at h
    · cases h
    · obtain rfl := List.mem_singleton.1 h
      rwa [List.mem_reverse]
  | cons c cs ih =>
    unfold linesFrom at h
    split at h
    case isTrue =>
      rcases List.mem_cons.1 h with rfl | h
      · unfold endLine
        split
        · rw [List.mem_reverse]
          exact fun hMem => hTaken (List.mem_cons_of_mem _ hMem)
        · rwa [List.mem_reverse]
      · exact ih List.not_mem_nil h
    case isFalse hOther =>
      exact ih (by simpa using ⟨Ne.symm hOther, hTaken⟩) h

/-- No line of a text has a line feed in it. -/
theorem newline_not_mem_of_mem_lines {text line : String} (h : line ∈ lines text) :
    '\n' ∉ line.toList := by
  obtain ⟨cs, hLine, rfl⟩ := List.mem_map.1 h
  rw [String.toList_ofList]
  exact newline_not_mem_linesFrom List.not_mem_nil hLine

/-- The lines of a text that follows a line feed are the last lines of the whole. -/
theorem exists_lines_append (a b : String) : ∃ above, lines (a ++ "\n" ++ b) = above ++ lines b := by
  refine ⟨(linesFrom [] (a.toList ++ ['\n'])).map String.ofList, ?_⟩
  simp only [lines, String.toList_append]
  rw [List.append_assoc, show "\n".toList = ['\n'] from rfl, List.singleton_append,
    Source.linesFrom_append_newline, List.map_append]

end Text

namespace Diagnostic

open Source

/-- The source row of a picture. -/
def row (d : Diagnostic) : String :=
  Text.decimal d.line ++ " | " ++ String.ofList (Text.dropEndWhile (· == '\r') d.text.toList)

/-- What stands before the caret of a picture. -/
def margin (d : Diagnostic) : String :=
  String.ofList (List.replicate (Text.decimal d.line).length ' ') ++ " | "
    ++ String.ofList (List.replicate (d.column - 1) ' ')

/-- A picture ends in the source row and the caret, each followed by a line feed. -/
theorem exists_render_eq (d : Diagnostic) (file : String) :
    ∃ heading, d.render file =
      heading ++ "\n" ++ (d.row ++ "\n" ++ (d.margin ++ "^" ++ "\n" ++ "")) := by
  let gutter := String.ofList (List.replicate (Text.decimal d.line).length ' ')
  refine ⟨s!"error: {d.rejection.message}\n"
    ++ s!"{gutter}--> {file}:{Text.decimal d.line}:{Text.decimal d.column}\n"
    ++ s!"{gutter} |", ?_⟩
  apply String.toList_inj.1
  simp [render, row, margin, gutter, ToString.toString]

variable {d : Diagnostic} {before word after : String}

theorem exists_row_eq (hText : d.text = before ++ word ++ after) (hWord : IsUnbroken word.toList) :
    ∃ trail returns : String, after = trail ++ returns ∧ (∀ c ∈ returns.toList, c = '\r') ∧
      d.row = Text.decimal d.line ++ " | " ++ before ++ word ++ trail := by
  -- The word ends in no carriage return, so only what follows it is cut.
  have hKept : ∀ c ∈ (before ++ word).toList.getLast?, (c == '\r') = false := by
    intro c hc
    rw [String.toList_append, List.getLast?_append,
      List.getLast?_eq_some_getLast hWord.nonempty] at hc
    obtain rfl := Option.some.inj hc
    have hVisible := hWord.unbroken _ (List.getLast_mem hWord.nonempty)
    rw [beq_eq_false_iff_ne]
    intro hReturn
    rw [hReturn] at hVisible
    exact absurd hVisible (by decide)
  obtain ⟨returns, hAfter, hReturns⟩ := Text.exists_dropEndWhile_append (· == '\r') after.toList
  refine ⟨String.ofList (Text.dropEndWhile (· == '\r') after.toList), String.ofList returns,
    ?_, ?_, ?_⟩
  · apply String.toList_inj.1
    simpa using hAfter
  · simpa using hReturns
  · rw [row, hText, String.toList_append, Text.dropEndWhile_append_of_kept hKept]
    apply String.toList_inj.1
    simp

theorem row_unbroken (h : '\n' ∉ d.text.toList) : '\n' ∉ d.row.toList := by
  obtain ⟨returns, hText, -⟩ := Text.exists_dropEndWhile_append (· == '\r') d.text.toList
  intro hc
  simp only [row, String.toList_append, String.toList_ofList, List.mem_append] at hc
  rcases hc with (hNumber | hBar) | hShown
  · rw [Text.decimal_toList] at hNumber
    exact absurd (Numeral.isDigit_of_mem_toDigits hNumber) (by decide)
  · exact absurd hBar (by decide)
  · refine h ?_
    rw [hText]
    exact List.mem_append_left _ hShown

theorem row_ends (d : Diagnostic) : d.row.toList.getLast? ≠ some '\r' := by
  have hKept := Text.getLast?_dropEndWhile (· == '\r') d.text.toList
  simp only [row, String.toList_append, String.toList_ofList, List.getLast?_append]
  cases hLast : (Text.dropEndWhile (· == '\r') d.text.toList).getLast? with
  | none => simp
  | some c => simpa using hKept c hLast

theorem idxOf?_caret (hColumn : d.column = before.length + 1) :
    (d.margin ++ "^").toList.idxOf? '^' = some (Text.decimal d.line ++ " | " ++ before).length := by
  have hMargin : d.margin.toList.idxOf? '^' = none := by
    rw [List.idxOf?_eq_none_iff]
    simp [margin, List.mem_replicate]
  have hLength : d.margin.length = (Text.decimal d.line ++ " | " ++ before).length := by
    simp [margin, hColumn]
  rw [← hLength, String.toList_append, List.idxOf?, List.findIdx?_append, ← List.idxOf?, hMargin]
  simp [String.length_toList]

/-- The last two lines of a picture: the source line after its number, without carriage returns at
its end, and a caret under the first character of the word at the column of the diagnostic. -/
theorem lines_render (hText : d.text = before ++ word ++ after) (hWord : IsUnbroken word.toList)
    (hColumn : d.column = before.length + 1) (hUnbroken : '\n' ∉ d.text.toList) (file : String) :
    ∃ above trail returns caret, after = trail ++ returns ∧ (∀ c ∈ returns.toList, c = '\r') ∧
      Text.lines (d.render file) =
        above ++ [Text.decimal d.line ++ " | " ++ before ++ word ++ trail, caret] ∧
      caret.toList.idxOf? '^' = some (Text.decimal d.line ++ " | " ++ before).length := by
  obtain ⟨heading, hRender⟩ := d.exists_render_eq file
  obtain ⟨above, hAbove⟩ := Text.exists_lines_append heading
    (d.row ++ "\n" ++ (d.margin ++ "^" ++ "\n" ++ ""))
  obtain ⟨trail, returns, hAfter, hReturns, hRow⟩ := exists_row_eq hText hWord
  refine ⟨above, trail, returns, d.margin ++ "^", hAfter, hReturns, ?_, idxOf?_caret hColumn⟩
  have hCaret : Text.IsRow (d.margin ++ "^") :=
    ⟨by simp [margin, List.mem_replicate], by simp⟩
  have hShown : Text.IsRow d.row := ⟨row_unbroken hUnbroken, d.row_ends⟩
  rw [hRender, hAbove, ← hRow, hShown.lines_newline, hCaret.lines_newline]
  rfl

end Diagnostic

end TapeMachine
