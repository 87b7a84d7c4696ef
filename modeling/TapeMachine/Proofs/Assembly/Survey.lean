import TapeMachine.Assembly
import TapeMachine.Proofs.LabelTable
import TapeMachine.Proofs.Outcome

/-! The passes of the assembler, told line by line.  `definitionsFrom` is the table of the first
definitions, `codeLines` the lines that hold an instruction and `redefinitionFrom?` the first label
defined again.  `survey_covers` says that the first pass finds exactly these, and
`assemble_eq_instructionsBefore` what the second pass makes of them. -/

namespace TapeMachine

namespace Source

/-- The lines of a source text with their numbers. -/
def numberedLines (source : String) : List Line :=
  ((Text.lines source).zipIdx 1).map fun (text, number) => ⟨number, text⟩

namespace Line

/-- The label that a line defines. -/
def label? (line : Line) : Option Label :=
  (Statement.ofLine? line).bind Statement.label?

def name? (line : Line) : Option String :=
  line.label?.map Label.name

/-- The instruction that a line holds. -/
def code? (line : Line) : Option Code :=
  (Statement.ofLine? line).bind Statement.code?

end Line

/-- The names that lines define, in order. -/
def labelNames (lines : List Line) : List String :=
  lines.filterMap Line.name?

/-- The lines that hold an instruction, in order. -/
def codeLines (lines : List Line) : List (Line × Code) :=
  lines.filterMap fun line => line.code?.map fun code => (line, code)

theorem statements_eq (source : String) :
    statements source = (numberedLines source).filterMap Statement.ofLine? := by
  simp [statements, numberedLines, List.filterMap_map]

theorem texts_numberedLines (source : String) :
    (numberedLines source).map Line.text = Text.lines source := by
  simp only [numberedLines, List.map_map]
  exact List.zipIdx_map_fst 1 (Text.lines source)

theorem numberedLines_increase (source : String) :
    (numberedLines source).Pairwise fun a b => a.number < b.number := by
  have hRange : ((numberedLines source).map Line.number).Pairwise (· < ·) := by
    simp only [numberedLines, List.map_map]
    exact List.zipIdx_map_snd 1 (Text.lines source) ▸ List.pairwise_lt_range'
  exact List.pairwise_map.1 hRange

theorem Statement.toLine_of_ofLine? {line : Line} {statement : Statement}
    (h : Statement.ofLine? line = some statement) : statement.toLine = line := by
  unfold Statement.ofLine? at h
  split at h
  · cases h
  · split at h <;> cases h <;> rfl

@[simp] theorem labelNames_append (xs ys : List Line) :
    labelNames (xs ++ ys) = labelNames xs ++ labelNames ys :=
  List.filterMap_append

@[simp] theorem codeLines_append (xs ys : List Line) :
    codeLines (xs ++ ys) = codeLines xs ++ codeLines ys :=
  List.filterMap_append

theorem codeLines_cons (line : Line) (lines : List Line) :
    codeLines (line :: lines) = codeLines [line] ++ codeLines lines :=
  codeLines_append [line] lines

theorem mem_of_mem_codeLines {lines : List Line} {entry : Line × Code}
    (h : entry ∈ codeLines lines) : entry.1 ∈ lines ∧ entry.1.code? = some entry.2 := by
  obtain ⟨line, hLine, hEntry⟩ := List.mem_filterMap.1 h
  obtain ⟨code, hCode, rfl⟩ := Option.map_eq_some_iff.1 hEntry
  exact ⟨hLine, hCode⟩

end Source

namespace Assembly

open Source

/-- The table of the first definitions on lines whose first instruction has the given position:
each name stands for the number of instructions before the first line that defines it. -/
def definitionsFrom (position : Nat) : List Line → LabelTable
  | [] => .empty
  | line :: lines =>
    let later := definitionsFrom (position + (codeLines [line]).length) lines
    match line.name? with
    | some name => later.insert name position
    | none => later

/-- The report on a line whose label is defined on an earlier line. -/
def redefinition? (earlier : List Line) (line : Line) : Option Diagnostic :=
  line.label?.bind fun label =>
    if label.name ∈ labelNames earlier then
      some (line.reject label.column (.duplicateLabel label.name))
    else none

/-- The first report of a label defined again on lines that follow the lines `earlier`. -/
def redefinitionFrom? (earlier : List Line) : List Line → Option Diagnostic
  | [] => none
  | line :: lines => (redefinition? earlier line).or (redefinitionFrom? (earlier ++ [line]) lines)

/-! ### Lookups among definitions -/

section Definitions

variable (position : Nat) (name : String)

theorem get?_definitionsFrom_cons (line : Line) (lines : List Line) :
    (definitionsFrom position (line :: lines)).get? name =
      if line.name? = some name then some position
      else (definitionsFrom (position + (codeLines [line]).length) lines).get? name := by
  rw [definitionsFrom]
  cases hName : line.name? with
  | none => simp
  | some other =>
    rw [LabelTable.get?_insert]
    by_cases h : name = other
    · simp [h]
    · simp [h, Ne.symm h]

/-- The first definitions on some lines come before those on the lines that follow. -/
theorem get?_definitionsFrom_append (xs ys : List Line) :
    (definitionsFrom position (xs ++ ys)).get? name =
      ((definitionsFrom position xs).get? name).or
        ((definitionsFrom (position + (codeLines xs).length) ys).get? name) := by
  induction xs generalizing position with
  | nil => simp [definitionsFrom, codeLines]
  | cons line xs ih =>
    rw [List.cons_append, get?_definitionsFrom_cons, get?_definitionsFrom_cons, ih,
      codeLines_cons line xs, List.length_append, Nat.add_assoc]
    by_cases h : line.name? = some name <;> simp [h]

theorem get?_definitionsFrom_eq_none_iff (lines : List Line) :
    (definitionsFrom position lines).get? name = none ↔ name ∉ labelNames lines := by
  induction lines generalizing position with
  | nil => simp [definitionsFrom, labelNames]
  | cons line lines ih =>
    rw [get?_definitionsFrom_cons]
    cases hName : line.name? with
    | none => simp [ih, labelNames, hName]
    | some other =>
      by_cases h : other = name
      · simp [h, labelNames, hName]
      · simp [h, ih, labelNames, hName, Ne.symm h]

/-- A position in the table lies among the positions of the lines or just after them. -/
theorem get?_definitionsFrom_le (lines : List Line) {found : Nat}
    (h : (definitionsFrom position lines).get? name = some found) :
    found ≤ position + (codeLines lines).length := by
  induction lines generalizing position with
  | nil => simp [definitionsFrom] at h
  | cons line lines ih =>
    rw [get?_definitionsFrom_cons] at h
    rw [codeLines_cons, List.length_append]
    split at h
    · cases h
      omega
    · have := ih _ h
      omega

end Definitions

theorem redefinitionFrom?_append (earlier xs ys : List Line) :
    redefinitionFrom? earlier (xs ++ ys) =
      (redefinitionFrom? earlier xs).or (redefinitionFrom? (earlier ++ xs) ys) := by
  induction xs generalizing earlier with
  | nil => simp [redefinitionFrom?]
  | cons line xs ih => simp [redefinitionFrom?, ih, Option.or_assoc]

theorem redefinition?_eq_none_iff {earlier : List Line} {line : Line} :
    redefinition? earlier line = none ↔
      ∀ name, line.name? = some name → name ∉ labelNames earlier := by
  cases hLabel : line.label? <;> simp [redefinition?, Line.name?, hLabel]

theorem redefinitionFrom?_eq_none_iff {earlier lines : List Line} :
    redefinitionFrom? earlier lines = none ↔
      (labelNames lines).Nodup ∧ ∀ name ∈ labelNames lines, name ∉ labelNames earlier := by
  induction lines generalizing earlier with
  | nil => simp [redefinitionFrom?, labelNames]
  | cons line lines ih =>
    rw [redefinitionFrom?, Option.or_eq_none_iff, ih, redefinition?_eq_none_iff, labelNames_append]
    cases hName : line.name? with
    | none => simp [labelNames, hName]
    | some name =>
      have hFirst : labelNames [line] = [name] := by simp [labelNames, hName]
      have hAll : labelNames (line :: lines) = name :: labelNames lines := by
        simp [labelNames, hName]
      rw [hFirst, hAll, List.nodup_cons]
      simp only [Option.some.injEq, forall_eq', List.mem_append, List.mem_cons,
        List.not_mem_nil, or_false, not_or, forall_eq_or_imp]
      constructor
      · rintro ⟨hNew, hDistinct, hRest⟩
        exact ⟨⟨fun hMem => (hRest name hMem).2 rfl, hDistinct⟩, hNew,
          fun other hMem => (hRest other hMem).1⟩
      · rintro ⟨⟨hOnce, hDistinct⟩, hNew, hRest⟩
        refine ⟨hNew, hDistinct, fun other hMem => ⟨hRest other hMem, ?_⟩⟩
        rintro rfl
        exact hOnce hMem

/-! ### The first pass -/

/-- The survey knows what there is to know of the lines `earlier`. -/
structure Survey.Covers (survey : Survey) (earlier : List Line) : Prop where
  labels : survey.labels = definitionsFrom 0 earlier
  code : survey.code.toList = codeLines earlier
  duplicate : survey.duplicate? = redefinitionFrom? [] earlier

namespace Survey

theorem covers_empty : Covers empty [] := ⟨rfl, rfl, rfl⟩

variable {survey : Survey} {earlier : List Line} {line : Line}

theorem Covers.size (h : Covers survey earlier) :
    survey.code.size = (codeLines earlier).length := by
  rw [← h.code, Array.length_toList]

@[simp] theorem define_code (line : Line) (label : Label) :
    (survey.define line label).code = survey.code := by
  unfold Survey.define
  split <;> rfl

theorem Covers.get?_eq_none_iff (h : Covers survey earlier) (name : String) :
    survey.labels.get? name = none ↔ name ∉ labelNames earlier := by
  rw [h.labels, get?_definitionsFrom_eq_none_iff]

/-- The labels and the duplicate after one more line, whatever its instruction. -/
theorem Covers.define (h : Covers survey earlier) {label : Label}
    (hLabel : line.label? = some label) :
    (survey.define line label).labels = definitionsFrom 0 (earlier ++ [line]) ∧
      (survey.define line label).duplicate? = redefinitionFrom? [] (earlier ++ [line]) := by
  have hName : line.name? = some label.name := by simp [Line.name?, hLabel]
  have hLookup (name : String) : (definitionsFrom 0 (earlier ++ [line])).get? name =
      (survey.labels.get? name).or (if label.name = name then some survey.code.size else none) := by
    rw [get?_definitionsFrom_append, get?_definitionsFrom_cons, h.labels, h.size, hName]
    simp [definitionsFrom]
  rw [redefinitionFrom?_append, ← h.duplicate]
  unfold Survey.define
  split
  case h_1 hNew =>
    refine ⟨LabelTable.ext_get? fun name => ?_, ?_⟩
    · rw [LabelTable.get?_insert, hLookup]
      by_cases hSame : name = label.name
      · simp [hSame, hNew]
      · simp [hSame, Ne.symm hSame]
    · have hFresh := (h.get?_eq_none_iff label.name).1 hNew
      simp [redefinitionFrom?, redefinition?, hLabel, hFresh]
  case h_2 position hOld =>
    refine ⟨LabelTable.ext_get? fun name => ?_, ?_⟩
    · rw [hLookup]
      by_cases hSame : label.name = name
      · subst hSame
        simp [hOld]
      · simp [hSame]
    · have hKnown : label.name ∈ labelNames earlier := by
        refine Decidable.byContradiction fun hFresh => ?_
        rw [(h.get?_eq_none_iff label.name).2 hFresh] at hOld
        cases hOld
      simp [redefinitionFrom?, redefinition?, hLabel, hKnown]

theorem Covers.unlabelled (h : Covers survey earlier) (hLabel : line.label? = none) :
    survey.labels = definitionsFrom 0 (earlier ++ [line]) ∧
      survey.duplicate? = redefinitionFrom? [] (earlier ++ [line]) := by
  have hName : line.name? = none := by simp [Line.name?, hLabel]
  refine ⟨LabelTable.ext_get? fun name => ?_, ?_⟩
  · rw [get?_definitionsFrom_append, get?_definitionsFrom_cons, h.labels, hName]
    simp [definitionsFrom]
  · simp [redefinitionFrom?_append, h.duplicate, redefinitionFrom?, redefinition?, hLabel]

theorem code_add (statement : Statement) :
    (survey.add statement).code.toList =
      survey.code.toList ++ (statement.code?.map fun code => (statement.toLine, code)).toList := by
  cases hLabel : statement.label? <;> cases hCode : statement.code? <;>
    simp [Survey.add, hLabel, hCode]

theorem Covers.add (h : Covers survey earlier) {statement : Statement}
    (hStatement : Statement.ofLine? line = some statement) :
    Covers (survey.add statement) (earlier ++ [line]) := by
  have hLine := Statement.toLine_of_ofLine? hStatement
  have hLabel : line.label? = statement.label? := by simp [Line.label?, hStatement]
  have hCode : line.code? = statement.code? := by simp [Line.code?, hStatement]
  -- The instruction is recorded after the label and changes nothing about it.
  have hDefinitions : (survey.add statement).labels = definitionsFrom 0 (earlier ++ [line]) ∧
      (survey.add statement).duplicate? = redefinitionFrom? [] (earlier ++ [line]) := by
    cases hCase : statement.label? with
    | none =>
      obtain ⟨hLabels, hDuplicate⟩ := h.unlabelled (hLabel.trans hCase)
      rw [← hLabels, ← hDuplicate]
      cases hHeld : statement.code? <;> simp [Survey.add, hCase, hHeld]
    | some label =>
      obtain ⟨hLabels, hDuplicate⟩ := h.define (hLabel.trans hCase)
      rw [← hLabels, ← hDuplicate]
      cases hHeld : statement.code? <;> simp [Survey.add, hCase, hHeld, hLine]
  refine ⟨hDefinitions.1, ?_, hDefinitions.2⟩
  rw [code_add, h.code, codeLines_append, hLine, ← hCode]
  cases hHeld : line.code? <;> simp [codeLines, hHeld]

theorem Covers.skip (h : Covers survey earlier) (hStatement : Statement.ofLine? line = none) :
    Covers survey (earlier ++ [line]) := by
  have hLabel : line.label? = none := by simp [Line.label?, hStatement]
  obtain ⟨hLabels, hDuplicate⟩ := h.unlabelled hLabel
  refine ⟨hLabels, ?_, hDuplicate⟩
  simp [h.code, codeLines, Line.code?, hStatement]

theorem Covers.foldl (h : Covers survey earlier) (lines : List Line) :
    Covers ((lines.filterMap Statement.ofLine?).foldl Survey.add survey) (earlier ++ lines) := by
  induction lines generalizing survey earlier with
  | nil => simpa using h
  | cons line lines ih =>
    rw [List.append_cons]
    cases hStatement : Statement.ofLine? line with
    | none =>
      rw [List.filterMap_cons_none hStatement]
      exact ih (h.skip hStatement)
    | some statement =>
      rw [List.filterMap_cons_some hStatement, List.foldl_cons]
      exact ih (h.add hStatement)

end Survey

/-- The first pass finds the first definitions, the lines with instructions and the first label
defined again. -/
theorem survey_covers (source : String) : (survey source).Covers (numberedLines source) := by
  rw [survey, statements_eq]
  exact Survey.covers_empty.foldl (numberedLines source)

/-! ### Both passes -/

/-- The instructions on lines, up to the first one refused. -/
def instructions (labels : LabelTable) (entries : List (Line × Code)) :
    Except Diagnostic (List Instruction) :=
  entries.mapM fun entry => instruction labels entry.1 entry.2

theorem instructions_append (labels : LabelTable) (xs ys : List (Line × Code)) :
    instructions labels (xs ++ ys) = (do
      let first ← instructions labels xs
      let rest ← instructions labels ys
      return first ++ rest) :=
  List.mapM_append

/-- The instructions on the lines before a report, if there is one, and then the report. -/
def instructionsBefore (labels : LabelTable) (lines : List Line) :
    Option Diagnostic → Except Diagnostic (List Instruction)
  | none => instructions labels (codeLines lines)
  | some report => do
    let _ ← instructions labels ((codeLines lines).takeWhile fun entry =>
      entry.1.number < report.line)
    .error report

/-- Both passes in terms of the lines: the table of the first definitions, the lines before the
first redefinition, and the redefinition. -/
theorem assemble_eq_instructionsBefore (source : String) :
    assemble source =
      (instructionsBefore (definitionsFrom 0 (numberedLines source)) (numberedLines source)
        (redefinitionFrom? [] (numberedLines source))).map fun instructions =>
          ⟨instructions, definitionsFrom 0 (numberedLines source)⟩ := by
  obtain ⟨hLabels, hCode, hDuplicate⟩ := survey_covers source
  unfold assemble Survey.pending
  simp only [hLabels, hCode, hDuplicate]
  cases redefinitionFrom? [] (numberedLines source) with
  | none => rfl
  | some report =>
    rw [instructionsBefore, instructions]
    cases ((codeLines (numberedLines source)).takeWhile fun entry =>
      entry.1.number < report.line).mapM fun entry =>
        instruction (definitionsFrom 0 (numberedLines source)) entry.1 entry.2 <;> rfl

/-- A source assembles when it defines no label twice and every line with an instruction gives one;
the program has these instructions and the table of the first definitions. -/
theorem assemble_eq_ok_iff {source : String} {program : Program} :
    assemble source = .ok program ↔
      redefinitionFrom? [] (numberedLines source) = none ∧
      program.labels = definitionsFrom 0 (numberedLines source) ∧
      List.Forall₂ (fun entry i => instruction program.labels entry.1 entry.2 = .ok i)
        (codeLines (numberedLines source)) program.instructions := by
  rw [assemble_eq_instructionsBefore, Outcome.map_eq_ok_iff]
  constructor
  · rintro ⟨instructions, h, rfl⟩
    cases hReport : redefinitionFrom? [] (numberedLines source) with
    | none =>
      rw [hReport] at h
      exact ⟨rfl, rfl, Outcome.mapM_eq_ok_iff.1 h⟩
    | some report =>
      rw [hReport] at h
      obtain ⟨_, _, h⟩ := Outcome.bind_eq_ok_iff.1 h
      cases h
  · rintro ⟨hReport, hLabels, h⟩
    rw [hReport, ← hLabels]
    exact ⟨program.instructions, Outcome.mapM_eq_ok_iff.2 h, rfl⟩

end Assembly

end TapeMachine
