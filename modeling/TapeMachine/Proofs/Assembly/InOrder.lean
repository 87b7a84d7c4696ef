import TapeMachine.Proofs.Assembly.Survey

/-! The assembler agrees with a reader that takes the lines one after the other.  `checkInOrder`
knows the labels of the whole source from the start, looks at each line once and stops at the first
line with something wrong; on a line, a label defined again counts before the instruction.  The two
passes of `assemble`, with the first redefinition put aside, give the same answer on every
source. -/

namespace TapeMachine.Assembly

open Source

/-- What a line after the lines `earlier` gives: the report of a label defined again, or else the
outcome of its instruction. -/
def checkLine (labels : LabelTable) (earlier : List Line) (line : Line) :
    Except Diagnostic (Option Instruction) :=
  match redefinition? earlier line with
  | some report => .error report
  | none =>
    match line.code? with
    | some code => (instruction labels line code).map some
    | none => .ok none

/-- The instructions of lines that follow the lines `earlier`, or the first report met. -/
def checkLines (labels : LabelTable) (earlier : List Line) :
    List Line → Except Diagnostic (List Instruction)
  | [] => .ok []
  | line :: lines =>
    match checkLine labels earlier line with
    | .error report => .error report
    | .ok instruction? =>
      (checkLines labels (earlier ++ [line]) lines).map (instruction?.toList ++ ·)

/-- What lines give when they are read in order, with the first definitions of all of them known. -/
def assembleLines (lines : List Line) : Except Diagnostic Program :=
  let labels := definitionsFrom 0 lines
  (checkLines labels [] lines).map fun instructions => ⟨instructions, labels⟩

/-- Reads a source line by line. -/
def checkInOrder (source : String) : Except Diagnostic Program :=
  assembleLines (numberedLines source)

theorem redefinition?_line {earlier : List Line} {line : Line} {report : Diagnostic}
    (h : redefinition? earlier line = some report) : report.line = line.number := by
  obtain ⟨label, -, hReport⟩ := Option.bind_eq_some_iff.1 h
  split at hReport
  · cases hReport
    rfl
  · cases hReport

theorem redefinitionFrom?_line {earlier lines : List Line} {report : Diagnostic}
    (h : redefinitionFrom? earlier lines = some report) :
    ∃ line ∈ lines, report.line = line.number := by
  induction lines generalizing earlier with
  | nil => cases h
  | cons line lines ih =>
    rcases Option.or_eq_some_iff.1 h with h | ⟨-, h⟩
    · exact ⟨line, List.mem_cons_self, redefinition?_line h⟩
    · obtain ⟨other, hMem, hLine⟩ := ih h
      exact ⟨other, List.mem_cons_of_mem line hMem, hLine⟩

theorem checkLine_eq_instructions {labels : LabelTable} {earlier : List Line} {line : Line}
    (h : redefinition? earlier line = none) :
    instructions labels (codeLines [line]) =
      (checkLine labels earlier line).map Option.toList := by
  cases hCode : line.code? with
  | none => simp [checkLine, h, hCode, codeLines, instructions, Except.map, pure, Except.pure]
  | some code =>
    simp only [checkLine, h, hCode, codeLines, instructions]
    cases hOutcome : instruction labels line code <;>
      simp [hCode, hOutcome, Except.map, pure, Except.pure, bind, Except.bind]

theorem takeWhile_codeLines_cons {line : Line} {lines : List Line} {number : Nat}
    (h : line.number < number) :
    ((codeLines (line :: lines)).takeWhile fun entry => entry.1.number < number) =
      codeLines [line] ++ (codeLines lines).takeWhile fun entry => entry.1.number < number := by
  rw [codeLines_cons, List.takeWhile_append_of_pos]
  intro entry hEntry
  obtain ⟨hLine, -⟩ := mem_of_mem_codeLines hEntry
  rw [List.mem_singleton.1 hLine]
  simpa using h

/-- No line is left to assemble from a redefinition on the first line on. -/
theorem takeWhile_codeLines_eq_nil {line : Line} {lines : List Line}
    (hOrder : (line :: lines).Pairwise fun a b => a.number < b.number) :
    ((codeLines (line :: lines)).takeWhile fun entry => entry.1.number < line.number) = [] := by
  cases hCode : codeLines (line :: lines) with
  | nil => rfl
  | cons entry entries =>
    have hEntry : entry ∈ codeLines (line :: lines) := hCode ▸ List.mem_cons_self
    obtain ⟨hLine, -⟩ := mem_of_mem_codeLines hEntry
    have hNotBefore : ¬entry.1.number < line.number := by
      rcases List.mem_cons.1 hLine with hSame | hLater
      · rw [hSame]
        exact Nat.lt_irrefl _
      · exact Nat.not_lt_of_gt ((List.pairwise_cons.1 hOrder).1 _ hLater)
    simp [hNotBefore]

/-- Reading in order is assembling the lines before the first redefinition and then reporting it.
The lines have increasing numbers, which is what the two passes compare. -/
theorem checkLines_eq_instructionsBefore (labels : LabelTable) (earlier lines : List Line)
    (hOrder : lines.Pairwise fun a b => a.number < b.number) :
    checkLines labels earlier lines =
      instructionsBefore labels lines (redefinitionFrom? earlier lines) := by
  induction lines generalizing earlier with
  | nil => rfl
  | cons line lines ih =>
    obtain ⟨hLater, hRest⟩ := List.pairwise_cons.1 hOrder
    rw [checkLines, redefinitionFrom?]
    cases hHere : redefinition? earlier line with
    | some report =>
      have hLine : report.line = line.number := redefinition?_line hHere
      rw [Option.some_or, instructionsBefore, hLine, takeWhile_codeLines_eq_nil hOrder, checkLine,
        hHere]
      rfl
    | none =>
      have hFirst : instructions labels (codeLines [line]) =
          (checkLine labels earlier line).map Option.toList := checkLine_eq_instructions hHere
      rw [ih _ hRest, Option.none_or]
      cases hReport : redefinitionFrom? (earlier ++ [line]) lines with
      | none =>
        rw [instructionsBefore, instructionsBefore, codeLines_cons, instructions_append, hFirst]
        cases checkLine labels earlier line <;> rfl
      | some report =>
        obtain ⟨other, hOther, hNumber⟩ := redefinitionFrom?_line hReport
        have hBefore : line.number < report.line := hNumber ▸ hLater other hOther
        rw [instructionsBefore, instructionsBefore, takeWhile_codeLines_cons hBefore,
          instructions_append, hFirst]
        cases checkLine labels earlier line with
        | error first => rfl
        | ok instruction? =>
          cases instructions labels ((codeLines lines).takeWhile fun entry =>
            entry.1.number < report.line) <;> rfl

theorem checkLines_append (labels : LabelTable) (earlier xs ys : List Line) :
    checkLines labels earlier (xs ++ ys) = (do
      let first ← checkLines labels earlier xs
      let rest ← checkLines labels (earlier ++ xs) ys
      return first ++ rest) := by
  induction xs generalizing earlier with
  | nil =>
    rw [List.nil_append, List.append_nil, checkLines]
    cases checkLines labels earlier ys <;> rfl
  | cons line xs ih =>
    rw [List.cons_append, checkLines, checkLines, ih]
    cases checkLine labels earlier line with
    | error report => rfl
    | ok instruction? =>
      rw [List.append_assoc, List.singleton_append]
      cases checkLines labels (earlier ++ [line]) xs with
      | error report => rfl
      | ok first =>
        cases checkLines labels (earlier ++ line :: xs) ys with
        | error report => rfl
        | ok rest => simp [Except.map, bind, Except.bind, pure, Except.pure]

/-- The first line with a report decides, whatever the lines after it hold. -/
theorem checkLines_eq_error {labels : LabelTable} {lines before after : List Line} {line : Line}
    {instructions : List Instruction} {report : Diagnostic}
    (hLines : lines = before ++ line :: after)
    (hBefore : checkLines labels [] before = .ok instructions)
    (hReport : checkLine labels before line = .error report) :
    checkLines labels [] lines = .error report := by
  rw [hLines, checkLines_append, hBefore, List.nil_append, checkLines, hReport]
  rfl

theorem assemble_eq_assembleLines (source : String) :
    assemble source = assembleLines (numberedLines source) := by
  rw [assemble_eq_instructionsBefore, assembleLines,
    checkLines_eq_instructionsBefore _ _ _ (numberedLines_increase source)]

/-- Assembling a source and reading it in order give the same program or the same report.  The
report of the first line that has one decides, whatever the later lines hold: so an error on an
earlier line comes before a label defined again, which comes before any error on its own line and on
later ones; and every line is read with the labels of the whole source, those after a redefinition
included. -/
theorem assemble_eq_checkInOrder (source : String) :
    assemble source = checkInOrder source ∧
      ∀ before line after report instructions,
        numberedLines source = before ++ line :: after →
        checkLines (definitionsFrom 0 (numberedLines source)) [] before = .ok instructions →
        checkLine (definitionsFrom 0 (numberedLines source)) before line = .error report →
        assemble source = .error report := by
  refine ⟨assemble_eq_assembleLines source,
    fun before line after report instructions hLines hBefore hReport => ?_⟩
  rw [assemble_eq_assembleLines, assembleLines, checkLines_eq_error hLines hBefore hReport]
  rfl

/-- A label is defined again on a line with an error of its own, after a jump to a later label. -/
def redefining : String :=
  "a: JMP end\na: BOGUS\nend: OUT"

theorem assemble_eq_checkInOrder_redefining :
    let labels := definitionsFrom 0 (numberedLines redefining)
    let report : Diagnostic := ⟨2, 1, "a: BOGUS", .duplicateLabel "a"⟩
    numberedLines redefining = [⟨1, "a: JMP end"⟩] ++ ⟨2, "a: BOGUS"⟩ :: [⟨3, "end: OUT"⟩] ∧
      checkLines labels [] [⟨1, "a: JMP end"⟩] = .ok [.jump (.ofPayload 2)] ∧
      checkLine labels [⟨1, "a: JMP end"⟩] ⟨2, "a: BOGUS"⟩ = .error report ∧
      assemble redefining = .error report := by
  intro labels report
  have hLines : numberedLines redefining =
      [⟨1, "a: JMP end"⟩] ++ ⟨2, "a: BOGUS"⟩ :: [⟨3, "end: OUT"⟩] := by decide +kernel
  have hBefore : checkLines labels [] [⟨1, "a: JMP end"⟩] = .ok [.jump (.ofPayload 2)] := by
    decide +kernel
  have hReport : checkLine labels [⟨1, "a: JMP end"⟩] ⟨2, "a: BOGUS"⟩ = .error report := by
    decide +kernel
  exact ⟨hLines, hBefore, hReport,
    (assemble_eq_checkInOrder redefining).2 _ _ _ _ _ hLines hBefore hReport⟩

end TapeMachine.Assembly
