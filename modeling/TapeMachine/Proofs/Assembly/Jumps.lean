import TapeMachine.Proofs.Assembly.Concatenation
import TapeMachine.Proofs.Source.Tokens

/-! Jumps to the labels of a source.  A name in the table was read off a token (`isName_of_get?`),
so it can be written as a word of its own on another line; there it means itself unless the reader
of operands takes its first character for a mark or its first and last ones for quotes.  A new last
line that jumps to such a name adds one instruction and changes nothing else. -/

namespace TapeMachine.Assembly

open Source Outcome

theorem isName_of_name? {line : Line} {name : String} (h : line.name? = some name) :
    IsName name := by
  cases hTokens : tokenize line.text with
  | nil => simp [Line.name?, Line.label?, Statement.ofLine?, hTokens] at h
  | cons first rest =>
    rw [Line.name?_of_tokenize hTokens] at h
    exact isName_of_label? (hTokens ▸ List.mem_cons_self) h

theorem isName_of_get? {source : String} {program : Program} (h : assemble source = .ok program)
    {name : String} {position : Nat} (hName : program.labels.get? name = some position) :
    IsName name := by
  have hDefined : program.labels.get? name ≠ none := by simp [hName]
  obtain ⟨line, -, hLine⟩ := List.mem_filterMap.1 ((get?_ne_none_iff h).1 hDefined)
  exact isName_of_name? hLine

section JumpLine

variable {name : String}

/-- The source line that jumps to a name. -/
def jumpTo (name : String) : String :=
  "JMP " ++ name

theorem tokenize_jumpTo (h : IsName name) :
    tokenize (jumpTo name) = [⟨"JMP", 1⟩, ⟨name, 5⟩] := by
  have hLine : (jumpTo name).toList = "JMP".toList ++ ([' '] ++ (name.toList ++ [])) := by
    simp [jumpTo]
  have hMnemonic : IsUnbroken "JMP".toList := by decide
  have hBlank : ∀ c ∈ [' '], Text.isBlank c = true := List.forall_mem_singleton.2 (by decide)
  have hGap : EndsWord ([' '] ++ (name.toList ++ [])) := endsWord_cons (by decide) _
  have hWords : Token.wordsFrom 1 [] (jumpTo name).toList = [⟨"JMP", 1⟩, ⟨name, 5⟩] := by
    rw [hLine, Token.wordsFrom_word hMnemonic hGap, Token.wordsFrom_gap hBlank,
      Token.wordsFrom_word h.unbroken endsWord_nil, Token.wordsFrom, Token.finish_nil,
      String.ofList_toList, String.ofList_toList]
    rfl
  have hSpeaks : (Token.mk name 5).opensComment = false := by
    rw [Bool.eq_false_iff, ne_eq, Token.opensComment, List.isPrefixOf_iff_prefix]
    exact h.speaks
  have hMnemonicSpeaks : (Token.mk "JMP" 1).opensComment = false := by decide
  simp [tokenize, hWords, hSpeaks, hMnemonicSpeaks]

theorem isLine_jumpTo (h : IsName name) : Text.IsLine (jumpTo name) := by
  refine ⟨by simp [jumpTo], fun c hc => ?_⟩
  rw [jumpTo, String.toList_append, List.mem_append] at hc
  rcases hc with hMnemonic | hName
  · have hAll : ∀ c ∈ "JMP ".toList, c ≠ '\n' ∧ c ≠ '\r' := by simp
    exact hAll c hMnemonic
  · have hVisible := h.unbroken.unbroken c hName
    constructor <;> rintro rfl <;> exact absurd hVisible (by decide)

theorem numberedLines_jumpTo (h : IsName name) :
    numberedLines (jumpTo name) = [⟨1, jumpTo name⟩] := by
  rw [numberedLines, Text.lines_unended (isLine_jumpTo h)]
  rfl

/-- The line defines no label and holds one instruction. -/
theorem read_jumpTo (h : IsName name) :
    labelNames (numberedLines (jumpTo name)) = [] ∧
      codeLines (numberedLines (jumpTo name)) =
        [(⟨1, jumpTo name⟩, ⟨⟨"JMP", 1⟩, [⟨name, 5⟩]⟩)] := by
  have hTokens : tokenize (Line.mk 1 (jumpTo name)).text = [⟨"JMP", 1⟩, ⟨name, 5⟩] :=
    tokenize_jumpTo h
  have hMnemonic : (Token.mk "JMP" 1).label? = none := by decide
  rw [numberedLines_jumpTo h]
  constructor
  · simp [labelNames, Line.name?, Line.label?_of_tokenize hTokens, hMnemonic]
  · simp [codeLines, Line.code?_of_tokenize hTokens, hMnemonic]

theorem instruction_jump {labels : LabelTable} {position : Nat} (hBare : Operand.IsBare name)
    (hName : labels.get? name = some position) (hFits : position < 0x8000000000000000)
    (line : Line) :
    instruction labels line ⟨⟨"JMP", 1⟩, [⟨name, 5⟩]⟩ = .ok (.jump ⟨position, hFits⟩) := by
  have hSpelling := Operand.isBare_iff.1 hBare
  have hOperand : operand labels .jump 1 .label name = .ok (.direct (Int64.ofNat position)) := by
    refine operand_label_eq_ok_iff.2 ⟨?_, position, ?_, rfl⟩ <;> rw [hSpelling]
    exact hName
  have hMnemonic : Opcode.ofMnemonic? "JMP" = some .jump := by decide
  refine instruction_eq_ok_iff.2 ⟨hMnemonic, rfl, operandsFrom_eq_ok_iff.2 ?_⟩
  exact .cons hOperand .nil

end JumpLine

/-- Every label that can be written as an operand can be jumped to: a source that assembles still
does with a new last line `JMP name`, which adds a jump to the position of the name. -/
theorem assemble_jumpTo {source : String} {program : Program} (h : assemble source = .ok program)
    {name : String} {position : Nat} (hName : program.labels.get? name = some position)
    (hBare : Operand.IsBare name) (hFits : position < 0x8000000000000000) :
    assemble (source ++ "\n" ++ jumpTo name) =
      .ok ⟨program.instructions ++ [.jump ⟨position, hFits⟩], program.labels⟩ := by
  obtain ⟨hDistinct, hLabels, hCode⟩ := assemble_eq_ok_iff.1 h
  obtain ⟨hNames, hJump⟩ := read_jumpTo (isName_of_get? h hName)
  have hTable : definitionsFrom 0 (numberedLines source ++ numberedLines (jumpTo name)) =
      program.labels := by
    apply LabelTable.ext_get?
    intro other
    have hNone : other ∉ labelNames (numberedLines (jumpTo name)) := by simp [hNames]
    rw [get?_definitionsFrom_append, (get?_definitionsFrom_eq_none_iff _ other _).2 hNone,
      Option.or_none, hLabels]
  have hOnce : redefinitionFrom? [] (numberedLines source ++ numberedLines (jumpTo name)) =
      none := by
    rw [redefinitionFrom?_eq_none_iff] at hDistinct ⊢
    rw [labelNames_append, hNames, List.append_nil]
    exact hDistinct
  have hTogether : assembleLines (numberedLines source ++ numberedLines (jumpTo name)) =
      .ok ⟨program.instructions ++ [.jump ⟨position, hFits⟩], program.labels⟩ := by
    rw [← hTable]
    apply assembleLines_eq_ok hOnce
    rw [codeLines_append, hJump, hTable]
    exact List.rel_append hCode (.cons (instruction_jump hBare hName hFits _) .nil)
  rw [assemble_eq_assembleLines]
  exact (assembleLines_agree (words_spokenLines_append source (jumpTo name))).eq_ok hTogether

/-- Labels with a single quote, with the text of a mnemonic and with slashes inside, one of them at
the end. -/
def oddNames : String :=
  "'a: OUT 0\n1//JMP: JMP 'a\nJMP:"

theorem assemble_jumpTo_oddNames :
    ∃ program : Program, assemble oddNames = .ok program ∧
      program.labels.get? "1//JMP" = some 1 ∧ Operand.IsBare "1//JMP" ∧
      assemble (oddNames ++ "\n" ++ jumpTo "1//JMP") =
        .ok ⟨program.instructions ++ [.jump 1], program.labels⟩ := by
  have hAssemble : assemble oddNames =
      .ok ⟨[.output (.direct 0), .jump 0], .ofList [("'a", 0), ("1//JMP", 1), ("JMP", 2)]⟩ := by
    decide +kernel
  have hBare : Operand.IsBare "1//JMP" := by decide +kernel
  exact ⟨_, hAssemble, by decide +kernel, hBare,
    assemble_jumpTo hAssemble (by decide +kernel) hBare (by decide)⟩

/-- A label that starts with the mark of references cannot be written as an operand, and a label in
quotes means the one without them. -/
theorem jumpTo_misses_marked_and_quoted :
    (∃ program : Program, assemble "&a:" = .ok program ∧ program.labels.get? "&a" = some 0 ∧
      assemble ("&a:" ++ "\n" ++ jumpTo "&a") =
        .error ⟨2, 5, "JMP &a", .invalidOperand "JMP" 1 "&a" Violation.labelReference.reason⟩) ∧
    ∃ program : Program, assemble "'a':\nOUT 0\na:" = .ok program ∧
      program.labels.get? "'a'" = some 0 ∧
      assemble ("'a':\nOUT 0\na:" ++ "\n" ++ jumpTo "'a'") =
        .ok ⟨program.instructions ++ [.jump 1], program.labels⟩ := by
  have hMarked : assemble "&a:" = .ok ⟨[], .ofList [("&a", 0)]⟩ := by decide +kernel
  have hQuoted : assemble "'a':\nOUT 0\na:" =
      .ok ⟨[.output (.direct 0)], .ofList [("'a'", 0), ("a", 1)]⟩ := by decide +kernel
  exact ⟨⟨_, hMarked, by decide +kernel, by decide +kernel⟩,
    ⟨_, hQuoted, by decide +kernel, by decide +kernel⟩⟩

end TapeMachine.Assembly
