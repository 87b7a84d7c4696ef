import TapeMachine.Proofs.Assembly.Concatenation
import TapeMachine.Proofs.Diagnostic

/-! Where the assembler reports what it refuses.  `Blames` says for every kind of rejection which
token of a line it is about.  Each stage of the assembler fails only with diagnostics at such a
token (`Located`), from the operand up to the whole source, and the picture of the diagnostic has
its caret under that token. -/

namespace TapeMachine.Assembly

open Source Outcome

/-- The token of a line that a rejection is about. -/
inductive Blames (line : Line) : Rejection → Token → Prop
  /-- The mnemonic that means no operation. -/
  | mnemonic {code : Code} (hCode : line.code? = some code)
      (hUnknown : Opcode.ofMnemonic? code.mnemonic.text = none) :
      Blames line (.unknownInstruction code.mnemonic.text) code.mnemonic
  /-- The first token, which defines a name again. -/
  | label {token : Token} {rest : List Token} {name : String}
      (hTokens : tokenize line.text = token :: rest) (hName : token.text = name ++ ":") :
      Blames line (.duplicateLabel name) token
  /-- The first of the operands that are too many. -/
  | surplus {code : Code} {op : Opcode} {token : Token} (hCode : line.code? = some code)
      (hOpcode : Opcode.ofMnemonic? code.mnemonic.text = some op)
      (hToken : code.operands[op.arity]? = some token) :
      Blames line (.arityMismatch op.mnemonic op.arity code.operands.length) token
  /-- The mnemonic before too few operands. -/
  | missing {code : Code} {op : Opcode} (hCode : line.code? = some code)
      (hOpcode : Opcode.ofMnemonic? code.mnemonic.text = some op)
      (hFew : code.operands.length < op.arity) :
      Blames line (.arityMismatch op.mnemonic op.arity code.operands.length) code.mnemonic
  /-- The operand that is no numeral. -/
  | number {code : Code} {op : Opcode} {place : Nat} {token : Token}
      (hCode : line.code? = some code)
      (hOpcode : Opcode.ofMnemonic? code.mnemonic.text = some op)
      (hToken : code.operands[place]? = some token) :
      Blames line (.nonNumericOperand op.mnemonic (place + 1) token.text) token
  /-- The operand of a form that its role forbids. -/
  | form {code : Code} {op : Opcode} {place : Nat} {token : Token} (hCode : line.code? = some code)
      (hOpcode : Opcode.ofMnemonic? code.mnemonic.text = some op)
      (hToken : code.operands[place]? = some token) (violation : Violation) :
      Blames line (.invalidOperand op.mnemonic (place + 1) token.text violation.reason) token
  /-- The operand at the place of a label that writes a name without a definition. -/
  | name {code : Code} {op : Opcode} {place : Nat} {token : Token} (hCode : line.code? = some code)
      (hOpcode : Opcode.ofMnemonic? code.mnemonic.text = some op)
      (hToken : code.operands[place]? = some token) (hRole : op.roles[place]? = some .label) :
      Blames line (.unknownLabel (writtenName token)) token

/-- A diagnostic on a line at the token that its rejection is about. -/
def Located (line : Line) (d : Diagnostic) : Prop :=
  ∃ token ∈ tokenize line.text, ∃ rejection,
    d = line.reject token.column rejection ∧ Blames line rejection token

section Code

variable {labels : LabelTable} {line : Line} {code : Code} {op : Opcode}

theorem operand_blames (labels : LabelTable) {place : Nat} {role : Role} {token : Token}
    (hCode : line.code? = some code) (hOpcode : Opcode.ofMnemonic? code.mnemonic.text = some op)
    (hToken : code.operands[place]? = some token) (hRole : op.roles[place]? = some role) :
    FailsWith (Blames line · token) (operand labels op (place + 1) role token.text) := by
  unfold operand
  simp only
  split
  case isTrue hLabel =>
    split
    case isTrue => exact .error (Blames.form hCode hOpcode hToken _)
    case isFalse hReference =>
      split
      case h_1 => exact .ok _
      case h_2 =>
        rw [Operand.spelling_body (Bool.not_eq_true _ ▸ hReference)]
        exact .error (Blames.name hCode hOpcode hToken (hLabel ▸ hRole))
  case isFalse =>
    split
    case h_1 => exact .error (Blames.number hCode hOpcode hToken)
    case h_2 =>
      split
      case h_1 => exact .error (Blames.form hCode hOpcode hToken _)
      case h_2 => exact .ok _

/-- The operands from a place on fail at one of them. -/
theorem operandsFrom_located (hCode : line.code? = some code)
    (hOpcode : Opcode.ofMnemonic? code.mnemonic.text = some op) {place : Nat}
    {tokens : List Token} {roles : List Role} (hTokens : code.operands.drop place = tokens)
    (hRoles : op.roles.drop place = roles) :
    FailsWith (Located line) (operandsFrom labels line op (place + 1) tokens roles) := by
  induction tokens generalizing place roles with
  | nil => exact .ok []
  | cons token tokens ih =>
    cases roles with
    | nil => exact .ok []
    | cons role roles =>
      have hToken : code.operands[place]? = some token := by
        rw [← List.head?_drop, hTokens, List.head?_cons]
      have hRole : op.roles[place]? = some role := by
        rw [← List.head?_drop, hRoles, List.head?_cons]
      have hMem : token ∈ tokenize line.text :=
        Line.mem_tokenize_of_code? hCode token (List.mem_cons_of_mem _ (List.mem_of_getElem? hToken))
      have hFirst := operand_blames labels hCode hOpcode hToken hRole
      rw [operandsFrom]
      apply FailsWith.bind
      · exact hFirst.mapError_imp fun rejection h => ⟨token, hMem, rejection, rfl, h⟩
      · intro first
        apply FailsWith.bind
        · apply ih
          · rw [← List.drop_drop, hTokens, List.drop_one, List.tail_cons]
          · rw [← List.drop_drop, hRoles, List.drop_one, List.tail_cons]
        · exact fun rest => .ok _

/-- Operands that are accepted one by one make an instruction. -/
theorem build_of_operandsFrom (hLabels : Addressable labels)
    (hLength : code.operands.length = op.arity) {operands : List Operand}
    (h : operandsFrom labels line op 1 code.operands op.roles = .ok operands) :
    ∃ i, Instruction.build op operands = .ok i := by
  have hSelf : Shifts 0 labels labels :=
    ⟨fun name position hName => hName, fun name position hName => hLabels name position hName⟩
  obtain ⟨same, hSame, -, hFit⟩ := operandsFrom_shifts hSelf h
  obtain rfl := Except.ok.inj (h.symm.trans hSame)
  have hArity : operands.length = op.arity := by
    have hSlots := (operandsFrom_eq_ok_iff.1 h).length_eq
    rw [List.length_zipIdx, List.length_zip, hLength, Opcode.arity, Nat.min_self] at hSlots
    exact hSlots.symm
  obtain ⟨i, hOpcode, hOperands⟩ := Instruction.exists_of_fit hArity hFit
  exact ⟨i, Instruction.build_eq_ok_iff.2 ⟨hOpcode, hOperands⟩⟩

theorem instruction_located (hLabels : Addressable labels) (hCode : line.code? = some code) :
    FailsWith (Located line) (instruction labels line code) := by
  have hTokens := Line.mem_tokenize_of_code? hCode
  unfold instruction
  cases hOpcode : Opcode.ofMnemonic? code.mnemonic.text with
  | none =>
    exact .error ⟨_, hTokens _ List.mem_cons_self, _, rfl, .mnemonic hCode hOpcode⟩
  | some op =>
    by_cases hLength : code.operands.length = op.arity
    · simp only [ne_eq, hLength, not_true_eq_false, if_false]
      apply FailsWith.bind_of_ok (operandsFrom_located hCode hOpcode rfl rfl)
      intro operands hOperands
      obtain ⟨i, hBuild⟩ := build_of_operandsFrom hLabels hLength hOperands
      rw [hBuild]
      exact .ok i
    · simp only [ne_eq, hLength, not_false_eq_true, if_true]
      cases hToken : code.operands[op.arity]? with
      | some token =>
        exact .error ⟨token, hTokens _ (List.mem_cons_of_mem _ (List.mem_of_getElem? hToken)), _,
          rfl, .surplus hCode hOpcode hToken⟩
      | none =>
        have hFew : code.operands.length ≤ op.arity := List.getElem?_eq_none_iff.1 hToken
        exact .error ⟨_, hTokens _ List.mem_cons_self, _, rfl,
          .missing hCode hOpcode (by omega)⟩

end Code

theorem redefinition?_located {earlier : List Line} {line : Line} {d : Diagnostic}
    (h : redefinition? earlier line = some d) : Located line d := by
  obtain ⟨label, hLabel, hReport⟩ := Option.bind_eq_some_iff.1 h
  split at hReport
  case isFalse => cases hReport
  case isTrue =>
    obtain rfl := Option.some.inj hReport
    cases hTokens : tokenize line.text with
    | nil => simp [Line.label?, Statement.ofLine?, hTokens] at hLabel
    | cons token rest =>
      rw [Line.label?_of_tokenize hTokens] at hLabel
      obtain ⟨name, hName, rfl⟩ := Option.map_eq_some_iff.1 hLabel
      obtain ⟨hText, -, -⟩ := Token.label?_eq_some_iff.1 hName
      exact ⟨token, hTokens ▸ List.mem_cons_self, _, rfl, .label hTokens hText⟩

theorem checkLine_located {labels : LabelTable} (hLabels : Addressable labels)
    (earlier : List Line) (line : Line) :
    FailsWith (Located line) (checkLine labels earlier line) := by
  unfold checkLine
  cases hReport : redefinition? earlier line with
  | some report => exact .error (redefinition?_located hReport)
  | none =>
    cases hCode : line.code? with
    | some code => exact (instruction_located hLabels hCode).map
    | none => exact .ok none

theorem checkLines_located {labels : LabelTable} (hLabels : Addressable labels)
    (earlier lines : List Line) :
    FailsWith (fun d => ∃ line ∈ lines, Located line d) (checkLines labels earlier lines) := by
  induction lines generalizing earlier with
  | nil => exact .ok []
  | cons line lines ih =>
    rw [checkLines]
    cases hFirst : checkLine labels earlier line with
    | error d =>
      exact .error ⟨line, List.mem_cons_self, checkLine_located hLabels earlier line d hFirst⟩
    | ok instruction? =>
      refine FailsWith.map fun d hd => ?_
      obtain ⟨other, hOther, hLocated⟩ := ih (earlier ++ [line]) d hd
      exact ⟨other, List.mem_cons_of_mem _ hOther, hLocated⟩

theorem assemble_located {source : String}
    (hSize : (codeLines (numberedLines source)).length < 0x8000000000000000) :
    FailsWith (fun d => ∃ line ∈ numberedLines source, Located line d) (assemble source) := by
  have hLabels : Addressable (definitionsFrom 0 (numberedLines source)) := by
    intro name position hName
    have hLe := get?_definitionsFrom_le 0 name _ hName
    omega
  rw [assemble_eq_assembleLines, assembleLines]
  exact (checkLines_located hLabels [] _).map

theorem getElem?_of_mem_numberedLines {source : String} {line : Line}
    (h : line ∈ numberedLines source) :
    1 ≤ line.number ∧ (Text.lines source)[line.number - 1]? = some line.text := by
  obtain ⟨⟨text, number⟩, hLine, rfl⟩ := List.mem_map.1 h
  exact List.mk_mem_zipIdx_iff_le_and_getElem?_sub.1 hLine

/-- What is refused is reported where it stands.  The text of the diagnostic is the line of the
source that it names, its column is that of the token that the rejection is about, and in the last
two lines of the picture the caret has the place of the first character of that token. -/
theorem assemble_locates_rejection {source : String} {d : Diagnostic}
    (h : assemble source = .error d)
    (hSize : (codeLines (numberedLines source)).length < 0x8000000000000000) (file : String) :
    1 ≤ d.line ∧ (Text.lines source)[d.line - 1]? = some d.text ∧
      ∃ token ∈ tokenize d.text, d.column = token.column ∧
        Blames ⟨d.line, d.text⟩ d.rejection token ∧
        ∃ lead trail returns above caret,
          d.text = lead ++ token.text ++ (trail ++ returns) ∧ (∀ c ∈ returns.toList, c = '\r') ∧
          token.column = lead.length + 1 ∧
          Text.lines (d.render file) =
            above ++ [Text.decimal d.line ++ " | " ++ lead ++ token.text ++ trail, caret] ∧
          caret.toList.idxOf? '^' = some (Text.decimal d.line ++ " | " ++ lead).length := by
  obtain ⟨line, hLine, token, hToken, rejection, rfl, hBlames⟩ := assemble_located hSize d h
  obtain ⟨hNumber, hText⟩ := getElem?_of_mem_numberedLines hLine
  obtain ⟨lead, after, hPlace, hColumn⟩ := exists_of_mem_tokenize hToken
  have hWord := (isSpoken_of_mem_tokenize hToken).unbroken
  have hUnbroken := Text.newline_not_mem_of_mem_lines (List.mem_of_getElem? hText)
  obtain ⟨above, trail, returns, caret, rfl, hReturns, hPicture, hCaret⟩ :=
    Diagnostic.lines_render (d := line.reject token.column rejection) hPlace hWord hColumn
      hUnbroken file
  exact ⟨hNumber, hText, token, hToken, rfl, hBlames, lead, trail, returns, above, caret, hPlace,
    hReturns, hColumn, hPicture, hCaret⟩

/-- A jump to a name without a definition, on the second line after a label, with carriage returns
and characters of several bytes. -/
def misdirected : String :=
  "OUT 0\r\n\té: JMP 'nö' // ?\r\n"

theorem assemble_locates_rejection_misdirected :
    ∃ d token, assemble misdirected = .error d ∧
      (codeLines (numberedLines misdirected)).length < 0x8000000000000000 ∧
      d.rejection = .unknownLabel "nö" ∧
      (Text.lines misdirected)[d.line - 1]? = some d.text ∧ token ∈ tokenize d.text ∧
      d.column = token.column ∧ Blames ⟨d.line, d.text⟩ d.rejection token ∧
      ∃ lead trail returns above caret,
        d.text = lead ++ token.text ++ (trail ++ returns) ∧ (∀ c ∈ returns.toList, c = '\r') ∧
        token.column = lead.length + 1 ∧
        Text.lines (d.render "a.tape") =
          above ++ [Text.decimal d.line ++ " | " ++ lead ++ token.text ++ trail, caret] ∧
        caret.toList.idxOf? '^' = some (Text.decimal d.line ++ " | " ++ lead).length := by
  have hRefused : assemble misdirected =
      .error ⟨2, 9, "\té: JMP 'nö' // ?", .unknownLabel "nö"⟩ := by decide +kernel
  have hSize : (codeLines (numberedLines misdirected)).length < 0x8000000000000000 := by
    decide +kernel
  obtain ⟨-, hText, token, hToken, hColumn, hBlames, hPicture⟩ :=
    assemble_locates_rejection hRefused hSize "a.tape"
  exact ⟨_, token, hRefused, hSize, rfl, hText, hToken, hColumn, hBlames, hPicture⟩

end TapeMachine.Assembly
