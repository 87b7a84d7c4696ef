import Mathlib.Data.Set.Operations
import TapeMachine.Proofs.Assembly.Layout
import TapeMachine.Proofs.Assembly.Resolution
import TapeMachine.Proofs.Source.Rewriting

/-! Names of labels matter only through equality.  `renameLabels` writes another name in place of
every label, where it is defined and where it is used.  A renamed line defines the renamed label and
gives the same instruction with the renamed table, so the renamed source assembles to the same
instructions.  Injectivity is needed for the table only: two labels must not become one. -/

namespace TapeMachine

open Source Outcome

/-! ### Renaming a source -/

/-- The name that a word defines as the first token of a line. -/
def Source.definedName? (word : String) : Option String :=
  (Token.mk word 1).label?

/-- The texts of the tokens of an instruction. -/
def Source.Code.words (code : Code) : List String :=
  code.mnemonic.text :: code.operands.map Token.text

namespace Assembly

/-- The operands with the label at each place for one renamed, whether it is bare or in quotes. -/
def renameOperands (r : String → String) : List Role → List String → List String
  | role :: roles, word :: words =>
    (if role = .label then r (Operand.spelling word).body else word) ::
      renameOperands r roles words
  | _, words => words

/-- The words of an instruction with its labels renamed. -/
def renameCode (r : String → String) : List String → List String
  | [] => []
  | mnemonic :: operands =>
    match Opcode.ofMnemonic? mnemonic with
    | some op => mnemonic :: renameOperands r op.roles operands
    | none => mnemonic :: operands

/-- The words of a line with its labels renamed. -/
def renameWords (r : String → String) : List String → List String
  | [] => []
  | first :: rest =>
    match definedName? first with
    | some name => (r name ++ ":") :: renameCode r rest
    | none => renameCode r (first :: rest)

/-- The source with every label renamed in its place. -/
def renameLabels (r : String → String) (source : String) : String :=
  rewriteWords (renameWords r) source

/-- A renaming of the labels of a table to different names that operands can write. -/
structure Renaming (labels : LabelTable) (r : String → String) : Prop where
  injective : Set.InjOn r {name | labels.get? name ≠ none}
  isName : ∀ name, labels.get? name ≠ none → IsName (r name)
  isBare : ∀ name, labels.get? name ≠ none → Operand.IsBare (r name)

section Words

variable (r : String → String)

theorem length_renameOperands (roles : List Role) (words : List String) :
    (renameOperands r roles words).length = words.length := by
  induction words generalizing roles with
  | nil => cases roles <;> rfl
  | cons word words ih => cases roles <;> simp [renameOperands, ih]

theorem renameCode_cons (mnemonic : String) (operands : List String) :
    renameCode r (mnemonic :: operands) =
      mnemonic :: match Opcode.ofMnemonic? mnemonic with
        | some op => renameOperands r op.roles operands
        | none => operands := by
  rw [renameCode]
  split <;> rfl

theorem length_renameCode (words : List String) :
    (renameCode r words).length = words.length := by
  cases words with
  | nil => rfl
  | cons mnemonic operands =>
    rw [renameCode_cons]
    cases Opcode.ofMnemonic? mnemonic <;> simp [length_renameOperands]

theorem length_renameWords (words : List String) :
    (renameWords r words).length = words.length := by
  cases words with
  | nil => rfl
  | cons first rest =>
    rw [renameWords]
    cases definedName? first <;> simp [length_renameCode]

end Words

/-! ### Renamed lines -/

/-- A line that defines the renamed label and holds the instruction with its labels renamed. -/
structure Renamed (r : String → String) (a b : Line) : Prop where
  name : b.name? = a.name?.map r
  code : b.code?.map Code.words = a.code?.map fun code => renameCode r code.words

section Lines

variable {r : String → String} {a b : Line}

theorem ofTokens?_renamed {xs ys : List Token}
    (h : ys.map Token.text = renameCode r (xs.map Token.text)) :
    (Code.ofTokens? ys).map Code.words =
      (Code.ofTokens? xs).map fun code => renameCode r code.words := by
  cases xs with
  | nil =>
    obtain rfl := List.map_eq_nil_iff.1 h
    rfl
  | cons x xs =>
    have hLength := congrArg List.length h
    rw [length_renameCode, List.length_map, List.length_map] at hLength
    obtain ⟨y, ys, rfl⟩ := List.exists_cons_of_length_eq_add_one hLength
    exact congrArg some h

/-- What a line with renamed words defines and holds. -/
theorem renamed_of_words (h : b.words = renameWords r a.words)
    (hNames : ∀ name, a.name? = some name → IsName (r name)) : Renamed r a b := by
  cases hA : tokenize a.text with
  | nil =>
    have hSilent : a.words = [] := by simp [Line.words, hA]
    have hSilent' : b.words = [] := by rw [h, hSilent, renameWords]
    constructor
    · simp [Line.name?, Line.label?, Statement.ofLine?_of_silent hSilent,
        Statement.ofLine?_of_silent hSilent']
    · simp [Line.code?, Statement.ofLine?_of_silent hSilent, Statement.ofLine?_of_silent hSilent']
  | cons x xs =>
    have hWords : a.words = x.text :: xs.map Token.text := by rw [Line.words, hA, List.map_cons]
    have hDefined : definedName? x.text = x.label? := Token.label?_congr rfl
    rw [hWords, renameWords, hDefined] at h
    cases hLabel : x.label? with
    | some name =>
      rw [hLabel] at h
      obtain ⟨y, ys, hB, hText, hTexts⟩ := List.map_eq_cons_iff.1 h
      have hName := hNames name ((Line.name?_of_tokenize hA).trans hLabel)
      have hLabel' : y.label? = some (r name) := by
        refine Token.label?_eq_some_iff.2 ⟨hText, ?_, hName.colonless⟩
        rintro hEmpty
        exact hName.unbroken.nonempty (by simp [hEmpty])
      constructor
      · rw [Line.name?_of_tokenize hA, Line.name?_of_tokenize hB, hLabel, hLabel', Option.map_some]
      · rw [Line.code?_of_tokenize hA, Line.code?_of_tokenize hB, hLabel, hLabel']
        exact ofTokens?_renamed hTexts
    | none =>
      rw [hLabel, renameCode_cons] at h
      obtain ⟨y, ys, hB, hText, hTexts⟩ := List.map_eq_cons_iff.1 h
      have hLabel' : y.label? = none := (Token.label?_congr hText).trans hLabel
      constructor
      · rw [Line.name?_of_tokenize hA, Line.name?_of_tokenize hB, hLabel, hLabel', Option.map_none]
      · rw [Line.code?_of_tokenize hA, Line.code?_of_tokenize hB, hLabel, hLabel']
        simp only [Option.isSome_none, Bool.false_eq_true, if_false, Option.map_some, Code.words,
          renameCode_cons, hText, hTexts]

end Lines

/-! ### Renamed instructions -/

section Instructions

variable {r : String → String} {labels labels' : LabelTable} {a b : Line}

/-- A label that is accepted as an operand is in the table. -/
theorem get?_of_operand {op : Opcode} {place : Nat} {token : String} {value : Operand}
    (h : operand labels op place .label token = .ok value) :
    labels.get? (Operand.spelling token).body ≠ none := by
  obtain ⟨-, position, hPosition, -⟩ := operand_label_eq_ok_iff.1 h
  rw [hPosition]
  exact Option.some_ne_none position

/-- The second table has every name of the first, renamed, at the same position. -/
def Keeps (r : String → String) (labels labels' : LabelTable) : Prop :=
  ∀ name position, labels.get? name = some position → labels'.get? (r name) = some position

theorem operand_renamed (hr : Renaming labels r) (hLabels : Keeps r labels labels')
    {op : Opcode} {place : Nat} {role : Role} {token : String} {value : Operand}
    (h : operand labels op place role token = .ok value) :
    operand labels' op place role
      (if role = .label then r (Operand.spelling token).body else token) = .ok value := by
  cases role with
  | label =>
    have hSpelling := Operand.isBare_iff.1 (hr.isBare _ (get?_of_operand h))
    obtain ⟨-, position, hPosition, hValue⟩ := operand_label_eq_ok_iff.1 h
    rw [if_pos rfl, operand_label_eq_ok_iff, hSpelling]
    exact ⟨rfl, position, hLabels _ _ hPosition, hValue⟩
  | address =>
    rw [if_neg (by decide)]
    exact operand_address_eq_ok_iff.2 (operand_address_eq_ok_iff.1 h)
  | value =>
    rw [if_neg (by decide)]
    exact operand_value_eq_ok_iff.2 (operand_value_eq_ok_iff.1 h)

theorem operandsFrom_renamed (hr : Renaming labels r) (hLabels : Keeps r labels labels')
    {op : Opcode} {place : Nat} {xs ys : List Token} {roles : List Role} {operands : List Operand}
    (hWords : ys.map Token.text = renameOperands r roles (xs.map Token.text))
    (h : operandsFrom labels a op place xs roles = .ok operands) :
    operandsFrom labels' b op place ys roles = .ok operands := by
  induction xs generalizing ys place roles operands with
  | nil =>
    have hNone : renameOperands r roles [] = [] := by cases roles <;> rfl
    rw [List.map_nil, hNone, List.map_eq_nil_iff] at hWords
    subst hWords
    exact h
  | cons x xs ih =>
    cases roles with
    | nil =>
      cases ys <;> exact h
    | cons role roles =>
      obtain ⟨y, ys, rfl, hText, hTexts⟩ := List.map_eq_cons_iff.1 hWords
      obtain ⟨first, hFirst, hOthers⟩ := bind_eq_ok_iff.1 h
      obtain ⟨rest, hRest, ⟨⟩⟩ := bind_eq_ok_iff.1 hOthers
      have hNew := operand_renamed hr hLabels (mapError_eq_ok_iff.1 hFirst)
      rw [← hText] at hNew
      rw [operandsFrom]
      exact bind_eq_ok_iff.2 ⟨first, mapError_eq_ok_iff.2 hNew,
        bind_eq_ok_iff.2 ⟨rest, ih hTexts hRest, rfl⟩⟩

/-- The renamed instruction is the same with the renamed table. -/
theorem instruction_renamed (hr : Renaming labels r) (hLabels : Keeps r labels labels')
    {code code' : Code} (hWords : code'.words = renameCode r code.words) {i : Instruction}
    (h : instruction labels a code = .ok i) : instruction labels' b code' = .ok i := by
  obtain ⟨hOpcode, hLength, hOperands⟩ := instruction_eq_ok_iff.1 h
  rw [Code.words, Code.words, renameCode_cons, hOpcode] at hWords
  obtain ⟨hMnemonic, hTexts⟩ := List.cons_eq_cons.1 hWords
  refine instruction_eq_ok_iff.2 ⟨hMnemonic ▸ hOpcode, ?_, ?_⟩
  · have hSame := congrArg List.length hTexts
    rw [length_renameOperands, List.length_map, List.length_map] at hSame
    rw [hSame, hLength]
  · exact operandsFrom_renamed hr hLabels hTexts hOperands

theorem isSpoken_renameOperands (hr : Renaming labels r) {op : Opcode} {place : Nat}
    {tokens : List Token} {roles : List Role} {operands : List Operand}
    (hTokens : ∀ token ∈ tokens, IsSpoken token.text)
    (h : operandsFrom labels a op place tokens roles = .ok operands) :
    ∀ new ∈ renameOperands r roles (tokens.map Token.text), IsSpoken new := by
  induction tokens generalizing place roles operands with
  | nil => cases roles <;> simp [renameOperands]
  | cons token tokens ih =>
    obtain ⟨hToken, hOthers⟩ := List.forall_mem_cons.1 hTokens
    cases roles with
    | nil => simpa [renameOperands] using hTokens
    | cons role roles =>
      obtain ⟨first, hFirst, hLater⟩ := bind_eq_ok_iff.1 h
      obtain ⟨rest, hRest, ⟨⟩⟩ := bind_eq_ok_iff.1 hLater
      rw [List.map_cons, renameOperands]
      refine List.forall_mem_cons.2 ⟨?_, ih hOthers hRest⟩
      split
      case isTrue hRole =>
        subst hRole
        exact (hr.isName _ (get?_of_operand (mapError_eq_ok_iff.1 hFirst))).toIsSpoken
      case isFalse => exact hToken

theorem isSpoken_renameCode (hr : Renaming labels r) {code : Code} {i : Instruction}
    (hTokens : ∀ token ∈ code.mnemonic :: code.operands, IsSpoken token.text)
    (h : instruction labels a code = .ok i) :
    ∀ new ∈ renameCode r code.words, IsSpoken new := by
  obtain ⟨hMnemonic, hOthers⟩ := List.forall_mem_cons.1 hTokens
  obtain ⟨hOpcode, -, hOperands⟩ := instruction_eq_ok_iff.1 h
  rw [Code.words, renameCode_cons, hOpcode]
  exact List.forall_mem_cons.2 ⟨hMnemonic, isSpoken_renameOperands hr hOthers hOperands⟩

end Instructions

/-! ### Tables and lines -/

section Tables

variable {r : String → String} {as bs : List Line}

theorem labelNames_renamed (h : List.Forall₂ (Renamed r) as bs) :
    labelNames bs = (labelNames as).map r := by
  induction h with
  | nil => rfl
  | @cons a b as bs hFirst _ ih =>
    unfold labelNames at ih ⊢
    rw [List.filterMap_cons, List.filterMap_cons, hFirst.name]
    cases a.name? with
    | none => exact ih
    | some name => simp [ih]

theorem codeLines_renamed (h : List.Forall₂ (Renamed r) as bs) :
    List.Forall₂ (fun x y => y.2.words = renameCode r x.2.words) (codeLines as) (codeLines bs) := by
  induction h with
  | nil => exact .nil
  | @cons a b as bs hFirst _ ih =>
    have hCode := hFirst.code
    unfold codeLines at ih ⊢
    rw [List.filterMap_cons, List.filterMap_cons]
    cases hA : a.code? <;> cases hB : b.code? <;> rw [hA, hB] at hCode
    · exact ih
    · cases hCode
    · cases hCode
    · exact .cons (Option.some.inj hCode) ih

/-- Renamed labels stand where the labels stood, if no two of them become one. -/
theorem get?_definitionsFrom_renamed (h : List.Forall₂ (Renamed r) as bs) {names : Set String}
    (hInjective : Set.InjOn r names) (hNames : ∀ name ∈ labelNames as, name ∈ names)
    {name : String} (hName : name ∈ names) (position : Nat) :
    (definitionsFrom position bs).get? (r name) = (definitionsFrom position as).get? name := by
  induction h generalizing position with
  | nil => simp [definitionsFrom]
  | @cons a b as bs hFirst hRest ih =>
    have hCode : (codeLines [b]).length = (codeLines [a]).length :=
      (codeLines_renamed (.cons hFirst .nil)).length_eq.symm
    rw [← List.singleton_append, labelNames_append] at hNames
    obtain ⟨hHere, hLater⟩ := List.forall_mem_append.1 hNames
    have hSame : b.name? = some (r name) ↔ a.name? = some name := by
      rw [hFirst.name]
      cases hA : a.name? with
      | none => simp
      | some other =>
        have hOther : other ∈ names := hHere other (by simp [labelNames, hA])
        simp only [Option.map_some, Option.some.injEq]
        exact ⟨fun hEq => hInjective hOther hName hEq, congrArg r⟩
    rw [get?_definitionsFrom_cons, get?_definitionsFrom_cons, hCode, ih hLater]
    simp only [hSame]

theorem instructions_renamed {labels labels' : LabelTable} (hr : Renaming labels r)
    (hLabels : Keeps r labels labels')
    {entries entries' : List (Line × Code)} {is : List Instruction}
    (hWords : List.Forall₂ (fun x y => y.2.words = renameCode r x.2.words) entries entries')
    (h : List.Forall₂ (fun entry i => instruction labels entry.1 entry.2 = .ok i) entries is) :
    List.Forall₂ (fun entry i => instruction labels' entry.1 entry.2 = .ok i) entries' is := by
  induction hWords generalizing is with
  | nil =>
    cases h
    exact .nil
  | cons hFirst _ ih =>
    cases h with
    | cons hi his => exact .cons (instruction_renamed hr hLabels hFirst hi) (ih his)

end Tables

/-! ### Renamed sources -/

/-- A colon after a name opens no comment, also after a single slash. -/
theorem isSpoken_label {name : String} (h : IsName name) : IsSpoken (name ++ ":") := by
  have hChars : (name ++ ":").toList = name.toList ++ [':'] := by simp
  obtain ⟨c, cs, hName⟩ := List.exists_cons_of_ne_nil h.unbroken.nonempty
  refine ⟨⟨by simp [hChars], ?_⟩, fun hComment => ?_⟩
  · rw [hChars]
    exact List.forall_mem_append.2
      ⟨h.unbroken.unbroken, List.forall_mem_singleton.2 (by decide)⟩
  · have hSlashes : ['/', '/'] <+: c :: (cs ++ [':']) := by
      rw [hChars, hName] at hComment
      exact hComment
    obtain ⟨rfl, hSecond⟩ := List.cons_prefix_cons.1 hSlashes
    cases cs with
    | nil => exact absurd hSecond (by decide)
    | cons d cs =>
      obtain ⟨rfl, -⟩ := List.cons_prefix_cons.1 hSecond
      apply h.speaks
      rw [hName]
      exact ⟨cs, rfl⟩

section Sources

variable {r : String → String} {source : String} {program : Program}

theorem exists_instruction_of_code? (h : assemble source = .ok program) {line : Line} {code : Code}
    (hLine : line ∈ numberedLines source) (hCode : line.code? = some code) :
    ∃ i, instruction program.labels line code = .ok i := by
  obtain ⟨-, -, hAll⟩ := assemble_eq_ok_iff.1 h
  have hEntry : (line, code) ∈ codeLines (numberedLines source) :=
    List.mem_filterMap.2 ⟨line, hLine, by rw [hCode]; rfl⟩
  obtain ⟨k, hk⟩ := List.mem_iff_getElem?.1 hEntry
  obtain ⟨i, -, hi⟩ := getElem?_of_forall₂ hAll.flip hk
  exact ⟨i, hi⟩

theorem isSpoken_renameWords (h : assemble source = .ok program)
    (hr : Renaming program.labels r) :
    ∀ words ∈ tokenLines source, ∀ new ∈ renameWords r words, IsSpoken new := by
  intro words hWords
  rw [← words_spokenLines] at hWords
  obtain ⟨line, hSpoken, rfl⟩ := List.mem_map.1 hWords
  have hLine : line ∈ numberedLines source := List.mem_of_mem_filter hSpoken
  have hCode (code : Code) (hHeld : line.code? = some code) :
      ∀ new ∈ renameCode r code.words, IsSpoken new := by
    obtain ⟨i, hi⟩ := exists_instruction_of_code? h hLine hHeld
    refine isSpoken_renameCode hr (fun token hToken => ?_) hi
    exact isSpoken_of_mem_tokenize (Line.mem_tokenize_of_code? hHeld token hToken)
  cases hTokens : tokenize line.text with
  | nil => simp [Line.words, hTokens, renameWords]
  | cons first rest =>
    have hDefined : definedName? first.text = first.label? := Token.label?_congr rfl
    have hHeld := Line.code?_of_tokenize hTokens
    rw [Line.words, hTokens, List.map_cons, renameWords, hDefined]
    cases hLabel : first.label? with
    | none =>
      have hAll : line.code? = some ⟨first, rest⟩ := by
        rw [hHeld, hLabel]
        rfl
      exact hCode ⟨first, rest⟩ hAll
    | some name =>
      have hName : name ∈ labelNames (numberedLines source) :=
        List.mem_filterMap.2 ⟨line, hLine, (Line.name?_of_tokenize hTokens).trans hLabel⟩
      have hNew := isSpoken_label (hr.isName name ((get?_ne_none_iff h).2 hName))
      show ∀ new ∈ (r name ++ ":") :: renameCode r (rest.map Token.text), IsSpoken new
      refine List.forall_mem_cons.2 ⟨hNew, ?_⟩
      cases rest with
      | nil => simp [renameCode]
      | cons mnemonic operands =>
        have hRest : line.code? = some ⟨mnemonic, operands⟩ := by
          rw [hHeld, hLabel]
          rfl
        exact hCode ⟨mnemonic, operands⟩ hRest

/-- The lines of the renamed source are the renamed lines of the source, where there are words. -/
theorem renamed_spokenLines (h : assemble source = .ok program) (hr : Renaming program.labels r) :
    List.Forall₂ (Renamed r) (spokenLines (numberedLines source))
      (spokenLines (numberedLines (renameLabels r source))) := by
  have hWords := tokenLines_rewriteWords (length_renameWords r) (isSpoken_renameWords h hr)
  rw [← renameLabels, ← words_spokenLines, ← words_spokenLines, List.map_map,
    ← List.forall₂_eq_eq_eq, List.forall₂_map_left_iff, List.forall₂_map_right_iff] at hWords
  refine List.forall₂_iff_zip.2 ⟨hWords.length_eq.symm, fun {a b} hPair => ?_⟩
  have hLine : a ∈ numberedLines source := List.mem_of_mem_filter (List.of_mem_zip hPair).1
  refine renamed_of_words (List.forall₂_zip hWords.flip hPair) fun name hName => ?_
  exact hr.isName name ((get?_ne_none_iff h).2 (List.mem_filterMap.2 ⟨a, hLine, hName⟩))

theorem labelNames_renameLabels (h : assemble source = .ok program)
    (hr : Renaming program.labels r) :
    labelNames (numberedLines (renameLabels r source)) =
      (labelNames (numberedLines source)).map r := by
  have hNames := labelNames_renamed (renamed_spokenLines h hr)
  rwa [labelNames_spokenLines, labelNames_spokenLines] at hNames

theorem redefinitionFrom?_renameLabels (h : assemble source = .ok program)
    (hr : Renaming program.labels r) :
    redefinitionFrom? [] (numberedLines (renameLabels r source)) = none := by
  obtain ⟨hDistinct, -, -⟩ := assemble_eq_ok_iff.1 h
  obtain ⟨hOnce, -⟩ := redefinitionFrom?_eq_none_iff.1 hDistinct
  refine redefinitionFrom?_eq_none_iff.2 ⟨?_, fun name _ => List.not_mem_nil⟩
  rw [labelNames_renameLabels h hr]
  refine List.pairwise_map.2 (hOnce.imp_of_mem fun hA hB hOther hSame => hOther ?_)
  exact hr.injective ((get?_ne_none_iff h).2 hA) ((get?_ne_none_iff h).2 hB) hSame

theorem get?_renameLabels (h : assemble source = .ok program) (hr : Renaming program.labels r)
    {name : String} (hName : program.labels.get? name ≠ none) :
    (definitionsFrom 0 (numberedLines (renameLabels r source))).get? (r name) =
      program.labels.get? name := by
  obtain ⟨-, hLabels, -⟩ := assemble_eq_ok_iff.1 h
  have hNames : ∀ other ∈ labelNames (spokenLines (numberedLines source)),
      program.labels.get? other ≠ none := by
    rw [labelNames_spokenLines]
    exact fun other hOther => (get?_ne_none_iff h).2 hOther
  have hGet := get?_definitionsFrom_renamed (renamed_spokenLines h hr) hr.injective hNames hName 0
  rwa [definitionsFrom_spokenLines, definitionsFrom_spokenLines, ← hLabels] at hGet

/-- The renamed names, and no others, stand for the positions of the table. -/
theorem get?_renameLabels_iff (h : assemble source = .ok program)
    (hr : Renaming program.labels r) (name : String) (position : Nat) :
    (definitionsFrom 0 (numberedLines (renameLabels r source))).get? name = some position ↔
      ∃ old, r old = name ∧ program.labels.get? old = some position := by
  constructor
  · intro hName
    have hDefined : name ∈ labelNames (numberedLines (renameLabels r source)) := by
      refine Decidable.byContradiction fun hAbsent => ?_
      rw [(get?_definitionsFrom_eq_none_iff 0 name _).2 hAbsent] at hName
      cases hName
    rw [labelNames_renameLabels h hr] at hDefined
    obtain ⟨old, hOld, rfl⟩ := List.mem_map.1 hDefined
    rw [get?_renameLabels h hr ((get?_ne_none_iff h).2 hOld)] at hName
    exact ⟨old, rfl, hName⟩
  · rintro ⟨old, rfl, hOld⟩
    rw [get?_renameLabels h hr (by simp [hOld]), hOld]

end Sources

/-- A source with its labels renamed assembles to the same instructions, and to the same table with
its names renamed. -/
theorem assemble_renameLabels {source : String} {program : Program} {r : String → String}
    (h : assemble source = .ok program) (hr : Renaming program.labels r) :
    ∃ table : LabelTable, assemble (renameLabels r source) = .ok ⟨program.instructions, table⟩ ∧
      ∀ name position, table.get? name = some position ↔
        ∃ old, r old = name ∧ program.labels.get? old = some position := by
  obtain ⟨-, -, hCode⟩ := assemble_eq_ok_iff.1 h
  have hEntries := codeLines_renamed (renamed_spokenLines h hr)
  rw [codeLines_spokenLines, codeLines_spokenLines] at hEntries
  have hTable := get?_renameLabels_iff h hr
  -- Only the lookups of the new table matter from here on.
  generalize hDefined : definitionsFrom 0 (numberedLines (renameLabels r source)) = table at hTable
  have hKeeps : Keeps r program.labels table := fun name position hName =>
    (hTable (r name) position).2 ⟨name, rfl, hName⟩
  have hInstructions := instructions_renamed hr hKeeps hEntries hCode
  exact ⟨table, assemble_eq_ok_iff.2
    ⟨redefinitionFrom?_renameLabels h hr, hDefined.symm, hInstructions⟩, hTable⟩

/-- A source that uses its labels bare and in quotes, with a comment and mixed line ends. -/
def countdown : String :=
  "top: SET 1 0\r\n\tJLT 0 '1' 'top' // top\nJMP end\nend:\r"

/-- New names for the labels of `countdown`: a numeral that is also an operand, and an old name. -/
def crossed (name : String) : String :=
  if name = "top" then "1" else if name = "end" then "top" else name

theorem assemble_renameLabels_countdown :
    let instructions := [.set 1 (.direct 0), .branch .less (.direct 0) (.direct 1) 0, .jump 3]
    let renamed := "1: SET 1 0\r\n\tJLT 0 '1' 1 // top\nJMP top\ntop:\r"
    assemble countdown = .ok ⟨instructions, .ofList [("top", 0), ("end", 3)]⟩ ∧
      Renaming (.ofList [("top", 0), ("end", 3)]) crossed ∧
      renameLabels crossed countdown = renamed ∧
      ∃ table : LabelTable, assemble renamed = .ok ⟨instructions, table⟩ ∧
        table.get? "1" = some 0 ∧ table.get? "top" = some 3 ∧ table.get? "end" = none := by
  intro instructions renamed
  have hAssemble : assemble countdown =
      .ok ⟨instructions, .ofList [("top", 0), ("end", 3)]⟩ := by decide +kernel
  have hRenamed : renameLabels crossed countdown = renamed := by decide +kernel
  have hNames (name : String)
      (hName : (LabelTable.ofList [("top", 0), ("end", 3)]).get? name ≠ none) :
      name = "top" ∨ name = "end" := by
    refine Decidable.byContradiction fun hOther => hName ?_
    rw [not_or] at hOther
    simp [LabelTable.ofList, hOther]
  have hRenaming : Renaming (.ofList [("top", 0), ("end", 3)]) crossed := by
    refine ⟨fun a ha b hb hSame => ?_, fun name hName => ?_, fun name hName => ?_⟩
    · rcases hNames a ha with rfl | rfl <;> rcases hNames b hb with rfl | rfl <;>
        first | rfl | exact absurd hSame (by decide)
    · rcases hNames name hName with rfl | rfl <;> exact ⟨⟨by decide, by decide⟩, by decide⟩
    · rcases hNames name hName with rfl | rfl <;> decide
  obtain ⟨table, hProgram, hTable⟩ := assemble_renameLabels hAssemble hRenaming
  rw [hRenamed] at hProgram
  refine ⟨hAssemble, hRenaming, hRenamed, table, hProgram, (hTable _ _).2 ⟨"top", by decide⟩,
    (hTable _ _).2 ⟨"end", by decide⟩, ?_⟩
  -- No label is given the name `end`.
  refine Option.eq_none_iff_forall_ne_some.2 fun position hPosition => ?_
  obtain ⟨old, hOld, hDefined⟩ := (hTable _ _).1 hPosition
  rcases hNames old (by rw [hDefined]; nofun) with rfl | rfl <;> exact absurd hOld (by decide)

end Assembly

end TapeMachine
