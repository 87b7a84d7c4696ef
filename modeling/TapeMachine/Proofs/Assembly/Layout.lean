import TapeMachine.Proofs.Assembly.InOrder
import TapeMachine.Proofs.Source.Layout

/-! The assembler does not see the layout of a text.  Lines without tokens play no part in either
pass (`checkLines_spokenLines`), and lines with the same words give the same instruction or are
refused for the same reason at the same token (`checkLine_agree`).  So texts with the same words
assemble to the same program or are refused at the same word, wherever it stands. -/

namespace TapeMachine

open Outcome

namespace Source

/-- The texts of the tokens of a line. -/
def Line.words (line : Line) : List String :=
  (tokenize line.text).map Token.text

/-- The lines that have tokens, in order. -/
def spokenLines (lines : List Line) : List Line :=
  lines.filter fun line => line.words ≠ []

theorem spokenLines_cons_of_silent {line : Line} (h : line.words = []) (lines : List Line) :
    spokenLines (line :: lines) = spokenLines lines :=
  List.filter_cons_of_neg (by simpa using h)

theorem spokenLines_cons_of_spoken {line : Line} (h : line.words ≠ []) (lines : List Line) :
    spokenLines (line :: lines) = line :: spokenLines lines :=
  List.filter_cons_of_pos (by simpa using h)

theorem words_spokenLines (source : String) :
    (spokenLines (numberedLines source)).map Line.words = tokenLines source := by
  rw [tokenLines, ← texts_numberedLines, List.map_map, spokenLines, List.filter_map]
  rfl

theorem Statement.ofLine?_of_silent {line : Line} (h : line.words = []) :
    Statement.ofLine? line = none := by
  rw [Line.words, List.map_eq_nil_iff] at h
  simp [Statement.ofLine?, h]

theorem labelNames_of_silent {line : Line} (h : line.words = []) : labelNames [line] = [] := by
  simp [labelNames, Line.name?, Line.label?, Statement.ofLine?_of_silent h]

theorem codeLines_of_silent {line : Line} (h : line.words = []) : codeLines [line] = [] := by
  simp [codeLines, Line.code?, Statement.ofLine?_of_silent h]

/-- What lines without words do not have is found among the others. -/
theorem filterMap_spokenLines {β : Type} {g : Line → Option β}
    (h : ∀ line : Line, line.words = [] → g line = none) (lines : List Line) :
    (spokenLines lines).filterMap g = lines.filterMap g := by
  rw [spokenLines, List.filterMap_filter]
  congr
  funext line
  by_cases hSilent : line.words = []
  · simp [hSilent, h line hSilent]
  · simp [hSilent]

theorem labelNames_spokenLines (lines : List Line) :
    labelNames (spokenLines lines) = labelNames lines :=
  filterMap_spokenLines (fun line hSilent => by
    simp [Line.name?, Line.label?, Statement.ofLine?_of_silent hSilent]) lines

theorem codeLines_spokenLines (lines : List Line) :
    codeLines (spokenLines lines) = codeLines lines :=
  filterMap_spokenLines (fun line hSilent => by
    simp [Line.code?, Statement.ofLine?_of_silent hSilent]) lines

theorem Line.label?_of_tokenize {line : Line} {first : Token} {rest : List Token}
    (h : tokenize line.text = first :: rest) :
    line.label? = first.label?.map fun name => ⟨name, first.column⟩ := by
  cases hLabel : first.label? <;> simp [Line.label?, Statement.ofLine?, h, hLabel]

theorem Line.name?_of_tokenize {line : Line} {first : Token} {rest : List Token}
    (h : tokenize line.text = first :: rest) : line.name? = first.label? := by
  rw [Line.name?, Line.label?_of_tokenize h, Option.map_map]
  exact Option.map_id'

theorem Line.code?_of_tokenize {line : Line} {first : Token} {rest : List Token}
    (h : tokenize line.text = first :: rest) :
    line.code? = if first.label?.isSome then Code.ofTokens? rest else some ⟨first, rest⟩ := by
  cases hLabel : first.label? <;> simp [Line.code?, Statement.ofLine?, h, hLabel]

theorem Line.mem_tokenize_of_code? {line : Line} {code : Code} (h : line.code? = some code) :
    ∀ token ∈ code.mnemonic :: code.operands, token ∈ tokenize line.text := by
  cases hTokens : tokenize line.text with
  | nil => simp [Line.code?, Statement.ofLine?, hTokens] at h
  | cons first rest =>
    rw [Line.code?_of_tokenize hTokens] at h
    split at h
    case isTrue =>
      cases rest with
      | nil => cases h
      | cons mnemonic operands =>
        cases h
        exact fun token hToken => List.mem_cons_of_mem _ hToken
    case isFalse =>
      cases h
      exact fun token hToken => hToken

theorem Token.label?_congr {x y : Token} (h : x.text = y.text) : x.label? = y.label? := by
  unfold Token.label?
  rw [h]

section Words

variable {a b : Line}

/-- Lines with the same words have no tokens, or a first one each and others after it. -/
theorem Line.tokens_of_words (h : a.words = b.words) :
    a.words = [] ∧ b.words = [] ∨
      ∃ x xs y ys, tokenize a.text = x :: xs ∧ tokenize b.text = y :: ys ∧ x.text = y.text ∧
        xs.map Token.text = ys.map Token.text := by
  cases hA : tokenize a.text with
  | nil =>
    have hSilent : a.words = [] := by simp [Line.words, hA]
    exact .inl ⟨hSilent, h ▸ hSilent⟩
  | cons x xs =>
    have hB : (tokenize b.text).map Token.text = x.text :: xs.map Token.text := by
      rw [← List.map_cons, ← hA]
      exact h.symm
    obtain ⟨y, ys, hB, hText, hTexts⟩ := List.map_eq_cons_iff.1 hB
    exact .inr ⟨x, xs, y, ys, rfl, hB, hText.symm, hTexts.symm⟩

theorem Line.name?_of_words (h : a.words = b.words) : a.name? = b.name? := by
  obtain ⟨hA, hB⟩ | ⟨x, xs, y, ys, hA, hB, hText, -⟩ := Line.tokens_of_words h
  · simp [Line.name?, Line.label?, Statement.ofLine?_of_silent hA, Statement.ofLine?_of_silent hB]
  · simp [Line.name?, Line.label?_of_tokenize hA, Line.label?_of_tokenize hB,
      Token.label?_congr hText, Function.comp_def]

theorem length_codeLines_of_words (h : a.words = b.words) :
    (codeLines [a]).length = (codeLines [b]).length := by
  obtain ⟨hA, hB⟩ | ⟨x, xs, y, ys, hA, hB, hText, hTexts⟩ := Line.tokens_of_words h
  · rw [codeLines_of_silent hA, codeLines_of_silent hB]
  · have hRest : (Code.ofTokens? xs).isSome = (Code.ofTokens? ys).isSome := by
      cases xs <;> cases ys <;> simp [Code.ofTokens?] at hTexts ⊢
    have hCode : a.code?.isSome = b.code?.isSome := by
      rw [Line.code?_of_tokenize hA, Line.code?_of_tokenize hB, Token.label?_congr hText]
      cases y.label? with
      | none => rfl
      | some name => exact hRest
    have hLength (line : Line) : (codeLines [line]).length = line.code?.isSome.toNat := by
      cases hLine : line.code? <;> simp [codeLines, hLine]
    rw [hLength, hLength, hCode]

end Words

end Source

namespace Assembly

open Source

/-! ### Lines without tokens -/

theorem definitionsFrom_spokenLines (position : Nat) (lines : List Line) :
    definitionsFrom position (spokenLines lines) = definitionsFrom position lines := by
  induction lines generalizing position with
  | nil => rfl
  | cons line lines ih =>
    by_cases h : line.words = []
    · have hName : line.name? = none := by
        simp [Line.name?, Line.label?, Statement.ofLine?_of_silent h]
      rw [spokenLines_cons_of_silent h, ih, definitionsFrom, codeLines_of_silent h, hName]
      rfl
    · rw [spokenLines_cons_of_spoken h, definitionsFrom, definitionsFrom, ih]

/-- Of the lines before it, a line is checked against the labels only. -/
theorem checkLine_congr {earlier earlier' : List Line}
    (h : labelNames earlier = labelNames earlier') (labels : LabelTable) (line : Line) :
    checkLine labels earlier line = checkLine labels earlier' line := by
  unfold checkLine redefinition?
  rw [h]

theorem checkLine_of_silent {line : Line} (h : line.words = []) (labels : LabelTable)
    (earlier : List Line) : checkLine labels earlier line = .ok none := by
  simp [checkLine, redefinition?, Line.label?, Line.code?, Statement.ofLine?_of_silent h]

theorem checkLines_spokenLines (labels : LabelTable) {earlier earlier' : List Line}
    (h : labelNames earlier = labelNames earlier') (lines : List Line) :
    checkLines labels earlier' (spokenLines lines) = checkLines labels earlier lines := by
  induction lines generalizing earlier earlier' with
  | nil => rfl
  | cons line lines ih =>
    by_cases hSilent : line.words = []
    · have hSame : labelNames (earlier ++ [line]) = labelNames earlier' := by
        rw [labelNames_append, labelNames_of_silent hSilent, List.append_nil, h]
      rw [spokenLines_cons_of_silent hSilent, ih hSame, checkLines, checkLine_of_silent hSilent]
      cases checkLines labels (earlier ++ [line]) lines <;> rfl
    · have hNext : labelNames (earlier ++ [line]) = labelNames (earlier' ++ [line]) := by
        rw [labelNames_append, labelNames_append, h]
      rw [spokenLines_cons_of_spoken hSilent, checkLines, checkLines, ih hNext, checkLine_congr h]

/-! ### Lines with the same words -/

/-- Two diagnostics for one reason, at tokens that have the same place on their lines. -/
def SameToken (a b : Line) (d d' : Diagnostic) : Prop :=
  ∃ tokens ∈ (tokenize a.text).zip (tokenize b.text), ∃ rejection,
    d = a.reject tokens.1.column rejection ∧ d' = b.reject tokens.2.column rejection

/-- Tokens of two lines with the same texts, one by one at the same places of their lines. -/
structure Paired (a b : Line) (xs ys : List Token) : Prop where
  texts : xs.map Token.text = ys.map Token.text
  places : ∀ tokens ∈ xs.zip ys, tokens ∈ (tokenize a.text).zip (tokenize b.text)

section Words

variable {a b : Line} {xs ys : List Token}

theorem paired_of_words (h : a.words = b.words) :
    Paired a b (tokenize a.text) (tokenize b.text) :=
  ⟨h, fun _ hTokens => hTokens⟩

theorem Paired.length (h : Paired a b xs ys) : xs.length = ys.length := by
  simpa using congrArg List.length h.texts

theorem Paired.tail {x y : Token} (h : Paired a b (x :: xs) (y :: ys)) : Paired a b xs ys :=
  ⟨(List.cons_eq_cons.1 h.texts).2,
    fun tokens hTokens => h.places tokens (List.mem_cons_of_mem _ hTokens)⟩

theorem Paired.head {x y : Token} (h : Paired a b (x :: xs) (y :: ys)) : x.text = y.text :=
  (List.cons_eq_cons.1 h.texts).1

theorem Paired.reject {x y : Token} (h : Paired a b xs ys) (hTokens : (x, y) ∈ xs.zip ys)
    (rejection : Rejection) :
    SameToken a b (a.reject x.column rejection) (b.reject y.column rejection) :=
  ⟨(x, y), h.places _ hTokens, rejection, rfl, rfl⟩

theorem operandsFrom_agree (h : Paired a b xs ys) (labels : LabelTable) (op : Opcode) (place : Nat)
    (roles : List Role) :
    Agree (SameToken a b) (operandsFrom labels a op place xs roles)
      (operandsFrom labels b op place ys roles) := by
  induction xs generalizing ys place roles with
  | nil =>
    obtain rfl : ys = [] := by simpa using h.length.symm
    exact .ok []
  | cons x xs ih =>
    cases ys with
    | nil => exact absurd h.length (by simp)
    | cons y ys =>
      cases roles with
      | nil => exact .ok []
      | cons role roles =>
        simp only [operandsFrom, h.head]
        apply Agree.bind (Agree.mapError fun rejection => h.reject List.mem_cons_self rejection)
        intro first
        apply Agree.bind (ih h.tail (place + 1) roles)
        intro rest
        exact .ok (first :: rest)

/-- The token that is blamed for a wrong number of operands: the first one too many, or the
mnemonic. -/
theorem Paired.culprit {x y : Token} (h : Paired a b (x :: xs) (y :: ys)) (k : Nat) :
    (xs[k]?.getD x, ys[k]?.getD y) ∈ (x :: xs).zip (y :: ys) := by
  have hLength := h.tail.length
  by_cases hk : k < xs.length
  · have hPair : (xs.zip ys)[k]? = some (xs[k], ys[k]) :=
      List.getElem?_zip_eq_some.2 ⟨List.getElem?_eq_getElem hk, List.getElem?_eq_getElem _⟩
    have hMem := List.mem_of_getElem? hPair
    simpa [hk, hLength ▸ hk] using List.mem_cons_of_mem (x, y) hMem
  · simp [hk, hLength ▸ hk]

theorem instruction_agree {code code' : Code}
    (h : Paired a b (code.mnemonic :: code.operands) (code'.mnemonic :: code'.operands))
    (labels : LabelTable) :
    Agree (SameToken a b) (instruction labels a code) (instruction labels b code') := by
  have hMnemonic (rejection : Rejection) :
      SameToken a b (a.reject code.mnemonic.column rejection)
        (b.reject code'.mnemonic.column rejection) :=
    h.reject List.mem_cons_self rejection
  unfold instruction
  rw [h.head]
  cases Opcode.ofMnemonic? code'.mnemonic.text with
  | none => exact .error (hMnemonic _)
  | some op =>
    simp only [h.tail.length]
    split
    · exact .error (h.reject (h.culprit op.arity) _)
    · apply Agree.bind (operandsFrom_agree h.tail labels op 1 op.roles)
      intro operands
      exact Agree.mapError hMnemonic

/-- What the tokens after a label give: nothing, or an instruction. -/
theorem instruction?_agree (h : Paired a b xs ys) (labels : LabelTable) :
    Agree (SameToken a b)
      (match Code.ofTokens? xs with
        | some code => (instruction labels a code).map some
        | none => .ok none)
      (match Code.ofTokens? ys with
        | some code => (instruction labels b code).map some
        | none => .ok none) := by
  cases xs with
  | nil =>
    obtain rfl : ys = [] := by simpa using h.length.symm
    exact .ok none
  | cons x xs =>
    cases ys with
    | nil => exact absurd h.length (by simp)
    | cons y ys =>
      have hCode : Paired a b ((Code.mk x xs).mnemonic :: (Code.mk x xs).operands)
          ((Code.mk y ys).mnemonic :: (Code.mk y ys).operands) := h
      exact (instruction_agree hCode labels).map

theorem checkLine_agree (h : a.words = b.words) {earlier earlier' : List Line}
    (hNames : labelNames earlier = labelNames earlier') (labels : LabelTable) :
    Agree (SameToken a b) (checkLine labels earlier a) (checkLine labels earlier' b) := by
  obtain ⟨hA, hB⟩ | ⟨x, xs, y, ys, hA, hB, hText, -⟩ := Line.tokens_of_words h
  · rw [checkLine_of_silent hA, checkLine_of_silent hB]
    exact .ok none
  · have hPaired : Paired a b (x :: xs) (y :: ys) := hA ▸ hB ▸ paired_of_words h
    unfold checkLine redefinition?
    rw [Line.label?_of_tokenize hA, Line.label?_of_tokenize hB, Line.code?_of_tokenize hA,
      Line.code?_of_tokenize hB, Token.label?_congr hText, hNames]
    cases y.label? with
    | none => exact (instruction_agree hPaired labels).map
    | some name =>
      by_cases hOld : name ∈ labelNames earlier'
      · simp only [Option.map_some, Option.bind_some, hOld, if_true]
        exact .error (hPaired.reject List.mem_cons_self _)
      · simp only [Option.map_some, Option.bind_some, hOld, if_false, Option.isSome_some, if_true]
        exact instruction?_agree hPaired.tail labels

end Words

/-- Diagnostics at the same token of two lines that have the same place. -/
def SamePlace (as bs : List Line) (d d' : Diagnostic) : Prop :=
  ∃ lines ∈ as.zip bs, SameToken lines.1 lines.2 d d'

section Lines

variable {as bs : List Line}

theorem definitionsFrom_of_words (h : List.Forall₂ (fun a b => a.words = b.words) as bs)
    (position : Nat) : definitionsFrom position as = definitionsFrom position bs := by
  induction h generalizing position with
  | nil => rfl
  | cons hWords _ ih =>
    rw [definitionsFrom, definitionsFrom, ih, Line.name?_of_words hWords,
      length_codeLines_of_words hWords]

theorem checkLines_agree (h : List.Forall₂ (fun a b => a.words = b.words) as bs)
    {earlier earlier' : List Line} (hNames : labelNames earlier = labelNames earlier')
    (labels : LabelTable) :
    Agree (SamePlace as bs) (checkLines labels earlier as) (checkLines labels earlier' bs) := by
  induction h generalizing earlier earlier' with
  | nil => exact .ok []
  | @cons a b as bs hWords _ ih =>
    have hNext : labelNames (earlier ++ [a]) = labelNames (earlier' ++ [b]) := by
      rw [labelNames_append, labelNames_append, hNames]
      simp only [labelNames, List.filterMap_cons, Line.name?_of_words hWords, List.filterMap_nil]
    have hFirst := checkLine_agree hWords hNames labels
    rw [checkLines, checkLines]
    generalize checkLine labels earlier a = first at hFirst ⊢
    generalize checkLine labels earlier' b = first' at hFirst ⊢
    cases hFirst with
    | error hSame => exact .error ⟨(a, b), List.mem_cons_self, hSame⟩
    | ok instruction? =>
      refine Agree.map ((ih hNext).imp fun d d' hLater => ?_)
      obtain ⟨lines, hLines, hSame⟩ := hLater
      exact ⟨lines, List.mem_cons_of_mem _ hLines, hSame⟩

/-- Lines with the same words, apart from those that have none, give the same program or are refused
at the same word. -/
theorem assembleLines_agree
    (h : (spokenLines as).map Line.words = (spokenLines bs).map Line.words) :
    Agree (SamePlace (spokenLines as) (spokenLines bs)) (assembleLines as) (assembleLines bs) := by
  rw [← List.forall₂_eq_eq_eq, List.forall₂_map_left_iff, List.forall₂_map_right_iff] at h
  have hLabels : definitionsFrom 0 as = definitionsFrom 0 bs := by
    rw [← definitionsFrom_spokenLines, definitionsFrom_of_words h, definitionsFrom_spokenLines]
  have hLines := checkLines_agree h (show labelNames [] = labelNames [] from rfl)
    (definitionsFrom 0 bs)
  rw [checkLines_spokenLines _ rfl, checkLines_spokenLines _ rfl] at hLines
  rw [assembleLines, assembleLines, hLabels]
  exact hLines.map

end Lines

/-! ### Sources with the same words -/

/-- A diagnostic points at a token of a line with tokens, both counted from 0. -/
def PointsAt (source : String) (place index : Nat) (d : Diagnostic) : Prop :=
  ∃ line token, (spokenLines (numberedLines source))[place]? = some line ∧
    (tokenize line.text)[index]? = some token ∧ d = line.reject token.column d.rejection

theorem eq_of_getElem?_of_increasing {α : Type} {f : α → Nat} {xs : List α}
    (h : xs.Pairwise fun x y => f x < f y) {i j : Nat} {x y : α} (hi : xs[i]? = some x)
    (hj : xs[j]? = some y) (hSame : f x = f y) : i = j := by
  have hNodup : (xs.map f).Nodup := List.pairwise_map.2 (h.imp Nat.ne_of_lt)
  have hLength : i < (xs.map f).length := by
    simpa using (List.getElem?_eq_some_iff.1 hi).1
  refine (List.getElem?_inj hLength hNodup).1 ?_
  rw [List.getElem?_map, List.getElem?_map, hi, hj, Option.map_some, Option.map_some, hSame]

/-- The line and the column of a diagnostic are those of one token. -/
theorem PointsAt.unique {source : String} {place index place' index' : Nat} {d : Diagnostic}
    (h : PointsAt source place index d) (h' : PointsAt source place' index' d) :
    place = place' ∧ index = index' := by
  obtain ⟨line, token, hLine, hToken, hd⟩ := h
  obtain ⟨line', token', hLine', hToken', hd'⟩ := h'
  have hOrder : (spokenLines (numberedLines source)).Pairwise fun x y => x.number < y.number :=
    (numberedLines_increase source).sublist List.filter_sublist
  have hNumber : line.number = line'.number := by
    have hFirst : d.line = line.number := by rw [hd]; rfl
    have hSecond : d.line = line'.number := by rw [hd']; rfl
    rw [← hFirst, hSecond]
  obtain rfl := eq_of_getElem?_of_increasing hOrder hLine hLine' hNumber
  obtain rfl := Option.some.inj (hLine.symm.trans hLine')
  have hColumn : token.column = token'.column := by
    have hFirst : d.column = token.column := by rw [hd]; rfl
    have hSecond : d.column = token'.column := by rw [hd']; rfl
    rw [← hFirst, hSecond]
  exact ⟨rfl, eq_of_getElem?_of_increasing (tokenize_columns _) hToken hToken' hColumn⟩

theorem pointsAt_of_samePlace {a b : String} {d d' : Diagnostic}
    (h : SamePlace (spokenLines (numberedLines a)) (spokenLines (numberedLines b)) d d') :
    d.rejection = d'.rejection ∧
      ∃ place index, PointsAt a place index d ∧ PointsAt b place index d' := by
  obtain ⟨lines, hLines, tokens, hTokens, rejection, rfl, rfl⟩ := h
  obtain ⟨place, hPlace⟩ := List.mem_iff_getElem?.1 hLines
  obtain ⟨index, hIndex⟩ := List.mem_iff_getElem?.1 hTokens
  obtain ⟨hLineA, hLineB⟩ := List.getElem?_zip_eq_some.1 hPlace
  obtain ⟨hTokenA, hTokenB⟩ := List.getElem?_zip_eq_some.1 hIndex
  exact ⟨rfl, place, index, ⟨lines.1, tokens.1, hLineA, hTokenA, rfl⟩,
    ⟨lines.2, tokens.2, hLineB, hTokenB, rfl⟩⟩

/-- Diagnostics at the same place point at one and the same token, and at no other. -/
theorem pointsAt_iff_of_samePlace {a b : String} {d d' : Diagnostic}
    (h : SamePlace (spokenLines (numberedLines a)) (spokenLines (numberedLines b)) d d') :
    d.rejection = d'.rejection ∧
      ∃ place index, ∀ k t, (PointsAt a k t d ↔ k = place ∧ t = index) ∧
        (PointsAt b k t d' ↔ k = place ∧ t = index) := by
  obtain ⟨hRejection, place, index, hA, hB⟩ := pointsAt_of_samePlace h
  refine ⟨hRejection, place, index, fun k t => ⟨⟨fun hOther => hOther.unique hA, ?_⟩,
    ⟨fun hOther => hOther.unique hB, ?_⟩⟩⟩
  · rintro ⟨rfl, rfl⟩
    exact hA
  · rintro ⟨rfl, rfl⟩
    exact hB

/-- The lines of a text after lines without tokens were put in, each with a mark that says whether
it was put in. -/
structure Inserts (layout : List (Bool × String)) (before after : String) : Prop where
  before : Text.lines before = (layout.filter fun line => !line.1).map Prod.snd
  after : Text.lines after = layout.map Prod.snd
  silent : ∀ line ∈ layout, line.1 = true → tokenize line.2 = []

/-- A line that was there before, with its number after lines were put in. -/
structure Moved (layout : List (Bool × String)) (old new : Line) : Prop where
  text : new.text = old.text
  kept : layout[new.number - 1]? = some (false, old.text)
  number : new.number = old.number + (layout.take (new.number - 1)).countP Prod.fst

/-- Texts as lines with numbers from `first` on. -/
def numberFrom (first : Nat) (texts : List String) : List Line :=
  (texts.zipIdx first).map fun (text, number) => ⟨number, text⟩

theorem numberFrom_cons (first : Nat) (text : String) (texts : List String) :
    numberFrom first (text :: texts) = ⟨first, text⟩ :: numberFrom (first + 1) texts := rfl

/-- The lines that have tokens are moved on by the lines put in before them. -/
theorem moved_spokenLines (done : List (Bool × String)) {todo : List (Bool × String)}
    (hSilent : ∀ line ∈ todo, line.1 = true → tokenize line.2 = []) :
    List.Forall₂ (Moved (done ++ todo))
      (spokenLines (numberFrom (done.countP (fun line => !line.1) + 1)
        ((todo.filter fun line => !line.1).map Prod.snd)))
      (spokenLines (numberFrom (done.length + 1) (todo.map Prod.snd))) := by
  induction todo generalizing done with
  | nil => exact .nil
  | cons line todo ih =>
    -- `done` grows at its end, so the counts in it are those before the line at hand.
    obtain ⟨inserted, text⟩ := line
    obtain ⟨hFirst, hRest⟩ := List.forall_mem_cons.1 hSilent
    have hLater := ih (done ++ [(inserted, text)]) hRest
    rw [List.append_cons, List.map_cons, numberFrom_cons]
    cases inserted with
    | true =>
      have hEmpty : (Line.mk (done.length + 1) text).words = [] := by simp [Line.words, hFirst]
      rw [spokenLines_cons_of_silent hEmpty]
      simpa using hLater
    | false =>
      rw [List.filter_cons_of_pos rfl, List.map_cons, numberFrom_cons]
      have hNext : List.Forall₂ (Moved (done ++ [(false, text)] ++ todo))
          (spokenLines (numberFrom (done.countP (fun line => !line.1) + 1 + 1)
            ((todo.filter fun line => !line.1).map Prod.snd)))
          (spokenLines (numberFrom (done.length + 1 + 1) (todo.map Prod.snd))) := by
        simpa using hLater
      by_cases hEmpty : tokenize text = []
      · rw [spokenLines_cons_of_silent (by simp [Line.words, hEmpty]),
          spokenLines_cons_of_silent (by simp [Line.words, hEmpty])]
        exact hNext
      · rw [spokenLines_cons_of_spoken (by simp [Line.words, hEmpty]),
          spokenLines_cons_of_spoken (by simp [Line.words, hEmpty])]
        refine .cons ⟨rfl, by simp, ?_⟩ hNext
        have hCount : done.length =
            done.countP Prod.fst + done.countP (fun line => !line.1) := by
          simpa using done.length_eq_countP_add_countP Prod.fst
        simp only [Nat.add_sub_cancel, List.append_assoc, List.take_left]
        omega

theorem Inserts.moved {layout : List (Bool × String)} {before after : String}
    (h : Inserts layout before after) :
    List.Forall₂ (Moved layout) (spokenLines (numberedLines before))
      (spokenLines (numberedLines after)) := by
  have hMoved := moved_spokenLines [] h.silent
  rw [← h.before, ← h.after] at hMoved
  exact hMoved

theorem Moved.words {layout : List (Bool × String)} {old new : Line} (h : Moved layout old new) :
    old.words = new.words := by
  rw [Line.words, Line.words, h.text]

/-- A diagnostic on a line that was moved is the same but for the number of the line. -/
theorem Moved.reject {layout : List (Bool × String)} {old new : Line} (h : Moved layout old new)
    {d d' : Diagnostic} (hSame : SameToken old new d d') :
    d.text = old.text ∧ d.line = old.number ∧ d' = { d with line := new.number } := by
  obtain ⟨tokens, hTokens, rejection, rfl, rfl⟩ := hSame
  rw [h.text] at hTokens
  obtain ⟨k, hk⟩ := List.mem_iff_getElem?.1 hTokens
  obtain ⟨hOld, hNew⟩ := List.getElem?_zip_eq_some.1 hk
  have hToken : tokens.1 = tokens.2 := Option.some.inj (hOld.symm.trans hNew)
  refine ⟨rfl, rfl, ?_⟩
  simp only [Line.reject, hToken, h.text]

theorem assemble_agree {a b : String} (h : tokenLines a = tokenLines b) :
    Agree (SamePlace (spokenLines (numberedLines a)) (spokenLines (numberedLines b)))
      (assemble a) (assemble b) := by
  rw [← words_spokenLines, ← words_spokenLines] at h
  rw [assemble_eq_assembleLines, assemble_eq_assembleLines]
  exact assembleLines_agree h

theorem Inserts.tokenLines {layout : List (Bool × String)} {before after : String}
    (h : Inserts layout before after) : tokenLines before = tokenLines after := by
  rw [← words_spokenLines, ← words_spokenLines, ← List.forall₂_eq_eq_eq,
    List.forall₂_map_left_iff, List.forall₂_map_right_iff]
  exact h.moved.imp fun _ _ hLine => hLine.words

/-- A diagnostic after lines were put in, and how many of them come before it. -/
theorem Inserts.diagnostic {layout : List (Bool × String)} {before after : String}
    (h : Inserts layout before after) {d d' : Diagnostic}
    (hPlace : SamePlace (spokenLines (numberedLines before)) (spokenLines (numberedLines after))
      d d') :
    ∃ added, d' = { d with line := d.line + added } ∧
      layout[d.line + added - 1]? = some (false, d.text) ∧
      added = (layout.take (d.line + added - 1)).countP Prod.fst := by
  obtain ⟨lines, hLines, hSame⟩ := hPlace
  have hMoved := List.forall₂_zip h.moved hLines
  obtain ⟨hText, hLine, hNew⟩ := hMoved.reject hSame
  have hNumber := hMoved.number
  have hKept := hMoved.kept
  rw [← hLine] at hNumber
  rw [← hText] at hKept
  refine ⟨(layout.take (lines.2.number - 1)).countP Prod.fst, ?_⟩
  rw [← hNumber]
  exact ⟨hNew, hKept, rfl⟩

/-- Two texts with the same words, line by line, assemble to the same program or are refused for the
same reason at the same word, whatever their layout.  Lines without tokens that are put in change
nothing about a program, and of a diagnostic only the number of the line, which grows by the number
of lines put in before it. -/
theorem assemble_layout (a b : String) :
    (tokenLines a = tokenLines b →
      (∃ program, assemble a = .ok program ∧ assemble b = .ok program) ∨
      ∃ d d', assemble a = .error d ∧ assemble b = .error d' ∧ d.rejection = d'.rejection ∧
        ∃ place index, ∀ k t, (PointsAt a k t d ↔ k = place ∧ t = index) ∧
          (PointsAt b k t d' ↔ k = place ∧ t = index)) ∧
    ∀ layout, Inserts layout a b →
      (∃ program, assemble a = .ok program ∧ assemble b = .ok program) ∨
      ∃ d added, assemble a = .error d ∧
        assemble b = .error { d with line := d.line + added } ∧
        layout[d.line + added - 1]? = some (false, d.text) ∧
        added = (layout.take (d.line + added - 1)).countP Prod.fst := by
  constructor
  · intro h
    exact Agree.iff_or.1 ((assemble_agree h).imp fun d d' => pointsAt_iff_of_samePlace)
  · intro layout h
    refine (Agree.iff_or.1 (assemble_agree h.tokenLines)).imp_right ?_
    rintro ⟨d, d', hA, hB, hPlace⟩
    obtain ⟨added, rfl, hKept, hAdded⟩ := h.diagnostic hPlace
    exact ⟨d, added, hA, hB, hKept, hAdded⟩

/-- A source that is refused at its last word. -/
def terse : String :=
  "top:\nJMP top\nOUT z"

/-- The words of `terse` in another layout, with comments and mixed line ends. -/
def spaced : String :=
  " // a loop\r\n top:\n\n  JMP   top // back\r\n OUT\tz\r"

/-- The lines of `terse` with a comment and a blank line put in. -/
def annotated : List (Bool × String) :=
  [(true, "// note"), (false, "top:"), (false, "JMP top"), (true, "   "), (false, "OUT z")]

theorem assemble_layout_terse :
    tokenLines terse = tokenLines spaced ∧
    (∃ d d', assemble terse = .error d ∧ assemble spaced = .error d' ∧
      d.rejection = d'.rejection ∧
      ∃ place index, ∀ k t, (PointsAt terse k t d ↔ k = place ∧ t = index) ∧
        (PointsAt spaced k t d' ↔ k = place ∧ t = index)) ∧
    Inserts annotated terse "// note\ntop:\nJMP top\n   \nOUT z" ∧
    ∃ d added, assemble terse = .error d ∧
      assemble "// note\ntop:\nJMP top\n   \nOUT z" = .error { d with line := d.line + added } ∧
      annotated[d.line + added - 1]? = some (false, d.text) ∧
      added = (annotated.take (d.line + added - 1)).countP Prod.fst := by
  have hWords : tokenLines terse = tokenLines spaced := by decide +kernel
  have hInserts : Inserts annotated terse "// note\ntop:\nJMP top\n   \nOUT z" :=
    ⟨by decide +kernel, by decide +kernel, by decide +kernel⟩
  have hRefused : assemble terse =
      .error ⟨3, 5, "OUT z", .nonNumericOperand "OUT" 1 "z"⟩ := by decide +kernel
  have hNever : ¬∃ program, assemble terse = .ok program ∧ assemble spaced = .ok program := by
    rintro ⟨program, hOk, -⟩
    rw [hRefused] at hOk
    cases hOk
  refine ⟨hWords, ((assemble_layout terse spaced).1 hWords).resolve_left hNever, hInserts, ?_⟩
  refine ((assemble_layout terse _).2 annotated hInserts).resolve_left ?_
  rintro ⟨program, hOk, -⟩
  rw [hRefused] at hOk
  cases hOk

end Assembly

end TapeMachine
