import Mathlib.Data.List.TakeWhile
import TapeMachine.Source.Statement

/-! Reading a text that was put together from lines and words.  `lines_intercalate` gives back lines
that were joined by line feeds, and `texts_tokenize` words that were joined by blanks. -/

namespace TapeMachine

namespace Text

/-- A text that a line feed after it makes a line: it has no line feed in it and does not end in a
carriage return. -/
structure IsRow (line : String) : Prop where
  unbroken : '\n' ∉ line.toList
  ending : line.toList.getLast? ≠ some '\r'

instance (line : String) : Decidable (IsRow line) :=
  decidable_of_iff ('\n' ∉ line.toList ∧ line.toList.getLast? ≠ some '\r')
    ⟨fun h => ⟨h.1, h.2⟩, fun h => ⟨h.unbroken, h.ending⟩⟩

/-- A text that fits on one line: not empty and without the characters of line ends. -/
structure IsLine (line : String) : Prop where
  nonempty : line ≠ ""
  unbroken : ∀ c ∈ line.toList, c ≠ '\n' ∧ c ≠ '\r'

/-- A text without the characters of line ends. -/
theorem isRow_of_forall {line : String} (h : ∀ c ∈ line.toList, c ≠ '\n' ∧ c ≠ '\r') :
    IsRow line :=
  ⟨fun hc => (h _ hc).1 rfl, fun hLast => (h _ (List.mem_of_getLast? hLast)).2 rfl⟩

theorem linesFrom_append {line : List Char} (h : ∀ c ∈ line, c ≠ '\n')
    (reversed rest : List Char) :
    linesFrom reversed (line ++ rest) = linesFrom (line.reverse ++ reversed) rest := by
  induction line generalizing reversed with
  | nil => rfl
  | cons c line ih =>
    obtain ⟨hFirst, hRest⟩ := List.forall_mem_cons.1 h
    rw [List.cons_append, linesFrom, if_neg hFirst, ih hRest, List.reverse_cons,
      List.append_assoc, List.singleton_append]

theorem endLine_reverse {line : List Char} (h : line.getLast? ≠ some '\r') :
    endLine line.reverse = line := by
  unfold endLine
  split
  case h_1 reversed hLine =>
    refine absurd ?_ h
    rw [← List.head?_reverse, hLine, List.head?_cons]
  case h_2 => exact List.reverse_reverse line

/-- A line feed ends the line before it. -/
theorem IsRow.lines_newline {line : String} (h : IsRow line) (rest : String) :
    lines (line ++ "\n" ++ rest) = line :: lines rest := by
  have hUnbroken : ∀ c ∈ line.toList, c ≠ '\n' := fun c hc hFeed => h.unbroken (hFeed ▸ hc)
  simp only [lines, String.toList_append]
  rw [List.append_assoc, linesFrom_append hUnbroken, List.append_nil,
    show "\n".toList = ['\n'] from rfl, List.singleton_append, linesFrom, if_pos rfl,
    endLine_reverse h.ending, List.map_cons, String.ofList_toList]

theorem IsLine.isRow {line : String} (h : IsLine line) : IsRow line :=
  isRow_of_forall h.unbroken

/-- A text without line ends is one line. -/
theorem lines_unended {line : String} (h : IsLine line) : lines line = [line] := by
  have hAll := linesFrom_append (fun c hc => (h.unbroken c hc).1) [] []
  rw [List.append_nil, List.append_nil] at hAll
  simp [lines, hAll, linesFrom, h.nonempty]

/-- Lines joined by line feeds are read back, and a line feed at the end adds no line. -/
theorem lines_intercalate {parts : List String} (hSome : parts ≠ [])
    (h : ∀ line ∈ parts, IsLine line) :
    lines ("\n".intercalate parts) = parts ∧ lines ("\n".intercalate parts ++ "\n") = parts := by
  induction parts with
  | nil => exact absurd rfl hSome
  | cons line parts ih =>
    obtain ⟨hLine, hRest⟩ := List.forall_mem_cons.1 h
    cases parts with
    | nil =>
      have hEnded := hLine.isRow.lines_newline ""
      rw [String.append_empty] at hEnded
      rw [String.intercalate_singleton]
      exact ⟨lines_unended hLine, hEnded⟩
    | cons next parts =>
      obtain ⟨hUnended, hEnded⟩ := ih (List.cons_ne_nil next parts) hRest
      rw [String.intercalate_cons_cons]
      constructor
      · rw [hLine.isRow.lines_newline, hUnended]
      · rw [String.append_assoc, hLine.isRow.lines_newline, hEnded]

/-- Lines with a line feed after each of them are read back. -/
theorem lines_join {parts : List String} (h : ∀ line ∈ parts, IsRow line) :
    lines (String.join (parts.map (· ++ "\n"))) = parts := by
  induction parts with
  | nil => rfl
  | cons line parts ih =>
    obtain ⟨hLine, hRest⟩ := List.forall_mem_cons.1 h
    rw [List.map_cons, String.join_cons, hLine.lines_newline, ih hRest]

end Text

namespace Source

/-- A visible ASCII character other than the slash: no blank, no line end, no start of a comment. -/
def IsPlain (c : Char) : Prop :=
  0x21 ≤ c.toNat ∧ c.toNat ≤ 0x7E ∧ c ≠ '/'

instance (c : Char) : Decidable (IsPlain c) :=
  inferInstanceAs (Decidable (_ ∧ _ ∧ _))

/-- One or more plain characters. -/
structure IsWord (word : String) : Prop where
  nonempty : word ≠ ""
  plain : ∀ c ∈ word.toList, IsPlain c

instance (word : String) : Decidable (IsWord word) :=
  decidable_of_iff (word ≠ "" ∧ word.toList.all fun c => decide (IsPlain c))
    ⟨fun h => ⟨h.1, by simpa using h.2⟩, fun h => ⟨h.nonempty, by simpa using h.plain⟩⟩

theorem IsPlain.not_blank {c : Char} (h : IsPlain c) : Text.isBlank c = false := by
  obtain ⟨hLow, hHigh, -⟩ := h
  simp only [Text.isBlank, Text.blankRanges, List.any_cons, List.any_nil, Bool.or_false,
    Bool.or_eq_false_iff, Bool.and_eq_false_iff, decide_eq_false_iff_not]
  omega

theorem IsPlain.unbroken {c : Char} (h : IsPlain c) : c ≠ '\n' ∧ c ≠ '\r' := by
  constructor <;> rintro rfl <;> exact absurd h.1 (by decide)

theorem IsWord.append {a b : String} (ha : IsWord a) (hb : IsWord b) : IsWord (a ++ b) := by
  refine ⟨by simp [ha.nonempty], fun c hc => ?_⟩
  rw [String.toList_append, List.mem_append] at hc
  exact hc.elim (ha.plain c) (hb.plain c)

theorem mem_intercalate {words : List String} (h : ∀ word ∈ words, IsWord word) {c : Char}
    (hc : c ∈ (" ".intercalate words).toList) : IsPlain c ∨ c = ' ' := by
  induction words with
  | nil => simp at hc
  | cons word words ih =>
    obtain ⟨hWord, hRest⟩ := List.forall_mem_cons.1 h
    cases words with
    | nil =>
      rw [String.intercalate_singleton] at hc
      exact .inl (hWord.plain c hc)
    | cons next words =>
      rw [String.intercalate_cons_cons, String.toList_append, String.toList_append,
        List.mem_append, List.mem_append] at hc
      obtain (hFirst | hBlank) | hLater := hc
      · exact .inl (hWord.plain c hFirst)
      · exact .inr (List.mem_singleton.1 hBlank)
      · exact ih hRest hLater

/-- A word and others after it, joined by blanks, fit on one line. -/
theorem isLine_intercalate {word : String} {words : List String}
    (h : ∀ other ∈ word :: words, IsWord other) :
    Text.IsLine (" ".intercalate (word :: words)) := by
  constructor
  · have hWord := (h word List.mem_cons_self).nonempty
    cases words <;> simp [hWord]
  · intro c hc
    obtain hPlain | rfl := mem_intercalate h hc
    · exact hPlain.unbroken
    · decide

namespace Token

theorem wordsFrom_append {word : List Char} (h : ∀ c ∈ word, Text.isBlank c = false)
    (column : Nat) (reversed rest : List Char) :
    wordsFrom column reversed (word ++ rest) =
      wordsFrom (column + word.length) (word.reverse ++ reversed) rest := by
  induction word generalizing column reversed with
  | nil => rfl
  | cons c word ih =>
    obtain ⟨hFirst, hRest⟩ := List.forall_mem_cons.1 h
    rw [List.cons_append, wordsFrom, hFirst, if_neg (by decide), ih hRest]
    simp [Nat.add_assoc, Nat.add_comm 1]

theorem texts_finish {word : String} (h : word ≠ "") (column : Nat) (following : List Token) :
    (finish column word.toList.reverse following).map text = word :: following.map text := by
  simp [finish, h]

theorem texts_wordsFrom {words : List String} (h : ∀ word ∈ words, IsWord word) (column : Nat) :
    (wordsFrom column [] (" ".intercalate words).toList).map text = words := by
  induction words generalizing column with
  | nil => rfl
  | cons word words ih =>
    obtain ⟨hWord, hRest⟩ := List.forall_mem_cons.1 h
    have hUnbroken : ∀ c ∈ word.toList, Text.isBlank c = false :=
      fun c hc => (hWord.plain c hc).not_blank
    cases words with
    | nil =>
      have hAll := wordsFrom_append hUnbroken column [] []
      rw [List.append_nil, List.append_nil] at hAll
      rw [String.intercalate_singleton, hAll, wordsFrom, texts_finish hWord.nonempty, List.map_nil]
    | cons next words =>
      rw [String.intercalate_cons_cons, String.toList_append, String.toList_append,
        List.append_assoc, wordsFrom_append hUnbroken, List.append_nil,
        show " ".toList = [' '] from rfl, List.singleton_append, wordsFrom, if_pos (by decide),
        texts_finish hWord.nonempty, ih hRest]

theorem not_opensComment {token : Token} (h : IsWord token.text) : token.opensComment = false := by
  obtain ⟨c, cs, hText⟩ := List.exists_cons_of_ne_nil (mt String.toList_eq_nil_iff.1 h.nonempty)
  have hPlain : IsPlain c := h.plain c (hText ▸ List.mem_cons_self)
  simp [opensComment, hText, List.isPrefixOf, Ne.symm hPlain.2.2]

end Token

/-- Words joined by blanks are read back as tokens. -/
theorem texts_tokenize {words : List String} (h : ∀ word ∈ words, IsWord word) :
    (tokenize (" ".intercalate words)).map Token.text = words := by
  have hTexts := Token.texts_wordsFrom h 1
  rw [tokenize, List.takeWhile_eq_self_iff.2, hTexts]
  intro token hToken
  have hWord : IsWord token.text := h token.text (hTexts ▸ List.mem_map_of_mem hToken)
  simp [Token.not_opensComment hWord]

end Source

end TapeMachine
