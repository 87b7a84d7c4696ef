import TapeMachine.Source.Statement

/-! What a text says apart from its layout: the words on its lines.  `tokenLines` forgets the
columns, the line numbers and the lines without words.  A line feed put between two texts keeps
their words apart and changes none of them, also where it completes a line end.  On its line a token
is told from the others by its column (`tokenize_columns`). -/

namespace TapeMachine.Source

/-- The texts of the tokens of a text, line by line, without the lines that have none. -/
def tokenLines (source : String) : List (List String) :=
  ((Text.lines source).map fun line => (tokenize line).map Token.text).filter (· ≠ [])

/-! ### Columns -/

theorem Token.finish_columns {column : Nat} {following : List Token}
    (hOrder : following.Pairwise fun x y => x.column < y.column)
    (hLater : ∀ token ∈ following, column < token.column) (reversed : List Char) :
    (finish column reversed following).Pairwise (fun x y => x.column < y.column) ∧
      ∀ token ∈ finish column reversed following, column - reversed.length ≤ token.column := by
  unfold finish
  split
  · refine ⟨hOrder, fun token hToken => ?_⟩
    have hBound := hLater token hToken
    omega
  · refine ⟨List.pairwise_cons.2 ⟨fun token hToken => ?_, hOrder⟩, fun token hToken => ?_⟩
    · have hBound := hLater token hToken
      show column - reversed.length < token.column
      omega
    · rcases List.mem_cons.1 hToken with rfl | hToken
      · exact Nat.le_refl _
      · have hBound := hLater token hToken
        omega

theorem Token.wordsFrom_columns (column : Nat) (reversed cs : List Char) :
    (wordsFrom column reversed cs).Pairwise (fun x y => x.column < y.column) ∧
      ∀ token ∈ wordsFrom column reversed cs, column - reversed.length ≤ token.column := by
  induction cs generalizing column reversed with
  | nil => exact finish_columns .nil nofun reversed
  | cons c cs ih =>
    rw [wordsFrom]
    split
    · obtain ⟨hOrder, hLater⟩ := ih (column + 1) []
      exact finish_columns hOrder hLater reversed
    · have hWord := ih (column + 1) (c :: reversed)
      rwa [List.length_cons, Nat.add_sub_add_right] at hWord

theorem tokenize_columns (line : String) :
    (tokenize line).Pairwise fun x y => x.column < y.column :=
  (Token.wordsFrom_columns 1 [] line.toList).1.sublist (List.takeWhile_sublist _)

/-! ### Line feeds -/

theorem Token.finish_append (column : Nat) (reversed : List Char) (xs ys : List Token) :
    finish column reversed (xs ++ ys) = finish column reversed xs ++ ys := by
  unfold finish
  split <;> rfl

/-- A blank keeps the words before it apart from those after it. -/
theorem Token.wordsFrom_append_cons {c : Char} (h : Text.isBlank c = true) (column : Nat)
    (reversed cs rest : List Char) :
    wordsFrom column reversed (cs ++ c :: rest) =
      wordsFrom column reversed cs ++ wordsFrom (column + cs.length + 1) [] rest := by
  induction cs generalizing column reversed with
  | nil =>
    simp only [List.nil_append, wordsFrom, h, if_true, List.length_nil, Nat.add_zero]
    rw [← finish_append, List.nil_append]
  | cons d cs ih =>
    have hColumn : column + 1 + cs.length + 1 = column + (cs.length + 1) + 1 := by omega
    simp only [List.cons_append, wordsFrom, List.length_cons]
    split
    · rw [ih, finish_append, hColumn]
    · rw [ih, hColumn]

theorem Token.wordsFrom_append_blank {c : Char} (h : Text.isBlank c = true) (column : Nat)
    (reversed cs : List Char) :
    wordsFrom column reversed (cs ++ [c]) = wordsFrom column reversed cs :=
  (wordsFrom_append_cons h column reversed cs []).trans (List.append_nil _)

theorem tokenize_append_blank {c : Char} (h : Text.isBlank c = true) (cs : List Char) :
    tokenize (String.ofList (cs ++ [c])) = tokenize (String.ofList cs) := by
  simp only [tokenize, String.toList_ofList]
  rw [Token.wordsFrom_append_blank h]

/-- A carriage return that belongs to the line end is no part of a word. -/
theorem tokenize_endLine (reversed : List Char) :
    tokenize (String.ofList (Text.endLine reversed)) =
      tokenize (String.ofList reversed.reverse) := by
  unfold Text.endLine
  split
  · rw [List.reverse_cons, tokenize_append_blank (by decide)]
  · rfl

/-- The texts of the tokens on lines given as characters, without the lines that have none. -/
def wordsOn (lines : List (List Char)) : List (List String) :=
  (lines.map fun line => (tokenize (String.ofList line)).map Token.text).filter (· ≠ [])

theorem tokenLines_eq (source : String) :
    tokenLines source = wordsOn (Text.linesFrom [] source.toList) := by
  simp [tokenLines, wordsOn, Text.lines, Function.comp_def]

theorem wordsOn_append (xs ys : List (List Char)) :
    wordsOn (xs ++ ys) = wordsOn xs ++ wordsOn ys := by
  simp [wordsOn]

theorem linesFrom_append_newline (reversed cs rest : List Char) :
    Text.linesFrom reversed (cs ++ '\n' :: rest) =
      Text.linesFrom reversed (cs ++ ['\n']) ++ Text.linesFrom [] rest := by
  induction cs generalizing reversed with
  | nil => simp [Text.linesFrom]
  | cons c cs ih =>
    simp only [List.cons_append, Text.linesFrom]
    split
    · rw [ih, List.cons_append]
    · exact ih _

theorem wordsOn_newline (reversed cs : List Char) :
    wordsOn (Text.linesFrom reversed (cs ++ ['\n'])) = wordsOn (Text.linesFrom reversed cs) := by
  induction cs generalizing reversed with
  | nil =>
    cases reversed with
    | nil => rfl
    | cons c reversed => simp [Text.linesFrom, wordsOn, tokenize_endLine]
  | cons c cs ih =>
    simp only [List.cons_append, Text.linesFrom]
    split
    · rw [← List.singleton_append, wordsOn_append, ih, ← wordsOn_append, List.singleton_append]
    · exact ih _

/-- The words of a text and of another one after a line feed. -/
theorem tokenLines_append (a b : String) :
    tokenLines (a ++ "\n" ++ b) = tokenLines a ++ tokenLines b := by
  rw [tokenLines_eq, tokenLines_eq, tokenLines_eq, String.toList_append, String.toList_append,
    List.append_assoc, show "\n".toList = ['\n'] from rfl, List.singleton_append,
    linesFrom_append_newline, wordsOn_append, wordsOn_newline]

end TapeMachine.Source
