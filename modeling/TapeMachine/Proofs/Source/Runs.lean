import TapeMachine.Proofs.Source.Layout
import TapeMachine.Proofs.Source.Tokens

/-! The tokens of a line are its longest runs of characters that are not blank, in order, up to the
first one that opens a comment.  A token starts after as many characters as its column says; in the
bytes of the line it starts elsewhere, where the characters before it take more than one byte.
`scan?` finds the tokens by these places: it goes over the characters with the byte at which each
starts, remembers where a word has started, and cuts the word out of the bytes when it ends.  A cut
inside of a character gives no text, so `scan?_eq` says that there is none. -/

namespace TapeMachine

/-- The code points of the characters with the property `White_Space`. -/
def Text.whiteSpace : List Nat :=
  [0x9, 0xA, 0xB, 0xC, 0xD, 0x20, 0x85, 0xA0, 0x1680, 0x2000, 0x2001, 0x2002, 0x2003, 0x2004,
    0x2005, 0x2006, 0x2007, 0x2008, 0x2009, 0x200A, 0x2028, 0x2029, 0x202F, 0x205F, 0x3000]

theorem Text.isBlank_iff {c : Char} : isBlank c = true ↔ c.toNat ∈ whiteSpace := by
  have hRanges : whiteSpace =
      blankRanges.flatMap fun range => List.range' range.1 (range.2 + 1 - range.1) := by decide
  rw [hRanges, isBlank, List.any_eq_true, List.mem_flatMap]
  refine exists_congr fun range => and_congr_right fun _ => ?_
  rw [Bool.and_eq_true, decide_eq_true_eq, decide_eq_true_eq, List.mem_range'_1]
  omega

namespace Source

/-! ### Runs -/

/-- A token that is a longest run of characters that are not blank, at the place where it stands. -/
def IsRun (line : String) (run : Token) : Prop :=
  IsUnbroken run.text.toList ∧ ∃ before after,
    line.toList = before ++ run.text.toList ++ after ∧ run.column = before.length + 1 ∧
    StartsWord before ∧ EndsWord after

namespace Token

/-- A text whose end allows a word to start there is read apart from what follows. -/
theorem wordsFrom_append_of_startsWord {before : List Char} (h : StartsWord before) (column : Nat)
    (rest : List Char) :
    wordsFrom column [] (before ++ rest) =
      wordsFrom column [] before ++ wordsFrom (column + before.length) [] rest := by
  rcases List.eq_nil_or_concat before with rfl | ⟨cs, c, rfl⟩
  · rfl
  · have hBlank : Text.isBlank c = true := h c (by simp)
    rw [List.concat_eq_append, wordsFrom_append_blank hBlank, List.append_assoc,
      List.singleton_append, wordsFrom_append_cons hBlank, List.length_append,
      List.length_singleton, Nat.add_assoc]

/-- The words of a line are its runs. -/
theorem mem_wordsFrom_iff {line : String} {run : Token} :
    run ∈ wordsFrom 1 [] line.toList ↔ IsRun line run := by
  constructor
  · intro h
    obtain ⟨hUnbroken, before, after, hLine, hColumn, hEnds⟩ := exists_of_mem_wordsFrom h
    exact ⟨hUnbroken, before, after, hLine, by omega, hEnds⟩
  · rintro ⟨hUnbroken, before, after, hLine, hColumn, hStarts, hEnds⟩
    rw [hLine, List.append_assoc, wordsFrom_append_of_startsWord hStarts,
      wordsFrom_word hUnbroken hEnds, String.ofList_toList, Nat.add_comm 1, ← hColumn]
    exact List.mem_append_right _ List.mem_cons_self

end Token

/-! ### Places in the bytes of a line -/

/-- The text that a range of the bytes of a text encodes, if both ends of the range lie between
characters. -/
def slice? (text : String) (start stop : Nat) : Option String :=
  if start ≤ stop ∧ String.Pos.Raw.IsValid text ⟨start⟩ ∧ String.Pos.Raw.IsValid text ⟨stop⟩ then
    String.fromUTF8? (text.toByteArray.extract start stop)
  else none

/-- Characters with the byte at which each starts, the first at `start`. -/
def charIndices (start : Nat) : List Char → List (Nat × Char)
  | [] => []
  | c :: cs => (start, c) :: charIndices (start + c.utf8Size) cs

/-- The tokens that end at one of the characters of a line that are left, which are given with the
bytes at which they start.  A word that has not ended yet starts at the byte `start?`.  There is no
answer if the line would be cut inside of a character. -/
def scanFrom (line : String) (start? : Option Nat) : List (Nat × Char) → Option (List Token)
  | [] => some []
  | (index, c) :: rest =>
    if Text.isBlank c then
      match start? with
      | none => scanFrom line none rest
      | some start => do
        let word ← slice? line start index
        if "//".toList.isPrefixOf word.toList then some []
        else do
          let before ← slice? line 0 start
          let following ← scanFrom line none rest
          return ⟨word, before.length + 1⟩ :: following
    else scanFrom line (start?.or (some index)) rest

/-- The tokens of a line, found in one pass over its characters and a blank after its last byte. -/
def scan? (line : String) : Option (List Token) :=
  scanFrom line none (charIndices 0 line.toList ++ [(line.utf8ByteSize, ' ')])

/-- A part of a text is cut out by the bytes before it and in it. -/
theorem slice?_append (before word after : String) :
    slice? (before ++ word ++ after) before.utf8ByteSize (before ++ word).utf8ByteSize =
      some word := by
  have hStart : String.Pos.Raw.IsValid (before ++ word ++ after) ⟨before.utf8ByteSize⟩ :=
    String.Pos.Raw.isValid_iff_exists_append.2 ⟨before, word ++ after, String.append_assoc, rfl⟩
  have hStop : String.Pos.Raw.IsValid (before ++ word ++ after) ⟨(before ++ word).utf8ByteSize⟩ :=
    String.Pos.Raw.isValid_iff_exists_append.2 ⟨before ++ word, after, rfl, rfl⟩
  have hOrder : before.utf8ByteSize ≤ (before ++ word).utf8ByteSize := by
    rw [String.utf8ByteSize_append]
    omega
  have hBytes : (before ++ word ++ after).toByteArray.extract before.utf8ByteSize
      (before ++ word).utf8ByteSize = word.toByteArray := by
    have hDrop := ByteArray.extract_append_size_add (a := before.toByteArray)
      (b := word.toByteArray ++ after.toByteArray) (i := 0) (j := word.toByteArray.size)
    rw [Nat.add_zero, ByteArray.extract_append_eq_left rfl] at hDrop
    rw [String.append_assoc, String.toByteArray_append, String.toByteArray_append,
      String.utf8ByteSize_append, ← String.size_toByteArray, ← String.size_toByteArray, hDrop]
  rw [slice?, if_pos ⟨hOrder, hStart, hStop⟩, hBytes, String.fromUTF8?, dif_pos word.isValidUTF8]
  rfl

/-- Where a word starts in the bytes of its line, if it has started. -/
def startOf? (before word : String) : Option Nat :=
  if word = "" then none else some before.utf8ByteSize

theorem scanFrom_spoken {c : Char} (h : Text.isBlank c = false) (line : String)
    (start? : Option Nat) (index : Nat) (later : List (Nat × Char)) :
    scanFrom line start? ((index, c) :: later) =
      scanFrom line (start?.or (some index)) later := by
  cases start? <;> simp [scanFrom, h]

/-- A blank ends the word before it. -/
theorem scanFrom_blank {line before word after : String} (hLine : line = before ++ word ++ after)
    {c : Char} (hBlank : Text.isBlank c = true) {later : List (Nat × Char)}
    {following : List Token}
    (hLater : scanFrom line none later =
      some (following.takeWhile fun token => !token.opensComment)) :
    scanFrom line (startOf? before word) (((before ++ word).utf8ByteSize, c) :: later) =
      some ((Token.finish (before.length + word.length + 1) word.toList.reverse
        following).takeWhile fun token => !token.opensComment) := by
  by_cases hWord : word = ""
  · simp [startOf?, hWord, scanFrom, hBlank, hLater, Token.finish]
  · have hFinish : Token.finish (before.length + word.length + 1) word.toList.reverse following =
        ⟨word, before.length + 1⟩ :: following := by
      have hColumn : before.length + word.length + 1 - word.toList.length = before.length + 1 := by
        rw [String.length_toList]
        omega
      simp [Token.finish, hWord, hColumn]
    have hSlice : slice? line before.utf8ByteSize (before ++ word).utf8ByteSize = some word :=
      hLine ▸ slice?_append before word after
    have hBefore : slice? line 0 before.utf8ByteSize = some before := by
      have hFirst := slice?_append "" before (word ++ after)
      rwa [String.empty_append, String.utf8ByteSize_empty, ← String.append_assoc, ← hLine] at hFirst
    simp only [hFinish, startOf?, hWord, if_false, scanFrom, hBlank, if_true, hSlice, hBefore,
      hLater, Option.bind_eq_bind, Option.bind_some, Option.pure_def, List.takeWhile_cons,
      Token.opensComment]
    cases "//".toList.isPrefixOf word.toList <;> rfl

/-- The pass over the rest of a line, after characters that are read and a word that has not
ended. -/
theorem scanFrom_eq (rest : List Char) {line before word : String}
    (hLine : line = before ++ word ++ String.ofList rest) :
    scanFrom line (startOf? before word)
        (charIndices (before ++ word).utf8ByteSize rest ++ [(line.utf8ByteSize, ' ')]) =
      some ((Token.wordsFrom (before.length + word.length + 1) word.toList.reverse
        rest).takeWhile fun token => !token.opensComment) := by
  induction rest generalizing before word with
  | nil =>
    have hSize : line.utf8ByteSize = (before ++ word).utf8ByteSize := by
      rw [hLine, String.ofList_nil, String.append_empty]
    rw [charIndices, List.nil_append, hSize, Token.wordsFrom]
    exact scanFrom_blank hLine (by decide) rfl
  | cons c rest ih =>
    have hChar : String.ofList (c :: rest) = String.singleton c ++ String.ofList rest := by
      apply String.toList_inj.1
      simp
    have hSize : (before ++ word).utf8ByteSize + c.utf8Size =
        (before ++ word ++ String.singleton c).utf8ByteSize := by
      rw [String.utf8ByteSize_append (t := String.singleton c), String.utf8ByteSize_singleton]
    rw [charIndices, List.cons_append, Token.wordsFrom, hSize]
    split
    case isTrue hBlank =>
      have hNext : line = before ++ word ++ String.singleton c ++ "" ++ String.ofList rest := by
        simp only [hLine, hChar, String.append_assoc, String.empty_append]
      have hLater := ih hNext
      have hColumn : (before ++ word ++ String.singleton c).length + "".length + 1 =
          before.length + word.length + 1 + 1 := by
        rw [String.length_append, String.length_append, String.length_singleton]
        rfl
      rw [String.append_empty, hColumn] at hLater
      exact scanFrom_blank hLine hBlank hLater
    case isFalse hBlank =>
      have hNext : line = before ++ (word ++ String.singleton c) ++ String.ofList rest := by
        simp only [hLine, hChar, String.append_assoc]
      have hLater := ih hNext
      have hStart : (startOf? before word).or (some (before ++ word).utf8ByteSize) =
          startOf? before (word ++ String.singleton c) := by
        by_cases hWord : word = "" <;> simp [startOf?, hWord]
      have hColumn : before.length + (word ++ String.singleton c).length + 1 =
          before.length + word.length + 1 + 1 := by
        rw [String.length_append, String.length_singleton]
        omega
      rw [scanFrom_spoken (Bool.not_eq_true _ ▸ hBlank), hStart, String.append_assoc, hLater,
        hColumn, String.toList_append, List.reverse_append, String.toList_singleton]
      rfl

/-- No cut is inside of a character, and the pass finds the tokens of the line. -/
theorem scan?_eq (line : String) : scan? line = some (tokenize line) := by
  have hLine : line = "" ++ "" ++ String.ofList line.toList := by
    simp only [String.empty_append, String.ofList_toList]
  exact scanFrom_eq line.toList hLine

/-- The tokens of a line are its longest runs of characters that are not blank, in order, up to the
first one that starts with two slashes.  Each stands in the line after as many characters as its
column says, less one, and before a blank or the end.  They are found by cuts of the bytes of the
line of which none is inside of a character. -/
theorem tokenize_longest_runs (line : String) :
    (∀ c, Text.isBlank c = true ↔ c.toNat ∈ Text.whiteSpace) ∧
    (∃ runs rest : List Token,
      runs.Pairwise (fun x y => x.column < y.column) ∧ (∀ run, run ∈ runs ↔ IsRun line run) ∧
      runs = tokenize line ++ rest ∧
      (∀ token ∈ tokenize line, ¬"//".toList <+: token.text.toList) ∧
      ∀ run ∈ rest.head?, "//".toList <+: run.text.toList) ∧
    (∀ token ∈ tokenize line, ∃ before after,
      line.toList = before ++ token.text.toList ++ after ∧ token.column = before.length + 1 ∧
      line.toList.drop (token.column - 1) = token.text.toList ++ after ∧ EndsWord after) ∧
    scan? line = some (tokenize line) := by
  refine ⟨fun c => Text.isBlank_iff, ⟨Token.wordsFrom 1 [] line.toList,
    (Token.wordsFrom 1 [] line.toList).dropWhile fun token => !token.opensComment,
    (Token.wordsFrom_columns 1 [] line.toList).1, fun run => Token.mem_wordsFrom_iff,
    List.takeWhile_append_dropWhile.symm, fun token hToken => ?_, fun run hRun => ?_⟩,
    fun token hToken => ?_, scan?_eq line⟩
  · exact (isSpoken_of_mem_tokenize hToken).speaks
  · have hComment := Text.head?_dropWhile _ _ run hRun
    simpa [Token.opensComment] using hComment
  · obtain ⟨-, before, after, hLine, hColumn, -, hEnds⟩ :=
      Token.mem_wordsFrom_iff.1 ((List.takeWhile_sublist _).subset hToken)
    refine ⟨before, after, hLine, hColumn, ?_, hEnds⟩
    rw [hLine, hColumn, Nat.add_sub_cancel, List.append_assoc, List.drop_left]

-- Blanks and letters of two and three bytes, slashes inside of a word, and a comment.
example : scan? "\u2003é\u00a0x//y\u3000//z w" = some [⟨"é", 2⟩, ⟨"x//y", 4⟩] := by decide +kernel

example : slice? "é" 0 1 = none := by decide +kernel

end Source

end TapeMachine
