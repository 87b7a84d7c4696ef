import TapeMachine.Proofs.Source.Words
import TapeMachine.Proofs.Text

/-! The tokens of a line and where they stand in it.  Every line is words between blanks, which
`wordsInduction` makes a principle of proof.  A token is a whole word of its line
(`Token.exists_of_mem_wordsFrom`) and is found at its column (`exists_of_mem_tokenize`), and
`Token.label?_eq_some_iff` says which tokens define a label. -/

namespace TapeMachine.Source

/-- The characters of a word: one or more, none of them blank. -/
structure IsUnbroken (word : List Char) : Prop where
  nonempty : word ≠ []
  unbroken : ∀ c ∈ word, Text.isBlank c = false

instance (word : List Char) : Decidable (IsUnbroken word) :=
  decidable_of_iff (word ≠ [] ∧ word.all fun c => !Text.isBlank c)
    ⟨fun h => ⟨h.1, by simpa using h.2⟩, fun h => ⟨h.nonempty, by simpa using h.unbroken⟩⟩

/-- What may follow a word: nothing, or a blank and more. -/
def EndsWord (rest : List Char) : Prop :=
  ∀ c ∈ rest.head?, Text.isBlank c = true

/-- What may stand before a word: nothing, or something and then a blank. -/
def StartsWord (before : List Char) : Prop :=
  ∀ c ∈ before.getLast?, Text.isBlank c = true

theorem endsWord_nil : EndsWord [] :=
  nofun

theorem endsWord_cons {c : Char} (h : Text.isBlank c = true) (rest : List Char) :
    EndsWord (c :: rest) := by
  intro d hd
  obtain rfl := Option.some.inj hd
  exact h

theorem endsWord_dropWhile (cs : List Char) :
    EndsWord (cs.dropWhile fun c => !Text.isBlank c) := by
  intro c hc
  simpa using Text.head?_dropWhile _ cs c hc

/-- What holds of blanks, and of a word after blanks if it holds of what follows the word, holds of
every text. -/
theorem wordsInduction {motive : List Char → Prop}
    (blank : ∀ gap, (∀ c ∈ gap, Text.isBlank c = true) → motive gap)
    (word : ∀ gap word rest, (∀ c ∈ gap, Text.isBlank c = true) → IsUnbroken word →
      EndsWord rest → motive rest → motive (gap ++ (word ++ rest)))
    (cs : List Char) : motive cs := by
  induction hLength : cs.length using Nat.strongRecOn generalizing cs with
  | _ n ih =>
    have hGap : ∀ c ∈ cs.takeWhile Text.isBlank, Text.isBlank c = true :=
      fun c hc => List.mem_takeWhile_imp hc
    have hAll := List.takeWhile_append_dropWhile (p := Text.isBlank) (l := cs)
    cases hRest : cs.dropWhile Text.isBlank with
    | nil =>
      rw [hRest, List.append_nil] at hAll
      exact hAll ▸ blank _ hGap
    | cons c rest =>
      have hFirst : Text.isBlank c = false :=
        Text.head?_dropWhile Text.isBlank cs c (by rw [hRest]; rfl)
      have hWord : IsUnbroken (c :: rest.takeWhile fun c => !Text.isBlank c) := by
        refine ⟨List.cons_ne_nil _ _, List.forall_mem_cons.2 ⟨hFirst, fun d hd => ?_⟩⟩
        simpa using List.mem_takeWhile_imp hd
      have hShort : (rest.dropWhile fun c => !Text.isBlank c).length < n := by
        have hDropped := (List.dropWhile_sublist (l := rest) fun c => !Text.isBlank c).length_le
        have hTail := (List.dropWhile_sublist (l := cs) Text.isBlank).length_le
        rw [hRest, List.length_cons] at hTail
        omega
      have hLater := word _ _ _ hGap hWord (endsWord_dropWhile rest) (ih _ hShort _ rfl)
      rwa [List.cons_append, List.takeWhile_append_dropWhile, ← hRest, hAll] at hLater

namespace Token

theorem finish_nil (column : Nat) (following : List Token) :
    finish column [] following = following := rfl

theorem wordsFrom_gap {gap : List Char} (h : ∀ c ∈ gap, Text.isBlank c = true) (column : Nat)
    (rest : List Char) :
    wordsFrom column [] (gap ++ rest) = wordsFrom (column + gap.length) [] rest := by
  induction gap generalizing column with
  | nil => rfl
  | cons c gap ih =>
    obtain ⟨hFirst, hRest⟩ := List.forall_mem_cons.1 h
    rw [List.cons_append, wordsFrom, if_pos hFirst, finish_nil, ih hRest,
      List.length_cons, Nat.add_assoc, Nat.add_comm 1]

/-- A word that has ended is one token, at the column where it starts. -/
theorem wordsFrom_word {word rest : List Char} (hWord : IsUnbroken word) (hRest : EndsWord rest)
    (column : Nat) :
    wordsFrom column [] (word ++ rest) =
      ⟨String.ofList word, column⟩ :: wordsFrom (column + word.length) [] rest := by
  have hFinish (following : List Token) :
      finish (column + word.length) word.reverse following =
        ⟨String.ofList word, column⟩ :: following := by
    simp [finish, hWord.nonempty]
  rw [wordsFrom_append hWord.unbroken, List.append_nil]
  cases rest with
  | nil => rw [wordsFrom, hFinish, wordsFrom, finish_nil]
  | cons c rest =>
    have hBlank : Text.isBlank c = true := hRest c rfl
    rw [wordsFrom, if_pos hBlank, hFinish, wordsFrom, if_pos hBlank, finish_nil]

/-- A token is a whole word of the text, and its column says how many characters come before it. -/
theorem exists_of_mem_wordsFrom {column : Nat} {cs : List Char} {token : Token}
    (h : token ∈ wordsFrom column [] cs) :
    IsUnbroken token.text.toList ∧ ∃ before after,
      cs = before ++ token.text.toList ++ after ∧ token.column = column + before.length ∧
      StartsWord before ∧ EndsWord after := by
  induction cs using wordsInduction generalizing column with
  | blank gap hGap =>
    rw [← List.append_nil gap, wordsFrom_gap hGap, wordsFrom, finish_nil] at h
    exact absurd h List.not_mem_nil
  | word gap word rest hGap hWord hRest ih =>
    rw [wordsFrom_gap hGap, wordsFrom_word hWord hRest] at h
    rcases List.mem_cons.1 h with rfl | h
    · refine ⟨by simpa using hWord, gap, rest, by simp, rfl, ?_, hRest⟩
      exact fun c hc => hGap c (List.mem_of_getLast? hc)
    · obtain ⟨hUnbroken, before, after, rfl, hColumn, hStarts, hEnds⟩ := ih h
      -- The blank that ends `word` stands before this token.
      have hBefore : before ≠ [] := by
        rintro rfl
        obtain ⟨c, cs, hText⟩ := List.exists_cons_of_ne_nil hUnbroken.nonempty
        have hBlank : Text.isBlank c = true := hRest c (by simp [hText])
        have hSpoken := hUnbroken.unbroken c (hText ▸ List.mem_cons_self)
        exact Bool.false_ne_true (hSpoken.symm.trans hBlank)
      refine ⟨hUnbroken, gap ++ (word ++ before), after, by simp, ?_, fun c hc => hStarts c ?_,
        hEnds⟩
      · simp only [hColumn, List.length_append]
        omega
      · simpa [List.getLast?_append, List.getLast?_eq_some_getLast hBefore] using hc

end Token

/-- What the text of a token can be: a word that does not open a comment. -/
structure IsSpoken (text : String) : Prop where
  unbroken : IsUnbroken text.toList
  speaks : ¬"//".toList <+: text.toList

theorem isSpoken_of_mem_tokenize {line : String} {token : Token} (h : token ∈ tokenize line) :
    IsSpoken token.text := by
  have hSpeaks : (!token.opensComment) = true :=
    List.mem_takeWhile_imp (p := fun other : Token => !other.opensComment) h
  have hWord := Token.exists_of_mem_wordsFrom ((List.takeWhile_sublist _).subset h)
  rw [Bool.not_eq_true', Bool.eq_false_iff, ne_eq, Token.opensComment,
    List.isPrefixOf_iff_prefix] at hSpeaks
  exact ⟨hWord.1, hSpeaks⟩

/-- A token stands in its line at its column. -/
theorem exists_of_mem_tokenize {line : String} {token : Token} (h : token ∈ tokenize line) :
    ∃ before after : String,
      line = before ++ token.text ++ after ∧ token.column = before.length + 1 := by
  obtain ⟨-, before, after, hLine, hColumn, -⟩ :=
    Token.exists_of_mem_wordsFrom ((List.takeWhile_sublist _).subset h)
  refine ⟨String.ofList before, String.ofList after, ?_, ?_⟩
  · apply String.toList_inj.1
    simpa using hLine
  · rw [hColumn, String.length_ofList, Nat.add_comm]

/-! ### Labels -/

/-- What can be defined as a label: the text of a token, without colons. -/
structure IsName (name : String) : Prop extends IsSpoken name where
  colonless : ':' ∉ name.toList

/-- A token defines the name before its colon, if there is a name and it has no other colon. -/
theorem Token.label?_eq_some_iff {token : Token} {name : String} :
    token.label? = some name ↔ token.text = name ++ ":" ∧ name ≠ "" ∧ ':' ∉ name.toList := by
  unfold Token.label?
  constructor
  · intro h
    split at h
    case h_1 reversed hText =>
      split at h
      case isTrue => cases h
      case isFalse hName =>
        obtain rfl := Option.some.inj h
        rw [Bool.or_eq_true, not_or, List.isEmpty_iff, List.contains_iff_mem] at hName
        refine ⟨?_, by simpa using hName.1, by simpa using hName.2⟩
        rw [List.reverse_eq_iff] at hText
        apply String.toList_inj.1
        simp [hText]
    case h_2 => cases h
  · rintro ⟨hText, hNonempty, hColon⟩
    have hReverse : token.text.toList.reverse = ':' :: name.toList.reverse := by simp [hText]
    simp [hReverse, hNonempty, hColon]

/-- A token of a line that defines a label defines a name. -/
theorem isName_of_label? {line : String} {token : Token} {name : String}
    (h : token ∈ tokenize line) (hName : token.label? = some name) : IsName name := by
  have hToken := isSpoken_of_mem_tokenize h
  obtain ⟨hText, hNonempty, hColon⟩ := Token.label?_eq_some_iff.1 hName
  have hChars : token.text.toList = name.toList ++ [':'] := by simp [hText]
  have hWord : IsUnbroken name.toList := by
    refine ⟨by simpa using hNonempty, fun c hc => hToken.unbroken.unbroken c ?_⟩
    rw [hChars]
    exact List.mem_append_left _ hc
  refine ⟨⟨hWord, fun hComment => hToken.speaks ?_⟩, hColon⟩
  rw [hChars]
  exact hComment.trans (List.prefix_append _ _)

end TapeMachine.Source
