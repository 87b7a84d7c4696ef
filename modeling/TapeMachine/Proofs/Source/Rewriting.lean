import TapeMachine.Proofs.Source.Layout
import TapeMachine.Proofs.Source.Tokens

/-! Rewriting the words of a text in place.  `rewriteWords` puts other texts in the places of the
tokens of each line and leaves everything else as it is: blanks, comments and line ends.  If the new
texts are words that open no comment, they are the tokens of the new line
(`tokenLines_rewriteWords`). -/

namespace TapeMachine.Source

/-- Characters with other texts in place of their first words.  The blanks before these words and
all that follows them stay. -/
def replaceWords : List String → List Char → List Char
  | [], cs => cs
  | text :: texts, cs =>
    cs.takeWhile Text.isBlank ++ (text.toList ++
      replaceWords texts ((cs.dropWhile Text.isBlank).dropWhile fun c => !Text.isBlank c))

/-- A line with its tokens replaced by what a function makes of their texts. -/
def rewriteLine (f : List String → List String) (line : String) : String :=
  String.ofList (replaceWords (f ((tokenize line).map Token.text)) line.toList)

/-- A text with the tokens of each line replaced. -/
def rewriteWords (f : List String → List String) (text : String) : String :=
  "\n".intercalate ((Text.pieces text).map (rewriteLine f))

section Line

variable {gap word rest : List Char}

theorem replaceWords_cons (hGap : ∀ c ∈ gap, Text.isBlank c = true) (hWord : IsUnbroken word)
    (hRest : EndsWord rest) (text : String) (texts : List String) :
    replaceWords (text :: texts) (gap ++ (word ++ rest)) =
      gap ++ (text.toList ++ replaceWords texts rest) := by
  have hVisible : ∀ c ∈ (word ++ rest).head?, Text.isBlank c = false := by
    intro c hc
    rw [List.head?_append, List.head?_eq_some_head hWord.nonempty] at hc
    obtain rfl := Option.some.inj hc
    exact hWord.unbroken _ (List.head_mem hWord.nonempty)
  obtain ⟨hTaken, hDropped⟩ := Text.span_exact hGap hVisible
  have hWordOnly : (word ++ rest).dropWhile (fun c => !Text.isBlank c) = rest := by
    refine (Text.span_exact (fun c hc => ?_) fun c hc => ?_).2
    · simp [hWord.unbroken c hc]
    · simp [hRest c hc]
  rw [replaceWords, hTaken, hDropped, hWordOnly]

theorem endsWord_replaceWords (hRest : EndsWord rest) {texts : List String}
    (hRoom : texts ≠ [] → rest ≠ []) : EndsWord (replaceWords texts rest) := by
  cases texts with
  | nil => exact hRest
  | cons text texts =>
    obtain ⟨c, cs, rfl⟩ := List.exists_cons_of_ne_nil (hRoom (List.cons_ne_nil _ _))
    have hBlank : Text.isBlank c = true := hRest c rfl
    rw [replaceWords, List.takeWhile_cons_of_pos hBlank]
    exact endsWord_cons hBlank _

/-- The words of the new line are the new texts and then the words that were not replaced. -/
theorem texts_replaceWords {cs : List Char} {texts : List String}
    (hTexts : ∀ text ∈ texts, IsUnbroken text.toList) (column column' : Nat)
    (hLength : texts.length ≤ (Token.wordsFrom column [] cs).length) :
    (Token.wordsFrom column' [] (replaceWords texts cs)).map Token.text =
      texts ++ ((Token.wordsFrom column [] cs).drop texts.length).map Token.text := by
  induction cs using wordsInduction generalizing texts column column' with
  | blank gap hGap =>
    have hNone (start : Nat) : Token.wordsFrom start [] gap = [] := by
      rw [← List.append_nil gap, Token.wordsFrom_gap hGap, Token.wordsFrom, Token.finish_nil]
    rw [hNone, List.length_nil, Nat.le_zero, List.length_eq_zero_iff] at hLength
    rw [hLength, replaceWords, hNone, hNone]
    rfl
  | word gap word rest hGap hWord hRest ih =>
    have hWords (start : Nat) : Token.wordsFrom start [] (gap ++ (word ++ rest)) =
        ⟨String.ofList word, start + gap.length⟩ ::
          Token.wordsFrom (start + gap.length + word.length) [] rest := by
      rw [Token.wordsFrom_gap hGap, Token.wordsFrom_word hWord hRest]
    rw [hWords] at hLength ⊢
    cases texts with
    | nil =>
      have hSame := ih (List.forall_mem_nil _) (column + gap.length + word.length)
        (column' + gap.length + word.length) (Nat.zero_le _)
      simp only [replaceWords, List.nil_append, List.length_nil, List.drop_zero] at hSame
      rw [replaceWords, hWords, List.map_cons, hSame]
      rfl
    | cons text texts =>
      obtain ⟨hText, hOthers⟩ := List.forall_mem_cons.1 hTexts
      have hFewer : texts.length ≤
          (Token.wordsFrom (column + gap.length + word.length) [] rest).length := by
        simpa using hLength
      have hEnds : EndsWord (replaceWords texts rest) := by
        refine endsWord_replaceWords hRest fun hSome hNone => hSome ?_
        rw [hNone, Token.wordsFrom, Token.finish_nil, List.length_nil, Nat.le_zero] at hFewer
        exact List.length_eq_zero_iff.1 hFewer
      rw [replaceWords_cons hGap hWord hRest, Token.wordsFrom_gap hGap,
        Token.wordsFrom_word hText hEnds, List.map_cons, ih hOthers _ _ hFewer,
        String.ofList_toList]
      rfl

end Line

/-- The words of a line are its tokens and then those of a comment. -/
theorem exists_comment (line : String) :
    ∃ comment, Token.wordsFrom 1 [] line.toList = tokenize line ++ comment ∧
      ∀ token ∈ comment.head?, token.opensComment = true := by
  refine ⟨(Token.wordsFrom 1 [] line.toList).dropWhile fun token => !token.opensComment, ?_, ?_⟩
  · exact List.takeWhile_append_dropWhile.symm
  · intro token hToken
    simpa using Text.head?_dropWhile _ _ token hToken

theorem texts_tokenize_of_words {cs : List Char} {texts : List String} {comment : List Token}
    (hWords : (Token.wordsFrom 1 [] cs).map Token.text = texts ++ comment.map Token.text)
    (hTexts : ∀ text ∈ texts, IsSpoken text)
    (hComment : ∀ token ∈ comment.head?, token.opensComment = true) :
    (tokenize (String.ofList cs)).map Token.text = texts := by
  let speaks (text : String) : Bool := !"//".toList.isPrefixOf text.toList
  have hTokenize : (tokenize (String.ofList cs)).map Token.text =
      ((Token.wordsFrom 1 [] cs).map Token.text).takeWhile speaks := by
    rw [tokenize, String.toList_ofList, List.takeWhile_map]
    rfl
  have hSpeak : ∀ text ∈ texts, speaks text = true := by
    intro text hText
    have hSpoken := (hTexts text hText).speaks
    rw [← List.isPrefixOf_iff_prefix, ← ne_eq, ← Bool.eq_false_iff] at hSpoken
    simp only [speaks, hSpoken, Bool.not_false]
  rw [hTokenize, hWords, List.takeWhile_append_of_pos hSpeak]
  cases comment with
  | nil => simp
  | cons token comment =>
    have hOpens : speaks token.text = false := by
      have hToken : "//".toList.isPrefixOf token.text.toList = true := hComment token rfl
      simp only [speaks, hToken, Bool.not_true]
    simp [hOpens]

/-- As many new texts as a line has tokens take their places. -/
theorem texts_tokenize_replaceWords {line : String} {texts : List String}
    (hTexts : ∀ text ∈ texts, IsSpoken text) (hLength : texts.length = (tokenize line).length) :
    (tokenize (String.ofList (replaceWords texts line.toList))).map Token.text = texts := by
  obtain ⟨comment, hWords, hComment⟩ := exists_comment line
  have hRoom : texts.length ≤ (Token.wordsFrom 1 [] line.toList).length := by
    rw [hWords, hLength, List.length_append]
    omega
  have hNew := texts_replaceWords (fun text hText => (hTexts text hText).unbroken) 1 1 hRoom
  rw [hWords, hLength, List.drop_left] at hNew
  exact texts_tokenize_of_words hNew hTexts hComment

section Rewriting

variable {f : List String → List String}

theorem mem_replaceWords {texts : List String} {cs : List Char} {c : Char}
    (h : c ∈ replaceWords texts cs) : c ∈ cs ∨ ∃ text ∈ texts, c ∈ text.toList := by
  induction texts generalizing cs with
  | nil => exact .inl h
  | cons text texts ih =>
    rw [replaceWords, List.mem_append, List.mem_append] at h
    rcases h with hGap | hText | hLater
    · exact .inl ((List.takeWhile_sublist _).subset hGap)
    · exact .inr ⟨text, List.mem_cons_self, hText⟩
    · rcases ih hLater with hRest | ⟨other, hOther, hc⟩
      · exact .inl ((List.dropWhile_sublist _).subset ((List.dropWhile_sublist _).subset hRest))
      · exact .inr ⟨other, List.mem_cons_of_mem _ hOther, hc⟩

theorem tokenLines_of_unbroken {line : String} (h : '\n' ∉ line.toList) :
    tokenLines line = [(tokenize line).map Token.text].filter (· ≠ []) := by
  have hAll := Text.linesFrom_append (fun c hc => ne_of_mem_of_not_mem hc h) [] []
  rw [List.append_nil, List.append_nil] at hAll
  by_cases hEmpty : line = ""
  · subst hEmpty
    rfl
  · simp [tokenLines, Text.lines, hAll, Text.linesFrom, hEmpty]

variable (hLength : ∀ words, (f words).length = words.length)
include hLength

theorem tokenLines_rewriteLine {line : String} (hUnbroken : '\n' ∉ line.toList)
    (hSpoken : ∀ words ∈ tokenLines line, ∀ text ∈ f words, IsSpoken text) :
    tokenLines (rewriteLine f line) = (tokenLines line).map f := by
  have hEmpty (words : List String) : f words = [] ↔ words = [] := by
    rw [← List.length_eq_zero_iff, hLength, List.length_eq_zero_iff]
  have hTexts : ∀ text ∈ f ((tokenize line).map Token.text), IsSpoken text := by
    by_cases hSilent : (tokenize line).map Token.text = []
    · simp [(hEmpty _).2 hSilent]
    · apply hSpoken
      simp [tokenLines_of_unbroken hUnbroken, hSilent]
  have hWords : (tokenize (rewriteLine f line)).map Token.text =
      f ((tokenize line).map Token.text) :=
    texts_tokenize_replaceWords hTexts (by rw [hLength, List.length_map])
  have hNew : '\n' ∉ (rewriteLine f line).toList := by
    rw [rewriteLine, String.toList_ofList]
    intro hMem
    rcases mem_replaceWords hMem with hOld | ⟨text, hText, hChar⟩
    · exact hUnbroken hOld
    · exact absurd ((hTexts text hText).unbroken.unbroken _ hChar) (by decide)
  rw [tokenLines_of_unbroken hNew, tokenLines_of_unbroken hUnbroken, hWords]
  by_cases hSilent : (tokenize line).map Token.text = []
  · simp [hSilent, (hEmpty []).2 rfl]
  · simp [hSilent, (hEmpty _).not.2 hSilent]

/-- Rewriting the words of a text rewrites its token lines. -/
theorem tokenLines_rewriteWords {text : String}
    (hSpoken : ∀ words ∈ tokenLines text, ∀ new ∈ f words, IsSpoken new) :
    tokenLines (rewriteWords f text) = (tokenLines text).map f := by
  induction text using Text.piecesInduction with
  | unbroken text hUnbroken =>
    rw [rewriteWords, Text.pieces_of_unbroken hUnbroken, List.map_singleton,
      String.intercalate_singleton]
    exact tokenLines_rewriteLine hLength hUnbroken hSpoken
  | newline piece rest hPiece ih =>
    rw [tokenLines_append] at hSpoken
    obtain ⟨hFirst, hLater⟩ := List.forall_mem_append.1 hSpoken
    have hRest : (Text.pieces rest).map (rewriteLine f) ≠ [] := by
      simpa using Text.pieces_ne_nil rest
    rw [rewriteWords, Text.pieces_newline hPiece, List.map_cons,
      String.intercalate_cons_of_ne_nil hRest, tokenLines_append, tokenLines_append,
      List.map_append, tokenLines_rewriteLine hLength hPiece hFirst, ← rewriteWords, ih hLater]

end Rewriting

end TapeMachine.Source
