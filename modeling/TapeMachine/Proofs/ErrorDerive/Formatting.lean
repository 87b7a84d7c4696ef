import TapeMachine.Proofs.ErrorDerive.Naming

/-! What format strings show.  The message of a tuple shows with names what it shows with numbers,
except for an `f` after each opening brace that is taken for that of a placeholder
(`shownOf_renamed`, `exists_shownOf_marked`). -/

namespace TapeMachine.ErrorDerive

open Text

/-! ### Formatting -/

/-- The texts of values, by their names and by what says how they are shown. -/
abbrev Values := String → Option String → Option String

namespace Piece

variable {values : Values}

/-- What a piece shows, if there is a value of its name. -/
def shown (values : Values) : Piece → Option String
  | literal c => some (String.singleton c)
  | openBrace => some "\x7b"
  | closeBrace => some "\x7d"
  | placeholder name spec? => values name spec?

/-- What pieces show one after another. -/
def shownOf (values : Values) : List Piece → Option String
  | [] => some ""
  | piece :: rest =>
    (piece.shown values).bind fun first => (shownOf values rest).map (first ++ ·)

theorem shownOf_cons_eq_some_iff {piece : Piece} {rest : List Piece} {text : String} :
    shownOf values (piece :: rest) = some text ↔
      ∃ first others, piece.shown values = some first ∧ shownOf values rest = some others ∧
        text = first ++ others := by
  constructor
  · intro h
    obtain ⟨first, hFirst, hRest⟩ := Option.bind_eq_some_iff.1 h
    obtain ⟨others, hOthers, rfl⟩ := Option.map_eq_some_iff.1 hRest
    exact ⟨first, others, hFirst, hOthers, rfl⟩
  · rintro ⟨first, others, hFirst, hOthers, rfl⟩
    rw [shownOf, hFirst, hOthers]
    rfl

end Piece

/-- What a format string shows, if it is one. -/
def format (values : Values) (message : String) : Option String :=
  (Piece.readFrom none message.toList).bind (Piece.shownOf values)

theorem format_text (values : Values) (t : Template) :
    format values t.text = Piece.shownOf values t.pieces := by
  rw [format, t.read_text]
  rfl

/-- The values of the first fields of a tuple under their names. -/
def fieldsNamed (naming : Nat → String) (count : Nat) (fields : Nat → Option String → String) :
    Values := fun name spec? =>
  ((List.range count).find? fun index => naming index = name).map fun index => fields index spec?

theorem fieldsNamed_naming {naming : Nat → String}
    (h : ∀ {i j}, naming i = naming j → i = j) {count index : Nat} (hIndex : index < count)
    (fields : Nat → Option String → String) (spec? : Option String) :
    fieldsNamed naming count fields (naming index) spec? = some (fields index spec?) := by
  unfold fieldsNamed
  cases hFind : (List.range count).find? fun i => decide (naming i = naming index) with
  | none =>
    have hNone := List.find?_eq_none.1 hFind index (List.mem_range.2 hIndex)
    simp at hNone
  | some found =>
    have hFound := List.find?_some hFind
    rw [h (of_decide_eq_true hFound)]
    rfl

/-! ### Messages of tuples -/

namespace Piece

open Message

/-- A piece whose placeholder has the number of one of the first fields.  What says how the field is
shown refers to no other. -/
def ShowsField (count : Nat) : Piece → Prop
  | placeholder name spec? => name ∈ numbers count ∧ ∀ spec ∈ spec?, '$' ∉ spec.toList
  | _ => True

instance (count : Nat) (piece : Piece) : Decidable (piece.ShowsField count) :=
  match piece with
  | literal _ | openBrace | closeBrace => inferInstanceAs (Decidable True)
  | placeholder name spec? =>
    decidable_of_iff (name ∈ numbers count ∧ spec?.all fun spec => '$' ∉ spec.toList)
      (by cases spec? <;> simp [ShowsField])

variable {count : Nat} {fields : Nat → Option String → String} {pieces : List Piece}

theorem shown_renamed {piece : Piece} (h : piece.ShowsField count) :
    (piece.renamed count).shown (fieldsNamed tupleName count fields) =
      piece.shown (fieldsNamed decimal count fields) := by
  cases piece with
  | literal | openBrace | closeBrace => rfl
  | placeholder name spec? =>
    obtain ⟨index, hIndex, rfl⟩ := List.mem_map.1 h.1
    have hCount := List.mem_range.1 hIndex
    have hTuple {i j : Nat} (hSame : tupleName i = tupleName j) : i = j :=
      decimal_injective ((String.append_right_inj _).1 hSame)
    rw [renamed, rename, if_pos h.1]
    exact (fieldsNamed_naming hTuple hCount fields spec?).trans
      (fieldsNamed_naming decimal_injective hCount fields spec?).symm

theorem shownOf_renamed (h : ∀ piece ∈ pieces, piece.ShowsField count) :
    shownOf (fieldsNamed tupleName count fields) (pieces.map (renamed count)) =
      shownOf (fieldsNamed decimal count fields) pieces := by
  induction pieces with
  | nil => rfl
  | cons piece pieces ih =>
    obtain ⟨hPiece, hRest⟩ := List.forall_mem_cons.1 h
    rw [List.map_cons, shownOf, shownOf, shown_renamed hPiece, ih hRest]

theorem exists_shownOf (h : ∀ piece ∈ pieces, piece.ShowsField count) :
    ∃ text, shownOf (fieldsNamed decimal count fields) pieces = some text := by
  induction pieces with
  | nil => exact ⟨"", rfl⟩
  | cons piece pieces ih =>
    obtain ⟨hPiece, hRest⟩ := List.forall_mem_cons.1 h
    obtain ⟨others, hOthers⟩ := ih hRest
    obtain ⟨first, hFirst⟩ : ∃ first,
        piece.shown (fieldsNamed decimal count fields) = some first := by
      cases piece with
      | literal | openBrace | closeBrace => exact ⟨_, rfl⟩
      | placeholder name spec? =>
        obtain ⟨index, hIndex, rfl⟩ := List.mem_map.1 hPiece.1
        exact ⟨_, fieldsNamed_naming decimal_injective (List.mem_range.1 hIndex) fields spec?⟩
    exact ⟨_, shownOf_cons_eq_some_iff.2 ⟨first, others, hFirst, hOthers, rfl⟩⟩

theorem sublist_marked (count : Nat) (pieces : List Piece) :
    pieces.Sublist (marked count pieces) := by
  induction pieces with
  | nil => exact .slnil
  | cons piece pieces ih =>
    rw [marked]
    split
    · exact (ih.cons _).cons_cons piece
    · exact ih.cons_cons piece

/-- Every `f` that is put after a brace makes the text longer. -/
theorem exists_shownOf_marked {values : Values} {text : String}
    (h : shownOf values pieces = some text) (count : Nat) :
    ∃ text', shownOf values (marked count pieces) = some text' ∧
      text'.length + pieces.length = text.length + (marked count pieces).length := by
  induction pieces generalizing text with
  | nil => exact ⟨text, h, rfl⟩
  | cons piece pieces ih =>
    obtain ⟨first, others, hFirst, hOthers, rfl⟩ := shownOf_cons_eq_some_iff.1 h
    obtain ⟨others', hOthers', hLength⟩ := ih hOthers
    rw [marked]
    split
    · refine ⟨first ++ ("f" ++ others'), ?_, ?_⟩
      · rw [shownOf, shownOf, hFirst, hOthers']
        rfl
      · have hLetter : "f".length = 1 := rfl
        simp only [String.length_append, List.length_cons, hLetter]
        omega
    · refine ⟨first ++ others', ?_, ?_⟩
      · rw [shownOf, hFirst, hOthers']
        rfl
      · simp only [String.length_append, List.length_cons]
        omega

theorem marked_eq_iff {pieces : List Piece} :
    marked count pieces = pieces ↔
      ∀ before after, pieces = before ++ openBrace :: after →
        numbered count (textOf after) = false := by
  induction pieces with
  | nil => simp [marked]
  | cons piece pieces ih =>
    rw [marked]
    split
    case isTrue hTaken =>
      refine iff_of_false (fun hSame => ?_) fun h => ?_
      · have hLonger := (sublist_marked count pieces).length_le
        have hLength := congrArg List.length hSame
        simp only [List.length_cons] at hLength
        omega
      · have hUntaken := h [] pieces (by rw [hTaken.1, List.nil_append])
        rw [hTaken.2] at hUntaken
        cases hUntaken
    case isFalse hNot =>
      rw [List.cons_inj_right, ih]
      constructor
      · intro h before after hPieces
        cases before with
        | nil =>
          cases hPieces
          simpa using hNot
        | cons _ before =>
          cases hPieces
          exact h before after rfl
      · rintro h before after rfl
        exact h (piece :: before) after rfl

end Piece

namespace Template

open Message Piece

/-- An opening brace that is text has the number of a field after it, as in a placeholder. -/
def Misread (count : Nat) (t : Template) : Prop :=
  ∃ before after, t.pieces = before ++ openBrace :: after ∧
    ∃ index < count, ∃ mark, endsName mark = true ∧ number index mark <+: textOf after

theorem marked_eq_self_iff {count : Nat} {t : Template} :
    marked count t.pieces = t.pieces ↔ ¬t.Misread count := by
  rw [marked_eq_iff]
  unfold Misread
  simp only [← numbered_eq_true_iff, not_exists, not_and, Bool.not_eq_true]

/-- The placeholders of a message have the numbers of the fields of a tuple.  The message shows its
fields.  With names for the numbers it shows the same text, except for an `f` after each brace that
is text and taken for that of a placeholder, and so the same if there are none. -/
theorem format_forTuple_eq_iff {count : Nat} {t : Template}
    (h : ∀ piece ∈ t.pieces, piece.ShowsField count) (fields : Nat → Option String → String) :
    ∃ text, format (fieldsNamed decimal count fields) t.text = some text ∧
      format (fieldsNamed tupleName count fields) (Message.forTuple count t.text) =
        shownOf (fieldsNamed decimal count fields) (marked count t.pieces) ∧
      (format (fieldsNamed tupleName count fields) (Message.forTuple count t.text) = some text ↔
        ¬t.Misread count) := by
  obtain ⟨text, hText⟩ : ∃ text,
      shownOf (fieldsNamed decimal count fields) t.pieces = some text := exists_shownOf h
  have hMarked : ∀ piece ∈ marked count t.pieces, piece.ShowsField count := by
    intro piece hPiece
    rcases mem_marked hPiece with hSource | rfl
    · exact h piece hSource
    · trivial
  have hTuple : format (fieldsNamed tupleName count fields) (Message.forTuple count t.text) =
      shownOf (fieldsNamed decimal count fields) (marked count t.pieces) := by
    rw [forTuple_text, format_text]
    exact shownOf_renamed hMarked
  refine ⟨text, by rw [format_text, hText], hTuple, ?_⟩
  rw [hTuple, ← marked_eq_self_iff]
  constructor
  · intro hSame
    obtain ⟨text', hText', hLength⟩ := exists_shownOf_marked hText count
    rw [hSame] at hText'
    cases hText'
    exact ((sublist_marked count t.pieces).eq_of_length (by omega)).symm
  · intro hSame
    rw [hSame, hText]

/-- A format string with a field in braces. -/
def inBraces : Template where
  pieces := [.openBrace, .placeholder "0" none, .closeBrace, .placeholder "1" (some ">2")]
  wellFormed := by decide

theorem format_forTuple_eq_iff_inBraces :
    inBraces.text = "\x7b\x7b\x7b0\x7d\x7d\x7d\x7b1:>2\x7d" ∧ ¬inBraces.Misread 2 ∧
      format (fieldsNamed tupleName 2 fun index _ => if index = 0 then "a" else " b")
        (Message.forTuple 2 inBraces.text) = some "\x7ba\x7d b" := by
  have hRead : ¬inBraces.Misread 2 := marked_eq_self_iff.1 (by decide +kernel)
  obtain ⟨text, hText, -, hSame⟩ := format_forTuple_eq_iff
    (by decide : ∀ piece ∈ inBraces.pieces, piece.ShowsField 2)
    fun index _ => if index = 0 then "a" else " b"
  refine ⟨by decide +kernel, hRead, (hSame.2 hRead).trans (hText.symm.trans ?_)⟩
  decide +kernel

/-- A format string with the number of a field in braces that are text. -/
def escapedNumber : Template where
  pieces := [.openBrace, .literal '0', .closeBrace]
  wellFormed := by decide

/-- Braces around the number of a field are not shown as they are. -/
theorem format_forTuple_escapedNumber :
    (∀ piece ∈ escapedNumber.pieces, piece.ShowsField 1) ∧
      format (fieldsNamed decimal 1 fun _ _ => "a") escapedNumber.text = some "\x7b0\x7d" ∧
      format (fieldsNamed tupleName 1 fun _ _ => "a")
        (Message.forTuple 1 escapedNumber.text) = some "\x7bf0\x7d" := by
  decide +kernel

end Template

end TapeMachine.ErrorDerive
