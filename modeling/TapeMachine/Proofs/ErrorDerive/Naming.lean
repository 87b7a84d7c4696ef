import TapeMachine.Proofs.ErrorDerive.Template
import TapeMachine.Proofs.Numeral

/-! Numbers that become names in the message of a tuple.  The replacements one after another put an
`f` after every opening brace that is followed by the number of a field and then a closing brace or
a colon (`nameFields_eq`).  In a format string these are the opening braces of the placeholders of
the fields, but also the second ones of braces that are written twice before such a text
(`forTuple_text`). -/

namespace TapeMachine.ErrorDerive

open Text

namespace Message

open Piece

/-! ### Replacements -/

/-- A text with an `f` after each opening brace that a text of a class follows. -/
def insertAfter (opens : List Char → Bool) : List Char → List Char
  | [] => []
  | c :: rest =>
    if c = '\x7b' ∧ opens rest = true then c :: 'f' :: insertAfter opens rest
    else c :: insertAfter opens rest

variable {opens : List Char → Bool}

theorem insertAfter_cons_of_ne {c : Char} (h : c ≠ '\x7b') (rest : List Char) :
    insertAfter opens (c :: rest) = c :: insertAfter opens rest := by
  rw [insertAfter, if_neg fun hOpens => h hOpens.1]

theorem insertAfter_append {cs : List Char} (h : ∀ c ∈ cs, c ≠ '\x7b') (rest : List Char) :
    insertAfter opens (cs ++ rest) = cs ++ insertAfter opens rest := by
  induction cs with
  | nil => rfl
  | cons c cs ih =>
    obtain ⟨hFirst, hRest⟩ := List.forall_mem_cons.1 h
    rw [List.cons_append, insertAfter_cons_of_ne hFirst, ih hRest, List.cons_append]

/-- Replacing an opened text by one with an `f` in front inserts the `f`. -/
theorem take_append_replaceFrom {body : List Char} (h : ∀ c ∈ body, c ≠ '\x7b') (skip : Nat)
    (cs : List Char) (hSkipped : ∀ c ∈ cs.take skip, c ≠ '\x7b') :
    cs.take skip ++ replaceFrom ('\x7b' :: body) ('\x7b' :: 'f' :: body) skip cs =
      insertAfter (body.isPrefixOf ·) cs := by
  induction cs generalizing skip with
  | nil => simp [replaceFrom, insertAfter]
  | cons c rest ih =>
    cases skip with
    | succ skip =>
      rw [List.take_succ_cons] at hSkipped ⊢
      obtain ⟨hFirst, hRest⟩ := List.forall_mem_cons.1 hSkipped
      rw [insertAfter_cons_of_ne hFirst, ← ih skip hRest]
      rfl
    | zero =>
      have hUnskipped := ih 0 (by simp)
      rw [List.take_zero, List.nil_append] at hUnskipped ⊢
      rw [replaceFrom, if_neg (Nat.lt_irrefl 0), insertAfter]
      by_cases hMatch : c = '\x7b' ∧ body.isPrefixOf rest = true
      · -- The replacement has written the body, which the rest of the text begins with.
        obtain ⟨rfl, hBody⟩ := hMatch
        have hTaken : rest.take body.length = body :=
          (List.prefix_iff_eq_take.1 (List.isPrefixOf_iff_prefix.1 hBody)).symm
        have hRest := ih body.length (by rwa [hTaken])
        rw [hTaken] at hRest
        simp [hBody, ← hRest]
      · have hPattern : ¬(('\x7b' :: body).isPrefixOf (c :: rest) = true) := by
          rw [List.isPrefixOf_cons_cons, Bool.and_eq_true, beq_iff_eq]
          exact fun hOpened => hMatch ⟨hOpened.1.symm, hOpened.2⟩
        rw [if_neg hPattern, if_neg hMatch, hUnskipped]

theorem replaceFrom_eq_insertAfter {body : List Char} (h : ∀ c ∈ body, c ≠ '\x7b')
    (cs : List Char) :
    replaceFrom ('\x7b' :: body) ('\x7b' :: 'f' :: body) 0 cs =
      insertAfter (body.isPrefixOf ·) cs := by
  simpa using take_append_replaceFrom h 0 cs (by simp)

/-- A class of texts that stays the same under insertions, and in which no text begins with an `f`
or an opening brace. -/
structure Stable (opens : List Char → Bool) : Prop where
  insertAfter : ∀ other cs, opens (insertAfter other cs) = opens cs
  named : ∀ cs, opens ('f' :: cs) = false
  escaped : ∀ cs, opens ('\x7b' :: cs) = false

theorem isPrefixOf_insertAfter {body : List Char} (h : ∀ c ∈ body, c ≠ '\x7b') (cs : List Char) :
    body.isPrefixOf (insertAfter opens cs) = body.isPrefixOf cs := by
  induction body generalizing cs with
  | nil => simp
  | cons b body ih =>
    obtain ⟨hFirst, hRest⟩ := List.forall_mem_cons.1 h
    cases cs with
    | nil => rfl
    | cons c cs =>
      by_cases hc : c = '\x7b'
      · rw [insertAfter]
        split <;> simp only [List.isPrefixOf_cons_cons, hc, beq_false_of_ne hFirst, Bool.false_and]
      · rw [insertAfter_cons_of_ne hc, List.isPrefixOf_cons_cons, List.isPrefixOf_cons_cons,
          ih hRest]

theorem insertAfter_insertAfter {other : List Char → Bool} (h : Stable other) (cs : List Char) :
    insertAfter other (insertAfter opens cs) =
      insertAfter (fun rest => opens rest || other rest) cs := by
  induction cs with
  | nil => rfl
  | cons c rest ih =>
    by_cases hc : c = '\x7b'
    · by_cases hOpens : opens rest = true
      · simp [insertAfter, hc, hOpens, h.named, ih]
      · simp [insertAfter, hc, hOpens, h.insertAfter, ih]
    · simp only [insertAfter_cons_of_ne hc, ih]

theorem insertAfter_none (cs : List Char) : insertAfter (fun _ => false) cs = cs := by
  induction cs with
  | nil => rfl
  | cons c rest ih => simp [insertAfter, ih]

theorem Stable.or {other : List Char → Bool} (h : Stable opens) (hOther : Stable other) :
    Stable fun cs => opens cs || other cs where
  insertAfter _ _ := by rw [h.insertAfter, hOther.insertAfter]
  named _ := by rw [h.named, hOther.named, Bool.or_self]
  escaped _ := by rw [h.escaped, hOther.escaped, Bool.or_self]

/-! ### Numbers -/

/-- The number of a field and the character after it. -/
def number (index : Nat) (mark : Char) : List Char :=
  (decimal index).toList ++ [mark]

/-- A text begins with the number of a field, as a placeholder would. -/
def numberAt (index : Nat) (cs : List Char) : Bool :=
  (number index '\x7d').isPrefixOf cs || (number index ':').isPrefixOf cs

/-- A text begins with the number of one of the first fields, as a placeholder would. -/
def numbered (count : Nat) (cs : List Char) : Bool :=
  (List.range count).any (numberAt · cs)

theorem numbered_eq_true_iff {count : Nat} {cs : List Char} :
    numbered count cs = true ↔
      ∃ index < count, ∃ mark, endsName mark = true ∧ number index mark <+: cs := by
  simp only [numbered, numberAt, endsName, List.any_eq_true, List.mem_range, Bool.or_eq_true,
    decide_eq_true_eq, List.isPrefixOf_iff_prefix, exists_eq_left, or_and_right, exists_or]

theorem unopened_number (index : Nat) {mark : Char} (h : endsName mark = true) :
    ∀ c ∈ number index mark, c ≠ '\x7b' := by
  intro c hc
  rcases List.mem_append.1 hc with hDigit | hMark
  · rintro rfl
    exact absurd (Numeral.isDigit_of_mem_decimal hDigit) (by decide)
  · rintro rfl
    rw [← List.mem_singleton.1 hMark] at h
    exact absurd h (by decide)

theorem exists_digit_number (index : Nat) (mark : Char) :
    ∃ digit rest, number index mark = digit :: rest ∧ Numeral.isDigit digit = true := by
  obtain ⟨digit, digits, hDigits⟩ := List.exists_cons_of_ne_nil
    (decimal_toList index ▸ Nat.toDigits_ne_nil : (decimal index).toList ≠ [])
  refine ⟨digit, digits ++ [mark], by rw [number, hDigits, List.cons_append], ?_⟩
  exact Numeral.isDigit_of_mem_decimal (hDigits ▸ List.mem_cons_self)

theorem stable_number (index : Nat) {mark : Char} (h : endsName mark = true) :
    Stable ((number index mark).isPrefixOf ·) := by
  obtain ⟨digit, rest, hNumber, hDigit⟩ := exists_digit_number index mark
  have hFirst {c : Char} (hc : Numeral.isDigit c = false) (cs : List Char) :
      (number index mark).isPrefixOf (c :: cs) = false := by
    have hNe : digit ≠ c := by
      rintro rfl
      rw [hDigit] at hc
      cases hc
    rw [hNumber, List.isPrefixOf_cons_cons, beq_false_of_ne hNe, Bool.false_and]
  exact ⟨fun _ => isPrefixOf_insertAfter (unopened_number index h), hFirst (by decide),
    hFirst (by decide)⟩

theorem stable_numberAt (index : Nat) : Stable (numberAt index) :=
  (stable_number index rfl).or (stable_number index rfl)

theorem numbered_succ (count : Nat) :
    numbered (count + 1) = fun cs => numberAt count cs || numbered count cs := by
  funext cs
  simp [numbered, List.range_succ, Bool.or_comm]

theorem stable_numbered (count : Nat) : Stable (numbered count) := by
  induction count with
  | zero => exact ⟨fun _ _ => rfl, fun _ => rfl, fun _ => rfl⟩
  | succ count ih =>
    rw [numbered_succ]
    exact (stable_numberAt count).or ih

theorem nameField_eq (index : Nat) (cs : List Char) :
    nameField index cs = insertAfter (numberAt index) cs := by
  have hName : (tupleName index).toList = 'f' :: (decimal index).toList := by
    rw [tupleName, String.toList_append]
    rfl
  have hReplace {mark : Char} (h : endsName mark = true) (cs : List Char) :=
    replaceFrom_eq_insertAfter (unopened_number index h) cs
  have hBoth : insertAfter ((number index ':').isPrefixOf ·)
      (insertAfter ((number index '\x7d').isPrefixOf ·) cs) = insertAfter (numberAt index) cs :=
    insertAfter_insertAfter (stable_number index rfl) cs
  rw [← hReplace rfl, ← hReplace rfl] at hBoth
  unfold nameField
  rw [hName]
  exact hBoth

theorem nameFields_eq (count : Nat) (cs : List Char) :
    nameFields count cs = insertAfter (numbered count) cs := by
  induction count generalizing cs with
  | zero => exact (insertAfter_none cs).symm
  | succ count ih =>
    rw [nameFields, ih, nameField_eq, insertAfter_insertAfter (stable_numbered count),
      numbered_succ]

/-- The names of the first fields of a tuple, as numbers. -/
def numbers (count : Nat) : List String :=
  (List.range count).map decimal

theorem unended_decimal (n : Nat) : ∀ c ∈ (decimal n).toList, endsName c = false := by
  intro c hc
  have hDigit := Numeral.isDigit_of_mem_decimal hc
  rw [endsName, Bool.or_eq_false_iff, decide_eq_false_iff_not, decide_eq_false_iff_not]
  constructor <;> rintro rfl <;> exact absurd hDigit (by decide)

/-- Where a name ends is determined by the character that ends it. -/
theorem eq_of_append_mark {a b s t : List Char} {x y : Char} (ha : ∀ c ∈ a, endsName c = false)
    (hb : ∀ c ∈ b, endsName c = false) (hx : endsName x = true) (hy : endsName y = true)
    (h : a ++ x :: s = b ++ y :: t) : a = b := by
  induction a generalizing b with
  | nil =>
    cases b with
    | nil => rfl
    | cons c b =>
      cases h
      rw [hb x List.mem_cons_self] at hx
      cases hx
  | cons c a ih =>
    cases b with
    | nil =>
      cases h
      rw [ha y List.mem_cons_self] at hy
      cases hy
    | cons d b =>
      obtain ⟨rfl, hRest⟩ := List.cons.inj h
      rw [ih (List.forall_mem_cons.1 ha).2 (List.forall_mem_cons.1 hb).2 hRest]

/-- What follows the opening brace of a placeholder is the number of a field if its name is. -/
theorem numbered_inside {name : String} {spec? : Option String}
    (h : (Piece.placeholder name spec?).WellFormed) (count : Nat) (rest : List Char) :
    numbered count (Piece.inside name spec? ++ '\x7d' :: rest) = true ↔ name ∈ numbers count := by
  obtain ⟨mark, ending, hMark, -, hInside⟩ := h.exists_ending rest
  rw [hInside, numbered_eq_true_iff, numbers, List.mem_map]
  constructor
  · rintro ⟨index, hIndex, mark', hMark', after, hNumber⟩
    rw [number, List.append_assoc] at hNumber
    have hSame := eq_of_append_mark (unended_decimal index) h.name_unended hMark' hMark hNumber
    exact ⟨index, List.mem_range.2 hIndex, String.toList_inj.1 hSame⟩
  · rintro ⟨index, hIndex, rfl⟩
    exact ⟨index, List.mem_range.1 hIndex, mark, hMark, ending ++ rest, by simp [number]⟩

end Message

/-! ### Format strings of tuples -/

namespace Piece

open Message

/-- The name that a placeholder gets in the message of a tuple. -/
def rename (count : Nat) (name : String) : String :=
  if name ∈ numbers count then "f" ++ name else name

/-- A piece whose placeholder has the name that it gets in the message of a tuple. -/
def renamed (count : Nat) : Piece → Piece
  | placeholder name spec? => placeholder (rename count name) spec?
  | piece => piece

/-- Pieces with an `f` after each opening brace that is taken for that of a placeholder. -/
def marked (count : Nat) : List Piece → List Piece
  | [] => []
  | piece :: rest =>
    if piece = openBrace ∧ numbered count (textOf rest) = true then
      piece :: literal 'f' :: marked count rest
    else piece :: marked count rest

theorem inside_named (name : String) (spec? : Option String) :
    inside ("f" ++ name) spec? = 'f' :: inside name spec? := by
  have hName : ("f" ++ name).toList = 'f' :: name.toList := String.toList_append
  cases spec? <;> simp only [inside, hName, List.cons_append]

theorem insertAfter_text {piece : Piece} (h : piece.WellFormed) (hEscape : piece ≠ openBrace)
    (count : Nat) (rest : List Char) :
    insertAfter (numbered count) (piece.text ++ rest) =
      (piece.renamed count).text ++ insertAfter (numbered count) rest := by
  cases piece with
  | literal c => exact insertAfter_append h.unopened_literal rest
  | openBrace => exact absurd rfl hEscape
  | closeBrace => exact insertAfter_append unopened_closeBrace rest
  | placeholder name spec? =>
    have hInside : ∀ c ∈ inside name spec?, c ≠ '\x7b' :=
      fun c hc => (isBrace_eq_false_iff.1 (h.inside c hc)).1
    have hBody : insertAfter (numbered count) (inside name spec? ++ '\x7d' :: rest) =
        inside name spec? ++ '\x7d' :: insertAfter (numbered count) rest := by
      rw [insertAfter_append hInside, insertAfter_cons_of_ne (by decide)]
    have hNumbered := numbered_inside h count rest
    rw [renamed, rename, text_placeholder_append, text_placeholder_append, insertAfter, hBody]
    by_cases hName : name ∈ numbers count
    · rw [if_pos ⟨rfl, hNumbered.2 hName⟩, if_pos hName, inside_named, List.cons_append]
    · rw [if_neg fun hOpens => hName (hNumbered.1 hOpens.2), if_neg hName]

theorem insertAfter_openBrace (count : Nat) (rest : List Char) :
    insertAfter (numbered count) (openBrace.text ++ rest) =
      openBrace.text ++ ((if numbered count rest = true then ['f'] else []) ++
        insertAfter (numbered count) rest) := by
  have hSecond := (stable_numbered count).escaped rest
  show insertAfter (numbered count) ('\x7b' :: '\x7b' :: rest) = _
  -- A number does not begin with a brace, so nothing comes between the two braces.
  rw [insertAfter, if_neg (by simp [hSecond]), insertAfter]
  by_cases hNumber : numbered count rest = true <;> simp [hNumber, text]

/-- An `f` comes into a placeholder of a field and after an opening brace that is taken for one. -/
theorem insertAfter_textOf {count : Nat} {pieces : List Piece}
    (h : ∀ piece ∈ pieces, piece.WellFormed) :
    insertAfter (numbered count) (textOf pieces) =
      textOf ((marked count pieces).map (renamed count)) := by
  induction pieces with
  | nil => rfl
  | cons piece pieces ih =>
    obtain ⟨hPiece, hRest⟩ := List.forall_mem_cons.1 h
    rw [textOf_cons, marked]
    by_cases hEscape : piece = openBrace
    · rw [hEscape, insertAfter_openBrace, ih hRest]
      by_cases hNumber : numbered count (textOf pieces) = true <;> simp [hNumber, renamed, text]
    · rw [insertAfter_text hPiece hEscape, ih hRest, if_neg fun hTaken => hEscape hTaken.1]
      rfl

theorem WellFormed.renamed {piece : Piece} (h : piece.WellFormed) (count : Nat) :
    (piece.renamed count).WellFormed := by
  cases piece with
  | literal | openBrace | closeBrace => exact h
  | placeholder name spec? =>
    refine ⟨?_, h.2⟩
    rw [rename]
    split
    case isFalse => exact h.1
    case isTrue =>
      intro c hc
      rcases List.mem_cons.1 (String.toList_append ▸ hc) with rfl | hName
      · decide
      · exact h.1 c hName

theorem mem_marked {count : Nat} {pieces : List Piece} {piece : Piece}
    (h : piece ∈ marked count pieces) : piece ∈ pieces ∨ piece = literal 'f' := by
  induction pieces with
  | nil => cases h
  | cons first pieces ih =>
    rw [marked] at h
    split at h <;> grind

theorem filterMap_name?_marked (count : Nat) (pieces : List Piece) :
    (marked count pieces).filterMap name? = pieces.filterMap name? := by
  induction pieces with
  | nil => rfl
  | cons piece pieces ih =>
    rw [marked]
    split
    case isTrue h =>
      rw [h.1]
      exact ih
    case isFalse => rw [List.filterMap_cons, List.filterMap_cons, ih]

end Piece

namespace Template

open Piece

/-- The message of a tuple of `count` fields. -/
def forTuple (count : Nat) (t : Template) : Template where
  pieces := (marked count t.pieces).map (renamed count)
  wellFormed piece h := by
    obtain ⟨source, hSource, rfl⟩ := List.mem_map.1 h
    rcases mem_marked hSource with hPiece | rfl
    · exact (t.wellFormed source hPiece).renamed count
    · have hLetter : (literal 'f').WellFormed := by decide
      exact hLetter.renamed count

theorem forTuple_text (count : Nat) (t : Template) :
    Message.forTuple count t.text = (t.forTuple count).text := by
  rw [Message.forTuple, text, String.toList_ofList, Message.nameFields_eq,
    insertAfter_textOf t.wellFormed]
  rfl

theorem forTuple_names (count : Nat) (t : Template) :
    (t.forTuple count).names = t.names.map (rename count) := by
  have hName (piece : Piece) : (piece.renamed count).name? = piece.name?.map (rename count) := by
    cases piece <;> rfl
  have hNames : name? ∘ renamed count = fun piece => piece.name?.map (rename count) := funext hName
  rw [names, forTuple, List.filterMap_map, hNames, ← List.map_filterMap, filterMap_name?_marked]
  rfl

end Template

end TapeMachine.ErrorDerive
