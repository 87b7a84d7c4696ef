import Mathlib.Data.List.Basic
import TapeMachine.ErrorDerive.Message
import TapeMachine.Proofs.Text

/-! Format strings as sequences of pieces: characters, braces that are written twice, and
placeholders.  A text has at most one such form (`read_text`), and the names that a message uses are
those of its placeholders, in the order in which they first occur (`names_text`). -/

namespace TapeMachine.ErrorDerive

open Text

/-- A piece of a format string. -/
inductive Piece where
  /-- A character that stands for itself. -/
  | literal (c : Char)
  /-- An opening brace, which is written twice. -/
  | openBrace
  /-- A closing brace, which is written twice. -/
  | closeBrace
  /-- A name in braces.  What follows it after a colon says how the value is shown. -/
  | placeholder (name : String) (spec? : Option String)
  deriving DecidableEq, Repr

namespace Piece

def isBrace (c : Char) : Bool :=
  c = '\x7b' || c = '\x7d'

/-- The characters that end the name in a placeholder. -/
def endsName (c : Char) : Bool :=
  c = '\x7d' || c = ':'

/-- What stands between the braces of a placeholder. -/
def inside (name : String) : Option String → List Char
  | none => name.toList
  | some spec => name.toList ++ ':' :: spec.toList

def text : Piece → List Char
  | literal c => [c]
  | openBrace => ['\x7b', '\x7b']
  | closeBrace => ['\x7d', '\x7d']
  | placeholder name spec? => '\x7b' :: (inside name spec? ++ ['\x7d'])

/-- A name has no blanks, braces or colons, and nothing else a brace that is not its own. -/
def WellFormed : Piece → Prop
  | literal c => isBrace c = false
  | openBrace | closeBrace => True
  | placeholder name spec? =>
    (∀ c ∈ name.toList, isBrace c = false ∧ c ≠ ':' ∧ isBlank c = false) ∧
      ∀ spec ∈ spec?, ∀ c ∈ spec.toList, isBrace c = false

instance (piece : Piece) : Decidable piece.WellFormed :=
  match piece with
  | literal _ => inferInstanceAs (Decidable (_ = _))
  | openBrace | closeBrace => inferInstanceAs (Decidable True)
  | placeholder name spec? =>
    decidable_of_iff
      (name.toList.all (fun c => !isBrace c && (c ≠ ':' && !isBlank c)) ∧
        spec?.all fun spec => spec.toList.all fun c => !isBrace c)
      (by cases spec? <;> simp [WellFormed])

/-- The name in a placeholder. -/
def name? : Piece → Option String
  | placeholder name _ => some name
  | _ => none

/-- The text of pieces one after another. -/
def textOf (pieces : List Piece) : List Char :=
  pieces.flatMap text

@[simp] theorem textOf_cons (piece : Piece) (pieces : List Piece) :
    textOf (piece :: pieces) = piece.text ++ textOf pieces := rfl

end Piece

/-- A format string whose pieces are well formed. -/
structure Template where
  pieces : List Piece
  wellFormed : ∀ piece ∈ pieces, piece.WellFormed
  deriving DecidableEq, Repr

namespace Template

def text (t : Template) : String :=
  String.ofList (Piece.textOf t.pieces)

/-- The names in the placeholders, in order. -/
def names (t : Template) : List String :=
  t.pieces.filterMap Piece.name?

end Template

namespace Piece

theorem isBrace_eq_false_iff {c : Char} : isBrace c = false ↔ c ≠ '\x7b' ∧ c ≠ '\x7d' := by
  simp [isBrace]

theorem WellFormed.unopened_literal {c : Char} (h : (literal c).WellFormed) :
    ∀ d ∈ (literal c).text, d ≠ '\x7b' := by
  simpa [text] using (isBrace_eq_false_iff.1 h).1

theorem unopened_closeBrace : ∀ d ∈ closeBrace.text, d ≠ '\x7b' := by
  simp [text]

theorem WellFormed.inside {name : String} {spec? : Option String}
    (h : (placeholder name spec?).WellFormed) : ∀ c ∈ inside name spec?, isBrace c = false := by
  intro c hc
  cases spec? with
  | none => exact (h.1 c hc).1
  | some spec =>
    rcases List.mem_append.1 hc with hName | hSpec
    · exact (h.1 c hName).1
    · rcases List.mem_cons.1 hSpec with rfl | hSpec
      · decide
      · exact h.2 spec rfl c hSpec

theorem WellFormed.name_unended {name : String} {spec? : Option String}
    (h : (placeholder name spec?).WellFormed) : ∀ c ∈ name.toList, endsName c = false := by
  intro c hc
  obtain ⟨hBrace, hColon, -⟩ := h.1 c hc
  simp [endsName, (isBrace_eq_false_iff.1 hBrace).2, hColon]

theorem WellFormed.head?_inside {name : String} {spec? : Option String}
    (h : (placeholder name spec?).WellFormed) (rest : List Char) :
    '\x7b' ∉ (Piece.inside name spec? ++ '\x7d' :: rest).head? := by
  have hInside := h.inside
  cases hChars : Piece.inside name spec? with
  | nil => simp
  | cons c cs =>
    rw [hChars] at hInside
    rintro ⟨⟩
    exact absurd (hInside '\x7b' List.mem_cons_self) (by decide)

theorem text_placeholder_append (name : String) (spec? : Option String) (rest : List Char) :
    (placeholder name spec?).text ++ rest = '\x7b' :: (inside name spec? ++ '\x7d' :: rest) := by
  simp [text]

/-! ### Reading -/

/-- The placeholder with the given characters between its braces. -/
def ofInside (inside : List Char) : Piece :=
  match inside.dropWhile (· ≠ ':') with
  | [] => placeholder (String.ofList inside) none
  | _ :: spec => placeholder (String.ofList (inside.takeWhile (· ≠ ':'))) (some (String.ofList spec))

/-- The pieces of a text, if it is a format string.  The first argument holds, backwards, the
characters of the placeholder that is being read. -/
def readFrom : Option (List Char) → List Char → Option (List Piece)
  | none, [] => some []
  | none, '\x7b' :: '\x7b' :: rest => (readFrom none rest).map (openBrace :: ·)
  | none, '\x7b' :: rest => readFrom (some []) rest
  | none, '\x7d' :: '\x7d' :: rest => (readFrom none rest).map (closeBrace :: ·)
  | none, '\x7d' :: _ => none
  | none, c :: rest => (readFrom none rest).map (literal c :: ·)
  | some _, [] => none
  | some _, '\x7b' :: _ => none
  | some reversed, '\x7d' :: rest => (readFrom none rest).map (ofInside reversed.reverse :: ·)
  | some reversed, c :: rest => readFrom (some (c :: reversed)) rest

theorem ofInside_inside {name : String} {spec? : Option String}
    (h : (placeholder name spec?).WellFormed) :
    ofInside (inside name spec?) = placeholder name spec? := by
  have hName : ∀ c ∈ name.toList, decide (c ≠ ':') = true :=
    fun c hc => decide_eq_true (h.1 c hc).2.1
  cases spec? with
  | none =>
    simp only [ofInside, Piece.inside, List.dropWhile_eq_nil_iff.2 hName, String.ofList_toList]
  | some spec =>
    have hColon : ∀ c ∈ (':' :: spec.toList).head?, decide (c ≠ ':') = false := by simp
    obtain ⟨hTaken, hDropped⟩ := span_exact hName hColon
    simp only [ofInside, Piece.inside, hTaken, hDropped, String.ofList_toList]

theorem readFrom_inside {inside : List Char} (h : ∀ c ∈ inside, isBrace c = false)
    (reversed rest : List Char) :
    readFrom (some reversed) (inside ++ '\x7d' :: rest) =
      (readFrom none rest).map (ofInside (reversed.reverse ++ inside) :: ·) := by
  induction inside generalizing reversed with
  | nil => simp [readFrom]
  | cons c inside ih =>
    obtain ⟨hFirst, hRest⟩ := List.forall_mem_cons.1 h
    have hc := isBrace_eq_false_iff.1 hFirst
    rw [List.cons_append, readFrom, ih hRest] <;> simp [hc]

theorem readFrom_opened {cs : List Char} (h : '\x7b' ∉ cs.head?) :
    readFrom none ('\x7b' :: cs) = readFrom (some []) cs := by
  rw [readFrom]
  rintro rest rfl
  exact h rfl

theorem readFrom_text {piece : Piece} (h : piece.WellFormed) (rest : List Char) :
    readFrom none (piece.text ++ rest) = (readFrom none rest).map (piece :: ·) := by
  cases piece with
  | literal c =>
    have hc := isBrace_eq_false_iff.1 h
    show readFrom none (c :: rest) = _
    rw [readFrom] <;> simp [hc]
  | openBrace | closeBrace => rfl
  | placeholder name spec? =>
    rw [text_placeholder_append, readFrom_opened (h.head?_inside rest), readFrom_inside h.inside,
      List.reverse_nil, List.nil_append, ofInside_inside h]

theorem readFrom_textOf {pieces : List Piece} (h : ∀ piece ∈ pieces, piece.WellFormed) :
    readFrom none (textOf pieces) = some pieces := by
  induction pieces with
  | nil => rfl
  | cons piece pieces ih =>
    obtain ⟨hPiece, hRest⟩ := List.forall_mem_cons.1 h
    rw [textOf_cons, readFrom_text hPiece, ih hRest]
    rfl

/-! ### Names in placeholders -/

/-- What follows the name in a placeholder begins with a closing brace or a colon, and opens no
other placeholder. -/
theorem WellFormed.exists_ending {name : String} {spec? : Option String}
    (h : (placeholder name spec?).WellFormed) (rest : List Char) :
    ∃ mark ending, endsName mark = true ∧ (∀ c ∈ ending, c ≠ '\x7b') ∧
      Piece.inside name spec? ++ '\x7d' :: rest = name.toList ++ mark :: (ending ++ rest) := by
  cases spec? with
  | none => exact ⟨'\x7d', [], rfl, List.forall_mem_nil _, rfl⟩
  | some spec =>
    refine ⟨':', spec.toList ++ ['\x7d'], rfl, ?_, by simp [Piece.inside]⟩
    intro c hc
    rcases List.mem_append.1 hc with hSpec | hLast
    · exact (isBrace_eq_false_iff.1 (h.2 spec rfl c hSpec)).1
    · rw [List.mem_singleton.1 hLast]
      decide

end Piece

namespace Message

open Piece

theorem placeholdersFrom_unopened {cs : List Char} (h : ∀ c ∈ cs, c ≠ '\x7b') (rest : List Char) :
    placeholdersFrom none (cs ++ rest) = placeholdersFrom none rest := by
  induction cs with
  | nil => rfl
  | cons c cs ih =>
    obtain ⟨hFirst, hRest⟩ := List.forall_mem_cons.1 h
    rw [List.cons_append, placeholdersFrom, ih hRest] <;> simp [hFirst]

theorem placeholdersFrom_name {name : List Char} (h : ∀ c ∈ name, endsName c = false)
    {mark : Char} (hMark : endsName mark = true) (reversed rest : List Char) :
    placeholdersFrom (some reversed) (name ++ mark :: rest) =
      (reversed.reverse ++ name) :: placeholdersFrom none rest := by
  have hEnds (c : Char) : (c = '\x7d' ∨ c = ':') ↔ endsName c = true := by simp [endsName]
  induction name generalizing reversed with
  | nil => simp [placeholdersFrom, hEnds, hMark]
  | cons c name ih =>
    obtain ⟨hFirst, hRest⟩ := List.forall_mem_cons.1 h
    rw [List.cons_append, placeholdersFrom, if_neg (by simp [hEnds, hFirst]), ih hRest]
    simp

theorem placeholdersFrom_opened {cs : List Char} (h : '\x7b' ∉ cs.head?) :
    placeholdersFrom none ('\x7b' :: cs) = placeholdersFrom (some []) cs := by
  rw [placeholdersFrom]
  rintro rest rfl
  exact h rfl

theorem placeholdersFrom_text {piece : Piece} (h : piece.WellFormed) (rest : List Char) :
    placeholdersFrom none (piece.text ++ rest) =
      (piece.name?.map String.toList).toList ++ placeholdersFrom none rest := by
  cases piece with
  | literal c => exact placeholdersFrom_unopened h.unopened_literal rest
  | openBrace => rfl
  | closeBrace => exact placeholdersFrom_unopened unopened_closeBrace rest
  | placeholder name spec? =>
    obtain ⟨mark, ending, hMark, hEnding, hInside⟩ := h.exists_ending rest
    rw [text_placeholder_append, placeholdersFrom_opened (h.head?_inside rest), hInside,
      placeholdersFrom_name h.name_unended hMark, placeholdersFrom_unopened hEnding]
    rfl

theorem placeholdersFrom_textOf {pieces : List Piece} (h : ∀ piece ∈ pieces, piece.WellFormed) :
    placeholdersFrom none (textOf pieces) = (pieces.filterMap name?).map String.toList := by
  induction pieces with
  | nil => rfl
  | cons piece pieces ih =>
    obtain ⟨hPiece, hRest⟩ := List.forall_mem_cons.1 h
    rw [textOf_cons, placeholdersFrom_text hPiece, ih hRest, List.filterMap_cons]
    cases piece.name? <;> rfl

/-! ### First uses -/

/-- The elements of a list, each once and in the order in which they first occur. -/
structure FirstUses (all used : List String) : Prop where
  mem_iff : ∀ name, name ∈ used ↔ name ∈ all
  ordered : used.Pairwise fun a b => all.idxOf a < all.idxOf b

theorem mem_distinct {seen all : List String} {name : String} :
    name ∈ distinct seen all ↔ name ∈ all ∧ name ∉ seen := by
  induction all generalizing seen with
  | nil => simp [distinct]
  | cons x all ih =>
    rw [distinct]
    split <;> grind

theorem pairwise_distinct (seen all : List String) :
    (distinct seen all).Pairwise fun a b => all.idxOf a < all.idxOf b := by
  induction all generalizing seen with
  | nil => exact .nil
  | cons x all ih =>
    -- A name that was seen is not taken again, so the positions of all others grow by one.
    have hLater (seen' : List String) (hx : x ∈ seen') :
        (distinct seen' all).Pairwise fun a b => (x :: all).idxOf a < (x :: all).idxOf b := by
      refine (ih seen').imp_of_mem fun {a b} ha hb hab => ?_
      have hxa : x ≠ a := by rintro rfl; exact (mem_distinct.1 ha).2 hx
      have hxb : x ≠ b := by rintro rfl; exact (mem_distinct.1 hb).2 hx
      rw [List.idxOf_cons_ne _ hxa, List.idxOf_cons_ne _ hxb]
      omega
    rw [distinct]
    split
    case isTrue hSeen => exact hLater seen hSeen
    case isFalse hNew =>
      refine List.pairwise_cons.2 ⟨fun b hb => ?_, hLater (x :: seen) List.mem_cons_self⟩
      have hxb : x ≠ b := by rintro rfl; exact (mem_distinct.1 hb).2 List.mem_cons_self
      rw [List.idxOf_cons_self, List.idxOf_cons_ne _ hxb]
      omega

theorem firstUses_distinct (all : List String) : FirstUses all (distinct [] all) where
  mem_iff name := by simp [mem_distinct]
  ordered := pairwise_distinct [] all

/-- The names that a message uses are those in its placeholders. -/
theorem names_text (t : Template) :
    names t.text =
      if "" ∈ t.names then .error .implicitArgument else .ok (distinct [] t.names) := by
  have hTrim (name : String) (hName : name ∈ t.names) : trim (String.ofList name.toList) = name := by
    obtain ⟨piece, hPiece, hNamed⟩ := List.mem_filterMap.1 hName
    cases piece with
    | literal | openBrace | closeBrace => cases hNamed
    | placeholder other spec? =>
      cases hNamed
      rw [String.ofList_toList]
      exact trim_eq_self fun c hc => ((t.wellFormed _ hPiece).1 c hc).2.2
  have hNames : (placeholdersFrom none t.text.toList).map (fun cs => trim (String.ofList cs)) =
      t.names := by
    rw [Template.text, String.toList_ofList, placeholdersFrom_textOf t.wellFormed, List.map_map]
    exact (List.map_congr_left hTrim).trans (List.map_id' _)
  simp only [names, hNames]

end Message

namespace Template

open Piece

theorem read_text (t : Template) : readFrom none t.text.toList = some t.pieces := by
  rw [text, String.toList_ofList, readFrom_textOf t.wellFormed]

end Template

end TapeMachine.ErrorDerive
