import TapeMachine.Proofs.ErrorDerive.Naming

/-! Placeholders without a name, in any message.  A text is read from the left: an opening brace
that is written twice opens nothing, and the name in a placeholder ends before a closing brace, a
colon or the end of the text (`textInduction`).  A message is refused exactly if the name in one of
its placeholders is blank (`names_eq_error_implicit_iff`), and this is not changed where numbers
become names (`implicit_forTuple_iff`). -/

namespace TapeMachine.ErrorDerive

open Text

namespace Message

open Piece

/-! ### Texts with placeholders -/

/-- What stands before `tail` is a name, and nothing of `tail` belongs to it. -/
structure NameBefore (name tail : List Char) : Prop where
  unended : ∀ c ∈ name, endsName c = false
  ended : ∀ c ∈ tail.head?, endsName c = true
  opened : '\x7b' ∉ (name ++ tail).head?

theorem exists_nameBefore {cs : List Char} (h : '\x7b' ∉ cs.head?) :
    ∃ name tail, NameBefore name tail ∧ cs = name ++ tail := by
  have hSplit := List.takeWhile_append_dropWhile (p := fun c => !endsName c) (l := cs)
  refine ⟨_, _, ⟨fun c hc => ?_, fun c hc => ?_, ?_⟩, hSplit.symm⟩
  · simpa using List.mem_takeWhile_imp hc
  · simpa using head?_dropWhile (fun c => !endsName c) cs c hc
  · rwa [hSplit]

theorem textInduction {motive : List Char → Prop} (nil : motive [])
    (literal : ∀ c rest, c ≠ '\x7b' → motive rest → motive (c :: rest))
    (escape : ∀ rest, motive rest → motive ('\x7b' :: '\x7b' :: rest))
    (placeholder : ∀ name tail, NameBefore name tail → motive tail →
      motive ('\x7b' :: (name ++ tail)))
    (cs : List Char) : motive cs := by
  induction hLength : cs.length using Nat.strongRecOn generalizing cs with
  | _ n ih =>
    subst hLength
    match cs with
    | [] => exact nil
    | c :: rest =>
      by_cases hOpens : c = '\x7b'
      case neg => exact literal c rest hOpens (ih _ (Nat.lt_succ_self _) rest rfl)
      case pos =>
        subst hOpens
        by_cases hEscape : '\x7b' ∈ rest.head?
        · obtain ⟨after, rfl⟩ := List.head?_eq_some_iff.1 hEscape
          have hShort : after.length < ('\x7b' :: '\x7b' :: after).length := by
            simp only [List.length_cons]
            omega
          exact escape after (ih _ hShort after rfl)
        · obtain ⟨name, tail, hName, rfl⟩ := exists_nameBefore hEscape
          have hShort : tail.length < ('\x7b' :: (name ++ tail)).length := by
            simp only [List.length_cons, List.length_append]
            omega
          exact placeholder name tail hName (ih _ hShort tail rfl)

/-- A message with a placeholder whose name is blank. -/
inductive Implicit : List Char → Prop
  | here {name tail : List Char} (hName : NameBefore name tail)
      (hBlank : ∀ c ∈ name, isBlank c = true) : Implicit ('\x7b' :: (name ++ tail))
  | placeholder {name tail : List Char} (hName : NameBefore name tail) (later : Implicit tail) :
      Implicit ('\x7b' :: (name ++ tail))
  | literal {c : Char} {rest : List Char} (hLiteral : c ≠ '\x7b') (later : Implicit rest) :
      Implicit (c :: rest)
  | escape {rest : List Char} (later : Implicit rest) : Implicit ('\x7b' :: '\x7b' :: rest)

theorem placeholdersFrom_literal {c : Char} (h : c ≠ '\x7b') (rest : List Char) :
    placeholdersFrom none (c :: rest) = placeholdersFrom none rest :=
  placeholdersFrom_unopened (List.forall_mem_singleton.2 h) rest

theorem placeholdersFrom_unclosed {name : List Char} (h : ∀ c ∈ name, endsName c = false)
    (reversed : List Char) :
    placeholdersFrom (some reversed) name = [reversed.reverse ++ name] := by
  induction name generalizing reversed with
  | nil => simp [placeholdersFrom]
  | cons c name ih =>
    obtain ⟨hFirst, hRest⟩ := List.forall_mem_cons.1 h
    rw [placeholdersFrom, if_neg (by simpa [endsName] using hFirst), ih hRest]
    simp

theorem placeholdersFrom_placeholder {name tail : List Char} (h : NameBefore name tail) :
    placeholdersFrom none ('\x7b' :: (name ++ tail)) = name :: placeholdersFrom none tail := by
  rw [placeholdersFrom_opened h.opened]
  cases tail with
  | nil => simpa [placeholdersFrom] using placeholdersFrom_unclosed h.unended []
  | cons mark rest =>
    have hMark := h.ended mark rfl
    have hLiteral : mark ≠ '\x7b' := by
      rintro rfl
      exact absurd hMark (by decide)
    rw [placeholdersFrom_name h.unended hMark, placeholdersFrom_literal hLiteral]
    rfl

theorem implicit_iff {cs : List Char} :
    Implicit cs ↔ ∃ name ∈ placeholdersFrom none cs, ∀ c ∈ name, isBlank c = true := by
  constructor
  · intro h
    induction h with
    | here hName hBlank =>
      rw [placeholdersFrom_placeholder hName]
      exact ⟨_, List.mem_cons_self, hBlank⟩
    | placeholder hName _ ih =>
      rw [placeholdersFrom_placeholder hName]
      exact List.exists_mem_cons_of_exists ih
    | literal hLiteral _ ih => rwa [placeholdersFrom_literal hLiteral]
    | escape _ ih => exact ih
  · induction cs using textInduction with
    | nil => simp [placeholdersFrom]
    | literal c rest hLiteral ih =>
      rw [placeholdersFrom_literal hLiteral]
      exact fun h => .literal hLiteral (ih h)
    | escape rest ih => exact fun h => .escape (ih h)
    | placeholder name tail hName ih =>
      rw [placeholdersFrom_placeholder hName, List.exists_mem_cons_iff]
      rintro (hBlank | hLater)
      · exact .here hName hBlank
      · exact .placeholder hName (ih hLater)

/-! ### Refused messages -/

theorem trim_eq_empty_iff {cs : List Char} :
    trim (String.ofList cs) = "" ↔ ∀ c ∈ cs, isBlank c = true := by
  rw [trim, String.toList_ofList, ← String.toList_inj, String.toList_ofList, String.toList_empty,
    dropEndWhile, List.reverse_eq_nil_iff, ← List.dropWhile_eq_nil_iff]
  constructor
  · intro h
    have hStop := head?_dropWhile isBlank cs
    cases hRest : cs.dropWhile isBlank with
    | nil => rfl
    | cons c rest =>
      -- The first character that is left is not blank, and would be left at the end too.
      rw [hRest] at h hStop
      have hBlank := List.dropWhile_eq_nil_iff.1 h c (List.mem_reverse.2 List.mem_cons_self)
      rw [hStop c rfl] at hBlank
      cases hBlank
  · intro h
    rw [h]
    rfl

theorem empty_mem_names_iff {message : String} :
    "" ∈ (placeholdersFrom none message.toList).map (fun cs => trim (String.ofList cs)) ↔
      Implicit message.toList := by
  simp only [implicit_iff, List.mem_map, trim_eq_empty_iff]

theorem names_eq_error_implicit_iff {message : String} {error : DeriveError} :
    names message = .error error ↔ Implicit message.toList ∧ error = .implicitArgument := by
  rw [← empty_mem_names_iff, names]
  split
  case isTrue h => simp only [h, Except.error.injEq, true_and, eq_comm]
  case isFalse h => simp only [h, reduceCtorEq, false_and]

/-! ### Numbers that become names -/

theorem head?_insertAfter (opens : List Char → Bool) (cs : List Char) :
    (insertAfter opens cs).head? = cs.head? := by
  cases cs with
  | nil => rfl
  | cons c rest =>
    rw [insertAfter]
    split <;> rfl

/-- Insertions in a name leave it a name, which is blank if it was. -/
theorem exists_insertAfter_name (opens : List Char → Bool) {name : List Char}
    (h : ∀ c ∈ name, endsName c = false) (tail : List Char) :
    ∃ name', insertAfter opens (name ++ tail) = name' ++ insertAfter opens tail ∧
      (∀ c ∈ name', endsName c = false) ∧
      ((∀ c ∈ name', isBlank c = true) ↔ ∀ c ∈ name, isBlank c = true) := by
  induction name with
  | nil => exact ⟨[], rfl, h, Iff.rfl⟩
  | cons c name ih =>
    obtain ⟨hFirst, hRest⟩ := List.forall_mem_cons.1 h
    obtain ⟨name', hInserted, hName', hBlank⟩ := ih hRest
    rw [List.cons_append, insertAfter, hInserted]
    split
    case isTrue hOpens =>
      -- The name has a brace, so it is blank neither before nor after.
      obtain ⟨rfl, -⟩ := hOpens
      refine ⟨'\x7b' :: 'f' :: name', rfl, ?_, ?_⟩
      · exact List.forall_mem_cons.2 ⟨hFirst, List.forall_mem_cons.2 ⟨by decide, hName'⟩⟩
      · simp [show isBlank '\x7b' = false by decide]
    case isFalse =>
      refine ⟨c :: name', rfl, List.forall_mem_cons.2 ⟨hFirst, hName'⟩, ?_⟩
      rw [List.forall_mem_cons, List.forall_mem_cons, hBlank]

theorem isBlank_eq_false_of_isDigit {c : Char} (h : Numeral.isDigit c = true) :
    isBlank c = false := by
  rw [Numeral.isDigit, Bool.and_eq_true, decide_eq_true_eq, decide_eq_true_eq] at h
  have hLow : 48 ≤ c.toNat := h.1
  have hHigh : c.toNat ≤ 57 := h.2
  simp [isBlank, blankRanges]
  omega

/-- The number of a field is not blank. -/
theorem not_blank_of_numbered {count : Nat} {name tail : List Char} (hName : NameBefore name tail)
    (h : numbered count (name ++ tail) = true) : ¬∀ c ∈ name, isBlank c = true := by
  obtain ⟨index, -, mark, -, after, hAfter⟩ := numbered_eq_true_iff.1 h
  obtain ⟨digit, rest, hNumber, hDigit⟩ := exists_digit_number index mark
  rw [hNumber, List.cons_append] at hAfter
  cases name with
  | nil =>
    rw [List.nil_append] at hAfter
    have hEnds := hName.ended digit (by rw [← hAfter]; rfl)
    simp only [endsName, Bool.or_eq_true, decide_eq_true_eq] at hEnds
    rcases hEnds with rfl | rfl <;> exact absurd hDigit (by decide)
  | cons c name =>
    obtain ⟨rfl, -⟩ := List.cons.inj hAfter
    intro hBlank
    have hFirst := hBlank digit List.mem_cons_self
    rw [isBlank_eq_false_of_isDigit hDigit] at hFirst
    cases hFirst

theorem placeholdersFrom_insertAfter_escape (count : Nat) (rest : List Char) :
    placeholdersFrom none (insertAfter (numbered count) ('\x7b' :: '\x7b' :: rest)) =
      placeholdersFrom none (insertAfter (numbered count) rest) := by
  have hInserted : insertAfter (numbered count) ('\x7b' :: '\x7b' :: rest) = _ :=
    insertAfter_openBrace count rest
  have hLetter : ∀ c ∈ if numbered count rest = true then ['f'] else [], c ≠ '\x7b' := by
    split <;> simp
  rw [hInserted]
  exact placeholdersFrom_unopened hLetter _

theorem NameBefore.placeholdersFrom_insertAfter {name tail : List Char} (h : NameBefore name tail)
    (count : Nat) :
    ∃ name', placeholdersFrom none (insertAfter (numbered count) ('\x7b' :: (name ++ tail))) =
        name' :: placeholdersFrom none (insertAfter (numbered count) tail) ∧
      ((∀ c ∈ name', isBlank c = true) ↔ ∀ c ∈ name, isBlank c = true) := by
  obtain ⟨name', hInserted, hName', hBlank⟩ :=
    exists_insertAfter_name (numbered count) h.unended tail
  have hEnded := h.ended
  have hOpened := h.opened
  rw [← head?_insertAfter (numbered count)] at hEnded hOpened
  rw [hInserted] at hOpened
  rw [insertAfter, hInserted]
  split
  case isTrue hNumber =>
    -- The name was a number and begins with a letter now, so it is blank neither before nor after.
    have hNamed : NameBefore ('f' :: name') (insertAfter (numbered count) tail) :=
      ⟨List.forall_mem_cons.2 ⟨by decide, hName'⟩, hEnded, by simp⟩
    have hLetter : ¬∀ c ∈ 'f' :: name', isBlank c = true :=
      fun hAll => absurd (hAll 'f' List.mem_cons_self) (by decide)
    exact ⟨'f' :: name', placeholdersFrom_placeholder hNamed,
      iff_of_false hLetter (not_blank_of_numbered h hNumber.2)⟩
  case isFalse => exact ⟨name', placeholdersFrom_placeholder ⟨hName', hEnded, hOpened⟩, hBlank⟩

theorem implicit_insertAfter_iff {count : Nat} {cs : List Char} :
    Implicit (insertAfter (numbered count) cs) ↔ Implicit cs := by
  rw [implicit_iff, implicit_iff]
  induction cs using textInduction with
  | nil => rfl
  | literal c rest hLiteral ih =>
    rw [insertAfter_cons_of_ne hLiteral, placeholdersFrom_literal hLiteral,
      placeholdersFrom_literal hLiteral, ih]
  | escape rest ih =>
    rw [placeholdersFrom_insertAfter_escape, ih]
    rfl
  | placeholder name tail hName ih =>
    obtain ⟨name', hInserted, hBlank⟩ := hName.placeholdersFrom_insertAfter count
    rw [hInserted, placeholdersFrom_placeholder hName, List.exists_mem_cons_iff,
      List.exists_mem_cons_iff, hBlank, ih]

theorem implicit_forTuple_iff (count : Nat) {message : String} :
    Implicit (forTuple count message).toList ↔ Implicit message.toList := by
  rw [forTuple, String.toList_ofList, nameFields_eq, implicit_insertAfter_iff]

end Message

end TapeMachine.ErrorDerive
