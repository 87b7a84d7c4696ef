import Mathlib.Data.List.Induction
import TapeMachine.Proofs.Assembly.Resolution

/-! The grammar of operand tokens.  A numeral is digits after at most one sign; an operand token is
a numeral, one in quotes or one after a mark, or else the name of a label, in quotes or not.
`Denotes` says for every role and token which operand or rejection it stands for, and
`operand_eq_iff_denotes` that the assembler finds exactly that. -/

namespace TapeMachine

namespace Numeral

/-- Decimal digits, the last of them worth its own value and those before it ten times theirs. -/
inductive Digits : List Char → Nat → Prop
  | one {d : Char} (h : isDigit d = true) : Digits [d] (d.toNat - '0'.toNat)
  | more {ds : List Char} {n : Nat} {d : Char} (before : Digits ds n) (h : isDigit d = true) :
      Digits (ds ++ [d]) (10 * n + (d.toNat - '0'.toNat))

/-- Decimal digits after at most one sign. -/
inductive Signed : List Char → Int → Prop
  | plain {ds : List Char} {n : Nat} (h : Digits ds n) : Signed ds n
  | plus {ds : List Char} {n : Nat} (h : Digits ds n) : Signed ('+' :: ds) n
  | minus {ds : List Char} {n : Nat} (h : Digits ds n) : Signed ('-' :: ds) (-n)

theorem Digits.all {cs : List Char} {n : Nat} (h : Digits cs n) : ∀ c ∈ cs, isDigit c = true := by
  induction h with
  | one h => simpa using h
  | more _ h ih =>
    intro c hc
    rcases List.mem_append.1 hc with hBefore | hLast
    · exact ih c hBefore
    · rwa [List.mem_singleton.1 hLast]

theorem Digits.ne_nil {cs : List Char} {n : Nat} (h : Digits cs n) : cs ≠ [] := by
  cases h <;> simp

theorem Digits.value {cs : List Char} {n : Nat} (h : Digits cs n) :
    Nat.ofDigitChars 10 cs 0 = n := by
  induction h with
  | one h => simp [Nat.ofDigitChars]
  | more _ h ih => simp [Nat.ofDigitChars_append, ih, Nat.ofDigitChars_cons]

theorem Signed.head? {cs : List Char} {v : Int} (h : Signed cs v) :
    ∀ c ∈ cs.head?, c = '+' ∨ c = '-' ∨ isDigit c = true := by
  intro c hc
  cases h with
  | plain h => exact .inr (.inr (h.all c (List.mem_of_mem_head? hc)))
  | plus | minus =>
    cases hc
    decide

theorem digits_of_all {cs : List Char} (h : ∀ c ∈ cs, isDigit c = true) (hSome : cs ≠ []) :
    Digits cs (Nat.ofDigitChars 10 cs 0) := by
  induction cs using List.reverseRecOn with
  | nil => exact absurd rfl hSome
  | append_singleton ds d ih =>
    have hLast : isDigit d = true := h d (by simp)
    rw [Nat.ofDigitChars_append, Nat.ofDigitChars_cons, Nat.ofDigitChars_nil]
    cases ds with
    | nil =>
      rw [Nat.ofDigitChars_nil, Nat.mul_zero, Nat.zero_add]
      exact .one hLast
    | cons first rest =>
      exact .more (ih (fun c hc => h c (List.mem_append_left _ hc)) (by simp)) hLast

theorem digits?_eq_some_iff {cs : List Char} {n : Nat} : digits? cs = some n ↔ Digits cs n := by
  have hTest : (cs.isEmpty || !cs.all isDigit) = false ↔
      cs ≠ [] ∧ ∀ c ∈ cs, isDigit c = true := by simp
  unfold digits?
  constructor
  · intro h
    split at h
    case isTrue => cases h
    case isFalse hDigits =>
      obtain ⟨hSome, hAll⟩ := hTest.1 (eq_false_of_ne_true hDigits)
      cases h
      exact digits_of_all hAll hSome
  · intro h
    rw [hTest.2 ⟨h.ne_nil, h.all⟩, h.value]
    rfl

theorem signed?_eq_some_iff {cs : List Char} {v : Int} : signed? cs = some v ↔ Signed cs v := by
  constructor
  · intro h
    unfold signed? at h
    split at h
    case h_1 ds =>
      cases hDigits : digits? ds with
      | none => simp [hDigits] at h
      | some n =>
        obtain rfl : -(n : Int) = v := by simpa [hDigits] using h
        exact .minus (digits?_eq_some_iff.1 hDigits)
    case h_2 ds =>
      obtain ⟨n, hDigits, rfl⟩ := Option.map_eq_some_iff.1 h
      exact .plus (digits?_eq_some_iff.1 hDigits)
    case h_3 =>
      obtain ⟨n, hDigits, rfl⟩ := Option.map_eq_some_iff.1 h
      exact .plain (digits?_eq_some_iff.1 hDigits)
  · rintro (h | h | h)
    case plain =>
      rw [signed?, digits?_eq_some_iff.2 h]
      · rfl
      · rintro ds rfl
        exact absurd (h.all '-' List.mem_cons_self) (by decide)
      · rintro ds rfl
        exact absurd (h.all '+' List.mem_cons_self) (by decide)
    case plus | minus =>
      rw [signed?, digits?_eq_some_iff.2 h]
      rfl

theorem int64?_eq_some_iff {s : String} {v : Int64} :
    int64? s = some v ↔ Signed s.toList v.toInt := by
  rw [int64?, Option.bind_eq_some_iff]
  constructor
  · rintro ⟨w, hSigned, hFits⟩
    split at hFits
    case isFalse => cases hFits
    case isTrue hRange =>
      cases hFits
      rw [Int64.toInt_ofInt_of_le hRange.1 (Int.lt_add_one_of_le hRange.2)]
      exact signed?_eq_some_iff.1 hSigned
  · intro h
    refine ⟨v.toInt, signed?_eq_some_iff.2 h, ?_⟩
    rw [if_pos ⟨v.minValue_le_toInt, v.toInt_le⟩, Int64.ofInt_toInt]

end Numeral

namespace Operand

/-! ### Tokens -/

theorem spelling_marked (rest : String) : spelling ("&" ++ rest) = ⟨rest, true⟩ := by
  simp [spelling]

theorem spelling_quoted (inner : String) : spelling ("'" ++ inner ++ "'") = ⟨inner, false⟩ := by
  simp [spelling, unquote]

/-- The tokens that write a number as an operand: a numeral, one in quotes, or one after `&`. -/
inductive Spells : String → Operand → Prop
  | plain {n : String} {v : Int64} (h : Numeral.Signed n.toList v.toInt) : Spells n (direct v)
  | quoted {n : String} {v : Int64} (h : Numeral.Signed n.toList v.toInt) :
      Spells ("'" ++ n ++ "'") (direct v)
  | marked {n : String} {v : Int64} (h : Numeral.Signed n.toList v.toInt) :
      Spells ("&" ++ n) (reference v)

/-- The name that a token without a mark writes: without a pair of quotes around it. -/
inductive Names : String → String → Prop
  | quoted (name : String) : Names ("'" ++ name ++ "'") name
  | bare {token : String} (h : ∀ name, token ≠ "'" ++ name ++ "'") : Names token token

theorem Names.spelling {token name : String} (h : Names token name)
    (hUnmarked : ∀ rest, token ≠ "&" ++ rest) : spelling token = ⟨name, false⟩ := by
  cases h with
  | quoted => exact spelling_quoted name
  | bare hBare => exact isBare_iff.1 ⟨hUnmarked, hBare⟩

theorem marked_or_names (token : String) :
    (∃ rest, token = "&" ++ rest) ∨ (∀ rest, token ≠ "&" ++ rest) ∧ ∃ name, Names token name := by
  by_cases hMarked : ∃ rest, token = "&" ++ rest
  · exact .inl hMarked
  · refine .inr ⟨not_exists.1 hMarked, ?_⟩
    by_cases hQuoted : ∃ name, token = "'" ++ name ++ "'"
    · obtain ⟨name, rfl⟩ := hQuoted
      exact ⟨name, .quoted name⟩
    · exact ⟨token, .bare (not_exists.1 hQuoted)⟩

/-- A numeral begins with a digit or a sign, so it has neither a mark nor quotes. -/
theorem isBare_of_signed {n : String} {v : Int} (h : Numeral.Signed n.toList v) : IsBare n := by
  constructor
  · rintro rest rfl
    exact absurd (h.head? '&' (by simp)) (by decide)
  · rintro inner rfl
    exact absurd (h.head? '\x27' (by simp)) (by decide)

theorem spells_iff {token : String} {operand : Operand} :
    Spells token operand ↔
      Numeral.int64? (spelling token).body = some operand.payload ∧
        (spelling token).isReference = operand.isReference := by
  constructor
  · rintro (h | h | h)
    case plain =>
      rw [isBare_iff.1 (isBare_of_signed h)]
      exact ⟨Numeral.int64?_eq_some_iff.2 h, rfl⟩
    case quoted =>
      rw [spelling_quoted]
      exact ⟨Numeral.int64?_eq_some_iff.2 h, rfl⟩
    case marked =>
      rw [spelling_marked]
      exact ⟨Numeral.int64?_eq_some_iff.2 h, rfl⟩
  · rintro ⟨hPayload, hReference⟩
    obtain ⟨payload, isReference⟩ := operand
    rcases marked_or_names token with ⟨rest, rfl⟩ | ⟨hUnmarked, name, hNames⟩
    · rw [spelling_marked] at hPayload hReference
      cases hReference
      exact .marked (Numeral.int64?_eq_some_iff.1 hPayload)
    · rw [hNames.spelling hUnmarked] at hPayload hReference
      cases hReference
      cases hNames with
      | quoted => exact .quoted (Numeral.int64?_eq_some_iff.1 hPayload)
      | bare => exact .plain (Numeral.int64?_eq_some_iff.1 hPayload)

theorem spells_none_iff {token : String} :
    (∀ operand, ¬Spells token operand) ↔ Numeral.int64? (spelling token).body = none := by
  rw [Option.eq_none_iff_forall_ne_some]
  constructor
  · intro h v hv
    exact h ⟨v, (spelling token).isReference⟩ (spells_iff.2 ⟨hv, rfl⟩)
  · intro h operand hSpells
    exact h _ (spells_iff.1 hSpells).1

end Operand

namespace Assembly

/-! ### Roles -/

/-- What a token stands for at a place of the given role: an address is a number or a reference, a
literal a number, and a label a position.  All else is rejected. -/
inductive Denotes (labels : LabelTable) (op : Opcode) (place : Nat) :
    Role → String → Except Rejection Operand → Prop
  | address {token : String} {value : Operand} (h : Operand.Spells token value) :
      Denotes labels op place .address token (.ok value)
  | literal {token : String} {v : Int64} (h : Operand.Spells token (.direct v)) :
      Denotes labels op place .value token (.ok (.direct v))
  | literalReference {token : String} {v : Int64} (h : Operand.Spells token (.reference v)) :
      Denotes labels op place .value token
        (.error (.invalidOperand op.mnemonic place token Violation.literalReference.reason))
  | nonNumeric {role : Role} {token : String} (hRole : role ≠ .label)
      (h : ∀ value, ¬Operand.Spells token value) :
      Denotes labels op place role token (.error (.nonNumericOperand op.mnemonic place token))
  | labelReference (rest : String) :
      Denotes labels op place .label ("&" ++ rest)
        (.error (.invalidOperand op.mnemonic place ("&" ++ rest) Violation.labelReference.reason))
  | label {token name : String} {position : Nat} {payload : Int64}
      (hUnmarked : ∀ rest, token ≠ "&" ++ rest) (hName : Operand.Names token name)
      (hPosition : labels.get? name = some position) (hPayload : payload.toInt = position) :
      Denotes labels op place .label token (.ok (.direct payload))
  | unknownLabel {token name : String} (hUnmarked : ∀ rest, token ≠ "&" ++ rest)
      (hName : Operand.Names token name) (hUnknown : labels.get? name = none) :
      Denotes labels op place .label token (.error (.unknownLabel name))

variable {labels : LabelTable} {op : Opcode} {place : Nat} {role : Role} {token : String}

theorem Denotes.operand_eq {outcome : Except Rejection Operand}
    (h : Denotes labels op place role token outcome) :
    operand labels op place role token = outcome := by
  cases h with
  | address h =>
    obtain ⟨hPayload, hReference⟩ := Operand.spells_iff.1 h
    exact operand_address_eq_ok_iff.2 ⟨_, hPayload, by rw [hReference]⟩
  | literal h =>
    obtain ⟨hPayload, hReference⟩ := Operand.spells_iff.1 h
    exact operand_value_eq_ok_iff.2 ⟨hReference, _, hPayload, rfl⟩
  | literalReference h =>
    obtain ⟨hPayload, hReference⟩ := Operand.spells_iff.1 h
    simp [operand, hPayload, hReference, Role.violation?, Operand.reference]
  | nonNumeric hRole h =>
    simp [operand, hRole, Operand.spells_none_iff.1 h]
  | labelReference rest => simp [operand, Operand.spelling_marked]
  | @label _ _ position payload hUnmarked hName hPosition hPayload =>
    have hSpelling := hName.spelling hUnmarked
    have hOfNat : Int64.ofNat position = payload := by
      rw [← Int64.ofInt_eq_ofNat, ← hPayload, Int64.ofInt_toInt]
    refine operand_label_eq_ok_iff.2 ⟨?_, position, ?_, ?_⟩
    · rw [hSpelling]
    · rw [hSpelling, hPosition]
    · rw [hOfNat]
  | unknownLabel hUnmarked hName hUnknown =>
    simp [operand, hName.spelling hUnmarked, hUnknown]

theorem exists_denotes_label (hLabels : Addressable labels) :
    ∃ outcome, Denotes labels op place .label token outcome := by
  rcases Operand.marked_or_names token with ⟨rest, rfl⟩ | ⟨hUnmarked, name, hName⟩
  · exact ⟨_, .labelReference rest⟩
  · cases hLabel : labels.get? name with
    | none => exact ⟨_, .unknownLabel hUnmarked hName hLabel⟩
    | some position =>
      have hPayload := Int64.toInt_ofNat_of_lt (hLabels name position hLabel)
      exact ⟨_, .label hUnmarked hName hLabel hPayload⟩

/-- Every token stands for an operand or a rejection. -/
theorem exists_denotes (hLabels : Addressable labels) :
    ∃ outcome, Denotes labels op place role token outcome := by
  by_cases hSpells : ∃ value, Operand.Spells token value
  · obtain ⟨⟨v, isReference⟩, h⟩ := hSpells
    cases role with
    | label => exact exists_denotes_label hLabels
    | address => exact ⟨_, .address h⟩
    | value =>
      cases isReference with
      | false => exact ⟨_, .literal h⟩
      | true => exact ⟨_, .literalReference h⟩
  · cases role with
    | label => exact exists_denotes_label hLabels
    | address | value => exact ⟨_, .nonNumeric (by decide) (not_exists.1 hSpells)⟩

/-- The assembler reads every operand token as the grammar says: which operand it is, or why it is
rejected. -/
theorem operand_eq_iff_denotes (hLabels : Addressable labels) (op : Opcode) (place : Nat)
    (role : Role) (token : String) (outcome : Except Rejection Operand) :
    operand labels op place role token = outcome ↔
      Denotes labels op place role token outcome := by
  constructor
  · rintro rfl
    obtain ⟨outcome, h⟩ := exists_denotes hLabels
    rw [h.operand_eq]
    exact h
  · exact Denotes.operand_eq

/-- A table with one label, whose name is a numeral. -/
def numberedLabel : LabelTable :=
  LabelTable.empty.insert "5" 3

theorem operand_eq_iff_denotes_oddTokens :
    Addressable numberedLabel ∧
    Denotes numberedLabel .jump 1 .label "'5'" (.ok (.direct 3)) ∧
    Denotes numberedLabel .jump 1 .label "''5''" (.error (.unknownLabel "'5'")) ∧
    Denotes numberedLabel .set 1 .value "'-0009223372036854775808'"
      (.ok (.direct Int64.minValue)) ∧
    Denotes numberedLabel .set 1 .value "9223372036854775808"
      (.error (.nonNumericOperand "SET" 1 "9223372036854775808")) ∧
    Denotes numberedLabel .set 2 .address "&+5" (.ok (.reference 5)) ∧
    Denotes numberedLabel .set 2 .address "&'5'" (.error (.nonNumericOperand "SET" 2 "&'5'")) := by
  have hLabels : Addressable numberedLabel := by
    intro name position h
    rw [numberedLabel, LabelTable.get?_insert] at h
    split at h
    · cases h
      decide
    · cases h
  have hReads := operand_eq_iff_denotes hLabels
  exact ⟨hLabels,
    (hReads _ _ _ _ _).1 (by decide +kernel), (hReads _ _ _ _ _).1 (by decide +kernel),
    (hReads _ _ _ _ _).1 (by decide +kernel), (hReads _ _ _ _ _).1 (by decide +kernel),
    (hReads _ _ _ _ _).1 (by decide +kernel), (hReads _ _ _ _ _).1 (by decide +kernel)⟩

end Assembly

end TapeMachine
