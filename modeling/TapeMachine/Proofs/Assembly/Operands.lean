import TapeMachine.Assembly
import TapeMachine.Proofs.Instruction

/-! When the assembler accepts an operand and an instruction: one statement for each role of an
operand, one for the operands of a line, and `instruction_eq_ok_iff` for the line. -/

namespace TapeMachine

/-- A token that does not start with `&` loses at most its quotes. -/
theorem Operand.spelling_body {token : String} (h : (Operand.spelling token).isReference = false) :
    (Operand.spelling token).body = String.ofList (Operand.unquote token.toList) := by
  unfold Operand.spelling at h ⊢
  split
  case h_1 hToken => simp [hToken] at h
  case h_2 => rfl

/-- A token that an operand writes as it stands: no mark before it and no pair of quotes around
it. -/
structure Operand.IsBare (token : String) : Prop where
  unmarked : ∀ rest, token ≠ "&" ++ rest
  unquoted : ∀ inner, token ≠ "'" ++ inner ++ "'"

theorem Operand.isBare_iff {token : String} :
    Operand.IsBare token ↔ Operand.spelling token = ⟨token, false⟩ := by
  constructor
  · intro h
    unfold Operand.spelling Operand.unquote
    split
    case h_1 rest hToken =>
      refine absurd ?_ (h.unmarked (String.ofList rest))
      apply String.toList_inj.1
      simp [hToken]
    case h_2 =>
      split
      case h_2 => rw [String.ofList_toList]
      case h_1 rest hToken =>
        split
        case isFalse => rw [String.ofList_toList]
        case isTrue hLast =>
          obtain ⟨inner, rfl⟩ := List.getLast?_eq_some_iff.1 hLast
          refine absurd ?_ (h.unquoted (String.ofList inner))
          apply String.toList_inj.1
          simp [hToken]
  · intro h
    constructor
    · rintro rest rfl
      simp [Operand.spelling] at h
    · rintro inner rfl
      have hQuote : "'".length = 1 := rfl
      have hLength := congrArg (fun spelling => spelling.body.length) h
      simp [Operand.spelling, Operand.unquote] at hLength
      omega

instance (token : String) : Decidable (Operand.IsBare token) :=
  decidable_of_iff _ Operand.isBare_iff.symm

namespace Assembly

open Source

section Roles

variable {labels : LabelTable} {op : Opcode} {place : Nat} {token : String} {value : Operand}

theorem operand_label_eq_ok_iff :
    operand labels op place .label token = .ok value ↔
      (Operand.spelling token).isReference = false ∧
        ∃ position, labels.get? (Operand.spelling token).body = some position ∧
          .direct (Int64.ofNat position) = value := by
  cases hReference : (Operand.spelling token).isReference with
  | true => simp [operand, hReference]
  | false =>
    cases hLabel : labels.get? (Operand.spelling token).body <;>
      simp [operand, hReference, hLabel]

theorem operand_address_eq_ok_iff :
    operand labels op place .address token = .ok value ↔
      ∃ payload, Numeral.int64? (Operand.spelling token).body = some payload ∧
        ⟨payload, (Operand.spelling token).isReference⟩ = value := by
  cases hPayload : Numeral.int64? (Operand.spelling token).body <;>
    simp [operand, hPayload, Role.violation?]

theorem operand_value_eq_ok_iff :
    operand labels op place .value token = .ok value ↔
      (Operand.spelling token).isReference = false ∧
        ∃ payload, Numeral.int64? (Operand.spelling token).body = some payload ∧
          .direct payload = value := by
  cases hPayload : Numeral.int64? (Operand.spelling token).body with
  | none => simp [operand, hPayload]
  | some payload =>
    cases hReference : (Operand.spelling token).isReference <;>
      simp [operand, hPayload, hReference, Role.violation?, Operand.direct]

end Roles

variable {labels : LabelTable} {line : Line}

/-- The operands of a line are accepted when each token is, at its place and role. -/
theorem operandsFrom_eq_ok_iff {op : Opcode} {place : Nat} {tokens : List Token}
    {roles : List Role} {operands : List Operand} :
    operandsFrom labels line op place tokens roles = .ok operands ↔
      List.Forall₂ (fun slot value => operand labels op slot.2 slot.1.2 slot.1.1.text = .ok value)
        ((tokens.zip roles).zipIdx place) operands := by
  induction tokens generalizing place roles operands with
  | nil => simp [operandsFrom, eq_comm]
  | cons token tokens ih =>
    cases roles with
    | nil => simp [operandsFrom, eq_comm]
    | cons role roles =>
      rw [operandsFrom, List.zip_cons_cons, List.zipIdx_cons, List.forall₂_cons_left_iff,
        Outcome.bind_eq_ok_iff]
      constructor
      · rintro ⟨first, hFirst, h⟩
        obtain ⟨rest, hRest, ⟨⟩⟩ := Outcome.bind_eq_ok_iff.1 h
        exact ⟨first, rest, Outcome.mapError_eq_ok_iff.1 hFirst, ih.1 hRest, rfl⟩
      · rintro ⟨first, rest, hFirst, hRest, rfl⟩
        exact ⟨first, Outcome.mapError_eq_ok_iff.2 hFirst,
          Outcome.bind_eq_ok_iff.2 ⟨rest, ih.2 hRest, rfl⟩⟩

/-- A line gives an instruction when its mnemonic means the opcode and its tokens write the
operands.  The check of `Instruction.build` adds nothing to this. -/
theorem instruction_eq_ok_iff {code : Code} {i : Instruction} :
    instruction labels line code = .ok i ↔
      Opcode.ofMnemonic? code.mnemonic.text = some i.opcode ∧
      code.operands.length = i.opcode.arity ∧
      operandsFrom labels line i.opcode 1 code.operands i.opcode.roles = .ok i.operands := by
  unfold instruction
  cases hOp : Opcode.ofMnemonic? code.mnemonic.text with
  | none => simp
  | some op =>
    by_cases hArity : code.operands.length = op.arity
    · simp only [hArity, ne_eq, not_true_eq_false, if_false, Outcome.bind_eq_ok_iff,
        Outcome.mapError_eq_ok_iff, Instruction.build_eq_ok_iff, Option.some.injEq]
      constructor
      · rintro ⟨operands, hOperands, rfl, rfl⟩
        exact ⟨rfl, rfl, hOperands⟩
      · rintro ⟨rfl, -, hOperands⟩
        exact ⟨i.operands, hOperands, rfl, rfl⟩
    · simp only [hArity, ne_eq, not_false_eq_true, if_true, reduceCtorEq, Option.some.injEq,
        false_iff, not_and]
      rintro rfl hLength
      exact absurd hLength hArity

end Assembly

end TapeMachine
