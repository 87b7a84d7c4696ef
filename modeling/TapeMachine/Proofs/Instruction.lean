import TapeMachine.Instruction
import TapeMachine.Proofs.Outcome

/-! Building an instruction and taking it apart.  `build_eq_ok_iff` says that `build` accepts a list
of operands exactly when it is the list of operands of an instruction with that opcode, and gives
that instruction.  The positions to which instructions go are the operands at the places for labels
(`target?_slot`, `slot_cases`). -/

namespace TapeMachine

namespace Position

theorem toInt_payload (p : Position) : p.payload.toInt = p.val :=
  Int64.toInt_ofNat_of_lt p.isLt

theorem payload_not_neg (p : Position) : ¬p.payload < 0 := by
  have hSign : ¬(p.val : Int) < 0 := by omega
  rw [Int64.lt_iff_toInt_lt, toInt_payload]
  exact hSign

@[simp] theorem ofPayload_payload (p : Position) : ofPayload p.payload = p := by
  apply Fin.ext
  simp only [ofPayload, toInt_payload, Int.toNat_natCast]

theorem payload_ofPayload {payload : Int64} (h : ¬payload < 0) :
    (ofPayload payload).payload = payload := by
  apply Int64.toInt_inj.1
  have hSign : 0 ≤ payload.toInt := by
    rw [Int64.lt_iff_toInt_lt] at h
    simpa using h
  rw [toInt_payload]
  simp only [ofPayload]
  omega

end Position

theorem Role.label_violation?_eq_none_iff {operand : Operand} :
    Role.label.violation? operand = none ↔
      operand.isReference = false ∧ ¬operand.payload < 0 := by
  cases hReference : operand.isReference <;> by_cases hSign : operand.payload < 0 <;>
    simp only [violation?, hReference, hSign, if_true, if_false, reduceCtorEq, Bool.false_eq_true,
      not_true_eq_false, not_false_eq_true, and_self, and_true, and_false]

namespace Instruction

variable {op : Opcode} {place : Nat} {operand : Operand}

/-- A literal is accepted when it is no reference. -/
theorem literal_eq_ok_iff {value : Int64} :
    literal op place operand = .ok value ↔ operand = .direct value := by
  obtain ⟨payload, isReference⟩ := operand
  cases isReference <;> simp [literal, Role.violation?, Operand.direct]

/-- A position is accepted when it is no reference and not negative. -/
theorem position_eq_ok_iff {target : Position} :
    position op place operand = .ok target ↔ operand = .direct target.payload := by
  obtain ⟨payload, isReference⟩ := operand
  cases isReference with
  | true => simp [position, Role.violation?, Operand.direct]
  | false =>
    by_cases hSign : payload < 0
    · have hOther : payload ≠ target.payload := by
        rintro rfl
        exact target.payload_not_neg hSign
      simp [position, Role.violation?, Operand.direct, hSign, hOther]
    · simp only [position, Role.violation?, Operand.direct, hSign, if_false, Bool.false_eq_true,
        Except.ok.injEq, Operand.mk.injEq, and_true]
      constructor
      · rintro rfl
        exact (Position.payload_ofPayload hSign).symm
      · rintro rfl
        exact Position.ofPayload_payload target

/-- The number of operands is the one that the opcode asks for. -/
theorem operands_length (i : Instruction) : i.operands.length = i.opcode.arity := by
  cases i <;> rfl

/-- The position that an instruction may go to. -/
def target? : Instruction → Option Position
  | jump target | branch _ _ _ target | call target => some target
  | set _ _ | mov _ _ | time _ | input _ | output _ | arithmetic _ _ _ _ | ret | term => none

theorem target?_slot {i : Instruction} {target : Position}
    (h : i.target? = some target) :
    ∃ k : Nat, i.opcode.roles[k]? = some Role.label ∧
      i.operands[k]? = some (Operand.direct target.payload) := by
  cases i with
  | jump _ | call _ =>
    cases h
    exact ⟨0, rfl, rfl⟩
  | branch _ _ _ _ =>
    cases h
    exact ⟨2, rfl, rfl⟩
  | _ => cases h

/-- What stands at a place: any operand for an address, a direct one for a literal, and for a label
the position that the instruction may go to. -/
theorem slot_cases {i : Instruction} {slot : Role × Operand}
    (h : slot ∈ i.opcode.roles.zip i.operands) :
    slot.1 = .address ∨ slot.1 = .value ∧ slot.2.isReference = false ∨
      ∃ target, i.target? = some target ∧ slot = (.label, .direct target.payload) := by
  cases i with
  | jump target | call target =>
    exact .inr (.inr ⟨target, rfl, List.mem_singleton.1 h⟩)
  | branch condition a b target =>
    simp only [opcode, operands, Opcode.roles, List.zip_cons_cons, List.zip_nil_right,
      List.mem_cons, List.not_mem_nil, or_false] at h
    rcases h with rfl | rfl | rfl
    · exact .inl rfl
    · exact .inl rfl
    · exact .inr (.inr ⟨target, rfl, rfl⟩)
  | set value dst =>
    simp only [opcode, operands, Opcode.roles, List.zip_cons_cons, List.zip_nil_right,
      List.mem_cons, List.not_mem_nil, or_false] at h
    rcases h with rfl | rfl
    · exact .inr (.inl ⟨rfl, rfl⟩)
    · exact .inl rfl
  | ret | term => exact absurd h List.not_mem_nil
  | _ =>
    simp only [opcode, operands, Opcode.roles, List.zip_cons_cons, List.zip_nil_right,
      List.mem_cons, List.not_mem_nil, or_false] at h
    rcases h with rfl | rfl | rfl <;> exact .inl rfl

/-- Every operand of an instruction is fit for its role. -/
theorem violation?_eq_none {i : Instruction} {slot : Role × Operand}
    (h : slot ∈ i.opcode.roles.zip i.operands) : slot.1.violation? slot.2 = none := by
  rcases slot_cases h with hRole | ⟨hRole, hDirect⟩ | ⟨target, -, rfl⟩
  · rw [hRole]
    rfl
  · simp [hRole, Role.violation?, hDirect]
  · exact Role.label_violation?_eq_none_iff.2 ⟨rfl, target.payload_not_neg⟩

/-- Taking an instruction apart and building it again gives it back. -/
@[simp] theorem build_opcode_operands (i : Instruction) : build i.opcode i.operands = .ok i := by
  cases i with
  | set value dst => simp [opcode, operands, build, literal_eq_ok_iff.2 rfl, Except.map]
  | jump target => simp [opcode, operands, build, position_eq_ok_iff.2 rfl, Except.map]
  | branch condition a b target =>
    simp [opcode, operands, build, position_eq_ok_iff.2 rfl, Except.map]
  | call target => simp [opcode, operands, build, position_eq_ok_iff.2 rfl, Except.map]
  | _ => rfl

/-- `build` accepts the operands of an instruction and nothing else. -/
theorem build_eq_ok_iff {operands : List Operand} {i : Instruction} :
    build op operands = .ok i ↔ i.opcode = op ∧ i.operands = operands := by
  constructor
  · intro h
    unfold build at h
    split at h
    case h_1 =>
      obtain ⟨value, hValue, rfl⟩ := Outcome.map_eq_ok_iff.1 h
      rw [literal_eq_ok_iff.1 hValue]
      exact ⟨rfl, rfl⟩
    case h_7 | h_8 | h_9 =>
      obtain ⟨target, hTarget, rfl⟩ := Outcome.map_eq_ok_iff.1 h
      rw [position_eq_ok_iff.1 hTarget]
      exact ⟨rfl, rfl⟩
    case h_12 => cases h
    all_goals
      cases h
      exact ⟨rfl, rfl⟩
  · rintro ⟨rfl, rfl⟩
    exact build_opcode_operands i

/-- A right number of operands that are all fit for their roles makes an instruction. -/
theorem exists_of_fit {operands : List Operand} (hLength : operands.length = op.arity)
    (hFit : ∀ slot ∈ op.roles.zip operands, slot.1.violation? slot.2 = none) :
    ∃ i : Instruction, i.opcode = op ∧ i.operands = operands := by
  have hLabel {operand : Operand} (h : Role.label.violation? operand = none) :
      ∃ target : Position, operand = .direct target.payload := by
    obtain ⟨hReference, hSign⟩ := Role.label_violation?_eq_none_iff.1 h
    refine ⟨.ofPayload operand.payload, ?_⟩
    rw [Position.payload_ofPayload hSign, Operand.direct, ← hReference]
  cases op with
  | set =>
    obtain ⟨value, dst, rfl⟩ := List.length_eq_two.1 hLength
    have hValue : value.isReference = false := by
      simpa [Role.violation?] using hFit (.value, value) List.mem_cons_self
    refine ⟨.set value.payload dst, rfl, ?_⟩
    rw [operands, Operand.direct, ← hValue]
  | mov =>
    obtain ⟨src, dst, rfl⟩ := List.length_eq_two.1 hLength
    exact ⟨.mov src dst, rfl, rfl⟩
  | time =>
    obtain ⟨dst, rfl⟩ := List.length_eq_one_iff.1 hLength
    exact ⟨.time dst, rfl, rfl⟩
  | input =>
    obtain ⟨dst, rfl⟩ := List.length_eq_one_iff.1 hLength
    exact ⟨.input dst, rfl, rfl⟩
  | output =>
    obtain ⟨src, rfl⟩ := List.length_eq_one_iff.1 hLength
    exact ⟨.output src, rfl, rfl⟩
  | arithmetic operation =>
    obtain ⟨a, b, dst, rfl⟩ := List.length_eq_three.1 hLength
    exact ⟨.arithmetic operation a b dst, rfl, rfl⟩
  | jump =>
    obtain ⟨operand, rfl⟩ := List.length_eq_one_iff.1 hLength
    obtain ⟨target, rfl⟩ := hLabel (hFit (.label, operand) List.mem_cons_self)
    exact ⟨.jump target, rfl, rfl⟩
  | branch condition =>
    obtain ⟨a, b, operand, rfl⟩ := List.length_eq_three.1 hLength
    obtain ⟨target, rfl⟩ := hLabel (hFit (.label, operand) (by simp [Opcode.roles]))
    exact ⟨.branch condition a b target, rfl, rfl⟩
  | call =>
    obtain ⟨operand, rfl⟩ := List.length_eq_one_iff.1 hLength
    obtain ⟨target, rfl⟩ := hLabel (hFit (.label, operand) List.mem_cons_self)
    exact ⟨.call target, rfl, rfl⟩
  | ret =>
    obtain rfl := List.length_eq_zero_iff.1 hLength
    exact ⟨.ret, rfl, rfl⟩
  | term =>
    obtain rfl := List.length_eq_zero_iff.1 hLength
    exact ⟨.term, rfl, rfl⟩

theorem eq_of_operands {i j : Instruction} (hOpcode : i.opcode = j.opcode)
    (hOperands : i.operands = j.operands) : i = j := by
  have hBuild := i.build_opcode_operands
  rw [hOpcode, hOperands, build_opcode_operands] at hBuild
  exact (Except.ok.inj hBuild).symm

end Instruction

end TapeMachine
