import TapeMachine.Proofs.Assembly.Layout
import TapeMachine.Proofs.Assembly.Resolution

/-! Two sources one after the other.  A line that gives an instruction with some labels gives it
with more labels too, and with labels that stand further on it gives the same instruction with its
positions moved (`instruction_shifts`).  So the second source is relocated behind the first, and
labels at the end of the first now stand for the start of the second. -/

namespace TapeMachine.Assembly

open Source Outcome

/-- An operand at a place of the given role after all positions have moved on by `n`. -/
structure Shifted (n : Nat) (role : Role) (old new : Operand) : Prop where
  label : role = .label →
    new.isReference = old.isReference ∧ new.payload.toInt = old.payload.toInt + n
  other : role ≠ .label → new = old

/-- The same instruction with every position in it moved on by `n`. -/
structure Relocated (n : Nat) (old new : Instruction) : Prop where
  opcode : new.opcode = old.opcode
  operands : List.Forall₂ (fun slot operand => Shifted n slot.1 slot.2 operand)
    (old.opcode.roles.zip old.operands) new.operands

/-- The second table has every name of the first, at a position greater by `n` that an operand can
write. -/
structure Shifts (n : Nat) (labels labels' : LabelTable) : Prop where
  get? : ∀ name position, labels.get? name = some position →
    labels'.get? name = some (position + n)
  fits : ∀ name position, labels.get? name = some position → position + n < 0x8000000000000000

theorem shifted_of_ne {n : Nat} {role : Role} (h : role ≠ .label) (o : Operand) :
    Shifted n role o o :=
  ⟨fun hLabel => absurd hLabel h, fun _ => rfl⟩

theorem Shifted.eq_of_zero {role : Role} {old new : Operand} (h : Shifted 0 role old new) :
    old = new := by
  by_cases hRole : role = .label
  · obtain ⟨hReference, hPayload⟩ := h.label hRole
    obtain ⟨payload, isReference⟩ := old
    obtain ⟨payload', isReference'⟩ := new
    simp only [Int.natCast_zero, Int.add_zero, Int64.toInt_inj] at hReference hPayload
    rw [hReference, hPayload]
  · exact (h.other hRole).symm

theorem Relocated.eq_of_zero {old new : Instruction} (h : Relocated 0 old new) : old = new := by
  refine Instruction.eq_of_operands h.opcode.symm ?_
  have hSame := h.operands.imp fun _ _ hSlot => hSlot.eq_of_zero
  have hLength : old.operands.length ≤ old.opcode.roles.length :=
    Nat.le_of_eq old.operands_length
  rw [← List.forall₂_map_left_iff, List.map_snd_zip hLength, List.forall₂_eq_eq_eq] at hSame
  exact hSame

section Shifts

variable {n : Nat} {labels labels' : LabelTable} {line : Line}

theorem operand_shifts (h : Shifts n labels labels') {op : Opcode} {place : Nat} {role : Role}
    {token : String} {old : Operand} (hOld : operand labels op place role token = .ok old) :
    ∃ new, operand labels' op place role token = .ok new ∧ Shifted n role old new ∧
      role.violation? new = none := by
  cases role with
  | label =>
    obtain ⟨hReference, position, hPosition, rfl⟩ := operand_label_eq_ok_iff.1 hOld
    have hFits : position + n < 0x8000000000000000 := h.fits _ _ hPosition
    have hValue : (Int64.ofNat position).toInt = position :=
      Int64.toInt_ofNat_of_lt (by omega)
    have hMoved : (Int64.ofNat (position + n)).toInt = (position + n : Nat) :=
      Int64.toInt_ofNat_of_lt hFits
    refine ⟨.direct (Int64.ofNat (position + n)),
      operand_label_eq_ok_iff.2 ⟨hReference, _, h.get? _ _ hPosition, rfl⟩,
      ⟨fun _ => ⟨rfl, ?_⟩, ?_⟩, Role.label_violation?_eq_none_iff.2 ⟨rfl, ?_⟩⟩
    · simp only [Operand.direct, hValue, hMoved]
      omega
    · exact fun hOther => absurd rfl hOther
    · simp only [Operand.direct, Int64.lt_iff_toInt_lt, hMoved, Int64.toInt_zero]
      omega
  | address =>
    have hNew : operand labels' op place .address token = .ok old :=
      operand_address_eq_ok_iff.2 (operand_address_eq_ok_iff.1 hOld)
    exact ⟨old, hNew, shifted_of_ne (by decide) old, rfl⟩
  | value =>
    have hNew : operand labels' op place .value token = .ok old :=
      operand_value_eq_ok_iff.2 (operand_value_eq_ok_iff.1 hOld)
    obtain ⟨-, payload, -, rfl⟩ := operand_value_eq_ok_iff.1 hOld
    exact ⟨_, hNew, shifted_of_ne (by decide) _, rfl⟩

theorem operandsFrom_shifts (h : Shifts n labels labels') {op : Opcode} {place : Nat}
    {tokens : List Token} {roles : List Role} {old : List Operand}
    (hOld : operandsFrom labels line op place tokens roles = .ok old) :
    ∃ new, operandsFrom labels' line op place tokens roles = .ok new ∧
      List.Forall₂ (fun slot operand => Shifted n slot.1 slot.2 operand) (roles.zip old) new ∧
      ∀ slot ∈ roles.zip new, slot.1.violation? slot.2 = none := by
  induction tokens generalizing place roles old with
  | nil =>
    cases hOld
    exact ⟨[], rfl, by simp, by simp⟩
  | cons token tokens ih =>
    cases roles with
    | nil =>
      cases hOld
      exact ⟨[], rfl, .nil, by simp⟩
    | cons role roles =>
      obtain ⟨first, hFirst, hOthers⟩ := bind_eq_ok_iff.1 hOld
      obtain ⟨rest, hRest, ⟨⟩⟩ := bind_eq_ok_iff.1 hOthers
      obtain ⟨first', hFirst', hShifted, hFit⟩ := operand_shifts h (mapError_eq_ok_iff.1 hFirst)
      obtain ⟨rest', hRest', hAll, hFits⟩ := ih hRest
      refine ⟨first' :: rest', ?_, .cons hShifted hAll, List.forall_mem_cons.2 ⟨hFit, hFits⟩⟩
      rw [operandsFrom]
      exact bind_eq_ok_iff.2 ⟨first', mapError_eq_ok_iff.2 hFirst',
        bind_eq_ok_iff.2 ⟨rest', hRest', rfl⟩⟩

theorem instruction_shifts (h : Shifts n labels labels') {code : Code} {i : Instruction}
    (hi : instruction labels line code = .ok i) :
    ∃ j, instruction labels' line code = .ok j ∧ Relocated n i j := by
  obtain ⟨hOpcode, hLength, hOperands⟩ := instruction_eq_ok_iff.1 hi
  obtain ⟨operands, hNew, hShifted, hFit⟩ := operandsFrom_shifts h hOperands
  have hArity : operands.length = i.opcode.arity := by
    have hZip := hShifted.length_eq
    rw [List.length_zip, i.operands_length, Opcode.arity, Nat.min_self] at hZip
    exact hZip.symm
  obtain ⟨j, hj, rfl⟩ := Instruction.exists_of_fit hArity hFit
  refine ⟨j, instruction_eq_ok_iff.2 ?_, hj, hShifted⟩
  rw [hj]
  exact ⟨hOpcode, hLength, hNew⟩

/-- The lines of a source give their instructions relocated. -/
theorem instructions_shift (h : Shifts n labels labels') {entries : List (Line × Code)}
    {is : List Instruction}
    (hi : List.Forall₂ (fun entry i => instruction labels entry.1 entry.2 = .ok i) entries is) :
    ∃ js, List.Forall₂ (fun entry j => instruction labels' entry.1 entry.2 = .ok j) entries js ∧
      List.Forall₂ (Relocated n) is js := by
  induction hi with
  | nil => exact ⟨[], .nil, .nil⟩
  | cons hFirst _ ih =>
    obtain ⟨j, hj, hRelocated⟩ := instruction_shifts h hFirst
    obtain ⟨js, hjs, hAll⟩ := ih
    exact ⟨j :: js, .cons hj hjs, .cons hRelocated hAll⟩

end Shifts

/-! ### Tables and lines one after the other -/

theorem get?_definitionsFrom_add (position n : Nat) (name : String) (lines : List Line) :
    (definitionsFrom (position + n) lines).get? name =
      ((definitionsFrom position lines).get? name).map (· + n) := by
  induction lines generalizing position with
  | nil => simp [definitionsFrom]
  | cons line lines ih =>
    rw [get?_definitionsFrom_cons, get?_definitionsFrom_cons, Nat.add_right_comm, ih]
    split <;> rfl

/-- Lines that define no label twice give the instructions on them. -/
theorem checkLines_of_distinct {labels : LabelTable} {earlier lines : List Line}
    (h : redefinitionFrom? earlier lines = none) :
    checkLines labels earlier lines = instructions labels (codeLines lines) := by
  induction lines generalizing earlier with
  | nil => rfl
  | cons line lines ih =>
    rw [redefinitionFrom?, Option.or_eq_none_iff] at h
    rw [checkLines, ih h.2, codeLines_cons, instructions_append, checkLine_eq_instructions h.1]
    cases checkLine labels earlier line <;> rfl

theorem assembleLines_eq_ok {lines : List Line} {is : List Instruction}
    (hDistinct : redefinitionFrom? [] lines = none)
    (hCode : List.Forall₂ (fun entry i => instruction (definitionsFrom 0 lines) entry.1 entry.2 =
      .ok i) (codeLines lines) is) :
    assembleLines lines = .ok ⟨is, definitionsFrom 0 lines⟩ := by
  rw [assembleLines, checkLines_of_distinct hDistinct, instructions, mapM_eq_ok_iff.2 hCode]
  rfl

section Append

variable {a b : String} {p q : Program}

theorem get?_definitionsFrom_both (hA : assemble a = .ok p) (hB : assemble b = .ok q)
    (name : String) :
    (definitionsFrom 0 (numberedLines a ++ numberedLines b)).get? name =
      (p.labels.get? name).or ((q.labels.get? name).map (· + p.length)) := by
  obtain ⟨-, hLabelsA, -⟩ := assemble_eq_ok_iff.1 hA
  obtain ⟨-, hLabelsB, -⟩ := assemble_eq_ok_iff.1 hB
  rw [get?_definitionsFrom_append, get?_definitionsFrom_add, ← hLabelsA, ← hLabelsB,
    length_of_assemble hA]

theorem get?_eq_none_of_disjoint (hA : assemble a = .ok p) (hB : assemble b = .ok q)
    (hDisjoint : (labelNames (numberedLines a)).Disjoint (labelNames (numberedLines b)))
    {name : String} {position : Nat} (h : q.labels.get? name = some position) :
    p.labels.get? name = none := by
  obtain ⟨-, hLabelsA, -⟩ := assemble_eq_ok_iff.1 hA
  obtain ⟨-, hLabelsB, -⟩ := assemble_eq_ok_iff.1 hB
  rw [hLabelsA, get?_definitionsFrom_eq_none_iff]
  intro hFirst
  have hSecond : name ∉ labelNames (numberedLines b) := fun hName => hDisjoint hFirst hName
  rw [hLabelsB, (get?_definitionsFrom_eq_none_iff 0 name _).2 hSecond] at h
  cases h

theorem redefinitionFrom?_both (hA : assemble a = .ok p) (hB : assemble b = .ok q)
    (hDisjoint : (labelNames (numberedLines a)).Disjoint (labelNames (numberedLines b))) :
    redefinitionFrom? [] (numberedLines a ++ numberedLines b) = none := by
  obtain ⟨hOnceA, -, -⟩ := assemble_eq_ok_iff.1 hA
  obtain ⟨hOnceB, -, -⟩ := assemble_eq_ok_iff.1 hB
  rw [redefinitionFrom?_eq_none_iff] at hOnceA hOnceB ⊢
  refine ⟨?_, fun name _ => List.not_mem_nil⟩
  rw [labelNames_append]
  refine List.nodup_append.2 ⟨hOnceA.1, hOnceB.1, fun name hFirst other hSecond => ?_⟩
  rintro rfl
  exact hDisjoint hFirst hSecond

theorem shifts_first (hA : assemble a = .ok p) (hB : assemble b = .ok q)
    (hSize : p.length + q.length < 0x8000000000000000) :
    Shifts 0 p.labels (definitionsFrom 0 (numberedLines a ++ numberedLines b)) := by
  refine ⟨fun name position hName => ?_, fun name position hName => ?_⟩
  · rw [get?_definitionsFrom_both hA hB, hName]
    rfl
  · have hLe := position_le_length hA hName
    omega

theorem shifts_second (hA : assemble a = .ok p) (hB : assemble b = .ok q)
    (hDisjoint : (labelNames (numberedLines a)).Disjoint (labelNames (numberedLines b)))
    (hSize : p.length + q.length < 0x8000000000000000) :
    Shifts p.length q.labels (definitionsFrom 0 (numberedLines a ++ numberedLines b)) := by
  refine ⟨fun name position hName => ?_, fun name position hName => ?_⟩
  · rw [get?_definitionsFrom_both hA hB, get?_eq_none_of_disjoint hA hB hDisjoint hName, hName]
    rfl
  · have hLe := position_le_length hB hName
    omega

/-- The lines of the first source and then those of the second have the words of both together. -/
theorem words_spokenLines_append (a b : String) :
    (spokenLines (numberedLines a ++ numberedLines b)).map Line.words =
      (spokenLines (numberedLines (a ++ "\n" ++ b))).map Line.words := by
  rw [words_spokenLines, tokenLines_append, spokenLines, List.filter_append, List.map_append,
    ← words_spokenLines, ← words_spokenLines, spokenLines, spokenLines]

/-- Two sources that assemble and define different labels assemble one after the other: to the
instructions of the first and then those of the second with their positions moved on by the length
of the first, and to the labels of both, those of the second moved on as well. -/
theorem assemble_append (hA : assemble a = .ok p) (hB : assemble b = .ok q)
    (hDisjoint : (labelNames (numberedLines a)).Disjoint (labelNames (numberedLines b)))
    (hSize : p.length + q.length < 0x8000000000000000) :
    ∃ moved table, assemble (a ++ "\n" ++ b) = .ok ⟨p.instructions ++ moved, table⟩ ∧
      List.Forall₂ (Relocated p.length) q.instructions moved ∧
      ∀ name, table.get? name =
        (p.labels.get? name).or ((q.labels.get? name).map (· + p.length)) := by
  obtain ⟨-, -, hCodeA⟩ := assemble_eq_ok_iff.1 hA
  obtain ⟨-, -, hCodeB⟩ := assemble_eq_ok_iff.1 hB
  obtain ⟨same, hSame, hUnmoved⟩ := instructions_shift (shifts_first hA hB hSize) hCodeA
  obtain ⟨moved, hMoved, hRelocated⟩ :=
    instructions_shift (shifts_second hA hB hDisjoint hSize) hCodeB
  -- The first source finds its own labels where it found them alone, so nothing in it has moved.
  obtain rfl : p.instructions = same := by
    rw [← List.forall₂_eq_eq_eq]
    exact hUnmoved.imp fun _ _ h => h.eq_of_zero
  have hTogether : assembleLines (numberedLines a ++ numberedLines b) =
      .ok ⟨p.instructions ++ moved, definitionsFrom 0 (numberedLines a ++ numberedLines b)⟩ := by
    have hAll := List.rel_append hSame hMoved
    rw [assembleLines, checkLines_of_distinct (redefinitionFrom?_both hA hB hDisjoint),
      codeLines_append, instructions, mapM_eq_ok_iff.2 hAll]
    rfl
  refine ⟨moved, _, ?_, hRelocated, get?_definitionsFrom_both hA hB⟩
  rw [assemble_eq_assembleLines]
  exact (assembleLines_agree (words_spokenLines_append a b)).eq_ok hTogether

end Append

/-- A source that jumps to a label at its end. -/
def opening : String :=
  "JMP end\r\nOUT 0\nend:\r"

/-- A source that jumps back to its start and forward to its end. -/
def closing : String :=
  "again: JLT 0 '1' done\nJMP again\ndone:"

theorem assemble_append_opening_closing :
    ∃ p q : Program, assemble opening = .ok p ∧ assemble closing = .ok q ∧
      (labelNames (numberedLines opening)).Disjoint (labelNames (numberedLines closing)) ∧
      p.length + q.length < 0x8000000000000000 ∧
      p.labels.get? "end" = some 2 ∧ q.labels.get? "done" = some 2 ∧
      ∃ moved table, assemble (opening ++ "\n" ++ closing) = .ok ⟨p.instructions ++ moved, table⟩ ∧
        List.Forall₂ (Relocated p.length) q.instructions moved ∧
        ∀ name, table.get? name =
          (p.labels.get? name).or ((q.labels.get? name).map (· + p.length)) := by
  have hOpening : assemble opening =
      .ok ⟨[.jump (.ofPayload 2), .output (.direct 0)], .ofList [("end", 2)]⟩ := by decide +kernel
  have hClosing : assemble closing =
      .ok ⟨[.branch .less (.direct 0) (.direct 1) (.ofPayload 2), .jump (.ofPayload 0)],
        .ofList [("again", 0), ("done", 2)]⟩ := by decide +kernel
  have hNames : labelNames (numberedLines opening) = ["end"] ∧
      labelNames (numberedLines closing) = ["again", "done"] := by decide +kernel
  have hDisjoint :
      (labelNames (numberedLines opening)).Disjoint (labelNames (numberedLines closing)) := by
    rw [hNames.1, hNames.2]
    simp
  exact ⟨_, _, hOpening, hClosing, hDisjoint, by decide, by decide, by decide,
    assemble_append hOpening hClosing hDisjoint (by decide)⟩

end TapeMachine.Assembly
