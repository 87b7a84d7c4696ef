import TapeMachine.Tape
import TapeMachine.Proofs.Outcome

/-! Tapes of different capacities.  `enlarge` adds unset cells; reads and writes at addresses of the
smaller tape do not see them.  `writeFrom` writes values one after another, and on a blank tape that
holds them all it gives the tape of these values (`writeFrom_blank`). -/

namespace TapeMachine.Tape

variable {α : Type}

/-- The address names a cell of the tape. -/
def InBounds (tape : Tape α) (address : Int64) : Prop :=
  0 ≤ address.toInt ∧ address.toInt.toNat < tape.capacity

section Index

variable {tape : Tape α} {address : Int64}

instance : Decidable (tape.InBounds address) :=
  inferInstanceAs (Decidable (_ ∧ _))

theorem index_of_inBounds (h : tape.InBounds address) :
    tape.index address = .ok ⟨address.toInt.toNat, h.2⟩ :=
  dif_pos h

theorem index_of_not_inBounds (h : ¬tape.InBounds address) :
    tape.index address = .error (.outOfBounds address tape.capacity) :=
  dif_neg h

theorem write_of_inBounds (h : tape.InBounds address) (value : α) :
    tape.write address value = .ok (tape.put address value) := by
  unfold write
  rw [index_of_inBounds h]
  rfl

theorem read_of_not_inBounds (h : ¬tape.InBounds address) :
    tape.read address = .error (.outOfBounds address tape.capacity) := by
  unfold read
  rw [index_of_not_inBounds h]

theorem get_of_inBounds (h : tape.InBounds address) :
    tape.get address = .ok (tape.cells[address.toInt.toNat]?).join := by
  unfold get
  rw [index_of_inBounds h, Array.getElem?_eq_getElem h.2]
  rfl

theorem get_of_not_inBounds (h : ¬tape.InBounds address) :
    tape.get address = .error (.outOfBounds address tape.capacity) := by
  unfold get
  rw [index_of_not_inBounds h]
  rfl

theorem read_eq (tape : Tape α) (address : Int64) :
    tape.read address =
      match tape.get address with
      | .ok (some value) => .ok value
      | .ok none => .error (.uninitialized address.toInt.toNat)
      | .error e => .error e := by
  unfold read get
  by_cases hBounds : tape.InBounds address
  · rw [index_of_inBounds hBounds]
    dsimp only [Except.map]
    split <;> simp_all
  · rw [index_of_not_inBounds hBounds]
    rfl

end Index

/-! ### More cells -/

/-- The tape with unset cells added up to a greater capacity. -/
def enlarge (tape : Tape α) (capacity : Nat) : Tape α :=
  ⟨tape.cells ++ Array.replicate (capacity - tape.capacity) none⟩

theorem enlarge_blank {size capacity : Nat} (h : size ≤ capacity) :
    (blank size : Tape α).enlarge capacity = blank capacity := by
  have hAll : size + (capacity - size) = capacity := by omega
  simp [enlarge, blank, Tape.capacity, Array.replicate_append_replicate, hAll]

section Enlarge

variable (tape : Tape α) (capacity : Nat) {address : Int64}

theorem getElem?_enlarge {p : Nat} (h : p < tape.capacity) :
    (tape.enlarge capacity).cells[p]? = tape.cells[p]? :=
  Array.getElem?_append_left h

theorem getElem?_enlarge_of_le {p : Nat} (h : tape.capacity ≤ p) (hp : p < capacity) :
    (tape.enlarge capacity).cells[p]? = some none := by
  have hAdded : p - tape.capacity < capacity - tape.capacity := by omega
  unfold enlarge
  rw [Array.getElem?_append_right h, Array.getElem?_replicate, if_pos hAdded]

theorem inBounds_enlarge (h : tape.InBounds address) :
    (tape.enlarge capacity).InBounds address := by
  have hSize : (tape.enlarge capacity).capacity = tape.capacity + (capacity - tape.capacity) := by
    simp [Tape.capacity, enlarge]
  have hHigh := h.2
  exact ⟨h.1, by omega⟩

theorem read_enlarge (h : tape.InBounds address) :
    (tape.enlarge capacity).read address = tape.read address := by
  have hEnlarged := tape.inBounds_enlarge capacity h
  have hCell := tape.getElem?_enlarge capacity h.2
  rw [Array.getElem?_eq_getElem h.2, Array.getElem?_eq_getElem hEnlarged.2,
    Option.some.injEq] at hCell
  unfold read
  rw [index_of_inBounds h, index_of_inBounds hEnlarged]
  simp only [Fin.getElem_fin, hCell]

theorem put_enlarge (h : tape.InBounds address) (value : α) :
    (tape.enlarge capacity).put address value = (tape.put address value).enlarge capacity := by
  have hCell : address.toInt.toNat < tape.cells.size := h.2
  unfold put enlarge
  rw [if_pos h.1, if_pos h.1, Array.setIfInBounds_append_left hCell]
  simp only [Tape.capacity, Array.size_setIfInBounds]

end Enlarge

@[simp] theorem capacity_put (tape : Tape α) (address : Int64) (value : α) :
    (tape.put address value).capacity = tape.capacity := by
  unfold put
  split
  · exact Array.size_setIfInBounds
  · rfl

section Put

variable {tape : Tape α} {address : Int64}

/-- The cell after a write to it. -/
theorem getElem?_put (h : tape.InBounds address) (value : α) :
    (tape.put address value).cells[address.toInt.toNat]? = some (some value) := by
  unfold put
  rw [if_pos h.1, Array.getElem?_setIfInBounds_self_of_lt h.2]

theorem getElem?_put_of_ne {p : Nat} (h : address.toInt ≠ p) (value : α) :
    (tape.put address value).cells[p]? = tape.cells[p]? := by
  unfold put
  split
  case isTrue hLow => exact Array.getElem?_setIfInBounds_ne (by omega)
  case isFalse => rfl

end Put

/-! ### Writing one cell after another -/

/-- Writes values to the cells from a position on. -/
def writeFrom (position : Nat) : List α → Tape α → Except Error (Tape α)
  | [], tape => .ok tape
  | value :: rest, tape => do
    let tape ← tape.write (Int64.ofNat position) value
    writeFrom (position + 1) rest tape

section Write

variable {capacity : Nat}

/-- The first unset cell takes the next value. -/
theorem write_ofList {values : List α} (hRoom : values.length < capacity)
    (hSize : values.length < 0x8000000000000000) (value : α) :
    (ofList capacity values).write (Int64.ofNat values.length) value =
      .ok (ofList capacity (values ++ [value])) := by
  have hTo : (Int64.ofNat values.length).toInt = values.length := Int64.toInt_ofNat_of_lt hSize
  have hBounds : (ofList capacity values).InBounds (Int64.ofNat values.length) := by
    unfold InBounds
    rw [hTo]
    refine ⟨Int.natCast_nonneg _, ?_⟩
    simp only [Tape.capacity, ofList, Array.size_append, List.size_toArray, List.length_map,
      Array.size_replicate, Int.toNat_natCast]
    omega
  obtain ⟨room, hCapacity⟩ : ∃ room, capacity - values.length = room + 1 :=
    ⟨capacity - values.length - 1, by omega⟩
  have hLeft : capacity - (values.length + 1) = room := by omega
  unfold write
  rw [index_of_inBounds hBounds]
  simp only [Except.map, Except.ok.injEq, put, hTo, Int.natCast_nonneg, if_true,
    Int.toNat_natCast, ofList, Tape.mk.injEq, List.length_append, List.length_singleton,
    hCapacity, hLeft]
  apply Array.toList_inj.1
  simp [List.replicate_succ]

theorem writeFrom_ofList (written rest : List α)
    (hRoom : written.length + rest.length ≤ capacity)
    (hSize : written.length + rest.length ≤ 0x8000000000000000) :
    writeFrom written.length rest (ofList capacity written) =
      .ok (ofList capacity (written ++ rest)) := by
  induction rest generalizing written with
  | nil => rw [writeFrom, List.append_nil]
  | cons value rest ih =>
    rw [List.length_cons] at hRoom hSize
    have hWrite := write_ofList (show written.length < capacity by omega) (by omega) value
    have hLength : (written ++ [value]).length = written.length + 1 := List.length_append
    have hRest := ih (written ++ [value]) (by omega) (by omega)
    rw [hLength, List.append_assoc, List.singleton_append] at hRest
    rw [writeFrom, hWrite]
    exact hRest

/-- Values that fit on a tape and can be addressed are written without fault. -/
theorem writeFrom_blank {values : List α} (hRoom : values.length ≤ capacity)
    (hSize : values.length ≤ 0x8000000000000000) :
    writeFrom 0 values (blank capacity) = .ok (ofList capacity values) := by
  have hBlank : (blank capacity : Tape α) = ofList capacity [] := by simp [blank, ofList]
  rw [hBlank]
  exact writeFrom_ofList [] values (by simpa using hRoom) (by simpa using hSize)

end Write

end TapeMachine.Tape
