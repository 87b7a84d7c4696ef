import TapeMachine.Host.Scripted
import TapeMachine.Proofs.Assembly.Resolution
import TapeMachine.Proofs.Machine.Step

/-! The program counter and the calls of a machine, in every state that steps from the start of a
program lead to.  `Flow` says how an instruction moves them; `Sound` is what all steps keep: the
program stays on its tape, the counter within the positions that the program can name, and every
pending call at an instruction that calls. -/

namespace TapeMachine

namespace Assembly

variable {source : String} {program : Program}

theorem Assembled.position {labels : LabelTable} {code : Source.Code} {i : Instruction}
    (h : Assembled labels code i) {k : Nat} {operand : Operand}
    (hRole : i.opcode.roles[k]? = some Role.label) (hOperand : i.operands[k]? = some operand) :
    ∃ name position, labels.get? name = some position ∧ operand.payload.toInt = position := by
  obtain ⟨slot, hSlot, hResolves⟩ := Outcome.getElem?_of_forall₂ h.operands hOperand
  obtain ⟨-, hSlotRole⟩ := List.getElem?_zip_eq_some.1 hSlot
  obtain ⟨-, position, hPosition, hPayload⟩ :=
    hResolves.label (Option.some.inj (hSlotRole.symm.trans hRole))
  exact ⟨_, position, hPosition, hPayload⟩

/-- An assembled program goes to its own positions or to its end. -/
theorem target_le_length (h : assemble source = .ok program)
    (hSize : program.length < 0x8000000000000000) {i : Instruction}
    (hi : i ∈ program.instructions) {target : Position} (hTarget : i.target? = some target) :
    target.val ≤ program.length := by
  obtain ⟨p, hp⟩ := List.mem_iff_getElem?.1 hi
  obtain ⟨entry, -, hAssembled⟩ :=
    Outcome.getElem?_of_forall₂ (assembled_of_assemble h hSize) hp
  obtain ⟨k, hRole, hOperand⟩ := Instruction.target?_slot hTarget
  obtain ⟨name, position, hPosition, hPayload⟩ := hAssembled.position hRole hOperand
  have hLe := position_le_length h hPosition
  have hTo : target.payload.toInt = target.val := target.toInt_payload
  simp only [Operand.direct] at hPayload
  omega

end Assembly

namespace Tape

variable {α : Type} {capacity : Nat} {values : List α}

theorem capacity_ofList :
    (ofList capacity values).capacity = values.length + (capacity - values.length) := by
  simp [Tape.capacity, ofList]

theorem getElem?_ofList {p : Nat} (h : p < (ofList capacity values).capacity) :
    (ofList capacity values).cells[p]? = some values[p]? := by
  rw [capacity_ofList] at h
  by_cases hp : p < values.length
  · simp [ofList, Array.getElem?_append, hp]
  · simp [ofList, Array.getElem?_append, hp, Array.getElem?_replicate]
    omega

end Tape

namespace Machine

variable {τ σ : Type}

/-- How an instruction at `pc`, with the calls `calls` pending, moves the counter and the calls. -/
inductive Flow (pc : Nat) (calls : List Nat) : Instruction → Nat → List Nat → Prop
  | next {i : Instruction} (hCall : ∀ target, i ≠ .call target) (hReturn : i = .ret → calls = []) :
      Flow pc calls i (pc + 1) calls
  | jump {i : Instruction} {target : Position} (hTarget : i.target? = some target)
      (hCall : ∀ target, i ≠ .call target) : Flow pc calls i target.val calls
  | call {target : Position} : Flow pc calls (.call target) target.val (pc :: calls)
  | ret {site : Nat} {rest : List Nat} (hCalls : calls = site :: rest) :
      Flow pc calls .ret (site + 1) rest
  | term : Flow pc calls .term pc calls

theorem Performs.flow [Host σ] {m : Machine τ} {host host' : σ} {i : Instruction} {event : Event}
    (h : Performs m host i event host') :
    Flow m.pc m.calls i (event.successor m.pc) (event.calls m.pc m.calls) := by
  cases h with
  | jump => exact .jump rfl nofun
  | @branch condition _ _ x y _ _ _ =>
    cases condition.holds x.value y.value
    · exact .next nofun nofun
    · exact .jump rfl nofun
  | call => exact .call
  | ret hCalls =>
    rw [hCalls]
    exact .ret rfl
  | idleReturn hCalls => exact .next nofun fun _ => hCalls
  | term => exact .term
  | _ => exact .next nofun nofun

/-- A step that moves the counter or the calls does so as the instruction that it executes says. -/
theorem step_flow [Host σ] [Trace.Sink τ] (m : Machine τ) (host : σ) :
    ((m.step host).2.1.pc = m.pc ∧ (m.step host).2.1.calls = m.calls) ∨
      ∃ i, m.executing? = some i ∧
        Flow m.pc m.calls i (m.step host).2.1.pc (m.step host).2.1.calls := by
  have hOutcome := m.step_outcome host
  generalize m.step host = outcome at hOutcome ⊢
  cases hOutcome with
  | stopped | ended | limited | faulted => exact .inl ⟨rfl, rfl⟩
  | @executed i _ _ hExecuting hPerforms =>
    exact .inr ⟨i, hExecuting, by simpa using hPerforms.flow⟩

theorem read_of_current? {m : Machine τ} {i : Instruction} (h : m.current? = some i) :
    m.instructions.read (Int64.ofNat m.pc) = .ok i := by
  unfold current? Tape.get at h
  unfold Tape.read
  cases hIndex : m.instructions.index (Int64.ofNat m.pc) with
  | error e => simp [hIndex, Except.map] at h
  | ok k =>
    simp only [hIndex, Except.map] at h
    simp only [h]

/-- On the tape of a program the counter finds the instruction of the program. -/
theorem current?_eq {m : Machine τ} {program : Program} {capacity : Nat}
    (hTape : m.instructions = .ofList capacity program.instructions)
    (hPc : m.pc < 0x8000000000000000) : m.current? = program.get? m.pc := by
  have hTo : (Int64.ofNat m.pc).toInt = m.pc := Int64.toInt_ofNat_of_lt hPc
  unfold current? Tape.get Tape.index
  by_cases hOn : m.pc < m.instructions.capacity
  · have hCell : m.instructions.cells[m.pc]? = some (program.get? m.pc) := by
      rw [hTape] at hOn ⊢
      exact Tape.getElem?_ofList hOn
    obtain ⟨_, hCell⟩ := Array.getElem?_eq_some_iff.1 hCell
    simpa [hTo, hOn, Except.map] using hCell
  · have hLength : program.length ≤ m.pc := by
      rw [hTape, Tape.capacity_ofList] at hOn
      unfold Program.length
      omega
    have hNone : program.get? m.pc = none := List.getElem?_eq_none hLength
    simp [hTo, hOn, Except.map, hNone]

/-! ### The invariant -/

/-- The positions that a program can reach are at most `bound`, which an operand can write. -/
structure Within (program : Program) (bound : Nat) : Prop where
  fits : bound < 0x8000000000000000
  length : program.length ≤ bound
  targets : ∀ i ∈ program.instructions, ∀ target, i.target? = some target → target.val ≤ bound

theorem within_maximum {program : Program} (h : program.length < 0x8000000000000000) :
    Within program 0x7FFFFFFFFFFFFFFF :=
  ⟨by omega, by omega, fun _ _ target _ => Nat.le_sub_one_of_lt target.isLt⟩

theorem within_length {source : String} {program : Program}
    (h : Assembly.assemble source = .ok program) (hSize : program.length < 0x8000000000000000) :
    Within program program.length :=
  ⟨hSize, Nat.le_refl _, fun _ hi _ hTarget => Assembly.target_le_length h hSize hi hTarget⟩

/-- What every step keeps. -/
structure Sound (program : Program) (capacity bound : Nat) (m : Machine τ) : Prop where
  tape : m.instructions = .ofList capacity program.instructions
  pc : m.pc ≤ bound
  calls : ∀ site ∈ m.calls, ∃ target, program.get? site = some (.call target)

theorem load_eq_ok {program : Program} {config : Config} {trace : τ} {m : Machine τ}
    (h : load program config trace = .ok m) :
    program.length ≤ config.instructions ∧ m.calls = [] ∧
      ∀ bound, Sound program config.instructions bound m := by
  obtain ⟨hFits, rfl⟩ := load_eq_ok_iff.1 h
  exact ⟨hFits, rfl, fun bound => ⟨rfl, Nat.zero_le bound, nofun⟩⟩

namespace Sound

variable {program : Program} {capacity bound : Nat} {m : Machine τ}

theorem current? (h : Sound program capacity bound m) (hWithin : Within program bound) :
    m.current? = program.get? m.pc :=
  current?_eq h.tape (Nat.lt_of_le_of_lt h.pc hWithin.fits)

theorem flow (h : Sound program capacity bound m) (hWithin : Within program bound)
    {i : Instruction} (hi : program.get? m.pc = some i) {pc : Nat} {calls : List Nat}
    (hFlow : Flow m.pc m.calls i pc calls) :
    pc ≤ bound ∧ ∀ site ∈ calls, ∃ target, program.get? site = some (.call target) := by
  have hLength := hWithin.length
  have hPosition {p : Nat} {j : Instruction} (hj : program.get? p = some j) : p < program.length :=
    (List.getElem?_eq_some_iff.1 hj).1
  cases hFlow with
  | next =>
    have := hPosition hi
    exact ⟨by omega, h.calls⟩
  | jump hTarget => exact ⟨hWithin.targets i (List.mem_of_getElem? hi) _ hTarget, h.calls⟩
  | @call target =>
    refine ⟨hWithin.targets _ (List.mem_of_getElem? hi) _ rfl, fun site hSite => ?_⟩
    rcases List.mem_cons.1 hSite with rfl | hSite
    · exact ⟨target, hi⟩
    · exact h.calls site hSite
  | @ret site rest hCalls =>
    obtain ⟨target, hSite⟩ := h.calls site (hCalls ▸ List.mem_cons_self)
    have := hPosition hSite
    exact ⟨by omega, fun other hOther => h.calls other (hCalls ▸ List.mem_cons_of_mem site hOther)⟩
  | term => exact ⟨h.pc, h.calls⟩

variable [Host σ] [Trace.Sink τ]

theorem step (h : Sound program capacity bound m) (hWithin : Within program bound) (host : σ) :
    Sound program capacity bound (m.step host).2.1 := by
  have hOutcome := m.step_outcome host
  generalize m.step host = outcome at hOutcome ⊢
  cases hOutcome with
  | stopped => exact h
  | ended | limited | faulted => exact ⟨h.tape, h.pc, h.calls⟩
  | @executed i event _ hExecuting hPerforms =>
    obtain ⟨-, -, hCurrent⟩ := executing?_eq_some_iff.1 hExecuting
    rw [h.current? hWithin] at hCurrent
    obtain ⟨hPc, hCalls⟩ := h.flow hWithin hCurrent hPerforms.flow
    exact ⟨by simpa using h.tape, by simpa using hPc, by simpa using hCalls⟩

theorem after (h : Sound program capacity bound m) (hWithin : Within program bound) (host : σ)
    (n : Nat) : Sound program capacity bound (m.after host n).1 :=
  after_induction host h (fun _ host hm => hm.step hWithin host) n

end Sound

/-! ### Programs of any length -/

/-- What every step keeps even if the program is longer than an operand can count: the counter is at
most at the first position that cannot be addressed. -/
structure Addressed (program : Program) (capacity : Nat) (m : Machine τ) : Prop where
  tape : m.instructions = .ofList capacity program.instructions
  pc : m.pc ≤ 0x8000000000000000
  calls : ∀ site ∈ m.calls, site < 0x8000000000000000

namespace Addressed

variable {program : Program} {capacity : Nat} {m : Machine τ} {i : Instruction}

theorem pc_lt (h : Addressed program capacity m) (hCurrent : m.current? = some i) :
    m.pc < 0x8000000000000000 := by
  rcases Nat.lt_or_eq_of_le h.pc with hLess | hLast
  · exact hLess
  · -- As an address this position is negative.
    simp [current?, Tape.get, Tape.index, hLast, Except.map] at hCurrent

theorem get?_of_current? (h : Addressed program capacity m) (hCurrent : m.current? = some i) :
    program.get? m.pc = some i := by
  rw [← current?_eq h.tape (h.pc_lt hCurrent), hCurrent]

theorem flow (h : Addressed program capacity m) (hPc : m.pc < 0x8000000000000000) {pc : Nat}
    {calls : List Nat} (hFlow : Flow m.pc m.calls i pc calls) :
    pc ≤ 0x8000000000000000 ∧ ∀ site ∈ calls, site < 0x8000000000000000 := by
  cases hFlow with
  | next => exact ⟨hPc, h.calls⟩
  | @jump _ target => exact ⟨Nat.le_of_lt target.isLt, h.calls⟩
  | @call target =>
    refine ⟨Nat.le_of_lt target.isLt, fun site hSite => ?_⟩
    rcases List.mem_cons.1 hSite with rfl | hSite
    · exact hPc
    · exact h.calls site hSite
  | @ret site rest hCalls =>
    have hSite : site < 0x8000000000000000 := h.calls site (hCalls ▸ List.mem_cons_self)
    exact ⟨hSite, fun other hOther => h.calls other (hCalls ▸ List.mem_cons_of_mem site hOther)⟩
  | term => exact ⟨h.pc, h.calls⟩

variable [Host σ] [Trace.Sink τ]

theorem step (h : Addressed program capacity m) (host : σ) :
    Addressed program capacity (m.step host).2.1 := by
  have hTape : (m.step host).2.1.instructions = .ofList capacity program.instructions := by
    rw [step_instructions, h.tape]
  rcases m.step_flow host with ⟨hPc, hCalls⟩ | ⟨i, hExecuting, hFlow⟩
  · exact ⟨hTape, hPc ▸ h.pc, hCalls ▸ h.calls⟩
  · obtain ⟨-, -, hCurrent⟩ := executing?_eq_some_iff.1 hExecuting
    obtain ⟨hPc, hCalls⟩ := h.flow (h.pc_lt hCurrent) hFlow
    exact ⟨hTape, hPc, hCalls⟩

end Addressed

theorem addressed_initial (program : Program) (config : Config) (trace : τ) :
    Addressed program config.instructions (initial program config trace) :=
  ⟨rfl, Nat.zero_le _, nofun⟩

theorem addressed_after [Host σ] [Trace.Sink τ] (program : Program) (config : Config) (trace : τ)
    (host : σ) (n : Nat) :
    Addressed program config.instructions ((initial program config trace).after host n).1 :=
  after_induction host (addressed_initial program config trace) (fun _ host h => h.step host) n

/-! ### Calls and returns -/

/-- Whether the next step executes a call. -/
def executesCall (m : Machine τ) : Bool :=
  match m.executing? with
  | some (.call _) => true
  | _ => false

/-- Whether the next step executes a return that finds a call to return from. -/
def executesReturn (m : Machine τ) : Bool :=
  decide (m.executing? = some .ret) && !m.calls.isEmpty

/-- A call makes the stack deeper by one and a return shallower by one. -/
theorem Flow.depth {m : Machine τ} {i : Instruction} {pc : Nat} {calls : List Nat}
    (h : Flow m.pc m.calls i pc calls) (hExecuting : m.executing? = some i) :
    calls.length + m.executesReturn.toNat = m.calls.length + m.executesCall.toNat := by
  unfold executesReturn executesCall
  rw [hExecuting]
  cases h with
  | next hCall hReturn =>
    cases i with
    | call target => exact absurd rfl (hCall target)
    | ret => simp [hReturn rfl]
    | _ => simp
  | jump hTarget hCall =>
    cases i with
    | call target => exact absurd rfl (hCall target)
    | jump _ | branch _ _ _ _ => simp
    | _ => cases hTarget
  | call => simp
  | ret hCalls => simp [hCalls]
  | term => simp

section Depth

variable [Host σ] [Trace.Sink τ]

theorem step_depth (m : Machine τ) (host : σ) :
    (m.step host).2.1.calls.length + m.executesReturn.toNat =
      m.calls.length + m.executesCall.toNat := by
  have hOutcome := m.step_outcome host
  generalize m.step host = outcome at hOutcome ⊢
  cases hOutcome with
  | stopped hHalted =>
    have hNone : m.executing? = none := by simp [executing?, hHalted]
    simp [executesCall, executesReturn, hNone]
  | ended hHalted hCurrent =>
    simp [executesCall, executesReturn, executing?_eq_none_of_current? hCurrent]
  | limited hHalted hCurrent hLimit =>
    have hNone : m.executing? = none := by simp [executing?, hLimit]
    simp [executesCall, executesReturn, hNone]
  | @faulted i cause _ hExecuting hPerform =>
    cases i with
    | call target => cases hPerform
    | ret =>
      simp only [perform] at hPerform
      split at hPerform <;> cases hPerform
    | _ => simp [executesCall, executesReturn, hExecuting]
  | executed hExecuting hPerforms => simpa using hPerforms.flow.depth hExecuting

/-- The depth of the stack is the number of calls less the number of returns that found one. -/
theorem after_depth (m : Machine τ) (host : σ) (n : Nat) :
    (m.after host n).1.calls.length +
        (List.range n).countP (fun k => (m.after host k).1.executesReturn) =
      m.calls.length + (List.range n).countP (fun k => (m.after host k).1.executesCall) := by
  induction n with
  | zero => rfl
  | succ n ih =>
    have hStep := (m.after host n).1.step_depth (m.after host n).2
    have hCount (b : Bool) : (if b = true then 1 else 0) = b.toNat := by cases b <;> rfl
    rw [List.range_succ, List.countP_append, List.countP_append, List.countP_singleton,
      List.countP_singleton, hCount, hCount, Machine.after]
    omega

end Depth

/-! ### Reachable states -/

/-- A machine that runs a program from its start has, after any number of steps, a counter that an
operand can write, calls only from instructions of the program that call, as many of them as were
made and not returned from, and the program on its tape as it was loaded.  An instruction about to
be executed is the one that the program has there and is read from the tape without fault, with the
operands that its opcode takes.  In an assembled program the counter does not go past the end. -/
theorem control_of_load [Host σ] [Trace.Sink τ] {program : Program} {config : Config} {trace : τ}
    {start m : Machine τ} {host host' : σ} {n : Nat} (hSize : program.length < 0x8000000000000000)
    (hLoad : load program config trace = .ok start) (hAfter : start.after host n = (m, host')) :
    ((m.pc : Int) ≤ Int64.maxValue.toInt ∧ (Int64.ofNat m.pc).toInt = m.pc) ∧
    (∀ site ∈ m.calls, site < program.length ∧
      ∃ target, program.get? site = some (.call target)) ∧
    m.calls.length + (List.range n).countP (fun k => (start.after host k).1.executesReturn) =
      (List.range n).countP (fun k => (start.after host k).1.executesCall) ∧
    (m.instructions = start.instructions ∧ m.instructions.capacity = config.instructions ∧
      ∀ p < config.instructions, m.instructions.cells[p]? = some (program.get? p)) ∧
    (∀ i, m.executing? = some i →
      m.instructions.read (Int64.ofNat m.pc) = .ok i ∧ program.get? m.pc = some i ∧
      i.operands.length = i.opcode.arity ∧ Instruction.build i.opcode i.operands = .ok i) ∧
    ∀ source, Assembly.assemble source = .ok program → m.pc ≤ program.length := by
  obtain ⟨hLength, hCalls, hStart⟩ := load_eq_ok hLoad
  obtain rfl : (start.after host n).1 = m := by rw [hAfter]
  have hWithin := within_maximum hSize
  have hSound := (hStart 0x7FFFFFFFFFFFFFFF).after hWithin host n
  have hPc := hSound.pc
  have hCapacity : (start.after host n).1.instructions.capacity = config.instructions := by
    rw [hSound.tape, Tape.capacity_ofList]
    exact Nat.add_sub_cancel' hLength
  refine ⟨⟨?_, Int64.toInt_ofNat_of_lt (by omega)⟩, fun site hSite => ?_, ?_,
    ⟨?_, hCapacity, fun p hp => ?_⟩, fun i hi => ?_, fun source hSource => ?_⟩
  · have hMax : Int64.maxValue.toInt = 0x7FFFFFFFFFFFFFFF := rfl
    omega
  · obtain ⟨target, hTarget⟩ := hSound.calls site hSite
    exact ⟨(List.getElem?_eq_some_iff.1 hTarget).1, target, hTarget⟩
  · have hDepth := start.after_depth host n
    rw [hCalls, List.length_nil, Nat.zero_add] at hDepth
    exact hDepth
  · rw [hSound.tape, (hStart 0).tape]
  · rw [hSound.tape] at hCapacity ⊢
    exact Tape.getElem?_ofList (by omega)
  · obtain ⟨-, -, hCurrent⟩ := executing?_eq_some_iff.1 hi
    refine ⟨read_of_current? hCurrent, ?_, i.operands_length, i.build_opcode_operands⟩
    rw [← hSound.current? hWithin, hCurrent]
  · exact ((hStart program.length).after (within_length hSource hSize) host n).pc

/-- A program that calls its last instruction and ends. -/
def callAndReturn : Program :=
  ⟨[.call (.ofPayload 2), .term, .ret], .ofList [("sub", 2)]⟩

/-- A small machine at the start of `callAndReturn`. -/
def beforeCall : Machine Trace.Discard where
  instructions := .ofList 4 callAndReturn.instructions
  values := .blank 1
  pc := 0
  calls := []
  config := ⟨4, 1, none⟩
  cycles := 0
  profile := .zero
  trace := .mk
  halted? := none

theorem control_of_load_callAndReturn :
    let host := Host.Scripted.ofInput [] 0 0
    let m := (beforeCall.after host 1).1
    callAndReturn.length < 0x8000000000000000 ∧
    load callAndReturn ⟨4, 1, none⟩ Trace.Discard.mk = .ok beforeCall ∧
    Assembly.assemble "CALL sub\nTERM\nsub: RET" = .ok callAndReturn ∧
    m.calls = [0] ∧
    (∀ site ∈ m.calls, site < callAndReturn.length ∧
      ∃ target, callAndReturn.get? site = some (.call target)) ∧
    m.calls.length + (List.range 1).countP (fun k =>
        (beforeCall.after host k).1.executesReturn) =
      (List.range 1).countP (fun k => (beforeCall.after host k).1.executesCall) ∧
    m.executing? = some .ret ∧ m.instructions.read (Int64.ofNat m.pc) = .ok .ret ∧
    m.pc ≤ callAndReturn.length := by
  intro host m
  have hSize : callAndReturn.length < 0x8000000000000000 := by decide
  have hLoad : load callAndReturn ⟨4, 1, none⟩ Trace.Discard.mk = .ok beforeCall := rfl
  have hSource : Assembly.assemble "CALL sub\nTERM\nsub: RET" = .ok callAndReturn := by
    decide +kernel
  have hExecuting : m.executing? = some .ret := rfl
  have hAfter : beforeCall.after host 1 = (m, (beforeCall.after host 1).2) := rfl
  obtain ⟨-, hCalls, hDepth, -, hFetch, hEnd⟩ := control_of_load hSize hLoad hAfter
  exact ⟨hSize, hLoad, hSource, rfl, hCalls, hDepth, hExecuting, (hFetch _ hExecuting).1,
    hEnd _ hSource⟩

end Machine

end TapeMachine
