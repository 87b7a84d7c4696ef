import TapeMachine.Proofs.Machine.Run

/-! The same machine on two hosts.  An instruction calls its host at most once and uses nothing of
it but the answer, and of a line nothing but what is left without the blanks around it
(`exists_request`).  A machine that goes in step on two hosts does the same on both (`Lockstep`).
So if related hosts give the same answers and stay related as long as the first of them stays within
`Q`, then the machine makes the same steps on both as long as the first host is within `Q`
(`Simulation`).  `Metered` counts the lines that are asked of a host. -/

namespace TapeMachine

namespace Host

variable {σ σ' α : Type}

/-! ### Calls -/

/-- A call of a host, or none, with the use that is made of the answer. -/
inductive Request (α : Type) where
  | none (result : α)
  | readLine (use : Except String String → α)
  | writeLine (line : String) (use : Except String Unit → α)
  | now (use : Int64 → α)

/-- The result of a call, and the host after it. -/
def Request.made [Host σ] (host : σ) : Request α → α × σ
  | none result => (result, host)
  | readLine use => (use (Host.readLine host).1, (Host.readLine host).2)
  | writeLine line use => (use (Host.writeLine line host).1, (Host.writeLine line host).2)
  | now use => (use (Host.now host).1, (Host.now host).2)

/-- A call with a further use of its result. -/
def Request.map {β : Type} (f : α → β) : Request α → Request β
  | none result => none (f result)
  | readLine use => readLine fun answer => f (use answer)
  | writeLine line use => writeLine line fun answer => f (use answer)
  | now use => now fun answer => f (use answer)

theorem Request.made_map {β : Type} [Host σ] (f : α → β) (request : Request α) (host : σ) :
    (request.map f).made host = (f (request.made host).1, (request.made host).2) := by
  cases request <;> rfl

/-- A call that reads no clock, and uses of a line only what is left without the blanks around it. -/
def Request.Modest : Request α → Prop
  | readLine use => ∀ x y, x.map Text.trim = y.map Text.trim → use x = use y
  | now _ => False
  | none _ | writeLine _ _ => True

theorem Request.Modest.map {β : Type} {request : Request α} (h : request.Modest) (f : α → β) :
    (request.map f).Modest := by
  cases request with
  | readLine use => exact fun x y hSame => congrArg f (h x y hSame)
  | now use => exact h
  | none | writeLine => trivial

/-- Two calls with the same answer that leave related hosts, if the first is left within `Q`. -/
def Alike (Q : σ → Prop) (R : σ → σ' → Prop) (x : α × σ) (y : α × σ') : Prop :=
  Q x.2 → y.1 = x.1 ∧ R x.2 y.2

/-- Hosts related by `R` answer alike as long as the first one stays within `Q`, and a host that was
left within `Q` was within it before. -/
structure Simulation [Host σ] [Host σ'] (Q : σ → Prop) (R : σ → σ' → Prop) : Prop where
  readLine : ∀ {h h'}, R h h' → Alike Q R (Host.readLine h) (Host.readLine h')
  writeLine : ∀ {h h'} (line : String), R h h' →
    Alike Q R (Host.writeLine line h) (Host.writeLine line h')
  now : ∀ {h h'}, R h h' → Alike Q R (Host.now h) (Host.now h')
  readLine_back : ∀ {h}, Q (Host.readLine h).2 → Q h
  writeLine_back : ∀ {h} (line : String), Q (Host.writeLine line h).2 → Q h
  now_back : ∀ {h}, Q (Host.now h).2 → Q h

namespace Simulation

variable [Host σ] [Host σ'] {Q : σ → Prop} {R : σ → σ' → Prop} {h : σ} {h' : σ'}

theorem made (S : Simulation Q R) (hR : R h h') (request : Request α) :
    Alike Q R (request.made h) (request.made h') := by
  intro hQ
  cases request with
  | none result => exact ⟨rfl, hR⟩
  | readLine use => exact (S.readLine hR hQ).imp_left (congrArg use)
  | writeLine line use => exact (S.writeLine line hR hQ).imp_left (congrArg use)
  | now use => exact (S.now hR hQ).imp_left (congrArg use)

theorem made_back (S : Simulation Q R) {request : Request α} (hQ : Q (request.made h).2) : Q h := by
  cases request with
  | none result => exact hQ
  | readLine use => exact S.readLine_back hQ
  | writeLine line use => exact S.writeLine_back line hQ
  | now use => exact S.now_back hQ

end Simulation

/-! ### Counted lines -/

/-- A host that counts the lines asked of it. -/
structure Metered (σ : Type) where
  host : σ
  /-- The number of calls for a line, those at the end of the input included. -/
  reads : Nat

instance [Host σ] : Host (Metered σ) where
  readLine h := ((Host.readLine h.host).1, ⟨(Host.readLine h.host).2, h.reads + 1⟩)
  writeLine line h :=
    ((Host.writeLine line h.host).1, ⟨(Host.writeLine line h.host).2, h.reads⟩)
  now h := ((Host.now h.host).1, ⟨(Host.now h.host).2, h.reads⟩)

/-- Counting the lines changes no answer. -/
theorem simulation_metered [Host σ] :
    Simulation (fun _ : σ => True) fun h (h' : Metered σ) => h'.host = h where
  readLine := by
    rintro _ h' rfl -
    exact ⟨rfl, rfl⟩
  writeLine line := by
    rintro rfl -
    exact ⟨rfl, rfl⟩
  now := by
    rintro _ h' rfl -
    exact ⟨rfl, rfl⟩
  readLine_back _ := trivial
  writeLine_back _ _ := trivial
  now_back _ := trivial

end Host

namespace Machine

open Host

variable {τ σ σ' : Type}

/-- What an instruction that reads makes of the answer to its call. -/
def entered (m : Machine τ) (address : Int64) :
    Except String String → Except Fault.Cause Event
  | .error reason => .error (.console reason)
  | .ok line =>
    match Numeral.int64? (Text.trim line) with
    | none => .error (.inputParseFailure (Text.trim line))
    | some value => (m.values.requireCell address).map fun _ => .input value address

/-- What an instruction that writes a line makes of the answer to its call. -/
def printed (reading : Reading) : Except String Unit → Except Fault.Cause Event
  | .error reason => .error (.console reason)
  | .ok () => .ok (.output reading)

/-- Lines that are the same but for the blanks around them are entered alike. -/
theorem entered_congr (m : Machine τ) (address : Int64) {x y : Except String String}
    (h : x.map Text.trim = y.map Text.trim) : m.entered address x = m.entered address y := by
  rcases x with reason | line <;> rcases y with reason' | line' <;>
    simp only [Except.map, reduceCtorEq, Except.error.injEq, Except.ok.injEq] at h
  · rw [h]
  · simp only [entered, h]

/-- An instruction makes at most one call, which depends on the machine only and is modest unless
the instruction is `TIME`. -/
theorem exists_request (m : Machine τ) (i : Instruction) :
    ∃ request : Request (Except Fault.Cause Event),
      ((∀ dst, i ≠ .time dst) → request.Modest) ∧
      ∀ {σ : Type} [Host σ] (host : σ), m.perform i host = request.made host := by
  cases i with
  | time dst =>
    cases hDst : m.values.resolve dst with
    | error cause =>
      exact ⟨.none (.error cause), fun _ => trivial, fun host => by simp only [perform, hDst]; rfl⟩
    | ok address =>
      exact ⟨.now fun now => (m.values.requireCell address).map fun _ => .time now address,
        fun hOther => absurd rfl (hOther dst), fun host => by simp only [perform, hDst]; rfl⟩
  | input dst =>
    cases hDst : m.values.resolve dst with
    | error cause =>
      exact ⟨.none (.error cause), fun _ => trivial, fun host => by simp only [perform, hDst]; rfl⟩
    | ok address =>
      refine ⟨.readLine (m.entered address), fun _ _ _ => m.entered_congr address, fun host => ?_⟩
      simp only [perform, hDst, Request.made, entered]
      rcases Host.readLine host with ⟨reason | line, host'⟩
      · rfl
      · dsimp only
        cases Numeral.int64? (Text.trim line) <;> rfl
  | output src =>
    cases hSrc : m.values.source src with
    | error cause =>
      exact ⟨.none (.error cause), fun _ => trivial, fun host => by simp only [perform, hSrc]; rfl⟩
    | ok reading =>
      refine ⟨.writeLine (Numeral.ofInt64 reading.value) (printed reading), fun _ => trivial,
        fun host => ?_⟩
      simp only [perform, hSrc, Request.made]
      rcases Host.writeLine (Numeral.ofInt64 reading.value) host with ⟨reason | ⟨⟩, host'⟩ <;> rfl
  | ret =>
    cases hCalls : m.calls with
    | nil =>
      exact ⟨.none (.ok .idleReturn), fun _ => trivial,
        fun host => by simp only [perform, hCalls]; rfl⟩
    | cons site rest =>
      exact ⟨.none (.ok (.ret (site + 1))), fun _ => trivial,
        fun host => by simp only [perform, hCalls]; rfl⟩
  | _ => exact ⟨.none _, fun _ => trivial, fun host => rfl⟩

variable [Trace.Sink τ]

/-- What a step makes of an instruction that was performed. -/
def concluded (m : Machine τ) (i : Instruction) :
    Except Fault.Cause Event → Except Fault (Option Halt) × Machine τ
  | .error cause =>
    (.error ⟨m.pc, i.mnemonic, cause⟩, { m.count i with halted? := some .faulted })
  | .ok event =>
    (.ok (((m.report i event).commit event).count i).halted?,
      ((m.report i event).commit event).count i)

/-- A step makes at most one call, which depends on the machine only and is modest unless the step
executes a `TIME`. -/
theorem exists_step_request (m : Machine τ) :
    ∃ request : Request (Except Fault (Option Halt) × Machine τ),
      ((∀ dst, m.executing? ≠ some (.time dst)) → request.Modest) ∧
      ∀ {σ : Type} [Host σ] (host : σ), m.step host =
        ((request.made host).1.1, (request.made host).1.2, (request.made host).2) := by
  cases hHalted : m.halted? with
  | some halt =>
    exact ⟨.none (.ok (some halt), m), fun _ => trivial, step_of_halted? hHalted⟩
  | none =>
    cases hCurrent : m.current? with
    | none =>
      exact ⟨.none (_, _), fun _ => trivial, step_of_current?_eq_none hHalted hCurrent⟩
    | some i =>
      cases hLimit : m.config.limit?.filter (· ≤ m.cycles) with
      | some limit =>
        exact ⟨.none (_, _), fun _ => trivial, step_of_limit hHalted hCurrent hLimit⟩
      | none =>
        have hExecuting := executing?_eq_some_iff.2 ⟨hHalted, hLimit, hCurrent⟩
        obtain ⟨request, hModest, hRequest⟩ := m.exists_request i
        refine ⟨request.map (m.concluded i), fun hOther => ?_, fun host => ?_⟩
        · refine (hModest fun dst hTime => hOther dst ?_).map _
          rw [hExecuting, hTime]
        rw [step_of_executing? hExecuting, hRequest, Request.made_map]
        rcases request.made host with ⟨cause | event, host'⟩ <;> rfl

end Machine

/-! ### Steps on two hosts -/

namespace Machine

variable {τ σ σ' : Type} [Trace.Sink τ] [Host σ] [Host σ'] {R : σ → σ' → Prop} {m : Machine τ}
  {h : σ} {h' : σ'} {n k : Nat}

/-- The next step does the same on two hosts and leaves related ones. -/
structure Lockstep (R : σ → σ' → Prop) (m : Machine τ) (h : σ) (h' : σ') : Prop where
  answer : (m.step h').1 = (m.step h).1
  machine : (m.step h').2.1 = (m.step h).2.1
  hosts : R (m.step h).2.2 (m.step h').2.2

/-- The first `n` steps go in step on all hosts that are related to those of a run. -/
def InStep (R : σ → σ' → Prop) (m : Machine τ) (h : σ) (n : Nat) : Prop :=
  ∀ k < n, ∀ g', R (m.after h k).2 g' → Lockstep R (m.after h k).1 (m.after h k).2 g'

theorem InStep.after (hStep : InStep R m h n) (hR : R h h') (hk : k ≤ n) :
    (m.after h' k).1 = (m.after h k).1 ∧ R (m.after h k).2 (m.after h' k).2 := by
  induction k with
  | zero => exact ⟨rfl, hR⟩
  | succ k ih =>
    obtain ⟨hSame, hR'⟩ := ih (Nat.le_of_succ_le hk)
    have hNext := hStep k hk _ hR'
    rw [Machine.after, Machine.after, hSame]
    exact ⟨hNext.machine, hNext.hosts⟩

theorem InStep.answer (hStep : InStep R m h n) (hR : R h h') (hk : k < n) :
    m.answer h' k = m.answer h k := by
  obtain ⟨hSame, hR'⟩ := hStep.after hR (Nat.le_of_lt hk)
  unfold Machine.answer
  rw [hSame]
  exact (hStep k hk _ hR').answer

/-- The steps after the first one go in step too. -/
theorem InStep.tail (hStep : InStep R m h (n + 1)) : InStep R (m.step h).2.1 (m.step h).2.2 n := by
  intro k hk g' hR
  have hShift : (m.step h).2.1.after (m.step h).2.2 k = m.after h (k + 1) := by
    rw [Nat.add_comm]
    exact m.after_add h 1 k
  rw [hShift] at hR ⊢
  exact hStep (k + 1) (Nat.succ_lt_succ hk) g' hR

/-- A run gives the same result on both hosts. -/
theorem InStep.run (hStep : InStep R m h n) (hR : R h h') : (m.run n h').1 = (m.run n h).1 := by
  induction n generalizing m h h' with
  | zero => rfl
  | succ n ih =>
    have hFirst : Lockstep R m h h' := hStep 0 (Nat.succ_pos n) h' hR
    have hRest := ih hStep.tail hFirst.hosts
    have hAnswer := hFirst.answer
    have hSame := hFirst.machine
    rw [Machine.run, Machine.run]
    rcases hStep : m.step h with ⟨result, next, host⟩
    rcases hStep' : m.step h' with ⟨result', next', host'⟩
    rw [hStep, hStep'] at hAnswer hSame hRest
    obtain rfl : result' = result := hAnswer
    obtain rfl : next' = next := hSame
    rcases result' with fault | halt | none
    · rfl
    · exact hRest
    · rfl

end Machine

namespace Host.Simulation

open Machine

variable {τ σ σ' : Type} [Trace.Sink τ] [Host σ] [Host σ'] {Q : σ → Prop} {R : σ → σ' → Prop}
  {m : Machine τ} {h : σ} {h' : σ'} {n k : Nat}

theorem step (S : Simulation Q R) (hR : R h h') (hQ : Q (m.step h).2.2) : Lockstep R m h h' := by
  obtain ⟨request, -, hRequest⟩ := m.exists_step_request
  rw [hRequest] at hQ
  obtain ⟨hAnswer, hR'⟩ := S.made hR request hQ
  constructor <;> rw [hRequest h, hRequest h']
  · rw [hAnswer]
  · rw [hAnswer]
  · exact hR'

theorem step_back (S : Simulation Q R) (hQ : Q (m.step h).2.2) : Q h := by
  obtain ⟨request, -, hRequest⟩ := m.exists_step_request
  rw [hRequest] at hQ
  exact S.made_back hQ

theorem after_back (S : Simulation Q R) (hQ : Q (m.after h n).2) (hk : k ≤ n) :
    Q (m.after h k).2 := by
  induction hk with
  | refl => exact hQ
  | step _ ih => exact ih (S.step_back hQ)

theorem inStep (S : Simulation Q R) (hQ : Q (m.after h n).2) : InStep R m h n := by
  intro k hk g' hR
  have hNext : Q ((m.after h k).1.step (m.after h k).2).2.2 := S.after_back hQ hk
  exact S.step hR hNext

theorem after (S : Simulation Q R) (hR : R h h') (hQ : Q (m.after h n).2) :
    (m.after h' n).1 = (m.after h n).1 ∧ R (m.after h n).2 (m.after h' n).2 :=
  (S.inStep hQ).after hR (Nat.le_refl n)

theorem answer (S : Simulation Q R) (hR : R h h') (hQ : Q (m.after h n).2) (hk : k < n) :
    m.answer h' k = m.answer h k :=
  (S.inStep hQ).answer hR hk

theorem run (S : Simulation Q R) (hR : R h h') (hQ : Q (m.after h n).2) :
    (m.run n h').1 = (m.run n h).1 :=
  (S.inStep hQ).run hR

end Host.Simulation

/-! ### Lines read -/

namespace Machine

variable {τ σ : Type} [Trace.Sink τ] [Host σ]

/-- The number of lines that the first `n` steps ask of the host. -/
def linesRead (m : Machine τ) (host : σ) (n : Nat) : Nat :=
  (m.after (Host.Metered.mk host 0) n).2.reads

variable (m : Machine τ) (host : σ) (n : Nat)

/-- Counting the lines does not change what the machine does. -/
theorem after_metered :
    m.after (Host.Metered.mk host 0) n =
      ((m.after host n).1, ⟨(m.after host n).2, m.linesRead host n⟩) := by
  have hStart : (Host.Metered.mk host 0).host = host := rfl
  obtain ⟨hSame, hHost⟩ := Host.simulation_metered.after (m := m) (n := n) hStart trivial
  rw [← hSame, ← hHost]
  rfl

theorem answer_metered : m.answer (Host.Metered.mk host 0) n = m.answer host n :=
  Host.simulation_metered.answer rfl trivial (Nat.lt_succ_self n)

theorem run_metered : (m.run n (Host.Metered.mk host 0)).1 = (m.run n host).1 :=
  Host.simulation_metered.run rfl trivial

end Machine

end TapeMachine
