import TapeMachine.Proofs.Machine.Run

/-! Sessions: `step` and `run` called one after another on one machine and one host.  Each call makes
the next of the steps that the machine takes from its start, at least one and a run as many as it
needs to stop (`Session.schedule`).  So a fault is given once, by the call that met it, and after a
halt or a fault nothing changes any more. -/

namespace TapeMachine.Machine

variable {τ σ : Type}

/-- The calls that advance a machine. -/
inductive Call where
  | step
  | run
  deriving DecidableEq, Repr

/-- What a call gave, with the machine and the host after it. -/
structure Reply (τ σ : Type) where
  call : Call
  result : Except Fault (Option Halt)
  machine : Machine τ
  host : σ

variable [Host σ] [Trace.Sink τ]

/-- The replies to calls made one after another.  Only a run that returns has a reply. -/
inductive Session : Machine τ → σ → List (Reply τ σ) → Prop
  | nil {m : Machine τ} {host : σ} : Session m host []
  | step {m m' : Machine τ} {host host' : σ} {result : Except Fault (Option Halt)}
      {rest : List (Reply τ σ)} (hStep : m.step host = (result, m', host'))
      (hRest : Session m' host' rest) : Session m host (⟨.step, result, m', host'⟩ :: rest)
  | run {m m' : Machine τ} {host host' : σ} {final : Except Fault Halt} {rest : List (Reply τ σ)}
      (hReturns : m.Returns host final m' host') (hRest : Session m' host' rest) :
      Session m host (⟨.run, final.map some, m', host'⟩ :: rest)

/-- A call with the given reply makes the steps with the numbers `first` to `last`. -/
structure Spans (m : Machine τ) (host : σ) (first last : Nat) (reply : Reply τ σ) : Prop where
  ordered : first ≤ last
  before : ∀ n, first ≤ n → n < last → m.answer host n = .ok none
  result : m.answer host last = reply.result
  state : m.after host (last + 1) = (reply.machine, reply.host)
  step : reply.call = .step → last = first
  run : reply.call = .run → reply.result ≠ .ok none

variable {m m' : Machine τ} {host host' : σ}

theorem map_some_ne_ok_none (final : Except Fault Halt) : final.map some ≠ .ok none := by
  cases final <;> simp [Except.map]

theorem step_eq_error_iff {fault : Fault} :
    (m.step host).1 = .error fault ↔ m.halted? = none ∧ (m.cycle host).1 = .error fault := by
  unfold Machine.step
  cases hHalted : m.halted? with
  | some halt => simp
  | none => rcases hCycle : m.cycle host with ⟨fault' | halt?, m₁, host₁⟩ <;> simp

namespace Spans

variable {first last first' last' : Nat} {reply reply' : Reply τ σ}

/-- A call gives a fault exactly when the machine meets that fault in one of its steps. -/
theorem error_iff (h : m.Spans host first last reply) {fault : Fault} :
    reply.result = .error fault ↔
      ∃ n, first ≤ n ∧ n ≤ last ∧ (m.after host n).1.halted? = none ∧
        ((m.after host n).1.cycle (m.after host n).2).1 = .error fault := by
  constructor
  · intro hFault
    have hLast : m.answer host last = .error fault := by rw [h.result, hFault]
    exact ⟨last, h.ordered, Nat.le_refl last, step_eq_error_iff.1 hLast⟩
  · rintro ⟨n, hFirst, hLast, hCycle⟩
    have hAnswer : m.answer host n = .error fault := step_eq_error_iff.2 hCycle
    rcases Nat.lt_or_eq_of_le hLast with hBefore | rfl
    · rw [h.before n hFirst hBefore] at hAnswer
      cases hAnswer
    · rw [← h.result, hAnswer]

theorem halted? (h : m.Spans host first last reply) :
    reply.machine.halted? = haltOf reply.result := by
  have hHalted := m.after_succ_halted? host last
  rwa [h.state, h.result] at hHalted

/-- After a call that gave a halt or a fault, later ones give that halt and change nothing. -/
theorem later (h : m.Spans host first last reply) (h' : m.Spans host first' last' reply')
    (hLater : last < first') {halt : Halt} (hHalt : haltOf reply.result = some halt) :
    reply'.result = .ok (some halt) ∧ reply'.machine = reply.machine ∧ reply'.host = reply.host := by
  have hHalted : (m.after host (last + 1)).1.halted? = some halt := by
    rw [after_succ_halted?, h.result, hHalt]
  have hOrdered := h'.ordered
  have hAnswer := answer_of_halted? hHalted (show last + 1 ≤ last' by omega)
  have hState := after_of_halted? hHalted (show last + 1 ≤ last' + 1 by omega)
  rw [h'.state, h.state] at hState
  refine ⟨?_, Prod.mk.inj hState⟩
  rw [← h'.result, hAnswer]

end Spans

/-- Call number `k` makes the steps from number `starts k` to before number `starts (k + 1)`. -/
def Schedule (m : Machine τ) (host : σ) (starts : Nat → Nat) (replies : List (Reply τ σ)) : Prop :=
  ∀ k reply, replies[k]? = some reply →
    ∃ last, starts (k + 1) = last + 1 ∧ m.Spans host (starts k) last reply

namespace Schedule

variable {starts : Nat → Nat} {replies : List (Reply τ σ)}

theorem cons {n last : Nat} {reply : Reply τ σ} (hReply : m.Spans host n last reply)
    (h : m.Schedule host starts replies) (hStart : starts 0 = last + 1) :
    m.Schedule host (fun k => k.casesOn n starts) (reply :: replies) := by
  intro k reply' hk
  cases k with
  | zero =>
    cases hk
    exact ⟨last, hStart, hReply⟩
  | succ k => exact h k reply' hk

theorem mono (h : m.Schedule host starts replies) {k l : Nat} (hkl : k ≤ l)
    (hl : l ≤ replies.length) : starts k ≤ starts l := by
  induction hkl with
  | refl => exact Nat.le_refl _
  | @step l _ ih =>
    obtain ⟨last, hNext, hSpans⟩ := h l _ (List.getElem?_eq_getElem hl)
    have hOrdered := hSpans.ordered
    have hBefore := ih (Nat.le_of_lt hl)
    show starts k ≤ starts (l + 1)
    omega

theorem later (h : m.Schedule host starts replies) {k l : Nat} {first later : Reply τ σ}
    {halt : Halt} (hkl : k < l) (hk : replies[k]? = some first) (hl : replies[l]? = some later)
    (hHalt : haltOf first.result = some halt) :
    later.result = .ok (some halt) ∧ later.machine = first.machine ∧ later.host = first.host := by
  obtain ⟨last, hNext, hFirst⟩ := h k first hk
  obtain ⟨last', -, hLater⟩ := h l later hl
  have hLength : l < replies.length := (List.getElem?_eq_some_iff.1 hl).1
  have hOrder : starts (k + 1) ≤ starts l := h.mono hkl (Nat.le_of_lt hLength)
  exact hFirst.later hLater (by omega) hHalt

theorem no_error_after (h : m.Schedule host starts replies) {k l : Nat} {first later : Reply τ σ}
    {fault fault' : Fault} (hkl : k < l) (hk : replies[k]? = some first)
    (hl : replies[l]? = some later) (hFault : first.result = .error fault) :
    later.result ≠ .error fault' := by
  have hHalt : haltOf first.result = some .faulted := by
    rw [hFault]
    rfl
  rw [(h.later hkl hk hl hHalt).1]
  exact nofun

end Schedule

/-- The calls of a session make the steps of the machine one after another. -/
theorem Session.schedule {m₀ : Machine τ} {host₀ : σ} {replies : List (Reply τ σ)}
    (h : Session m₀ host₀ replies) {n : Nat} (hStart : m.after host n = (m₀, host₀)) :
    ∃ starts, starts 0 = n ∧ m.Schedule host starts replies := by
  induction h generalizing n with
  | nil => exact ⟨fun _ => n, rfl, fun k reply hk => absurd hk (by simp)⟩
  | @step m₀ m₁ host₀ host₁ result rest hStep _ ih =>
    have hAnswer : m.answer host n = result := by
      unfold answer
      rw [hStart, hStep]
    have hNext : m.after host (n + 1) = (m₁, host₁) := by rw [after, hStart, hStep]
    have hSpans : m.Spans host n n ⟨.step, result, m₁, host₁⟩ :=
      ⟨Nat.le_refl n, by omega, hAnswer, hNext, fun _ => rfl, fun hRun => by cases hRun⟩
    obtain ⟨starts, hZero, hRest⟩ := ih hNext
    exact ⟨_, rfl, hRest.cons hSpans hZero⟩
  | @run m₀ m₁ host₀ host₁ final rest hReturns _ ih =>
    -- The run stops with its own step number `j`, which is step `n + j` of the session.
    obtain ⟨j, hStops⟩ := returns_iff.1 hReturns
    have hAnswer (k : Nat) : m₀.answer host₀ k = m.answer host (n + k) := by
      rw [← answer_after, hStart]
    have hNext : m.after host (n + j + 1) = (m₁, host₁) := by
      rw [Nat.add_assoc, ← after_add, hStart, hStops.state]
    have hSpans : m.Spans host n (n + j) ⟨.run, final.map some, m₁, host₁⟩ := by
      refine ⟨Nat.le_add_right n j, fun k hFirst hLast => ?_, ?_, hNext, fun hStep => ?_,
        fun _ => map_some_ne_ok_none final⟩
      · obtain ⟨k, rfl⟩ := Nat.exists_eq_add_of_le hFirst
        rw [← hAnswer]
        exact hStops.before k (by omega)
      · rw [← hAnswer, hStops.answer]
      · cases hStep
    obtain ⟨starts, hZero, hRest⟩ := ih hNext
    exact ⟨_, rfl, hRest.cons hSpans hZero⟩

/-- Whatever the calls, the machine and the host go through the states of one step after another:
each call makes at least one step, `step` just one and `run` those up to the first halt or fault.
A call gives a fault exactly when it met that fault, and no second call gives one.  After a halt or
a fault all calls give the same halt and leave the machine and the host alone. -/
theorem session_replays {replies : List (Reply τ σ)} (h : Session m host replies) :
    (∃ starts : Nat → Nat, starts 0 = 0 ∧
      ∀ k reply, replies[k]? = some reply →
        ∃ last, starts (k + 1) = last + 1 ∧ m.Spans host (starts k) last reply ∧
          ∀ fault, reply.result = .error fault ↔
            ∃ n, starts k ≤ n ∧ n ≤ last ∧ (m.after host n).1.halted? = none ∧
              ((m.after host n).1.cycle (m.after host n).2).1 = .error fault) ∧
    (∀ (k l : Nat) (first second : Reply τ σ) (fault fault' : Fault),
      replies[k]? = some first → replies[l]? = some second →
      first.result = .error fault → second.result = .error fault' → k = l) ∧
    ∀ (k : Nat) (first : Reply τ σ) (halt : Halt), replies[k]? = some first →
      haltOf first.result = some halt →
      first.machine.Returns first.host (.ok halt) first.machine first.host ∧
      ∀ (l : Nat) (later : Reply τ σ), k < l → replies[l]? = some later →
        later.result = .ok (some halt) ∧ later.machine = first.machine ∧
          later.host = first.host := by
  obtain ⟨starts, hZero, hSchedule⟩ := h.schedule (show m.after host 0 = (m, host) from rfl)
  refine ⟨⟨starts, hZero, fun k reply hk => ?_⟩, ?_, fun k first halt hk hHalt => ⟨?_, ?_⟩⟩
  · obtain ⟨last, hNext, hSpans⟩ := hSchedule k reply hk
    exact ⟨last, hNext, hSpans, fun fault => hSpans.error_iff⟩
  · intro k l first second fault fault' hk hl hFirst hSecond
    rcases Nat.lt_trichotomy k l with hkl | hkl | hkl
    · exact absurd hSecond (hSchedule.no_error_after hkl hk hl hFirst)
    · exact hkl
    · exact absurd hFirst (hSchedule.no_error_after hkl hl hk hSecond)
  · obtain ⟨last, -, hSpans⟩ := hSchedule k first hk
    exact returns_of_halted? (hSpans.halted?.trans hHalt) first.host
  · exact fun l later hkl hl => hSchedule.later hkl hk hl hHalt

/-- A program that reads a number and writes it. -/
def readOne : Program :=
  ⟨[.set 1 (.direct 0), .input (.direct 0), .output (.direct 0)], .ofList []⟩

/-- A small machine at the start of `readOne`. -/
def beforeRead : Machine Trace.Discard :=
  initial readOne ⟨4, 1, none⟩ .mk

/-- A console whose first line is not a number. -/
def badInput : Host.Scripted :=
  .ofInput ["abc", "7"] 0 0

/-- A run of `readOne` on `badInput` gives the fault, and the calls after it do not read on. -/
theorem session_replays_badInput :
    ∃ m host, beforeRead.after badInput 2 = (m, host) ∧ host.input = ["7"] ∧
      Session beforeRead badInput
        [⟨.run, .error ⟨1, "IN", .inputParseFailure "abc"⟩, m, host⟩,
          ⟨.step, .ok (some .faulted), m, host⟩, ⟨.run, .ok (some .faulted), m, host⟩] ∧
      m.Returns host (.ok .faulted) m host := by
  have hBefore : ∀ k < 1, beforeRead.answer badInput k = .ok none := by decide +kernel
  have hAnswer : beforeRead.answer badInput 1 =
      (Except.error ⟨1, "IN", .inputParseFailure "abc"⟩ : Except Fault Halt).map some := by
    decide +kernel
  have hInput : (beforeRead.after badInput 2).2.input = ["7"] := by decide +kernel
  obtain ⟨m, host, hAfter⟩ : ∃ m host, beforeRead.after badInput 2 = (m, host) := ⟨_, _, rfl⟩
  have hReturns := returns_iff.2 ⟨1, hBefore, hAnswer, hAfter⟩
  have hHalted : m.halted? = some .faulted := by
    have hLast := beforeRead.after_succ_halted? badInput 1
    rwa [hAfter, hAnswer] at hLast
  have hSession := Session.run hReturns
    (.step (step_of_halted? hHalted host) (.run (returns_of_halted? hHalted host) .nil))
  rw [hAfter] at hInput
  exact ⟨m, host, hAfter, hInput, hSession,
    ((session_replays hSession).2.2 0 _ .faulted rfl rfl).1⟩

end TapeMachine.Machine
