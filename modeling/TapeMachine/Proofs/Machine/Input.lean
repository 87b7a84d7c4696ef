import TapeMachine.Host.Scripted
import TapeMachine.Proofs.Machine.Hosts

/-! Input that was not read does not matter.  Two scripted hosts with the same first `k` lines of
input stay the same but for their unread lines as long as at most `k` lines are asked of them
(`simulation_unread`), so a machine does the same on both. -/

namespace TapeMachine

namespace Host.Scripted

/-- The same host with what is left of two inputs after as many calls for a line. -/
inductive Unread (input input' : List String) : Metered Scripted → Metered Scripted → Prop
  | after (host : Scripted) (reads : Nat) :
      Unread input input' ⟨{ host with input := input.drop reads }, reads⟩
        ⟨{ host with input := input'.drop reads }, reads⟩

/-- A line that is still there is read and leaves the others. -/
theorem readLine_drop {input : List String} {k : Nat} (h : k < input.length) (host : Scripted) :
    Host.readLine { host with input := input.drop k } =
      (.ok input[k], { host with input := input.drop (k + 1) }) := by
  rw [List.drop_eq_getElem_cons h]
  rfl

theorem simulation_unread {input input' : List String} {k : Nat}
    (hSame : input.take k = input'.take k) (hLong : k ≤ input.length)
    (hLong' : k ≤ input'.length) :
    Simulation (fun h => h.reads ≤ k) (Unread input input') where
  readLine := by
    rintro _ _ ⟨host, reads⟩ hQ
    have hReads : reads < k := hQ
    have hLine : input'[reads] = input[reads] := by
      have hTaken : (input.take k)[reads]? = (input'.take k)[reads]? := by rw [hSame]
      rw [List.getElem?_take_of_lt hReads, List.getElem?_take_of_lt hReads,
        List.getElem?_eq_getElem (by omega), List.getElem?_eq_getElem (by omega)] at hTaken
      exact (Option.some.inj hTaken).symm
    have hRead := readLine_drop (show reads < input.length by omega) host
    have hRead' := readLine_drop (show reads < input'.length by omega) host
    simp only [Host.readLine] at hRead hRead' ⊢
    rw [hRead, hRead', hLine]
    exact ⟨rfl, .after host (reads + 1)⟩
  writeLine line := by
    rintro ⟨host, reads⟩ -
    exact ⟨rfl, .after { host with output := host.output.push line } reads⟩
  now := by
    rintro _ _ ⟨host, reads⟩ -
    exact ⟨rfl, .after { host with clock := host.clock + host.clockStep } reads⟩
  readLine_back h := Nat.le_of_succ_le h
  writeLine_back _ h := h
  now_back h := h

end Host.Scripted

namespace Machine

open Host

variable {τ : Type} [Trace.Sink τ]

/-- A machine that asks for at most `k` lines does the same on two inputs with the same first `k`
lines: the steps and the run give the same results and leave the same machine and the same host but
for the lines that were not read. -/
theorem unread_input_unused (m : Machine τ) (host : Scripted) {input input' : List String}
    {k n : Nat} (hSame : input.take k = input'.take k) (hLong : k ≤ input.length)
    (hLong' : k ≤ input'.length) (hReads : m.linesRead { host with input } n ≤ k) :
    ∃ (m' : Machine τ) (host' : Scripted) (reads : Nat),
      m.linesRead { host with input } n = reads ∧
      m.linesRead { host with input := input' } n = reads ∧
      m.after { host with input } n = (m', { host' with input := input.drop reads }) ∧
      m.after { host with input := input' } n = (m', { host' with input := input'.drop reads }) ∧
      (∀ j < n, m.answer { host with input := input' } j = m.answer { host with input } j) ∧
      ∃ result?, m.run n { host with input } =
          (result?, m', { host' with input := input.drop reads }) ∧
        m.run n { host with input := input' } =
          (result?, m', { host' with input := input'.drop reads }) := by
  have hS := Scripted.simulation_unread hSame hLong hLong'
  have hStart : Scripted.Unread input input' ⟨{ host with input }, 0⟩
      ⟨{ host with input := input' }, 0⟩ :=
    .after host 0
  have hAnswers (j : Nat) (hj : j < n) :
      m.answer { host with input := input' } j = m.answer { host with input } j := by
    rw [← answer_metered, hS.answer hStart hReads hj, answer_metered]
  have hRun : (m.run n { host with input := input' }).1 = (m.run n { host with input }).1 := by
    rw [← run_metered, hS.run hStart hReads, run_metered]
  have hState := m.run_state { host with input } n
  have hState' := m.run_state { host with input := input' } n
  obtain ⟨hMachine, hHosts⟩ := hS.after hStart hReads
  rw [after_metered, after_metered] at hMachine hHosts
  rcases hAfter : m.after { host with input } n with ⟨m', h⟩
  rcases hAfter' : m.after { host with input := input' } n with ⟨m'', h'⟩
  rw [hAfter] at hState
  rw [hAfter'] at hState'
  simp only [hAfter, hAfter'] at hMachine hHosts
  subst hMachine
  generalize m.linesRead { host with input } n = reads at hHosts ⊢
  generalize m.linesRead { host with input := input' } n = reads' at hHosts ⊢
  cases hHosts with
  | after host' =>
    refine ⟨m'', host', reads, rfl, rfl, hAfter, hAfter', hAnswers, (m.run n { host with input }).1,
      ?_, ?_⟩
    · rw [← hState]
    · rw [← hRun, ← hState']

/-- A program that reads a number, writes it, and reads another for a cell that does not exist. -/
def readTwice : Program :=
  ⟨[.input (.direct 0), .output (.direct 0), .input (.direct 5)], .ofList []⟩

/-- A small machine at the start of `readTwice`, with a trace. -/
def beforeReadTwice : Machine Trace.Memory :=
  initial readTwice ⟨4, 1, none⟩ ⟨#[]⟩

/-- The second line is read although the instruction fails, so two lines count and the third does
not. -/
theorem unread_input_unused_readTwice :
    beforeReadTwice.linesRead (Scripted.ofInput ["7", "8", "x"] 0 0) 4 = 2 ∧
    ∃ (m : Machine Trace.Memory) (host : Scripted),
      beforeReadTwice.after (Scripted.ofInput ["7", "8", "x"] 0 0) 4 =
        (m, { host with input := ["x"] }) ∧
      beforeReadTwice.after (Scripted.ofInput ["7", "8"] 0 0) 4 = (m, { host with input := [] }) ∧
      m.cycles = 3 ∧ host.output = #["7"] ∧
      (beforeReadTwice.run 4 (Scripted.ofInput ["7", "8"] 0 0)).1 =
        some (.error ⟨2, "IN", .outOfBounds 5 1⟩) := by
  have hReads : beforeReadTwice.linesRead (Scripted.ofInput ["7", "8", "x"] 0 0) 4 = 2 := by
    decide +kernel
  have hCycles : (beforeReadTwice.after (Scripted.ofInput ["7", "8", "x"] 0 0) 4).1.cycles = 3 := by
    decide +kernel
  have hOutput : (beforeReadTwice.after (Scripted.ofInput ["7", "8", "x"] 0 0) 4).2.output =
      #["7"] := by
    decide +kernel
  have hResult : (beforeReadTwice.run 4 (Scripted.ofInput ["7", "8", "x"] 0 0)).1 =
      some (.error ⟨2, "IN", .outOfBounds 5 1⟩) := by
    decide +kernel
  obtain ⟨m, host, reads, hLines, -, hAfter, hAfter', -, result?, hRun, hRun'⟩ :=
    unread_input_unused beforeReadTwice (Scripted.ofInput [] 0 0)
      (show ["7", "8", "x"].take 2 = ["7", "8"].take 2 from rfl) (by decide) (by decide)
      (Nat.le_of_eq hReads)
  obtain rfl : 2 = reads := hReads.symm.trans hLines
  refine ⟨hReads, m, host, hAfter, hAfter', ?_, ?_, ?_⟩
  · exact (congrArg (fun state => state.1.cycles) hAfter).symm.trans hCycles
  · exact (congrArg (fun state => state.2.output) hAfter).symm.trans hOutput
  · calc (beforeReadTwice.run 4 (Scripted.ofInput ["7", "8"] 0 0)).1
      _ = result? := congrArg Prod.fst hRun'
      _ = (beforeReadTwice.run 4 (Scripted.ofInput ["7", "8", "x"] 0 0)).1 :=
        (congrArg Prod.fst hRun).symm
      _ = some (.error ⟨2, "IN", .outOfBounds 5 1⟩) := hResult

end Machine

end TapeMachine
