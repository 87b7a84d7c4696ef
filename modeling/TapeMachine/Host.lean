/-! Hosts: what a machine needs from its surroundings, a console of lines and a clock.  A host is
any type of states with the three operations, so that a run is a function of the state it starts
in. -/

namespace TapeMachine

/-- The console and the clock of a machine, over states of type `σ`. -/
class Host (σ : Type) where
  /-- Reads one line without its line end, or gives the reason why it cannot.  At the end of the
  input the line is empty. -/
  readLine : σ → Except String String × σ
  /-- Writes one line, or gives the reason why it cannot. -/
  writeLine : String → σ → Except String Unit × σ
  /-- Reads the clock, in nanoseconds. -/
  now : σ → Int64 × σ

end TapeMachine
