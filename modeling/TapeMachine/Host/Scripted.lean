import TapeMachine.Host

/-! A host in memory: its input lines are given beforehand, its output lines are kept, and its clock
advances by a fixed step with every reading. -/

namespace TapeMachine.Host

/-- A console with given input and kept output, and a clock with a fixed step. -/
structure Scripted where
  /-- The lines not yet read. -/
  input : List String
  /-- The lines written so far. -/
  output : Array String
  /-- The next clock reading. -/
  clock : Int64
  /-- How far a reading advances the clock; it wraps around. -/
  clockStep : Int64
  deriving DecidableEq, Repr

namespace Scripted

/-- A host that has not been used yet. -/
def ofInput (input : List String) (clock clockStep : Int64) : Scripted :=
  ⟨input, #[], clock, clockStep⟩

instance : Host Scripted where
  readLine host :=
    match host.input with
    | [] => (.ok "", host)
    | line :: rest => (.ok line, { host with input := rest })
  writeLine line host := (.ok (), { host with output := host.output.push line })
  now host := (host.clock, { host with clock := host.clock + host.clockStep })

end Scripted

end TapeMachine.Host
