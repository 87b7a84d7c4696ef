import TapeMachine.Clock
import TapeMachine.Timestamp
import TapeMachine.Text.Blank
import TapeMachine.Trace

/-! Trace logs: the text of a program followed by one line with a timestamp for every executed
instruction. -/

namespace TapeMachine

/-- A clock that hides the time. -/
def Clock.hidden : Clock Timestamp :=
  .stopped .hidden

namespace Trace

/-- A sink that keeps the lines of a trace log. -/
structure Log where
  /-- The source text of the program. -/
  program : String
  /-- The clock that is read for each new line. -/
  clock : Clock Timestamp
  /-- The lines so far, with their timestamps. -/
  lines : Array String

namespace Log

/-- A log without lines. -/
def start (program : String) (clock : Clock Timestamp) : Log :=
  ⟨program, clock, #[]⟩

/-- The log whose new lines all get one time. -/
def atTime (log : Log) (time : Timestamp) : Log :=
  { log with clock := .stopped time }

/-- Adds a line. -/
def note (log : Log) (text : String) : Log :=
  let (time, clock) := log.clock.now
  { log with clock, lines := log.lines.push (time.traceText ++ ":  \t" ++ text) }

instance : Sink Log where
  enabled _ := true
  record log entry := log.note entry.text

/-- The number of lines after the program. -/
def length (log : Log) : Nat :=
  log.lines.size

/-- The whole text: the program without blanks at its end, an empty line and the lines. -/
def render (log : Log) : String :=
  log.lines.foldl (fun text line => text ++ line ++ "\n") (Text.trimEnd log.program ++ "\n\n")

end Log

end Trace

end TapeMachine
