import TapeMachine.Timestamp

/-! Log lines: messages with a level, shown if the level is high enough.  A line has a timestamp,
the level and the message, and on a colour terminal the colour of its level. -/

namespace TapeMachine.Log

/-- How important a message is, from the least. -/
inductive Level where
  | debug
  | info
  | warn
  | error
  deriving DecidableEq, Repr

namespace Level

/-- The rank of a level. -/
def code : Level → Nat
  | debug => 0
  | info => 1
  | warn => 2
  | error => 3

/-- The name of a level in log lines. -/
def name : Level → String
  | debug => "DEBUG"
  | info => "INFO"
  | warn => "WARN"
  | error => "ERROR"

/-- The terminal codes that set the colour of a level. -/
def colour : Level → String
  | debug => "\x1b[2m\x1b[36m"
  | info => ""
  | warn => "\x1b[1m\x1b[33m"
  | error => "\x1b[1m\x1b[31m"

end Level

/-- The terminal code that ends all colours. -/
def plain : String := "\x1b[0m"

/-- Which messages are shown, and how. -/
structure Settings where
  /-- The lowest level shown. -/
  minimum : Level := .info
  showTimestamp : Bool := true
  showLevel : Bool := true
  colour : Bool := false
  deriving DecidableEq, Repr

/-- The line of a message, or nothing if its level is below the minimum. -/
def Settings.line (settings : Settings) (time : Timestamp) (level : Level) (message : String) :
    String :=
  if level.code < settings.minimum.code then ""
  else
    (if settings.colour then plain ++ level.colour else "")
      ++ (if settings.showTimestamp then time.logText ++ " " else "")
      ++ (if settings.showLevel then s!"[{level.name}] " else "")
      ++ message ++ "\n"
      ++ (if settings.colour then plain else "")

end TapeMachine.Log
