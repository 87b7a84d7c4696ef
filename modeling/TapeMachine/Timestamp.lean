import TapeMachine.Calendar
import TapeMachine.Text.Layout

/-! Timestamps: times of day in the calendar, as log lines and trace lines show them. -/

namespace TapeMachine

/-- The nanoseconds of a second. -/
def nanosPerSecond : Nat := 1000000000

/-- A time, as the seconds from the start of 1970 rounded down and the nanoseconds after them. -/
structure Moment where
  seconds : Int
  nanos : Nat
  deriving DecidableEq, Repr

/-- The time at a number of nanoseconds from the start of 1970. -/
def Moment.ofNanos (nanos : Int) : Moment :=
  ⟨nanos.fdiv nanosPerSecond, (nanos.fmod nanosPerSecond).toNat⟩

/-- The time at a distance after or before the start of 1970, if its seconds fit in 64 bits. -/
def Moment.atOffset? (seconds nanos : Nat) (before : Bool) : Option Moment :=
  let distance : Int := seconds * nanosPerSecond + nanos
  let moment := ofNanos (if before then -distance else distance)
  if Int64.minValue.toInt ≤ moment.seconds ∧ moment.seconds ≤ Int64.maxValue.toInt then some moment
  else none

/-- A time in calendar fields. -/
structure Timestamp where
  /-- The year, modulo `2^32`. -/
  year : Nat
  month : Nat
  day : Nat
  hour : Nat
  minute : Nat
  second : Nat
  micros : Nat
  deriving DecidableEq, Repr

namespace Timestamp

/-- The timestamp of a time after the start of 1970. -/
def ofSeconds (seconds nanos : Nat) : Timestamp :=
  let date := Calendar.Date.ofDays (seconds / 86400)
  { year := date.year % UInt32.size
    month := date.month
    day := date.day
    hour := seconds / 3600 % 24
    minute := seconds / 60 % 60
    second := seconds % 60
    micros := nanos / 1000 }

/-- The timestamp of a time.  Times before 1970 are shown as its start. -/
def ofMoment (moment : Moment) : Timestamp :=
  if moment.seconds < 0 then ofSeconds 0 0 else ofSeconds moment.seconds.toNat moment.nanos

/-- The timestamp whose fields are all zero, for texts that hide the time. -/
def hidden : Timestamp :=
  ⟨0, 0, 0, 0, 0, 0, 0⟩

/-- The time of day, to the second. -/
def clockText (t : Timestamp) : String :=
  Text.zeroPad 2 t.hour ++ ":" ++ Text.zeroPad 2 t.minute ++ ":" ++ Text.zeroPad 2 t.second

/-- The form in log lines, to the millisecond. -/
def logText (t : Timestamp) : String :=
  Text.zeroPad 4 t.year ++ "-" ++ Text.zeroPad 2 t.month ++ "-" ++ Text.zeroPad 2 t.day ++ " "
    ++ t.clockText ++ "." ++ Text.zeroPad 3 (t.micros / 1000)

/-- The form in trace lines, to the microsecond. -/
def traceText (t : Timestamp) : String :=
  Text.zeroPad 4 t.year ++ "/" ++ Text.zeroPad 2 t.month ++ "/" ++ Text.zeroPad 2 t.day ++ " - "
    ++ t.clockText ++ "." ++ Text.zeroPad 6 t.micros

end Timestamp

end TapeMachine
