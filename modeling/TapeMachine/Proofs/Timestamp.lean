import TapeMachine.Proofs.Calendar
import TapeMachine.Timestamp

/-! Timestamps tell the time: the seconds from the start of 1970 are those of the whole days before
the date and of the time of day. -/

namespace TapeMachine.Timestamp

open Calendar

/-- A timestamp shows a date, of its year the last 32 bits, and a time of that day, which together
are so many seconds and nanoseconds after the start of 1970. -/
structure Tells (t : Timestamp) (date : Date) (seconds nanos : Nat) : Prop where
  year : t.year = date.year % 0x100000000
  month : t.month = date.month
  day : t.day = date.day
  hour : t.hour < 24
  minute : t.minute < 60
  second : t.second < 60
  seconds : date.daysFromEpoch * 86400 + t.hour * 3600 + t.minute * 60 + t.second = seconds
  micros : t.micros = nanos / 1000

theorem ofSeconds_tells (seconds nanos : Nat) :
    (ofSeconds seconds nanos).Tells (Date.ofDays (seconds / 86400)) seconds nanos where
  year := rfl
  month := rfl
  day := rfl
  hour := Nat.mod_lt _ (by decide)
  minute := Nat.mod_lt _ (by decide)
  second := Nat.mod_lt _ (by decide)
  seconds := by
    rw [Date.daysFromEpoch_ofDays]
    simp only [ofSeconds]
    omega
  micros := rfl

theorem ofMoment_of_nonneg {moment : Moment} (h : 0 ≤ moment.seconds) :
    ofMoment moment = ofSeconds moment.seconds.toNat moment.nanos := by
  rw [ofMoment, if_neg (by omega)]

/-- The timestamp of a time from 1970 on shows a date of the calendar and a time of day that
together are that time, and is found with numbers that fit in words; a time before 1970 is shown as
its start.  The day after a day has the next date of the calendar. -/
theorem ofMoment_tells_time (moment : Moment) (h : moment.seconds < 0x8000000000000000) :
    (0 ≤ moment.seconds →
      ∃ date : Date, date.Valid ∧ 1970 ≤ date.year ∧
        (ofMoment moment).Tells date moment.seconds.toNat moment.nanos ∧
        InWords (moment.seconds.toNat / 86400)) ∧
    (moment.seconds < 0 → ofMoment moment = ⟨1970, 1, 1, 0, 0, 0, 0⟩) ∧
    ∀ days, Date.ofDays (days + 1) = (Date.ofDays days).next := by
  refine ⟨fun hFrom => ?_, fun hBefore => ?_, Date.ofDays_succ⟩
  · rw [ofMoment_of_nonneg hFrom]
    exact ⟨_, Date.ofDays_valid _, Date.ofDays_year _, ofSeconds_tells _ _,
      inWords_of_lt (by omega)⟩
  · rw [ofMoment, if_pos hBefore]
    rfl

/-- The last time whose seconds fit in 64 bits.  Its year does not fit in 32. -/
def lastMoment : Moment :=
  ⟨0x7FFFFFFFFFFFFFFF, 999999999⟩

theorem ofMoment_tells_time_lastMoment :
    ofMoment lastMoment = ⟨219250468, 12, 4, 15, 30, 7, 999999⟩ ∧
    (∃ date : Date, date.Valid ∧ 1970 ≤ date.year ∧
      (ofMoment lastMoment).Tells date 0x7FFFFFFFFFFFFFFF 999999999 ∧
      InWords (0x7FFFFFFFFFFFFFFF / 86400)) ∧
    ofMoment ⟨-1, 999999999⟩ = ⟨1970, 1, 1, 0, 0, 0, 0⟩ := by
  obtain ⟨hFrom, -⟩ := ofMoment_tells_time lastMoment (by decide)
  obtain ⟨-, hBefore, -⟩ := ofMoment_tells_time ⟨-1, 999999999⟩ (by decide)
  exact ⟨by decide +kernel, hFrom (by decide), hBefore (by decide)⟩

end TapeMachine.Timestamp
