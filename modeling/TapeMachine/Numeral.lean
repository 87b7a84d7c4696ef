import TapeMachine.Text.Layout

/-! Decimal numerals.  A numeral is an optional sign and one or more decimal digits; leading zeros
are allowed and blanks are not.  A cell value or address is a signed numeral that fits in 64 bits,
and a size or limit an unsigned one. -/

namespace TapeMachine.Numeral

/-- A decimal digit, `0` to `9`. -/
def isDigit (c : Char) : Bool :=
  '0' ≤ c && c ≤ '9'

/-- The number that one or more digits write. -/
def digits? (cs : List Char) : Option Nat :=
  if cs.isEmpty || !cs.all isDigit then none else some (Nat.ofDigitChars 10 cs 0)

/-- The integer that digits after at most one sign write. -/
def signed? : List Char → Option Int
  | '-' :: cs => (digits? cs).map fun n => -(n : Int)
  | '+' :: cs => (digits? cs).map Int.ofNat
  | cs => (digits? cs).map Int.ofNat

/-- The cell value that a signed numeral writes, if it fits in 64 bits. -/
def int64? (s : String) : Option Int64 :=
  (signed? s.toList).bind fun v =>
    if Int64.minValue.toInt ≤ v ∧ v ≤ Int64.maxValue.toInt then some (Int64.ofInt v) else none

/-- The number that digits after at most one `+` write, if it fits in 64 bits. -/
def natural64? (s : String) : Option Nat :=
  let read (cs : List Char) : Option Nat :=
    (digits? cs).bind fun n => if n < UInt64.size then some n else none
  match s.toList with
  | '+' :: cs => read cs
  | cs => read cs

/-- An integer in decimal, with a minus sign if it is negative. -/
def ofInt (v : Int) : String :=
  if v < 0 then "-" ++ Text.decimal v.natAbs else Text.decimal v.natAbs

/-- A cell value in decimal. -/
def ofInt64 (v : Int64) : String :=
  ofInt v.toInt

end TapeMachine.Numeral
