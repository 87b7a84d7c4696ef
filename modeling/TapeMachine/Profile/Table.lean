import TapeMachine.Profile
import TapeMachine.Text.Layout

/-! The table that shows a profile: a row for every category that was executed, with its count and
its share of the total, and a row for the total. -/

namespace TapeMachine

/-- A quotient rounded to the nearest number, and to the even one of two that are equally near. -/
def roundQuotient (num den : Nat) : Nat :=
  let quotient := num / den
  let rest := num % den
  if den < 2 * rest || den == 2 * rest && quotient % 2 == 1 then quotient + 1 else quotient

/-- The tenths of a finite positive number, rounded from its exact binary value. -/
def tenths (x : Float) : Nat :=
  let bits := x.toBits.toNat
  let exponent := (bits >>> 52) % 0x800
  let fraction := bits % 0x10000000000000
  let mantissa := if exponent = 0 then fraction else fraction + 0x10000000000000
  let shift := if exponent = 0 then 1 else exponent
  if 1075 ≤ shift then (mantissa <<< (shift - 1075)) * 10
  else roundQuotient (mantissa * 10) (1 <<< (1075 - shift))

namespace Profile

/-- A number of tenths with one decimal place, in at least five characters. -/
def percentText (n : Nat) : String :=
  Text.padLeft 5 (Text.decimal (n / 10) ++ "." ++ Text.decimal (n % 10))

/-- The share of a count in a total, in tenths of a percent. -/
def share (count total : Nat) : Nat :=
  tenths (Float.ofNat count / Float.ofNat total * 100)

/-- The greatest number of a list. -/
def greatest (numbers : List Nat) : Nat :=
  numbers.foldl max 0

/-- The width of the column of names. -/
def nameWidth : Nat :=
  2 + max (greatest (Category.all.map fun category => category.name.length)) "total".length

/-- The width of the column of counts. -/
def countWidth (p : Profile) : Nat :=
  max (greatest (p.counts.map fun entry => (Text.grouped entry.2).length))
    (Text.grouped p.total).length

/-- A row of the table. -/
def row (p : Profile) (name : String) (count percent : Nat) : String :=
  Text.padRight nameWidth name ++ " " ++ Text.padLeft p.countWidth (Text.grouped count)
    ++ " (" ++ percentText percent ++ "%)\n"

/-- The line above and below the rows of the categories. -/
def ruler (p : Profile) : String :=
  String.ofList (List.replicate (nameWidth + 1 + p.countWidth + 2 + "( 100.0%)".length) '-') ++ "\n"

/-- The rows of the categories that were executed. -/
def rows (p : Profile) : List String :=
  (p.counts.filter fun entry => entry.2 ≠ 0).map fun entry =>
    p.row entry.1.name entry.2 (share entry.2 p.total)

/-- The table of a profile. -/
def table (p : Profile) : String :=
  "Cycle Profile:\n" ++ p.ruler ++ String.join p.rows ++ p.ruler ++ p.row "total" p.total 1000

end Profile

end TapeMachine
