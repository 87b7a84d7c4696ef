/-! Layout of numbers and fields: numbers padded with zeros or grouped by commas, and texts padded
with blanks to a number of characters. -/

namespace TapeMachine.Text

/-- A number in decimal. -/
def decimal (n : Nat) : String :=
  String.ofList (Nat.toDigits 10 n)

/-- A number in decimal, with zeros in front up to `width` digits. -/
def zeroPad (width n : Nat) : String :=
  let digits := Nat.toDigits 10 n
  String.ofList (List.replicate (width - digits.length) '0' ++ digits)

/-- The text followed by blanks, up to `width` characters. -/
def padRight (width : Nat) (s : String) : String :=
  s ++ String.ofList (List.replicate (width - s.length) ' ')

/-- The text after blanks, up to `width` characters. -/
def padLeft (width : Nat) (s : String) : String :=
  String.ofList (List.replicate (width - s.length) ' ') ++ s

/-- Digits with a comma before every third one, counted from the end, except the first. -/
def groupDigits : List Char → List Char
  | [] => []
  | [d] => [d]
  | d :: ds => if ds.length % 3 = 0 then d :: ',' :: groupDigits ds else d :: groupDigits ds

/-- A number in decimal, in groups of three digits. -/
def grouped (n : Nat) : String :=
  String.ofList (groupDigits (Nat.toDigits 10 n))

end TapeMachine.Text
