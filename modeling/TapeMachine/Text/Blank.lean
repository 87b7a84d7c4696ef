/-! Blank characters: the separators of source tokens, and what is trimmed from an input line and
from the end of a program text.  The class is the `White_Space` property of Unicode, so it holds
the no-break and ideographic spaces but not the zero-width ones. -/

namespace TapeMachine.Text

/-- The blank code points, as inclusive ranges in increasing order. -/
def blankRanges : List (Nat × Nat) :=
  [(0x09, 0x0D), (0x20, 0x20), (0x85, 0x85), (0xA0, 0xA0), (0x1680, 0x1680), (0x2000, 0x200A),
    (0x2028, 0x2029), (0x202F, 0x202F), (0x205F, 0x205F), (0x3000, 0x3000)]

/-- A character is blank when its code point lies in one of the ranges. -/
def isBlank (c : Char) : Bool :=
  blankRanges.any fun range => range.1 ≤ c.toNat && c.toNat ≤ range.2

/-- The text without the characters of a class at its end. -/
def dropEndWhile (inClass : Char → Bool) (cs : List Char) : List Char :=
  (cs.reverse.dropWhile inClass).reverse

/-- The text without the blanks at its end. -/
def trimEnd (s : String) : String :=
  String.ofList (dropEndWhile isBlank s.toList)

/-- The text without the blanks at both ends. -/
def trim (s : String) : String :=
  String.ofList (dropEndWhile isBlank (s.toList.dropWhile isBlank))

end TapeMachine.Text
