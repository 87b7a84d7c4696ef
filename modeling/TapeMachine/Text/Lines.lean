/-! The lines of a text.  A line feed ends a line and a carriage return just before it belongs to
the line end.  What follows the last line feed is a line only if it is not empty, and it keeps a
final carriage return. -/

namespace TapeMachine.Text

/-- A line read backwards, put in order without the carriage return before its line feed. -/
def endLine : List Char → List Char
  | '\r' :: reversed => reversed.reverse
  | reversed => reversed.reverse

/-- The lines of a text whose first characters, `reversed`, are already taken. -/
def linesFrom (reversed : List Char) : List Char → List (List Char)
  | [] => if reversed.isEmpty then [] else [reversed.reverse]
  | c :: cs =>
    if c = '\n' then endLine reversed :: linesFrom [] cs else linesFrom (c :: reversed) cs

/-- The lines of a text, without their line ends. -/
def lines (s : String) : List String :=
  (linesFrom [] s.toList).map String.ofList

end TapeMachine.Text
