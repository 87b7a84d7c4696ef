import TapeMachine.Rejection
import TapeMachine.Source.Statement

/-! Diagnostics: rejections with the place in the source that they are about, in one line and as a
picture of the source line with a caret under the token. -/

namespace TapeMachine

/-- A rejection at a place in a source text. -/
structure Diagnostic where
  /-- The number of the line, counted from 1. -/
  line : Nat
  /-- The column of the token at fault, counted from 1. -/
  column : Nat
  /-- The source line. -/
  text : String
  rejection : Rejection
  deriving DecidableEq, Repr

/-- A rejection at a column of a line. -/
def Source.Line.reject (line : Source.Line) (column : Nat) (rejection : Rejection) : Diagnostic :=
  ⟨line.number, column, line.text, rejection⟩

namespace Diagnostic

/-- The place and the rejection, in one line. -/
def message (d : Diagnostic) : String :=
  "line " ++ Text.decimal d.line ++ ":" ++ Text.decimal d.column ++ ": " ++ d.rejection.message

/-- The diagnostic with the source line and a caret under the token.  Carriage returns at the end
of the source line are left out. -/
def render (file : String) (d : Diagnostic) : String :=
  let number := Text.decimal d.line
  let gutter := String.ofList (List.replicate number.length ' ')
  let indent := String.ofList (List.replicate (d.column - 1) ' ')
  let shown := String.ofList (Text.dropEndWhile (· == '\r') d.text.toList)
  s!"error: {d.rejection.message}\n"
    ++ s!"{gutter}--> {file}:{number}:{Text.decimal d.column}\n"
    ++ s!"{gutter} |\n"
    ++ s!"{number} | {shown}\n"
    ++ s!"{gutter} | {indent}^\n"

end Diagnostic

end TapeMachine
