import TapeMachine.Source.Token
import TapeMachine.Text.Lines

/-! Statements: the source lines that say something.  A statement defines a label, holds an
instruction, or does both; lines with nothing but blanks and comments are no statements. -/

namespace TapeMachine.Source

/-- A line of a source text. -/
structure Line where
  /-- The place of the line in the text, counted from 1. -/
  number : Nat
  text : String
  deriving DecidableEq, Repr

/-- The definition of a label. -/
structure Label where
  name : String
  /-- The column of the token that defines it. -/
  column : Nat
  deriving DecidableEq, Repr

/-- The tokens of an instruction. -/
structure Code where
  mnemonic : Token
  operands : List Token
  deriving DecidableEq, Repr

/-- The instruction that tokens write, if there are any. -/
def Code.ofTokens? : List Token → Option Code
  | [] => none
  | mnemonic :: operands => some ⟨mnemonic, operands⟩

/-- A line that defines a label or holds an instruction. -/
structure Statement extends Line where
  label? : Option Label
  code? : Option Code
  deriving DecidableEq, Repr

/-- What a line says: a first token of the form `name:` defines a label, and the other tokens are
an instruction. -/
def Statement.ofLine? (line : Line) : Option Statement :=
  match tokenize line.text with
  | [] => none
  | first :: rest =>
    match first.label? with
    | some name => some ⟨line, some ⟨name, first.column⟩, Code.ofTokens? rest⟩
    | none => some ⟨line, none, some ⟨first, rest⟩⟩

/-- The statements of a source text, in order. -/
def statements (source : String) : List Statement :=
  ((Text.lines source).zipIdx 1).filterMap fun (text, number) => Statement.ofLine? ⟨number, text⟩

end TapeMachine.Source
