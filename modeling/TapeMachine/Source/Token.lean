import TapeMachine.Text.Blank

/-! The tokens of a source line: its longest runs of characters that are not blank, up to the first
one that starts a comment. -/

namespace TapeMachine.Source

/-- A word of a source line. -/
structure Token where
  text : String
  /-- The place of its first character in the line, counted from 1. -/
  column : Nat
  deriving DecidableEq, Repr

namespace Token

/-- The token of a finished word, given backwards with the column after it, in front of the tokens
that follow.  An empty word is none. -/
def finish (column : Nat) (reversed : List Char) (following : List Token) : List Token :=
  if reversed.isEmpty then following
  else ⟨String.ofList reversed.reverse, column - reversed.length⟩ :: following

/-- The words of a line from `column` on, after the characters `reversed` of an unfinished word. -/
def wordsFrom (column : Nat) (reversed : List Char) : List Char → List Token
  | [] => finish column reversed []
  | c :: cs =>
    if Text.isBlank c then finish column reversed (wordsFrom (column + 1) [] cs)
    else wordsFrom (column + 1) (c :: reversed) cs

/-- A token that starts with two slashes opens a comment. -/
def opensComment (token : Token) : Bool :=
  "//".toList.isPrefixOf token.text.toList

/-- The name that a token defines as a label: a name without colons followed by a colon. -/
def label? (token : Token) : Option String :=
  match token.text.toList.reverse with
  | ':' :: name =>
    if name.isEmpty || name.contains ':' then none else some (String.ofList name.reverse)
  | _ => none

end Token

/-- The tokens of a line, without its comment. -/
def tokenize (line : String) : List Token :=
  (Token.wordsFrom 1 [] line.toList).takeWhile fun token => !token.opensComment

end TapeMachine.Source
