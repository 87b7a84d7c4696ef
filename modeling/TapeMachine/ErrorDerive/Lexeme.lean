import TapeMachine.Text.Blank
import TapeMachine.Text.Invisible
import TapeMachine.Numeral

/-! The lexemes of Rust texts, and how code is written from them: one blank between two lexemes and
no other layout.  Brackets and punctuation are one character each, so `::` is two lexemes and a
lifetime is a quote and a name. -/

namespace TapeMachine.ErrorDerive

/-- The smallest parts of a text. -/
inductive Lexeme where
  /-- A name, which may be a keyword, a raw name or `_`. -/
  | name (text : String)
  /-- A number. -/
  | number (text : String)
  /-- A string, given by its value. -/
  | string (value : String)
  /-- A character, or another literal in quotes that is no string. -/
  | quoted (text : String)
  /-- A bracket or one character of punctuation. -/
  | mark (c : Char)
  deriving DecidableEq, Repr

/-- A sequence of lexemes. -/
abbrev Code := List Lexeme

namespace Lexeme

/-- The digits of a number in base 16. -/
def hexDigits (n : Nat) : List Char :=
  Nat.toDigits 16 n

/-- How a string literal shows one of its characters, before the given rest.  A zero before an octal
digit is written so that the digit cannot belong to it. -/
def escape (c : Char) (rest : List Char) : List Char :=
  if c = '\x00' then
    match rest with
    | next :: _ => if '0' ≤ next ∧ next ≤ '7' then "\\x00".toList else "\\0".toList
    | [] => "\\0".toList
  else if c = '\t' then "\\t".toList
  else if c = '\r' then "\\r".toList
  else if c = '\n' then "\\n".toList
  else if c = '"' then "\\\"".toList
  else if c = '\\' then "\\\\".toList
  else if Text.isInvisible c then "\\u\x7b".toList ++ hexDigits c.toNat ++ ['\x7d']
  else [c]

/-- The characters of a string literal between its quotes. -/
def escapeAll : List Char → List Char
  | [] => []
  | c :: rest => escape c rest ++ escapeAll rest

/-- The text of a lexeme. -/
def text : Lexeme → String
  | name text | number text | quoted text => text
  | string value => "\"" ++ String.ofList (escapeAll value.toList) ++ "\""
  | mark c => String.ofList [c]

/-- A character that starts a name. -/
def startsName (c : Char) : Bool :=
  c.isAlpha || c = '_' || (127 < c.toNat && !Text.isBlank c)

/-- A character that continues a name or a number. -/
def continuesName (c : Char) : Bool :=
  startsName c || Numeral.isDigit c

/-- The characters of a string literal after its opening quote, with its value backwards so far: the
value and what follows the closing quote. -/
def readString (reversed : List Char) : List Char → Option (String × List Char)
  | [] => none
  | '"' :: rest => some (String.ofList reversed.reverse, rest)
  | '\\' :: 'n' :: rest => readString ('\n' :: reversed) rest
  | '\\' :: 't' :: rest => readString ('\t' :: reversed) rest
  | '\\' :: 'r' :: rest => readString ('\r' :: reversed) rest
  | '\\' :: '0' :: rest => readString ('\x00' :: reversed) rest
  | '\\' :: c :: rest => readString (c :: reversed) rest
  | c :: rest => readString (c :: reversed) rest

/-- The fraction after the whole part of a number: a point and the digits that follow it.  A point
before another point or a name is no fraction. -/
def fraction : List Char → List Char
  | '.' :: c :: rest =>
    if Numeral.isDigit c then '.' :: c :: rest.takeWhile continuesName
    else if c = '.' || startsName c then []
    else ['.']
  | ['.'] => ['.']
  | _ => []

/-- The rest of a signed exponent after the digits of a number that end in its mark.  In base 16 the
mark is a digit. -/
def exponent (digits : List Char) : List Char → List Char
  | sign :: c :: rest =>
    let marked := digits[1]? ≠ some 'x' && (digits.getLast?).any (· ∈ ['e', 'E'])
    if marked && (sign = '+' || sign = '-') && Numeral.isDigit c then
      sign :: c :: rest.takeWhile continuesName
    else []
  | _ => []

/-- The character literal at a quote, up to its closing quote; a lifetime is none. -/
def character : List Char → List Char
  | '\x27' :: '\\' :: c :: rest => '\x27' :: '\\' :: c :: rest.takeWhile (· ≠ '\x27') ++ ['\x27']
  | '\x27' :: c :: '\x27' :: _ => ['\x27', c, '\x27']
  | _ => []

/-- The first lexeme of a text that starts with no blank, and what follows it. -/
def first (c : Char) (rest : List Char) : Lexeme × List Char :=
  let cs := c :: rest
  if c = '"' then
    match readString [] rest with
    | some (value, rest) => (.string value, rest)
    | none => (.mark c, rest)
  else if c = '\x27' then
    let literal := character cs
    if literal.isEmpty then (.mark c, rest)
    else (.quoted (String.ofList literal), cs.drop literal.length)
  else if Numeral.isDigit c then
    let whole := cs.takeWhile continuesName
    let digits := whole ++ fraction (cs.drop whole.length)
    let digits := digits ++ exponent digits (cs.drop digits.length)
    (.number (String.ofList digits), cs.drop digits.length)
  else if startsName c then
    match cs with
    | 'r' :: '#' :: d :: more =>
      if startsName d then
        let raw := d :: more.takeWhile continuesName
        (.name (String.ofList ('r' :: '#' :: raw)), more.dropWhile continuesName)
      else (.name "r", rest)
    | _ => (.name (String.ofList (cs.takeWhile continuesName)), cs.dropWhile continuesName)
  else (.mark c, rest)

/-- The lexemes of a text, at most `fuel` of its characters being looked at as a first one. -/
def splitWith (fuel : Nat) (cs : List Char) : Code :=
  match fuel, cs with
  | 0, _ => []
  | _, [] => []
  | fuel + 1, c :: rest =>
    if Text.isBlank c then splitWith fuel rest
    else
      let (lexeme, rest) := first c rest
      lexeme :: splitWith fuel rest

end Lexeme

namespace Code

/-- The lexemes of a text.  Each takes at least one character, so there are no more of them than
characters. -/
def ofText (text : String) : Code :=
  Lexeme.splitWith text.length text.toList

/-- The text of code. -/
def text (code : Code) : String :=
  " ".intercalate (code.map Lexeme.text)

/-- Code in braces. -/
def braces (code : Code) : Code :=
  [.mark '\x7b'] ++ code ++ [.mark '\x7d']

/-- Code in parentheses. -/
def parentheses (code : Code) : Code :=
  [.mark '('] ++ code ++ [.mark ')']

/-- A comma. -/
def comma : Code := [.mark ',']

/-- Pieces of code with commas between them. -/
def separated (pieces : List Code) : Code :=
  comma.intercalate pieces

end Code

end TapeMachine.ErrorDerive
