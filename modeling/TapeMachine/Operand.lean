import TapeMachine.Numeral

/-! Operands, and the tokens that write them.  An operand is a signed payload and a mark that says
whether the payload is used itself or names the cell that holds the address. -/

namespace TapeMachine

/-- One operand of an instruction. -/
structure Operand where
  /-- A literal, an address, or a position in the program. -/
  payload : Int64
  /-- Whether the payload names a cell that holds the address, instead of being it. -/
  isReference : Bool
  deriving DecidableEq, Repr

namespace Operand

/-- An operand used as it stands. -/
def direct (payload : Int64) : Operand :=
  ⟨payload, false⟩

/-- An operand whose payload names the cell that holds the address. -/
def reference (payload : Int64) : Operand :=
  ⟨payload, true⟩

/-- The source form of an operand: the payload, after `&` for a reference. -/
def text (operand : Operand) : String :=
  if operand.isReference then "&" ++ Numeral.ofInt64 operand.payload
  else Numeral.ofInt64 operand.payload

/-- An operand token without its mark or quotes. -/
structure Spelling where
  /-- The text of the payload. -/
  body : String
  /-- Whether the token starts with `&`. -/
  isReference : Bool
  deriving DecidableEq, Repr

/-- The text without one pair of surrounding quotes.  Quotes carry no meaning, and a text that is
not wrapped in a pair keeps them. -/
def unquote (cs : List Char) : List Char :=
  match cs with
  | '\x27' :: rest => if rest.getLast? = some '\x27' then rest.dropLast else cs
  | _ => cs

/-- Reads the mark or the quotes of an operand token: `&` makes a reference and keeps all that
follows it; without it a pair of quotes is removed. -/
def spelling (token : String) : Spelling :=
  match token.toList with
  | '&' :: rest => ⟨String.ofList rest, true⟩
  | cs => ⟨String.ofList (unquote cs), false⟩

end Operand

end TapeMachine
