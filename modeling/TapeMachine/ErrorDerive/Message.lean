import TapeMachine.ErrorDerive.Item

/-! Display messages: format strings in which a name in braces stands for a field.  A brace that is
text is written twice, and what follows a colon up to the closing brace says how the field is
shown. -/

namespace TapeMachine.ErrorDerive

/-- Why no code is generated. -/
inductive DeriveError where
  /-- No attribute gives the message of the named variant or type. -/
  | missingMessage (target : String)
  /-- The attribute has no parentheses. -/
  | notAList
  /-- The parentheses do not hold one literal. -/
  | notALiteral
  /-- The literal is no string. -/
  | notAString
  /-- A placeholder names no field. -/
  | implicitArgument
  /-- A variant that is converted from a field has other fields too. -/
  | crowdedConversion
  /-- The type is a union. -/
  | unionType
  deriving DecidableEq, Repr

/-- The words for an error. -/
def DeriveError.message : DeriveError → String
  | missingMessage target =>
    s!"missing #[error(\"...\")] attribute on {target}; "
      ++ "every error variant must declare a display message"
  | notAList => "invalid #[error] attribute; use #[error(\"message\")] to describe the error"
  | notALiteral =>
    "failed to parse #[error] attribute; "
      ++ "expected a string literal like #[error(\"unknown label: \x7b0\x7d\")]"
  | notAString =>
    "invalid #[error] attribute: message must be a string literal, "
      ++ "e.g. #[error(\"division by zero\")]"
  | implicitArgument =>
    "implicit `\x7b\x7d` arguments are not supported in #[error]; "
      ++ "name the field or use `\x7b0\x7d`"
  | crowdedConversion => "#[from] is only supported on variants with exactly one field"
  | unionType => "Error derive does not support unions"

namespace Message

/-- The string that parentheses hold, which have to hold one literal and that a string.  Truth
values are literals, and so are numbers after a minus sign. -/
def ofCode : Code → Except DeriveError String
  | [.string value] => .ok value
  | [.number _] | [.quoted _] | [.mark '-', .number _] => .error .notAString
  | [.name word] =>
    if word = "true" ∨ word = "false" then .error .notAString else .error .notALiteral
  | _ => .error .notALiteral

/-- The message of a variant or type, from its first attribute with the path `error`. -/
def ofAttributes (target : String) : List Attribute → Except DeriveError String
  | [] => .error (.missingMessage target)
  | first :: rest =>
    if first.path = "error" then
      match first.argument with
      | .list code => ofCode code
      | .none | .value _ => .error .notAList
    else ofAttributes target rest

/-- The texts in the placeholders of a message, in order, up to their first colon.  The first
argument holds, backwards, the characters of the placeholder that is being read. -/
def placeholdersFrom : Option (List Char) → List Char → List (List Char)
  | none, [] => []
  | none, '\x7b' :: '\x7b' :: rest => placeholdersFrom none rest
  | none, '\x7b' :: rest => placeholdersFrom (some []) rest
  | none, _ :: rest => placeholdersFrom none rest
  | some reversed, [] => [reversed.reverse]
  | some reversed, c :: rest =>
    if c = '\x7d' ∨ c = ':' then reversed.reverse :: placeholdersFrom none rest
    else placeholdersFrom (some (c :: reversed)) rest

/-- The elements of a list, each where it first occurs. -/
def distinct (seen : List String) : List String → List String
  | [] => []
  | x :: rest => if x ∈ seen then distinct seen rest else x :: distinct (x :: seen) rest

/-- The names that a message uses, without blanks around them, each once in the order of first use.
A placeholder without a name is an error. -/
def names (message : String) : Except DeriveError (List String) :=
  let names := (placeholdersFrom none message.toList).map fun cs => Text.trim (String.ofList cs)
  if "" ∈ names then .error .implicitArgument else .ok (distinct [] names)

/-- A text with every occurrence of a pattern replaced, from the left; the first `skip` characters
belong to an occurrence already replaced. -/
def replaceFrom (pattern replacement : List Char) (skip : Nat) : List Char → List Char
  | [] => []
  | c :: rest =>
    if 0 < skip then replaceFrom pattern replacement (skip - 1) rest
    else if pattern.isPrefixOf (c :: rest) then
      replacement ++ replaceFrom pattern replacement (pattern.length - 1) rest
    else c :: replaceFrom pattern replacement 0 rest

/-- The name by which a message uses the field of a tuple. -/
def tupleName (index : Nat) : String :=
  "f" ++ Text.decimal index

/-- A text in which the placeholders of one field of a tuple use its name. -/
def nameField (index : Nat) (cs : List Char) : List Char :=
  let before := '\x7b' :: (Text.decimal index).toList
  let after := '\x7b' :: (tupleName index).toList
  replaceFrom (before ++ [':']) (after ++ [':']) 0
    (replaceFrom (before ++ ['\x7d']) (after ++ ['\x7d']) 0 cs)

/-- A text in which the placeholders of the first `count` fields of a tuple use their names, the
last field first. -/
def nameFields : Nat → List Char → List Char
  | 0, cs => cs
  | count + 1, cs => nameFields count (nameField count cs)

/-- The message of a tuple of `count` fields, in which numbers have become names. -/
def forTuple (count : Nat) (message : String) : String :=
  String.ofList (nameFields count message.toList)

end Message

end TapeMachine.ErrorDerive
