import TapeMachine.ErrorDerive.Lexeme

/-! Descriptions of the Rust types for which error code is generated: enumerations and structures
with their attributes, fields and generic parameters. -/

namespace TapeMachine.ErrorDerive

/-- What an attribute holds after its path. -/
inductive Argument where
  /-- Nothing. -/
  | none
  /-- A value after an equals sign. -/
  | value (text : String)
  /-- Lexemes in parentheses. -/
  | list (code : Code)
  deriving DecidableEq, Repr

/-- An attribute. -/
structure Attribute where
  path : String
  argument : Argument
  deriving DecidableEq, Repr

/-- A field of a type or variant. -/
structure Field where
  /-- The name; a field of a tuple has none that counts. -/
  name : String
  type : Code
  /-- The paths of its attributes. -/
  attributes : List String
  deriving DecidableEq, Repr

/-- The fields of a type or variant. -/
inductive Fields where
  /-- No fields and no brackets. -/
  | unit
  /-- Fields with names, in braces. -/
  | named (fields : List Field)
  /-- Fields without names, in parentheses. -/
  | tuple (fields : List Field)
  deriving DecidableEq, Repr

/-- The fields in order. -/
def Fields.toList : Fields → List Field
  | unit => []
  | named fields | tuple fields => fields

/-- A variant of an enumeration. -/
structure Variant where
  name : String
  attributes : List Attribute
  fields : Fields
  deriving DecidableEq, Repr

/-- A generic parameter.  The name of a lifetime starts with a quote. -/
structure Parameter where
  name : String
  /-- The bounds, which may be empty. -/
  bounds : Code
  deriving DecidableEq, Repr

/-- What a type is made of. -/
inductive Body where
  | enumeration (variants : List Variant)
  | record (fields : Fields)
  | union
  deriving DecidableEq, Repr

/-- A type. -/
structure Item where
  name : String
  attributes : List Attribute
  parameters : List Parameter
  /-- The bounds after `where`, which may be empty. -/
  conditions : Code
  body : Body
  deriving DecidableEq, Repr

end TapeMachine.ErrorDerive
