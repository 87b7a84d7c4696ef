import TapeMachine.ErrorDerive.Message

/-! What is generated for a type: how each variant is shown, where the source of an error is found,
and which conversions there are.  The first error in the order of the variants is reported; in a
variant the message comes first, then its placeholders, then the conversion. -/

namespace TapeMachine.ErrorDerive

/-- Which fields of a variant a pattern binds. -/
inductive Pattern where
  /-- The variant has no fields. -/
  | unit
  /-- For each field of a tuple its name, if it is bound. -/
  | tuple (bindings : List (Option String))
  /-- The bound names of a variant with named fields. -/
  | named (names : List String)
  deriving DecidableEq, Repr

/-- How a variant is shown. -/
structure DisplayArm where
  variant : String
  pattern : Pattern
  /-- The format string. -/
  message : String
  /-- The names passed to it. -/
  arguments : List String
  deriving DecidableEq, Repr

/-- A field, as code refers to it. -/
inductive Member where
  /-- The field of a name. -/
  | named (name : String)
  /-- The field of a tuple at an index. -/
  | tuple (index : Nat)
  deriving DecidableEq, Repr

/-- A variant with a source. -/
structure SourceArm where
  variant : String
  field : Member
  deriving DecidableEq, Repr

/-- A conversion of a value into a variant. -/
structure Conversion where
  variant : String
  /-- The name of the only field; in a tuple there is none. -/
  field? : Option String
  type : Code
  deriving DecidableEq, Repr

/-- The index and the field that holds the source: the first one marked `source` or `from`. -/
def Fields.source? (fields : Fields) : Option (Nat × Field) :=
  let marked (field : Field) : Bool :=
    field.attributes.contains "source" || field.attributes.contains "from"
  (fields.toList.zipIdx.find? fun entry => marked entry.1).map fun entry => (entry.2, entry.1)

/-- The member that holds the source, if there is one. -/
def Fields.sourceMember? (fields : Fields) : Option Member :=
  fields.source?.map fun (index, field) =>
    match fields with
    | .named _ => .named field.name
    | .unit | .tuple _ => .tuple index

namespace Variant

/-- How a variant is shown. -/
def display (variant : Variant) : Except DeriveError DisplayArm := do
  let message ← Message.ofAttributes s!"variant `{variant.name}`" variant.attributes
  match variant.fields with
  | .unit => return ⟨variant.name, .unit, message, []⟩
  | .tuple fields =>
    let message := Message.forTuple fields.length message
    let used ← Message.names message
    let names := (List.range fields.length).map Message.tupleName
    let bindings := names.map fun name => if name ∈ used then some name else none
    return ⟨variant.name, .tuple bindings, message, names.filter (· ∈ used)⟩
  | .named fields =>
    let used ← Message.names message
    let names := (fields.map Field.name).filter (· ∈ used)
    return ⟨variant.name, .named names, message, names⟩

/-- The source of a variant. -/
def source? (variant : Variant) : Option SourceArm :=
  variant.fields.sourceMember?.map fun field => ⟨variant.name, field⟩

/-- The conversion into a variant with a field marked `from`, which has to be its only one. -/
def conversion (variant : Variant) : Except DeriveError (Option Conversion) :=
  match variant.fields.toList.find? fun field => field.attributes.contains "from" with
  | none => .ok none
  | some field =>
    if variant.fields.toList.length ≠ 1 then .error .crowdedConversion
    else
      let field? := match variant.fields with
        | .named _ => some field.name
        | .unit | .tuple _ => none
      .ok (some ⟨variant.name, field?, field.type⟩)

end Variant

/-- What is generated for an enumeration. -/
structure EnumExpansion where
  display : List DisplayArm
  sources : List SourceArm
  conversions : List Conversion
  deriving DecidableEq, Repr

/-- What is generated for the variants of an enumeration. -/
def expandVariants : List Variant → Except DeriveError EnumExpansion
  | [] => .ok ⟨[], [], []⟩
  | variant :: rest => do
    let display ← variant.display
    let conversion? ← variant.conversion
    let others ← expandVariants rest
    return ⟨display :: others.display, variant.source?.toList ++ others.sources,
      conversion?.toList ++ others.conversions⟩

/-- What is generated for a structure. -/
structure StructExpansion where
  /-- The format string. -/
  message : String
  /-- The arguments of the format string: each name with the member it shows.  A structure without
  brackets takes none. -/
  arguments? : Option (List (String × Member))
  /-- The member that holds the source. -/
  source? : Option Member
  deriving DecidableEq, Repr

/-- What is generated for the fields of a structure with a message. -/
def expandFields (fields : Fields) (message : String) : Except DeriveError StructExpansion :=
  match fields with
  | .unit => .ok ⟨message, none, fields.sourceMember?⟩
  | .named named => do
    let used ← Message.names message
    let names := (named.map Field.name).filter (· ∈ used)
    return ⟨message, some (names.map fun name => (name, .named name)), fields.sourceMember?⟩
  | .tuple tuple => do
    let message := Message.forTuple tuple.length message
    let used ← Message.names message
    let members := (List.range tuple.length).map fun index =>
      (Message.tupleName index, Member.tuple index)
    return ⟨message, some (members.filter fun member => member.1 ∈ used), fields.sourceMember?⟩

/-- What is generated for a type. -/
inductive Expansion where
  | enumeration (expansion : EnumExpansion)
  | record (expansion : StructExpansion)
  deriving DecidableEq, Repr

/-- Finds what is generated for a type. -/
def Item.expand (item : Item) : Except DeriveError Expansion :=
  match item.body with
  | .enumeration variants => (expandVariants variants).map .enumeration
  | .record fields => do
    let message ← Message.ofAttributes s!"type `{item.name}`" item.attributes
    return .record (← expandFields fields message)
  | .union => .error .unionType

end TapeMachine.ErrorDerive
