import TapeMachine.ErrorDerive.Expansion

/-! The code that is generated for a type: how its errors are shown, what their sources are, and the
conversions into it. -/

namespace TapeMachine.ErrorDerive

/-- The path of a name in the standard library. -/
def standard (path : String) : Code :=
  Code.ofText ("::std::" ++ path)

/-- The type of a reference to any error. -/
def anyError : Code :=
  Code.ofText "&(dyn ::std::error::Error + 'static)"

/-- A name in code. -/
def named (name : String) : Code :=
  [.name name]

namespace Item

/-- Whether a parameter is a lifetime. -/
def isLifetime (parameter : Parameter) : Bool :=
  parameter.name.startsWith "'"

/-- Generic parameters in angle brackets, lifetimes first, or nothing if there are none.  A
parameter brings the comma that follows it in the declaration, and one is put between lifetimes and
types if it would be missing. -/
def angled (render : Parameter → Code) (parameters : List Parameter) : Code :=
  let last := parameters.length - 1
  let piece (entry : Parameter × Nat) : Code :=
    render entry.1 ++ if entry.2 < last then Code.comma else []
  let lifetimes := parameters.zipIdx.filter fun entry => isLifetime entry.1
  let types := parameters.zipIdx.filter fun entry => !isLifetime entry.1
  let unclosed := lifetimes.any fun entry => entry.2 == last
  let between := if unclosed && !types.isEmpty then Code.comma else []
  if parameters.isEmpty then []
  else [.mark '<'] ++ lifetimes.flatMap piece ++ between ++ types.flatMap piece ++ [.mark '>']

/-- The parameters of an implementation, with their bounds. -/
def declared (item : Item) : Code :=
  angled (fun p =>
      Code.ofText p.name ++ if p.bounds.isEmpty then [] else [.mark ':'] ++ p.bounds)
    item.parameters

/-- The type with its parameters, and its conditions. -/
def applied (item : Item) : Code :=
  named item.name ++ angled (fun p => Code.ofText p.name) item.parameters
    ++ if item.conditions.isEmpty then [] else named "where" ++ item.conditions

/-- An implementation of a trait for the type. -/
def implementation (item : Item) (traitPath body : Code) : Code :=
  named "impl" ++ item.declared ++ traitPath ++ named "for" ++ item.applied ++ Code.braces body

/-- The implementation that shows errors. -/
def displayImplementation (item : Item) (body : Code) : Code :=
  item.implementation (standard "fmt::Display")
    (Code.ofText "fn fmt(&self, f: &mut ::std::fmt::Formatter<'_>) -> ::std::fmt::Result"
      ++ Code.braces body)

/-- The implementation that gives the source of errors, if they have any. -/
def errorImplementation (item : Item) (body? : Option Code) : Code :=
  let signature := Code.ofText "fn source(&self) -> ::std::option::Option<" ++ anyError
    ++ Code.ofText ">"
  item.implementation (standard "error::Error")
    (match body? with
      | some body => signature ++ Code.braces body
      | none => [])

end Item

/-- A call that writes a format string with arguments, if it takes any. -/
def writeCall (message : String) (arguments? : Option (List (String × Code))) : Code :=
  let arguments := match arguments? with
    | none => []
    | some arguments =>
      Code.comma ++ Code.separated (arguments.map fun (name, value) =>
        named name ++ [.mark '='] ++ value)
  Code.ofText "write!" ++ Code.parentheses (Code.ofText "f," ++ [.string message] ++ arguments)

/-- A variant of the type. -/
def variantPath (variant : String) : Code :=
  Code.ofText "Self::" ++ named variant

/-- An error found at a value. -/
def someError (value : Code) : Code :=
  standard "option::Option::Some" ++ Code.parentheses (value ++ named "as" ++ anyError)

namespace DisplayArm

/-- The pattern of an arm. -/
def patternCode (arm : DisplayArm) : Code :=
  variantPath arm.variant ++ match arm.pattern with
    | .unit => []
    | .tuple bindings =>
      Code.parentheses (Code.separated (bindings.map fun binding => named (binding.getD "_")))
    | .named names =>
      Code.braces (names.flatMap (fun name => named name ++ Code.comma) ++ Code.ofText "..")

/-- The code of an arm. -/
def code (arm : DisplayArm) : Code :=
  let arguments? := match arm.pattern with
    | .unit => none
    | .tuple _ | .named _ => some (arm.arguments.map fun name => (name, named name))
  arm.patternCode ++ Code.ofText "=>" ++ writeCall arm.message arguments? ++ Code.comma

end DisplayArm

/-- The code of an arm that gives a source. -/
def SourceArm.code (arm : SourceArm) : Code :=
  let pattern := match arm.field with
    | .named name =>
      Code.braces (named name ++ Code.ofText ": __source, ..")
    | .tuple index =>
      Code.parentheses ((List.replicate index (named "_" ++ Code.comma)).flatten
        ++ Code.ofText "__source, ..")
  variantPath arm.variant ++ pattern ++ Code.ofText "=>" ++ someError (named "__source")
    ++ Code.comma

/-- The code of a conversion. -/
def Conversion.code (item : Item) (conversion : Conversion) : Code :=
  let value := match conversion.field? with
    | some name => Code.braces (named name ++ Code.ofText ": value")
    | none => Code.parentheses (named "value")
  item.implementation
    (standard "convert::From" ++ [.mark '<'] ++ conversion.type ++ [.mark '>'])
    (Code.ofText "fn from" ++ Code.parentheses (Code.ofText "value:" ++ conversion.type)
      ++ Code.ofText "-> Self" ++ Code.braces (variantPath conversion.variant ++ value))

/-- The code of an enumeration. -/
def EnumExpansion.code (item : Item) (expansion : EnumExpansion) : Code :=
  let matchSelf (arms : Code) : Code := Code.ofText "match self" ++ Code.braces arms
  let sources := expansion.sources.flatMap SourceArm.code
    ++ Code.ofText "_ =>" ++ standard "option::Option::None" ++ Code.comma
  let sourceBody? :=
    if expansion.sources.isEmpty then none
    else some (Code.ofText "#[allow(unreachable_patterns)]" ++ matchSelf sources)
  item.displayImplementation (matchSelf (expansion.display.flatMap DisplayArm.code))
    ++ item.errorImplementation sourceBody?
    ++ expansion.conversions.flatMap (Conversion.code item)

/-- A member of the value itself. -/
def Member.code (member : Member) : Code :=
  Code.ofText "self." ++ match member with
    | .named name => [.name name]
    | .tuple index => [.number (Text.decimal index)]

/-- The code of a structure. -/
def StructExpansion.code (item : Item) (expansion : StructExpansion) : Code :=
  let arguments? := expansion.arguments?.map fun arguments =>
    arguments.map fun (name, member) => (name, member.code)
  let sourceBody? := expansion.source?.map fun member => someError ([.mark '&'] ++ member.code)
  item.displayImplementation (writeCall expansion.message arguments?)
    ++ item.errorImplementation sourceBody?

/-- The code that is generated for a type. -/
def Item.generate (item : Item) : Except DeriveError Code :=
  item.expand.map fun expansion =>
    match expansion with
    | .enumeration expansion => expansion.code item
    | .record expansion => expansion.code item

end TapeMachine.ErrorDerive
