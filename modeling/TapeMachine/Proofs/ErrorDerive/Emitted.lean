import Mathlib.Data.List.Basic
import TapeMachine.ErrorDerive.Generator

/-! The code that is emitted, lexeme by lexeme.  `Emitted` writes out the implementations, their
functions and the arms of their matches, each in the notation of its comment, and every part of the
generator gives code of this form (`DisplayArm.code_unit` to `StructExpansion.code_eq`). -/

namespace TapeMachine.ErrorDerive

open Text Message

def Parameter.IsLifetime (parameter : Parameter) : Prop :=
  parameter.name.toList.head? = some '\x27'

instance (parameter : Parameter) : Decidable parameter.IsLifetime :=
  inferInstanceAs (Decidable (_ = _))

namespace Emitted

open Lexeme (name number string mark)

/-- `::std::a::b`. -/
def std (path : List String) : Code :=
  ("std" :: path).flatMap fun part => [mark ':', mark ':', name part]

/-- `Self::Variant`. -/
def variantOfSelf (variant : String) : Code :=
  [name "Self", mark ':', mark ':', name variant]

/-- `&(dyn ::std::error::Error + 'static)`. -/
def errorReference : Code :=
  [mark '&', mark '(', name "dyn"] ++ std ["error", "Error"]
    ++ [mark '+', mark '\x27', name "static", mark ')']

/-- `write!(f, "message")`, with what stands after the message. -/
def write (message : String) (arguments : Code) : Code :=
  [name "write", mark '!', mark '(', name "f", mark ',', string message] ++ arguments ++ [mark ')']

/-- `, a = x, b = y`.  The first comma is there even if nothing follows it. -/
def passing (values : List (String × Code)) : Code :=
  mark ',' :: [mark ','].intercalate (values.map fun (key, value) => [name key, mark '='] ++ value)

/-! Arms -/

/-- `Self::Variant => write!(f, "message"),`. -/
def unitArm (variant message : String) : Code :=
  variantOfSelf variant ++ [mark '=', mark '>'] ++ write message [] ++ [mark ',']

/-- `Self::Variant(f0, _, f2) => write!(f, "message", f0 = f0, f2 = f2),` for three fields of which
the second is not used. -/
def tupleArm (variant message : String) (count : Nat) (used : Nat → Bool) : Code :=
  variantOfSelf variant ++ [mark '(']
    ++ [mark ','].intercalate ((List.range count).map fun index =>
      [name (if used index then tupleName index else "_")])
    ++ [mark ')', mark '=', mark '>']
    ++ write message (passing (((List.range count).filter used).map fun index =>
      (tupleName index, [name (tupleName index)])))
    ++ [mark ',']

/-- `Self::Variant { a, b, .. } => write!(f, "message", a = a, b = b),`. -/
def namedArm (variant message : String) (names : List String) : Code :=
  variantOfSelf variant ++ [mark '\x7b'] ++ names.flatMap (fun field => [name field, mark ','])
    ++ [mark '.', mark '.', mark '\x7d', mark '=', mark '>']
    ++ write message (passing (names.map fun field => (field, [name field]))) ++ [mark ',']

/-- `::std::option::Option::Some(value as &(dyn ::std::error::Error + 'static))`. -/
def found (value : Code) : Code :=
  std ["option", "Option", "Some"] ++ [mark '('] ++ value ++ [name "as"] ++ errorReference
    ++ [mark ')']

/-- `Self::Variant(_, _, __source, ..) => …,` for the field at the index. -/
def tupleSource (variant : String) (index : Nat) : Code :=
  variantOfSelf variant ++ [mark '('] ++ (List.replicate index [name "_", mark ',']).flatten
    ++ [name "__source", mark ',', mark '.', mark '.', mark ')', mark '=', mark '>']
    ++ found [name "__source"] ++ [mark ',']

/-- `Self::Variant { field: __source, .. } => …,`. -/
def namedSource (variant field : String) : Code :=
  variantOfSelf variant ++ [mark '\x7b', name field, mark ':', name "__source", mark ',',
      mark '.', mark '.', mark '\x7d', mark '=', mark '>']
    ++ found [name "__source"] ++ [mark ',']

/-! Functions -/

/-- `match self { … }`. -/
def matchSelf (arms : Code) : Code :=
  [name "match", name "self", mark '\x7b'] ++ arms ++ [mark '\x7d']

/-- `#[allow(unreachable_patterns)] match self { … _ => ::std::option::Option::None, }`. -/
def matchSource (arms : Code) : Code :=
  [mark '#', mark '[', name "allow", mark '(', name "unreachable_patterns", mark ')', mark ']']
    ++ matchSelf (arms ++ [name "_", mark '=', mark '>'] ++ std ["option", "Option", "None"]
      ++ [mark ','])

/-- `fn fmt(&self, f: &mut ::std::fmt::Formatter<'_>) -> ::std::fmt::Result`. -/
def displaySignature : Code :=
  [name "fn", name "fmt", mark '(', mark '&', name "self", mark ',', name "f", mark ':', mark '&',
      name "mut"]
    ++ std ["fmt", "Formatter"] ++ [mark '<', mark '\x27', name "_", mark '>', mark ')']
    ++ [mark '-', mark '>'] ++ std ["fmt", "Result"]

/-- `fn source(&self) -> ::std::option::Option<&(dyn ::std::error::Error + 'static)>`. -/
def sourceSignature : Code :=
  [name "fn", name "source", mark '(', mark '&', name "self", mark ')', mark '-', mark '>']
    ++ std ["option", "Option"] ++ [mark '<'] ++ errorReference ++ [mark '>']

/-- `fn source(&self) -> … { … }`. -/
def sourceFunction (body : Code) : Code :=
  sourceSignature ++ [mark '\x7b'] ++ body ++ [mark '\x7d']

/-- `fn from(value: Type) -> Self { … }`. -/
def fromFunction (type body : Code) : Code :=
  [name "fn", name "from", mark '(', name "value", mark ':'] ++ type
    ++ [mark ')', mark '-', mark '>', name "Self", mark '\x7b'] ++ body ++ [mark '\x7d']

/-! Implementations -/

/-- `<'a, 'b, T, U>`, or nothing if there are no parameters.  Lifetimes come first.  Every parameter
but the last one is followed by a comma, and so is the last one if it comes before others. -/
def generics (shown : Parameter → Code) (parameters : List Parameter) : Code :=
  match parameters.getLast? with
  | none => []
  | some last =>
    let followed (kept : List Parameter) : Code := kept.flatMap fun p => shown p ++ [mark ',']
    let lifetimes := parameters.dropLast.filter (·.IsLifetime)
    let others := parameters.dropLast.filter (¬·.IsLifetime)
    [mark '<'] ++ followed lifetimes
      ++ (if last.IsLifetime then
          shown last ++ if others = [] then [] else [mark ','] ++ followed others
        else followed others ++ shown last)
      ++ [mark '>']

/-- `impl<'a, T: Bound> path for Type<'a, T> where … { … }`. -/
def implBlock (item : Item) (path body : Code) : Code :=
  [name "impl"]
    ++ generics (fun p => Code.ofText p.name ++ if p.bounds = [] then [] else mark ':' :: p.bounds)
      item.parameters
    ++ path ++ [name "for", name item.name]
    ++ generics (fun p => Code.ofText p.name) item.parameters
    ++ (if item.conditions = [] then [] else name "where" :: item.conditions)
    ++ [mark '\x7b'] ++ body ++ [mark '\x7d']

/-- `impl … ::std::fmt::Display for … { fn fmt … { … } }`. -/
def displayBlock (item : Item) (body : Code) : Code :=
  implBlock item (std ["fmt", "Display"])
    (displaySignature ++ [mark '\x7b'] ++ body ++ [mark '\x7d'])

/-- `impl … ::std::error::Error for … { … }`. -/
def errorBlock (item : Item) (body : Code) : Code :=
  implBlock item (std ["error", "Error"]) body

/-- `impl … ::std::convert::From<Type> for … { fn from(value: Type) -> Self { … } }`. -/
def fromBlock (item : Item) (type body : Code) : Code :=
  implBlock item (std ["convert", "From"] ++ [mark '<'] ++ type ++ [mark '>'])
    (fromFunction type body)

end Emitted

open Emitted

/-! ### Parts of the generator -/

/-- The characters of a literal need not be read back from its bytes. -/
theorem Code.ofText_ofList (cs : List Char) :
    Code.ofText (String.ofList cs) = Lexeme.splitWith cs.length cs := by
  rw [ofText, String.toList_ofList, String.length_ofList]

section Parts

variable (variant message : String)

theorem variantPath_eq : variantPath variant = variantOfSelf variant := by
  have hSelf : Code.ofText "Self::" = [.name "Self", .mark ':', .mark ':'] := by decide +kernel
  rw [variantPath, hSelf]
  rfl

theorem arrow_eq : Code.ofText "=>" = [.mark '=', .mark '>'] := by
  decide +kernel

theorem anyError_eq : anyError = errorReference := by
  decide +kernel

theorem someError_eq (value : Code) : someError value = found value := by
  have hSome : standard "option::Option::Some" = std ["option", "Option", "Some"] := by
    decide +kernel
  rw [someError, hSome, anyError_eq]
  simp [found, Code.parentheses, named]

theorem writeCall_eq (arguments? : Option (List (String × Code))) :
    writeCall message arguments? = write message (arguments?.elim [] passing) := by
  have hWrite : Code.ofText "write!" = [.name "write", .mark '!'] := by decide +kernel
  have hTo : Code.ofText "f," = [.name "f", .mark ','] := by decide +kernel
  unfold writeCall
  rw [hWrite, hTo]
  cases arguments? with
  | none => rfl
  | some arguments =>
    simp [write, passing, Code.parentheses, Code.comma, Code.separated, named]

theorem DisplayArm.code_unit (arguments : List String) :
    DisplayArm.code ⟨variant, .unit, message, arguments⟩ = unitArm variant message := by
  simp [code, patternCode, unitArm, variantPath_eq, arrow_eq, writeCall_eq, Code.comma]

/-- The fields that are used are bound and passed, and the others are not. -/
theorem DisplayArm.code_tuple (count : Nat) (used : List String) :
    DisplayArm.code ⟨variant, .tuple (((List.range count).map tupleName).map fun name =>
        if name ∈ used then some name else none), message,
      ((List.range count).map tupleName).filter (· ∈ used)⟩ =
      tupleArm variant message count (tupleName · ∈ used) := by
  have hBinding (name : String) :
      (if name ∈ used then some name else none).getD "_" = if name ∈ used then name else "_" := by
    split <;> rfl
  simp [code, patternCode, tupleArm, variantPath_eq, arrow_eq, writeCall_eq, Code.comma,
    Code.parentheses, Code.separated, named, hBinding, List.filter_map, Function.comp_def]

theorem DisplayArm.code_named (names : List String) :
    DisplayArm.code ⟨variant, .named names, message, names⟩ = namedArm variant message names := by
  have hRest : Code.ofText ".." = [.mark '.', .mark '.'] := by decide +kernel
  simp [code, patternCode, namedArm, variantPath_eq, arrow_eq, writeCall_eq, Code.comma,
    Code.braces, named, hRest]

theorem SourceArm.code_tuple (index : Nat) :
    SourceArm.code ⟨variant, .tuple index⟩ = tupleSource variant index := by
  have hRest : Code.ofText "__source, .." =
      [.name "__source", .mark ',', .mark '.', .mark '.'] := by decide +kernel
  simp [code, tupleSource, variantPath_eq, arrow_eq, someError_eq, Code.comma, Code.parentheses,
    named, hRest]

theorem SourceArm.code_named (field : String) :
    SourceArm.code ⟨variant, .named field⟩ = namedSource variant field := by
  have hRest : Code.ofText ": __source, .." =
      [.mark ':', .name "__source", .mark ',', .mark '.', .mark '.'] := by decide +kernel
  simp [code, namedSource, variantPath_eq, arrow_eq, someError_eq, Code.comma, Code.braces, named,
    hRest]

theorem ofSelf_eq : Code.ofText "self." = [.name "self", .mark '.'] := by
  decide +kernel

theorem Member.code_tuple (index : Nat) :
    Member.code (.tuple index) = [.name "self", .mark '.', .number (decimal index)] := by
  simp [code, ofSelf_eq]

theorem Member.code_named (field : String) :
    Member.code (.named field) = [.name "self", .mark '.', .name field] := by
  simp [code, ofSelf_eq]

end Parts

/-! ### Implementations -/

namespace Item

theorem isLifetime_eq : isLifetime = fun parameter => decide parameter.IsLifetime := by
  funext parameter
  rw [Bool.eq_iff_iff, decide_eq_true_eq, isLifetime, String.startsWith_string_iff,
    Parameter.IsLifetime]
  cases parameter.name.toList <;> simp [eq_comm]

section Generics

variable (shown : Parameter → Code) (keep : Parameter → Bool) (init : List Parameter)
  (last : Parameter)

theorem filter_zipIdx_map_fst (parameters : List Parameter) :
    (parameters.zipIdx.filter fun entry => keep entry.1).map Prod.fst = parameters.filter keep := by
  conv => rhs; rw [← List.zipIdx_map_fst 0 parameters, List.filter_map]
  rfl

theorem filter_zipIdx_concat :
    ((init ++ [last]).zipIdx.filter fun entry => keep entry.1) =
      (init.zipIdx.filter fun entry => keep entry.1)
        ++ if keep last then [(last, init.length)] else [] := by
  rw [List.zipIdx_append, List.filter_append]
  cases hKeep : keep last <;> simp [hKeep]

theorem index_lt {entry : Parameter × Nat}
    (h : entry ∈ init.zipIdx.filter fun entry => keep entry.1) : entry.2 < init.length := by
  simpa using List.snd_lt_of_mem_zipIdx (List.mem_filter.1 h).1

/-- Parameters bring their commas, but for the last of the declaration. -/
theorem flatMap_zipIdx_concat :
    (((init ++ [last]).zipIdx.filter fun entry => keep entry.1).flatMap fun entry =>
        shown entry.1 ++ if entry.2 < init.length then Code.comma else []) =
      ((init.filter keep).flatMap fun p => shown p ++ [.mark ','])
        ++ if keep last then shown last else [] := by
  have hInit : ((init.zipIdx.filter fun entry => keep entry.1).flatMap fun entry =>
        shown entry.1 ++ if entry.2 < init.length then Code.comma else []) =
      (init.filter keep).flatMap fun p => shown p ++ [.mark ','] := by
    rw [← filter_zipIdx_map_fst keep init, List.flatMap_map]
    refine List.flatMap_congr fun entry hEntry => ?_
    rw [if_pos (index_lt keep init hEntry)]
    rfl
  rw [filter_zipIdx_concat, List.flatMap_append, hInit]
  cases keep last <;> simp

theorem any_zipIdx_concat :
    ((init ++ [last]).zipIdx.filter fun entry => keep entry.1).any (·.2 == init.length) =
      keep last := by
  have hInit : (init.zipIdx.filter fun entry => keep entry.1).any (·.2 == init.length) = false := by
    rw [List.any_eq_false]
    intro entry hEntry
    have := index_lt keep init hEntry
    simp only [beq_iff_eq]
    omega
  rw [filter_zipIdx_concat, List.any_append, hInit]
  cases keep last <;> simp

theorem angled_eq (parameters : List Parameter) :
    angled shown parameters = generics shown parameters := by
  rcases List.eq_nil_or_concat' parameters with rfl | ⟨init, last, rfl⟩
  · rfl
  · have hLength : (init ++ [last]).length - 1 = init.length := by simp
    have hOthers : ((init ++ [last]).zipIdx.filter fun entry => !isLifetime entry.1).isEmpty =
        ((init ++ [last]).filter (!isLifetime ·)).isEmpty := by
      rw [← filter_zipIdx_map_fst (!isLifetime ·), List.isEmpty_map]
    unfold angled generics
    simp only [hLength, flatMap_zipIdx_concat shown isLifetime, any_zipIdx_concat isLifetime,
      flatMap_zipIdx_concat shown (!isLifetime ·), hOthers]
    simp only [List.getLast?_concat, List.dropLast_concat, isLifetime_eq]
    by_cases hLast : last.IsLifetime
    · cases hInit : init.filter (!decide ·.IsLifetime) <;> simp [hLast, hInit, Code.comma]
    · simp [hLast]

end Generics

theorem implementation_eq (item : Item) (path body : Code) :
    item.implementation path body = implBlock item path body := by
  simp [implementation, declared, applied, implBlock, angled_eq, Code.braces, named,
    List.isEmpty_iff]

theorem displayImplementation_eq (item : Item) (body : Code) :
    item.displayImplementation body = displayBlock item body := by
  have hPath : standard "fmt::Display" = std ["fmt", "Display"] := by decide +kernel
  have hSignature : Code.ofText
      "fn fmt(&self, f: &mut ::std::fmt::Formatter<'_>) -> ::std::fmt::Result" =
        displaySignature :=
    (Code.ofText_ofList _).trans (by decide +kernel)
  rw [displayImplementation, implementation_eq, hPath, hSignature]
  simp [displayBlock, Code.braces]

theorem errorImplementation_eq (item : Item) (body? : Option Code) :
    item.errorImplementation body? = errorBlock item (body?.elim [] sourceFunction) := by
  have hPath : standard "error::Error" = std ["error", "Error"] := by decide +kernel
  have hSignature : Code.ofText "fn source(&self) -> ::std::option::Option<" ++ anyError
      ++ Code.ofText ">" = sourceSignature := by
    decide +kernel
  unfold errorImplementation
  rw [implementation_eq, hPath, hSignature]
  cases body? with
  | none => rfl
  | some body => simp [errorBlock, sourceFunction, Code.braces]

end Item

theorem Conversion.code_eq (item : Item) (conversion : Conversion) :
    conversion.code item = fromBlock item conversion.type
      (variantOfSelf conversion.variant ++ match conversion.field? with
        | some field => [.mark '\x7b', .name field, .mark ':', .name "value", .mark '\x7d']
        | none => [.mark '(', .name "value", .mark ')']) := by
  have hPath : standard "convert::From" = std ["convert", "From"] := by decide +kernel
  have hFrom : Code.ofText "fn from" = [.name "fn", .name "from"] := by decide +kernel
  have hValue : Code.ofText "value:" = [.name "value", .mark ':'] := by decide +kernel
  have hSelf : Code.ofText "-> Self" = [.mark '-', .mark '>', .name "Self"] := by decide +kernel
  have hField : Code.ofText ": value" = [.mark ':', .name "value"] := by decide +kernel
  unfold code
  rw [Item.implementation_eq, variantPath_eq, hPath, hFrom, hValue, hSelf, hField]
  cases conversion.field? <;>
    simp [fromBlock, fromFunction, Code.parentheses, Code.braces, named]

theorem EnumExpansion.code_eq (item : Item) (expansion : EnumExpansion) :
    expansion.code item =
      displayBlock item (matchSelf (expansion.display.map DisplayArm.code).flatten)
        ++ errorBlock item (if expansion.sources = [] then []
          else sourceFunction (matchSource (expansion.sources.map SourceArm.code).flatten))
        ++ (expansion.conversions.map (Conversion.code item)).flatten := by
  have hMatch : Code.ofText "match self" = [.name "match", .name "self"] := by decide +kernel
  have hAny : Code.ofText "_ =>" = [.name "_", .mark '=', .mark '>'] := by decide +kernel
  have hNone : standard "option::Option::None" = std ["option", "Option", "None"] := by
    decide +kernel
  have hAllow : Code.ofText "#[allow(unreachable_patterns)]" =
      [.mark '#', .mark '[', .name "allow", .mark '(', .name "unreachable_patterns", .mark ')',
        .mark ']'] := by
    decide +kernel
  unfold code
  simp only [Item.displayImplementation_eq, Item.errorImplementation_eq, hMatch, hAny, hNone,
    hAllow, List.flatMap_def]
  by_cases hSources : expansion.sources = [] <;>
    simp [hSources, matchSelf, matchSource, Code.braces, Code.comma]

theorem StructExpansion.code_eq (item : Item) (expansion : StructExpansion) :
    expansion.code item =
      displayBlock item (write expansion.message (expansion.arguments?.elim [] fun arguments =>
          passing (arguments.map fun (name, member) => (name, member.code))))
        ++ errorBlock item (expansion.source?.elim [] fun member =>
          sourceFunction (found (.mark '&' :: member.code))) := by
  unfold code
  simp only [Item.displayImplementation_eq, Item.errorImplementation_eq, writeCall_eq]
  cases expansion.arguments? <;> cases expansion.source? <;> simp [someError_eq]

end TapeMachine.ErrorDerive
