import TapeMachine.Text.Utf8

/-! A directory that holds files and no directories, as the command line sees it: paths are read and
written, and a path that cannot be gives the reason. -/

namespace TapeMachine

/-- Files with their contents. -/
structure Directory where
  files : List (String × List UInt8)
  deriving DecidableEq

namespace Directory

/-- What a path leads to. -/
inductive Place where
  /-- The file of a name, which may not exist. -/
  | file (name : String)
  /-- A name that slashes end, as if it were a directory. -/
  | slashed (name : String)
  /-- Something in a name, as if that were a directory. -/
  | within (name : String)
  /-- A directory. -/
  | directory
  /-- Nothing, and no file can be made there. -/
  | missing
  deriving DecidableEq, Repr

/-- The parts of a path between its slashes, given the characters of its current part backwards. -/
def partsFrom (reversed : List Char) : List Char → List String
  | [] => [String.ofList reversed.reverse]
  | c :: cs =>
    if c = '/' then String.ofList reversed.reverse :: partsFrom [] cs
    else partsFrom (c :: reversed) cs

/-- What a path leads to from the directory.  Empty parts and single dots stay where they are, and
outside the directory there are no files. -/
def place (path : String) : Place :=
  let parts := partsFrom [] path.toList
  match parts.dropWhile (· ∈ ["", "."]) with
  | [] => if path = "" then .missing else .directory
  | name :: rest =>
    if name = ".." then if rest.all (· ∈ ["", ".", ".."]) then .directory else .missing
    else if parts.head? = some "" then .missing
    else if rest.isEmpty then .file name
    else if rest.all (· = "") then .slashed name
    else .within name

/-- The reason for a path that leads nowhere. -/
def noSuchFile : String := "No such file or directory (os error 2)"

/-- The reason for a path that leads to a directory. -/
def isDirectory : String := "Is a directory (os error 21)"

/-- The reason for a path that uses a file as a directory. -/
def notDirectory : String := "Not a directory (os error 20)"

/-- The content of a file. -/
def get? (d : Directory) (name : String) : Option (List UInt8) :=
  d.files.lookup name

/-- The reason why a name cannot be used as a directory. -/
def refusal (d : Directory) (name : String) : String :=
  if (d.get? name).isSome then notDirectory else noSuchFile

/-- The content of the file at a path. -/
def read (d : Directory) (path : String) : Except String (List UInt8) :=
  match place path with
  | .missing => .error noSuchFile
  | .directory => .error isDirectory
  | .slashed name | .within name => .error (d.refusal name)
  | .file name =>
    match d.get? name with
    | some content => .ok content
    | none => .error noSuchFile

/-- The directory with a file made or replaced at a path. -/
def write (d : Directory) (path : String) (content : List UInt8) : Except String Directory :=
  match place path with
  | .missing => .error noSuchFile
  | .directory | .slashed _ => .error isDirectory
  | .within name => .error (d.refusal name)
  | .file name => .ok ⟨(name, content) :: d.files.filter fun file => file.1 ≠ name⟩

end Directory

end TapeMachine
