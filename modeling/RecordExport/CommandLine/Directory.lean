import RecordExport.Text.Basic
/-!
# Files of a directory

The command line reads its files from one place. What it needs of that place is what reading a path
gives: a text, or why there is none. A `Directory` is the simplest such place, a list of files with
their paths in it, and nothing is known of what lies around it but that there are directories above.

A path is walked name by name. A dot stays, two dots go up, another name goes into what it names;
every name but the last must name a directory, and so must the last if a slash follows it.
-/

namespace RecordExport

/-- Why a path cannot be read. -/
inductive FileFault where
  | missing
  | notDirectory
  | isDirectory
  | nameTooLong
  | notText
  | other (reason : String)
  deriving DecidableEq, Repr

/-- The fault in words. -/
def FileFault.message : FileFault → String
  | .missing => "No such file or directory (os error 2)"
  | .notDirectory => "Not a directory (os error 20)"
  | .isDirectory => "Is a directory (os error 21)"
  | .nameTooLong => "File name too long (os error 36)"
  | .notText => "stream did not contain valid UTF-8"
  | .other reason => reason

/-- What reading a path gives. -/
abbrev FileReader := String → Except FileFault Text

/-- Files with their paths. -/
structure Directory where
  files : List (String × String)
  deriving DecidableEq, Repr

/-! ## 1. Paths -/

/-- The parts of a path between slashes. -/
def pathParts : Text → List Text
  | [] => [[]]
  | c :: t =>
    if c = '/' then [] :: pathParts t
    else match pathParts t with
      | [] => [[c]]
      | p :: ps => (c :: p) :: ps

/-- The names a path goes through; a dot is none. -/
def pathNames (path : Text) : List Text :=
  (pathParts path).filter fun p => p ≠ [] && p ≠ ['.']

/-- The path can only mean a directory. -/
def meansDirectory (path : Text) : Bool :=
  match (pathParts path).getLast? with
  | some p => p = [] || p = ['.']
  | none => false

/-- How many bytes a name may have. -/
def maxNameSize : Nat := 255

/-- How many bytes a path may have. -/
def maxPathSize : Nat := 4095

/-! ## 2. Walking -/

/-- Where a walk has come to. -/
inductive DirectoryPlace where
  /-- so many directories above, or more -/
  | above (levels : Nat)
  /-- a directory, told by the names that lead to it, the last first -/
  | inside (names : List Text)
  | file (contents : Text)

namespace Directory

/-- What stands under the names that lead to it. -/
def placeAt? (d : Directory) (names : List Text) : Option DirectoryPlace :=
  match d.files.find? fun f => (pathNames f.1.toList).reverse = names with
  | some f => some (.file f.2.toList)
  | none =>
    if d.files.any fun f => names.reverse.isPrefixOf (pathNames f.1.toList) then
      some (.inside names)
    else none

/-- Walk on by one name. -/
def enter (d : Directory) (name : Text) : DirectoryPlace → Except FileFault DirectoryPlace
  | .file _ => .error .notDirectory
  | .above levels =>
    if name = ['.', '.'] then .ok (.above (levels + 1))
    else .error (if maxNameSize < Text.byteSize name then .nameTooLong else .missing)
  | .inside names =>
    if name = ['.', '.'] then
      match names with
      | [] => .ok (.above 1)
      | _ :: outer => .ok (.inside outer)
    else if maxNameSize < Text.byteSize name then .error .nameTooLong
    else
      match d.placeAt? (name :: names) with
      | some p => .ok p
      | none => .error .missing

/-- Where a path leads. -/
def walk (d : Directory) (path : Text) : Except FileFault DirectoryPlace :=
  if path = [] then .error .missing
  else if maxPathSize < Text.byteSize path then .error .nameTooLong
  else
    let start := if path.head? = some '/' then .above 0 else .inside []
    (pathNames path).foldlM (fun place name => d.enter name place) start

/-- Read a path from the directory. -/
def read (d : Directory) : FileReader := fun path =>
  match d.walk path.toList with
  | .error f => .error f
  | .ok (.file t) => if meansDirectory path.toList then .error .notDirectory else .ok t
  | .ok _ => .error .isDirectory

end Directory
end RecordExport
