/-! # Paths and folders

A folder holds files by their paths. Two paths name the same file if they agree
after leaving out empty steps and steps to the same place.
-/

namespace PocketScript

/-- The steps of a path. -/
def pathSteps (path : String) : List String :=
  (path.splitOn "/").filter fun step => step ≠ "" && step ≠ "."

/-- A name without its last extension. A dot at the start begins no extension. -/
def withoutExtension (name : String) : String :=
  match name.toList.reverse.dropWhile (· != '.') with
  | [] | [_] => name
  | _ :: stem => String.ofList stem.reverse

/-- The name of the file at a path without its extension, if the path ends in a
    name. -/
def pathStem? (path : String) : Option String :=
  match (pathSteps path).getLast? with
  | none | some ".." => none
  | some name => some (withoutExtension name)

/-- Files by their paths. -/
structure Folder where
  files : List (String × List UInt8)
  deriving DecidableEq

namespace Folder

/-- Whether a path can only name a folder. -/
def namesFolder (path : String) : Bool :=
  match (path.splitOn "/").getLast? with
  | none | some "" | some "." | some ".." => true
  | some _ => false

/-- The contents of the file at a path. -/
def read? (folder : Folder) (path : String) : Option (List UInt8) :=
  if namesFolder path then none
  else (folder.files.find? fun file => pathSteps file.1 == pathSteps path).map (·.2)

/-- Whether a path names a folder: the place itself, one above it, or one that
    files lie in. -/
def hasFolder (folder : Folder) (path : String) : Bool :=
  let steps := pathSteps path
  path ≠ "" &&
    (steps.all (· == "..") ||
      folder.files.any fun file =>
        steps.length < (pathSteps file.1).length && steps.isPrefixOf (pathSteps file.1))

/-- Replace the contents of the file at a path. -/
def write (folder : Folder) (path : String) (contents : List UInt8) : Folder :=
  ⟨(path, contents) :: folder.files.filter fun file => pathSteps file.1 != pathSteps path⟩

end Folder

end PocketScript
