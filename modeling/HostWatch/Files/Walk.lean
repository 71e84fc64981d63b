import HostWatch.Files.Basic

/-!
# Walking a tree

`Files.walk` lists the files below a directory: first those of the directory itself, then those of
its subdirectories, each in the order in which the tree lists them. That order is part of the tree
(`Files.precedes`) and may be any. A link to a directory is neither a file nor entered; a link to
anything else counts as a file.
-/

namespace HostWatch.Files

/-- Joins a directory, as it was given, with a name. -/
def join (directory name : String) : String :=
  if directory.toList.getLast? = some '/' then directory ++ name else directory ++ "/" ++ name

/-- The names in a directory with what they stand for, in the order in which they are listed. -/
def inOrder (f : Files) (key : List String) : List (String × Entry) :=
  (f.children key).mergeSort fun a b => f.precedes key a.1 b.1

/-- What an entry is for a walk: a directory to enter, one to pass by, or a file. -/
inductive Visit where
  | enter
  | skip
  | file
  deriving DecidableEq, Repr

/-- How a walk treats an entry of the directory `key`. -/
def visit (f : Files) (key : List String) (name : String) : Entry → Visit
  | .directory => .enter
  | .file _ => .file
  | .link _ =>
    match f.find .target maxLinks key [name] with
    | .ok (.taken _ .directory) => .skip
    | _ => .file

/-- The paths of the files below a directory; the first argument bounds the depth. -/
def below (f : Files) : Nat → List String → String → List String
  | 0, _, _ => []
  | depth + 1, key, path =>
    let entries := f.inOrder key
    let own := entries.filter fun (name, e) => f.visit key name e = .file
    let inner := entries.filter fun (name, e) => f.visit key name e = .enter
    own.map (fun (name, _) => join path name) ++
      inner.flatMap fun (name, _) => below f depth (key ++ [name]) (join path name)

/-- Whether a path, as it is given, is one that a system takes. -/
def isPath (path : String) : Bool := path != "" && decide (path.utf8ByteSize ≤ maxPath)

/-- The paths of all files below the directory `path`, which is shown as it was given. -/
def walk (f : Files) (path : String) : List String :=
  if !isPath path then []
  else
    match f.entry? (Location.parse path) with
    | .ok (key, .directory) => below f (f.entries.length + 1) key path
    | _ => []

/-- The size and the time of the last change of the file at a path. -/
def measure? (f : Files) (path : String) : Option (Nat × Int) :=
  if !isPath path then none
  else
    match f.entry? (Location.parse path) with
    | .ok (_, .file id) =>
      let body := f.body id
      some (body.content.size, body.modified)
    | .ok _ => some (0, 0)
    | .error _ => none

end HostWatch.Files
