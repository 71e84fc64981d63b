/-!
# Locations

A `Location` is a path in normal form: names without empty ones and without `.`, counted from the
root or from the working directory. `..` stays, as what it leads to depends on links. Two slashes at
the start stay two, as a system may give them a meaning; any more are one.
-/

namespace HostWatch

structure Location where
  /-- The slashes at the start: two at most, none if the path starts in the working directory. -/
  slashes : Nat := 0
  names : List String := []
  deriving DecidableEq, Repr

namespace Location

/-- Whether the path starts at the root. -/
def isAbsolute (l : Location) : Bool := l.slashes != 0

/-- The location of names below the root. -/
def ofRoot (names : List String) : Location := ⟨1, names⟩

/-- Cuts a text at every slash. -/
def segments : List Char → List Char → List (List Char)
  | current, [] => [current.reverse]
  | current, c :: rest =>
    if c = '/' then current.reverse :: segments [] rest else segments (c :: current) rest

/-- Reads a path. -/
def parse (path : String) : Location where
  slashes :=
    let n := (path.toList.takeWhile (· == '/')).length
    if n = 2 then 2 else min n 1
  names := ((segments [] path.toList).map String.ofList).filter fun name =>
    name != "" && name != "."

/-- The path of a location. -/
def display (l : Location) : String :=
  if l.slashes = 0 && l.names.isEmpty then "."
  else String.ofList (List.replicate l.slashes '/') ++ "/".intercalate l.names

/-- Goes up and down a path: each `..` takes away the name before it. -/
def withoutUps : List String → List String → List String
  | kept, [] => kept.reverse
  | kept, name :: rest => withoutUps (if name = ".." then kept.drop 1 else name :: kept) rest

/-- The location from the root, with `..` taken for the directory that the path names before it,
given the names of the working directory. -/
def resolved (working : List String) (l : Location) : Location where
  slashes := max l.slashes 1
  names := withoutUps [] (if l.isAbsolute then l.names else working ++ l.names)

/-- The location one name shorter. -/
def parent (l : Location) : Location := { l with names := l.names.dropLast }

/-- The location of a name inside a directory. -/
def child (l : Location) (name : String) : Location := { l with names := l.names ++ [name] }

end Location

end HostWatch
