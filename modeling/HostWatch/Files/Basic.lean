import HostWatch.Fault
import HostWatch.Files.Location
import HostWatch.OrderedMap

/-!
# Files

A tree of directories, files and links. What a file holds is kept apart from where it stands, so
that a file that is open stays the same file when it is renamed or removed.
-/

namespace HostWatch

/-- What a file holds: a text, or bytes that are none. -/
inductive Content where
  | text (s : String)
  | bytes (b : ByteArray)

namespace Content

/-- Whether two files hold the same. -/
def same : Content → Content → Bool
  | text s, text t => s == t
  | bytes b, bytes c => b.toList == c.toList
  | _, _ => false

def size : Content → Nat
  | text s => s.utf8ByteSize
  | bytes b => b.size

/-- Adds a text at the end. -/
def append (s : String) : Content → Content
  | text t => text (t ++ s)
  | bytes b => bytes (b ++ s.toUTF8)

/-- The content as a text, if it is one. -/
def text? : Content → Option String
  | text s => some s
  | bytes b => String.fromUTF8? b

end Content

/-- What a name in a directory stands for. -/
inductive Entry where
  | directory
  | file (id : Nat)
  | link (target : String)
  deriving DecidableEq, Repr

structure Body where
  content : Content
  /-- The time of the last change, in nanoseconds. -/
  modified : Int

/-- A tree of files. Every entry is found under the names from the root to it. -/
structure Files where
  working : List String := ["work"]
  entries : OrderedMap (List String) Entry := [(["work"], .directory)]
  bodies : OrderedMap Nat Body := []
  /-- The file that is open in each slot. -/
  handles : OrderedMap Nat Nat := []
  /-- The number of changes so far; each takes a nanosecond and gives a new id. -/
  changes : Nat := 0
  /-- The time of the first change, in nanoseconds. -/
  since : Int := 1704067200000000000
  /-- Which of two names comes first when a directory is listed. No order is promised; the ordinary
  one is by name. -/
  precedes : List String → String → String → Bool := fun _ a b => decide (a ≤ b)

instance : Inhabited Files := ⟨{}⟩

/-- Where a location leads: to an entry, or to a free name in a directory that exists. -/
inductive Place where
  | taken (key : List String) (entry : Entry)
  | free (key : List String)
  deriving DecidableEq, Repr

namespace Files

/-- The longest name in bytes. -/
def maxName : Nat := 255

/-- The longest path in bytes. -/
def maxPath : Nat := 4095

/-- What is meant by a path that ends in a link. -/
inductive Ending where
  /-- The link itself. -/
  | link
  /-- What it leads to. -/
  | target
  /-- The file that it leads to, which is made if it is not there. -/
  | newFile
  deriving DecidableEq, Repr

/-- How far names lead: to a place, or to a link with the names that are left. -/
inductive Reach where
  | place (p : Place)
  | link (here : List String) (target : String) (rest : List String)
  deriving DecidableEq, Repr

/-- Follows names from a directory up to the first link, which at the end may be what is meant. -/
def advance (f : Files) (ending : Ending) : List String → List String → Except FileProblem Reach
  | here, [] => .ok (.place (.taken here .directory))
  | here, name :: rest =>
    if name = "." then advance f ending here rest
    else if name = ".." then advance f ending here.dropLast rest
    else if maxName < name.utf8ByteSize then .error .nameTooLong
    else
      let key := here ++ [name]
      match OrderedMap.get? f.entries key with
      | none => if rest.isEmpty then .ok (.place (.free key)) else .error .notFound
      | some .directory => advance f ending key rest
      | some (.file id) =>
        if rest.isEmpty then .ok (.place (.taken key (.file id))) else .error .notDirectory
      | some (.link target) =>
        if rest.isEmpty && ending = .link then .ok (.place (.taken key (.link target)))
        else .ok (.link here target rest)

/-- The names that a link leads along. If it ends in a slash or in `.` it leads to a directory: a
`.` at the end asks for one. To make a file there is refused as soon as the last name is reached,
whatever that stands for. -/
def targetNames (ending : Ending) (target : String) : List String :=
  let names := (Location.parse target).names
  match (Location.segments [] target.toList).getLast? with
  | some [] => (if ending = .newFile then names.dropLast else names) ++ ["."]
  | some ['.'] => names ++ ["."]
  | _ => names

/-- Follows names and links from a directory. The first argument bounds the number of links. -/
def find (f : Files) (ending : Ending) (links : Nat) (here names : List String) :
    Except FileProblem Place :=
  match f.advance ending here names with
  | .error p => .error p
  | .ok (.place p) => .ok p
  | .ok (.link here target rest) =>
    match links with
    | 0 => .error .tooManyLinks
    | links + 1 =>
      let start := if (Location.parse target).isAbsolute then [] else here
      let via := if rest.isEmpty then ending else .target
      find f ending links start (targetNames via target ++ rest)

/-- The most links on the way to an entry. -/
def maxLinks : Nat := 40

/-- Why a system takes no notice of a location at all. -/
def refusal? (l : Location) : Option FileProblem :=
  if l.names.any fun name => name.toList.contains '\x00' then some .nulInPath
  else if maxPath < l.display.utf8ByteSize then some .nameTooLong
  else none

/-- The directory that a location starts from. -/
def startOf (f : Files) (l : Location) : List String := if l.isAbsolute then [] else f.working

/-- Where a location leads. -/
def locate (f : Files) (ending : Ending) (l : Location) : Except FileProblem Place :=
  match refusal? l with
  | some p => .error p
  | none => f.find ending maxLinks (f.startOf l) l.names

/-- The entry at a location, links followed. -/
def entry? (f : Files) (l : Location) : Except FileProblem (List String × Entry) :=
  match f.locate .target l with
  | .ok (.taken key e) => .ok (key, e)
  | .ok (.free _) => .error .notFound
  | .error p => .error p

/-- The file at a location. -/
def file? (f : Files) (l : Location) : Except FileProblem Nat :=
  match f.entry? l with
  | .ok (_, .file id) => .ok id
  | .ok _ => .error .isDirectory
  | .error p => .error p

def isDirectory (f : Files) (l : Location) : Bool :=
  match f.entry? l with
  | .ok (_, .directory) => true
  | _ => false

def body (f : Files) (id : Nat) : Body :=
  (OrderedMap.get? f.bodies id).getD ⟨.text "", 0⟩

/-- What the file at a location holds. -/
def read (f : Files) (l : Location) : Except FileProblem Content :=
  (f.file? l).map fun id => (f.body id).content

/-- The time of the next change. -/
def now (f : Files) : Int := f.since + f.changes

/-- Counts a change. -/
def tick (f : Files) : Files := { f with changes := f.changes + 1 }

def setEntry (f : Files) (key : List String) (e : Entry) : Files :=
  { f with entries := OrderedMap.set f.entries key e }

/-- Gives a file a new content, changed now. -/
def setContent (f : Files) (id : Nat) (content : Content) : Files :=
  { f.tick with bodies := OrderedMap.set f.bodies id ⟨content, f.now⟩ }

/-- Makes a new file with the given content. -/
def create (f : Files) (key : List String) (content : Content) : Nat × Files :=
  let id := f.changes
  (id, (f.setEntry key (.file id)).setContent id content)

/-- The most directories that are made at once, each inside the other. -/
def maxMissing : Nat := 980

/-- What stops the making of directories at a name that leads to something else: a system asked for
the whole path complains of what stands in its way, asked for the name alone it says that it is
taken. It is asked for each name alone once a directory has been made, and for the last name. -/
def obstacle (alone : Bool) (onTheWay : FileProblem) : FileProblem :=
  if alone then .alreadyThere else onTheWay

/-- Makes the named directories inside one that exists, each inside the one before, and passes those
that are there already. `made` says whether one has been made before. -/
def makeBelow (f : Files) (made : Bool) : List String → List String → Except FileProblem Files
  | _, [] => .ok f
  | here, name :: rest =>
    if name = ".." then makeBelow f made here.dropLast rest
    else if maxName < name.utf8ByteSize then .error .nameTooLong
    else
      let alone := made || rest.isEmpty
      match OrderedMap.get? f.entries (here ++ [name]) with
      | none =>
        if !made && maxMissing ≤ rest.length then .error .tooManyMissing
        else makeBelow (f.setEntry (here ++ [name]) .directory) true (here ++ [name]) rest
      | some .directory => makeBelow f made (here ++ [name]) rest
      | some (.file _) => .error (obstacle alone .notDirectory)
      | some (.link _) =>
        match f.find .target maxLinks here [name] with
        | .ok (.taken key .directory) => makeBelow f made key rest
        | .ok (.taken ..) => .error (obstacle alone .notDirectory)
        | .ok (.free _) | .error .notFound => .error .alreadyThere
        | .error .nameTooLong => .error .nameTooLong
        | .error p => .error (obstacle alone p)

/-- Makes a directory with all that lead to it. -/
def makeDirectories (f : Files) (l : Location) : Except FileProblem Files :=
  match refusal? l with
  | some p => .error p
  | none => f.makeBelow false (f.startOf l) l.names

/-- Writes a file, in place of what it held. -/
def write (f : Files) (l : Location) (content : Content) : Except FileProblem Files :=
  match f.locate .newFile l with
  | .ok (.taken _ (.file id)) => .ok (f.setContent id content)
  | .ok (.free key) => .ok (f.create key content).2
  | .ok _ => .error .isDirectory
  | .error p => .error p

/-- Opens a file for appending, a new one if there is none. -/
def openSlot (f : Files) (slot : Nat) (l : Location) : Except FileProblem Files :=
  match f.locate .newFile l with
  | .ok (.taken _ (.file id)) => .ok { f with handles := OrderedMap.set f.handles slot id }
  | .ok (.free key) =>
    let (id, f) := f.create key (.text "")
    .ok { f with handles := OrderedMap.set f.handles slot id }
  | .ok _ => .error .isDirectory
  | .error p => .error p

def closeSlot (f : Files) (slot : Nat) : Files :=
  { f with handles := f.handles.filter fun (s, _) => s != slot }

/-- Appends to a file. -/
def append (f : Files) (id : Nat) (s : String) : Files :=
  f.setContent id ((f.body id).content.append s)

/-- Moves a file or a link to another name, in place of the file that has it. -/
def rename (f : Files) (source target : Location) : Except FileProblem Files :=
  match f.locate .link source with
  | .error p => .error p
  | .ok (.free _) => .error .notFound
  | .ok (.taken _ .directory) => .error .isDirectory
  | .ok (.taken key e) =>
    match f.locate .link target with
    | .error p => .error p
    | .ok (.taken _ .directory) => .error .isDirectory
    | .ok (.taken key' _) | .ok (.free key') =>
      if key = key' then .ok f
      else .ok { f with entries := OrderedMap.set (f.entries.filter fun (k, _) => k != key) key' e }

/-- The names in a directory with what they stand for. -/
def children (f : Files) (key : List String) : List (String × Entry) :=
  f.entries.filterMap fun (k, e) =>
    match k.getLast? with
    | some name => if k.dropLast = key then some (name, e) else none
    | none => none

/-- Removes an entry and all below it. -/
def remove (f : Files) (l : Location) : Files :=
  match f.locate .link l with
  | .ok (.taken key _) =>
    { f with entries := f.entries.filter fun (k, _) => !key.isPrefixOf k }
  | _ => f

/-- Makes a link. -/
def link (f : Files) (l : Location) (target : String) : Except FileProblem Files :=
  match f.locate .link l with
  | .ok (.free key) => .ok (f.setEntry key (.link target))
  | .ok (.taken ..) => .error .alreadyThere
  | .error p => .error p

/-- Sets the time of the last change of a file. -/
def stamp (f : Files) (l : Location) (modified : Int) : Files :=
  match f.file? l with
  | .ok id => { f with bodies := OrderedMap.set f.bodies id { f.body id with modified } }
  | .error _ => f

/-- Puts a file in a place, with the directories that lead to it; nothing changes where that cannot
be. -/
def put (f : Files) (l : Location) (content : Content) : Files :=
  match f.makeDirectories l.parent with
  | .error _ => f
  | .ok g => (g.write l content).toOption.getD g

/-- Every file with its path: from the working directory if it is below it, from the root
otherwise. -/
def everything (f : Files) : List (String × Content) :=
  f.entries.filterMap fun (k, e) =>
    match e with
    | .file id =>
      let l : Location :=
        if f.working.isPrefixOf k then ⟨0, k.drop f.working.length⟩ else .ofRoot k
      some (l.display, (f.body id).content)
    | _ => none

/-- The files that are new or hold something else than in an earlier tree. -/
def changedSince (f old : Files) : List (String × Content) :=
  let before := old.everything
  f.everything.filter fun (path, content) => !(OrderedMap.get? before path).any content.same

end Files

end HostWatch
