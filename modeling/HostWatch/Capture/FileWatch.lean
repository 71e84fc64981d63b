import HostWatch.Capture.Basic
import HostWatch.Files.Walk

/-!
# File changes

Each capture scans trees of files, up to a largest number of files, and is compared with the one
before.
-/

namespace HostWatch

/-- The size of a file and the time of its last change. -/
abbrev FileState := Nat × Int

/-- The files of a scan by their paths. -/
abbrev Scan := OrderedMap String FileState

inductive FileChange where
  | create
  | modify
  | delete
  deriving DecidableEq, Repr

def FileChange.name : FileChange → String
  | create => "create"
  | modify => "modify"
  | delete => "delete"

namespace Scan

/-- Adds files until `limit` of them are known, and says whether that is the case; files that cannot
be looked at are passed over. -/
def add (f : Files) (limit : Value) : List String → Scan → Except Fault (Scan × Bool)
  | [], scan => .ok (scan, false)
  | path :: rest, scan => do
    let most ← limit.limiting ">=" "int"
    if most ≤ .int scan.length then return (scan, true)
    match f.measure? path with
    | some state => add f limit rest (OrderedMap.set scan path state)
    | none => add f limit rest scan

/-- Adds the files below the given paths in turn. -/
def addBelow (f : Files) (limit : Value) : List Value → Scan → Except Fault Scan
  | [], scan => .ok scan
  | root :: rest, scan => do
    let path ← root.toPath
    if path.toList.contains '\x00' then throw (.file .nulInPath path)
    let (scan, full) ← add f limit (f.walk path) scan
    if full then return scan else addBelow f limit rest scan

/-- The files below the given paths. -/
def ofPaths (f : Files) (limit : Value) (paths : List Value) : Except Fault Scan :=
  addBelow f limit paths []

/-- What happened to a file that is there now. -/
def changeOf (old : Scan) (path : String) (state : FileState) : Option FileChange :=
  match OrderedMap.get? old path with
  | none => some .create
  | some s => if s = state then none else some .modify

/-- The changes from one scan to the next: first of the files that are there, then of those that are
gone. -/
def changes (old new : Scan) : List (String × FileChange) :=
  (new.filterMap fun (path, state) => (changeOf old path state).map fun c => (path, c)) ++
    (old.filterMap fun (path, _) =>
      if OrderedMap.contains new path then none else some (path, .delete))

end Scan

structure FileWatchCapturer where
  paths : List Value
  /-- The most files that a scan takes in. -/
  maxFiles : Value := .int 50000
  previous : Option Scan := none
  events : List (String × FileChange) := []
  isWarm : Bool := false
  deriving Repr

namespace FileWatchCapturer

/-- Watches the given paths, or the home directory if there are none. -/
def ofPaths (m : Machine) (paths maxFiles : Value) : Except Fault FileWatchCapturer := do
  if paths.isEmpty then return { paths := [.text (← m.homeDirectory).display], maxFiles }
  return { paths := ← paths.elements, maxFiles }

def capture (f : Files) (c : FileWatchCapturer) : FileWatchCapturer × Option Fault :=
  match Scan.ofPaths f c.maxFiles c.paths with
  | .error e => (c, some e)
  | .ok scan =>
    ({ c with
      previous := some scan
      events := (c.previous.map fun old => Scan.changes old scan).getD []
      isWarm := c.previous.isSome }, none)

def eventValue (e : String × FileChange) : Value :=
  .object [("path", .text e.1), ("type", .text e.2.name)]

def info (c : FileWatchCapturer) : Snapshot :=
  match c.previous with
  | none => .beforeCapture "FILE"
  | some scan => {
      summary := "FILESnapshot(files=" ++ toString scan.length ++ ", events=" ++
        toString c.events.length ++ ")"
      metrics := [("file.scanned", Binary64.ofInt scan.length),
        ("file.events", Binary64.ofInt c.events.length)]
      fields := some [("file.events", .list (c.events.map eventValue))]
      metadata := some { capturer := "FILE", maxFiles := c.maxFiles } }

end FileWatchCapturer

end HostWatch
