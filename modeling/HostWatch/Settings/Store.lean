import HostWatch.Files.Stored
import HostWatch.Json.Writer
import HostWatch.Notice
import HostWatch.Settings.Basic
import HostWatch.Value.Key

/-!
# Stored settings

Settings live in a JSON file. A missing file stands for the defaults; at the usual place it is then
written. A file that cannot be used gives a warning and the defaults.
-/

namespace HostWatch.Settings

/-- The place that a path names; no path, or an empty one, names the usual place. -/
def Places.named (p : Places) : Option String → Location
  | none => p.settings
  | some path => if path = "" then p.settings else Location.parse path

/-- The text of a settings file. -/
def render (s : Settings) : Except Json.Obstacle String := Json.render .indented (.object s.fields)

/-- What is wrong with a list where an object should be: its items are taken for names. -/
def listComplaint? (items : List Value) : Option String :=
  items.findSome? fun v =>
    match v.toKey with
    | .error f => some (f.message Cause.wording)
    | .ok ⟨.text s⟩ =>
      if s ∈ names then some "list indices must be integers or slices, not str" else none
    | .ok _ => none

/-- The settings in a JSON value, over others, or a complaint about it. Lists and texts that name
no setting change nothing. -/
def ofValue (s : Settings) : Value → Except String Settings
  | .object given => .ok (s.override given)
  | .list items =>
    match listComplaint? items with
    | some complaint => .error complaint
    | none => .ok s
  | .text _ => .ok s
  | v => .error (TypeProblem.notIterable v.kindName).message

/-- Writes settings at a place, with the directories that lead to it. -/
def save (s : Settings) (l : Location) (f : Files) : Except Fault Files :=
  match f.makeDirectories l.parent with
  | .error p => .error (.file p l.parent.display)
  | .ok f =>
    match s.render with
    | .error obstacle => .error (.unwritable obstacle)
    | .ok text =>
      match f.write l (.text text) with
      | .error p => .error (.file p l.display)
      | .ok f => .ok f

/-- The settings at a place that exists, over those that hold where nothing is said. -/
def readAt (s : Settings) (l : Location) (f : Files) : Except Fault (Settings × List Notice) :=
  match f.readJson l.display with
  | .error .nesting => .error .tooDeep
  | .error cause => .ok (s, [.settingsUnreadable l.display cause])
  | .ok v =>
    match s.ofValue v with
    | .error complaint => .ok (s, [.settingsUnusable l.display complaint])
    | .ok s => .ok (s, [])

/-- Reads the settings at a path. -/
def load (p : Places) (path : Option String) (f : Files) :
    Except Fault (Settings × Files × List Notice) :=
  let l := p.named path
  let s := initial p
  match f.entry? l with
  | .error .nameTooLong => .error (.file .nameTooLong l.display)
  | .error _ =>
    if path.isNone then (s.save l f).map fun f => (s, f, []) else .ok (s, f, [])
  | .ok _ => (s.readAt l f).map fun (s, notices) => (s, f, notices)

end HostWatch.Settings
