import HostWatch.Capture.Basic
import HostWatch.Files.Walk
import HostWatch.Text.Blank
import HostWatch.Text.Table
import HostWatch.Value.Display

/-!
# Persistence

What starts by itself: values in the registry, files in certain folders, scheduled tasks. Each
capture is compared with the one before.
-/

namespace HostWatch

/-- Entries by their labels. -/
abbrev Autoruns := OrderedMap String String

namespace Autoruns

/-- The values of one key of the registry, up to the first that cannot be read. -/
def ofKey (label : String) : List RegistryValue → Autoruns
  | [] => []
  | none :: _ => []
  | some (name, data) :: rest => (label ++ "\\" ++ name, data.display) :: ofKey label rest

/-- The keys of the registry that are looked at. -/
def registryKeys : List String := ["HKCU\\Run", "HKCU\\RunOnce", "HKLM\\Run", "HKLM\\RunOnce"]

/-- The commands in the registry. -/
def runKeys (m : Machine) : Autoruns :=
  if m.isWindows then
    OrderedMap.ofPairs (registryKeys.flatMap fun key =>
      ofKey ("run:" ++ key) ((OrderedMap.get? m.registry key).getD []))
  else []

/-- Removes double quotes from both ends. -/
def unquote (s : String) : String := String.ofList (Text.trimBoth (· == '"') s.toList)

/-- A field of the list of tasks. -/
def cell (s : String) : String := unquote (Text.trim s)

/-- The task of one row with its status; headers and tasks of the system itself are left out. -/
def taskOf : List String → Option (String × String)
  | [] => none
  | name :: rest =>
    let task := cell name
    if task = "" || task.startsWith "TaskName" || task.startsWith "\\Microsoft\\Windows\\" then none
    else some ("task:" ++ task, (rest.head?.map cell).getD "")

/-- The scheduled tasks with their status. -/
def tasks (m : Machine) : Except Fault Autoruns :=
  if m.isWindows then
    match m.tasks with
    | .output text true =>
      match Text.Table.rows text with
      | .ok rows => .ok (OrderedMap.ofPairs (rows.filterMap taskOf))
      | .error .strayBreak => .error .tableBreak
      | .error .fieldTooLong => .error .fieldTooLong
    | _ => .ok []
  else .ok []

/-- The files directly inside a folder, each with its size and the time of its last change. -/
def inFolder (f : Files) (folder : String) : Autoruns :=
  let l := Location.parse folder
  match f.entry? l with
  | .ok (key, .directory) =>
    (f.children key).filterMap fun (name, _) =>
      let l := l.child name
      match f.file? l with
      | .ok id =>
        let body := f.body id
        some ("file:" ++ l.display, toString body.content.size ++ ":" ++ toString body.modified)
      | .error _ => none
  | _ => []

/-- The files in all folders. -/
def inFolders (f : Files) (folders : List String) : Autoruns :=
  OrderedMap.ofPairs (folders.flatMap (inFolder f))

/-- All entries. -/
def collect (m : Machine) (f : Files) (folders : List String) : Except Fault Autoruns := do
  let entries := OrderedMap.update (runKeys m) (inFolders f folders)
  return OrderedMap.update entries (← tasks m)

/-- A folder some names below another. -/
def below (base : Location) (names : List String) : String := (names.foldl .child base).display

/-- The folders of the programs that start with a session. -/
def startupFolders (m : Machine) : List String :=
  ["APPDATA", "PROGRAMDATA"].filterMap fun name =>
    match OrderedMap.get? m.environment name with
    | none => none
    | some base =>
      if base = "" then none
      else some (below (.parse base) ["Microsoft", "Windows", "Start Menu", "Programs", "Startup"])

/-- The folders that are looked at on a machine. -/
def folders (m : Machine) : Except Fault (List String) := do
  let home ← m.homeDirectory
  if m.isWindows then return startupFolders m
  if m.platform = "darwin" then
    return [below home ["Library", "LaunchAgents"], "/Library/LaunchAgents",
      "/Library/LaunchDaemons"]
  return ["/etc/cron.d", "/etc/cron.daily", "/etc/cron.hourly", "/var/spool/cron/crontabs",
    "/etc/systemd/system", below home [".config", "systemd", "user"],
    below home [".config", "autostart"], "/etc/xdg/autostart"]

end Autoruns

/-- How two maps of entries differ; all labels are sorted. -/
structure AutorunsDiff where
  added : List String
  changed : List String
  removed : List String
  deriving DecidableEq, Repr

namespace AutorunsDiff

def sorted (labels : List String) : List String := labels.mergeSort fun a b => decide (a ≤ b)

/-- The difference from the old entries to the new ones. -/
def between (old new : Autoruns) : AutorunsDiff :=
  let labels := OrderedMap.keys new
  { added := sorted (labels.filter fun k => !OrderedMap.contains old k)
    changed := sorted (labels.filter fun k =>
      OrderedMap.contains old k && OrderedMap.get? old k != OrderedMap.get? new k)
    removed := sorted ((OrderedMap.keys old).filter fun k => !OrderedMap.contains new k) }

def isEmpty (d : AutorunsDiff) : Bool := d.added.isEmpty && d.changed.isEmpty && d.removed.isEmpty

def toValue (d : AutorunsDiff) : Value :=
  let list (labels : List String) : Value := .list (labels.map .text)
  .object [("added", list d.added), ("changed", list d.changed), ("removed", list d.removed)]

end AutorunsDiff

structure PersistenceCapturer where
  folders : List String
  previous : Option Autoruns := none
  current : Option Autoruns := none
  deriving Repr

namespace PersistenceCapturer

/-- The last capture becomes the one before, also if there is nothing to take its place. -/
def capture (m : Machine) (f : Files) (c : PersistenceCapturer) :
    PersistenceCapturer × Option Fault :=
  match Autoruns.collect m f c.folders with
  | .error e => ({ c with previous := c.current }, some e)
  | .ok entries => ({ c with previous := c.current, current := some entries }, none)

def isWarm (c : PersistenceCapturer) : Bool := c.previous.isSome

/-- A number of entries as a measurement. -/
def size {α : Type} (l : List α) : Float := Binary64.ofInt l.length

def info (c : PersistenceCapturer) : Snapshot :=
  match c.current with
  | none => .beforeCapture "PERSIST"
  | some entries =>
    let summary := "PERSISTSnapshot(entries=" ++ toString entries.length ++ ")"
    let total := ("persist.entries", size entries)
    let metadata : Metadata := { capturer := "PERSIST" }
    match c.previous with
    | none => { summary, metrics := [total], metadata := some metadata }
    | some old =>
      let d := AutorunsDiff.between old entries
      { summary
        metrics := [total, ("persist.added", size d.added), ("persist.changed", size d.changed),
          ("persist.removed", size d.removed)]
        fields := some (if d.isEmpty then [] else [("persist.diff", d.toValue)])
        metadata := some metadata }

end PersistenceCapturer

end HostWatch
