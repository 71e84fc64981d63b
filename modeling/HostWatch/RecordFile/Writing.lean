import HostWatch.Host
import HostWatch.Json.Writer

/-!
# Writing record files

`RecordFile.write` appends one line, opening the file first if need be, and puts the file aside
when it has grown to its largest size. A record that cannot be written as JSON is refused before any
file is touched.
-/

namespace HostWatch.RecordFile

/-- The line of a record, without its line break. -/
def line (record : Value) : Except Json.Obstacle String := Json.render .plain record

/-- The name under which the file is put aside at a time in milliseconds. -/
def rotatedName (f : RecordFile) (milliseconds : Int) : String :=
  f.location.display ++ "." ++ toString milliseconds

/-- Whole milliseconds of a time in seconds. -/
def milliseconds (seconds : Number) : Except Fault Int :=
  match seconds.worth with
  | .inl n => .ok (n * 1000)
  | .inr x => Fault.ofUnbounded (Binary64.truncate? (x * 1000))

/-- The file that is open, if it is. -/
def handle? (f : RecordFile) (files : Files) : Option Nat := OrderedMap.get? files.handles f.slot

/-- Opens the file with the directories that lead to it, unless it is open. -/
def ensureOpen (f : RecordFile) (h : Host) : Except Fault Host :=
  match f.handle? h.files with
  | some _ => .ok h
  | none =>
    match h.files.makeDirectories f.location.parent with
    | .error p => .error (.file p f.location.parent.display)
    | .ok files =>
      match files.openSlot f.slot f.location with
      | .error p => .error (.file p f.location.display)
      | .ok files => .ok { h with files }

/-- Puts the file aside under the current time and opens a new one. -/
def rotate (f : RecordFile) (h : Host) : Host × Option Fault :=
  let h := { h with files := h.files.closeSlot f.slot }
  let (seconds, h) := h.wallClock
  match milliseconds seconds with
  | .error e => (h, some e)
  | .ok ms =>
    let target := f.rotatedName ms
    match h.files.rename f.location (Location.parse target) with
    | .error p => (h, some (.file p f.location.display))
    | .ok files =>
      let h := { h with files }.note (.rotated f.location.display target)
      match f.ensureOpen h with
      | .error e => (h, some e)
      | .ok h => (h, none)

/-- Appends a line to the open file and puts it aside when it is full. -/
def appendLine (f : RecordFile) (s : String) (h : Host) : Host × Option Fault :=
  match f.handle? h.files with
  | none => (h, none)
  | some id =>
    let h := { h with files := h.files.append id s }
    if f.maxBytes ≤ .int (h.files.body id).content.size then f.rotate h else (h, none)

/-- Writes one record. -/
def write (f : RecordFile) (record : Value) (h : Host) : Host × Option Fault :=
  match line record with
  | .error obstacle => (h, some (.unwritable obstacle))
  | .ok s =>
    match f.ensureOpen h with
    | .error e => (h, some e)
    | .ok h => f.appendLine (s ++ "\n") h

/-- Closes the file; the next record opens it again. -/
def close (f : RecordFile) (h : Host) : Host := { h with files := h.files.closeSlot f.slot }

end HostWatch.RecordFile
