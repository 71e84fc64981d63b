import HostWatch.Files.Basic
import HostWatch.Notice
import HostWatch.Text.Case
import HostWatch.Timestamp
import HostWatch.Value.Display
import HostWatch.Value.Reading

/-!
# Logging

A `Logger` shows messages from a level on, on the console and in a file. It is set up once; setting
it up again only changes the level.
-/

namespace HostWatch

/-- A message with its level and where it comes from. -/
structure LogRecord where
  level : Level
  source : String
  message : String
  deriving DecidableEq, Repr

/-- Name under which the whole program logs. -/
def loggerName : String := "hostsentry"

def Notice.toRecord (word : Cause → String) (n : Notice) : LogRecord :=
  ⟨n.level, loggerName ++ "." ++ n.area, n.message word⟩

namespace LogRecord

/-- What is shown of a message besides the time. -/
def text (r : LogRecord) : String := "[" ++ r.level.name ++ "] " ++ r.source ++ ": " ++ r.message

/-- The time of a message, to the millisecond. -/
def stamp (now : Timestamp) : String :=
  Timestamp.render " " { now with micro := 0, offset := none } ++ "," ++
    Timestamp.padded 3 (now.micro / 1000)

/-- A line of the log. -/
def line (now : Timestamp) (r : LogRecord) : String := stamp now ++ " " ++ r.text

end LogRecord

/-- A place that messages are shown in. -/
inductive Handler where
  | console
  /-- The log file, as it is open. -/
  | file (id : Nat)
  deriving DecidableEq, Repr

structure Logger where
  /-- The level from which messages are shown; zero leaves it to the surroundings. -/
  level : Int := 0
  /-- Where messages are shown. As long as that is nowhere the surroundings show them. -/
  handlers : List Handler := []
  deriving DecidableEq, Repr

namespace Logger

/-- What a name for a level stands for. -/
inductive LevelName where
  | level (n : Int)
  /-- Other names that the logging of the surroundings reserves. -/
  | reserved (fault : Fault)

/-- The names of levels. Any other name stands for `INFO`. -/
def levelNames : List (String × LevelName) := [
  ("CRITICAL", .level 50), ("FATAL", .level 50), ("ERROR", .level 40), ("WARNING", .level 30),
  ("WARN", .level 30), ("INFO", .level 20), ("DEBUG", .level 10), ("NOTSET", .level 0),
  ("BASIC_FORMAT", .reserved (.unknownLevel "BASIC_FORMAT")),
  ("_STYLES", .reserved (.wrongType (.notLevel "_STYLES")))]

/-- The level that a name stands for, whatever its case. -/
def levelOf (name : String) : Except Fault Int :=
  match OrderedMap.get? levelNames (Text.upper name) with
  | some (.level n) => .ok n
  | some (.reserved f) => .error f
  | none => .ok 20

/-- The level of the surroundings. -/
def outerLevel : Int := 30

/-- The level from which messages are shown. -/
def threshold (l : Logger) : Int := if l.level = 0 then outerLevel else l.level

def shows (l : Logger) (level : Level) : Bool := decide (l.threshold ≤ level.number)

/-- Where the log file is kept open. -/
def slot : Nat := 1000

/-- Sets the level. The first time, messages start to be shown on the console and, if a file is
named, in it. -/
def setUp (level file : Value) (l : Logger) (f : Files) : Except Fault (Logger × Files) := do
  let l := { l with level := ← levelOf level.display }
  if !l.handlers.isEmpty then return (l, f)
  if file.isEmpty then return ({ l with handlers := [.console] }, f)
  let location := (Location.parse (← file.toPath)).resolved f.working
  match f.openSlot slot location with
  | .error p => throw (.file p location.display)
  | .ok f =>
    let opened := (OrderedMap.get? f.handles slot).toList.map Handler.file
    return ({ l with handlers := .console :: opened }, f)

/-- Adds a message to the log file, if it is shown. -/
def append (l : Logger) (now : Timestamp) (r : LogRecord) (f : Files) : Files :=
  l.handlers.foldl (fun f handler =>
    match handler with
    | .console => f
    | .file id => if l.shows r.level then f.append id (r.line now ++ "\n") else f) f

/-- What the console shows of a message. Before a logger is set up only the bare message is shown.
-/
def consoleText? (l : Logger) (r : LogRecord) : Option String :=
  if l.shows r.level then some (if l.handlers.isEmpty then r.message else r.text) else none

end Logger

end HostWatch
