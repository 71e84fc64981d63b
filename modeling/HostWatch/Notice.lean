import HostWatch.Fault

/-!
# Notices

What the program says about its own work. A `Notice` is kept as its cause; `Notice.message` is its
wording, `Notice.level` how much it matters and `Notice.area` the part of the program it comes from.
-/

namespace HostWatch

/-- Levels of importance. -/
inductive Level where
  | debug
  | info
  | warning
  | error
  deriving DecidableEq, Repr

namespace Level

def name : Level → String
  | debug => "DEBUG"
  | info => "INFO"
  | warning => "WARNING"
  | error => "ERROR"

/-- The number that levels are compared by. -/
def number : Level → Int
  | debug => 10
  | info => 20
  | warning => 30
  | error => 40

end Level

inductive Notice where
  | ruleFailed (rule capturer : String)
  | rotated (path target : String)
  | killSkipped (pid : Int) (alert rule : String)
  | killed (pid : Int) (alert rule : String)
  | policyDropped (alert rule : String)
  | captureFailed (fault : Fault)
  | verboseInfo (capturer detail : String)
  | queueFull (capturer : String)
  | sinkFailed (capturer : String) (fault : Fault)
  | responderFailed (capturer : String) (fault : Fault)
  | snapshotProcessed (capturer summary : String) (alerts : Nat)
  | closeFailed (name : String) (fault : Fault)
  | threadFailed (thread : String)
  | started (schedules : Nat) (capacity : Number)
  | stopped (processed drops errors : Nat)
  | settingsUnreadable (path : String) (cause : Cause)
  | settingsUnusable (path complaint : String)
  | ended (fault : Fault)
  | retained (alerts pending : Nat) (capacity : Number) (drops : Nat)
  | sinkReport (name : String) (succeeded failed : Nat) (last : Option Fault)
  | errorReport (count : Nat) (first : Fault)
  deriving DecidableEq, Repr

namespace Notice

def level : Notice → Level
  | ruleFailed .. | threadFailed .. | ended .. => .error
  | killed .. | captureFailed .. | sinkFailed .. | responderFailed .. | closeFailed ..
  | settingsUnreadable .. | settingsUnusable .. | errorReport .. => .warning
  | policyDropped .. | queueFull .. | snapshotProcessed .. => .debug
  | rotated .. | killSkipped .. | verboseInfo .. | started .. | stopped .. | retained ..
  | sinkReport .. => .info

/-- The part of the program that speaks. -/
def area : Notice → String
  | ruleFailed .. => "detection"
  | rotated .. => "sinks"
  | killSkipped .. | killed .. => "response"
  | settingsUnreadable .. | settingsUnusable .. => "config"
  | policyDropped .. | ended .. | retained .. | sinkReport .. | errorReport .. => "app"
  | captureFailed .. | verboseInfo .. | queueFull .. | sinkFailed .. | responderFailed ..
  | snapshotProcessed .. | closeFailed .. | threadFailed .. | started .. | stopped .. => "scheduler"

/-- A number as an integer, cut toward zero. -/
def whole (n : Number) : String :=
  match n.truncate? with
  | .ok n => toString n
  | .error _ => ""

def message (word : Cause → String) : Notice → String
  | ruleFailed rule capturer =>
    "rule " ++ rule ++ " failed on " ++ (if capturer = "" then "?" else capturer) ++ " snapshot"
  | rotated path target => "rotated " ++ path ++ " -> " ++ target
  | killSkipped pid alert rule =>
    "dry-run: would kill pid " ++ toString pid ++ " for alert " ++ alert ++ " (" ++ rule ++ ")"
  | killed pid alert rule =>
    "killed pid " ++ toString pid ++ " for alert " ++ alert ++ " (" ++ rule ++ ")"
  | policyDropped alert rule => "policy dropped " ++ alert ++ " (" ++ rule ++ ")"
  | captureFailed fault => fault.message word
  | verboseInfo capturer detail => "==== " ++ capturer ++ " (verbose) ====\n" ++ detail
  | queueFull capturer => "queue full; processing " ++ capturer ++ " snapshot inline"
  | sinkFailed capturer fault => "[" ++ capturer ++ "] " ++ fault.message word
  | responderFailed capturer fault =>
    "[" ++ capturer ++ "] responder error: " ++ fault.message word
  | snapshotProcessed capturer summary alerts =>
    "[" ++ capturer ++ "] " ++ summary ++ " (" ++ toString alerts ++ " alerts)"
  | closeFailed name fault => "close " ++ name ++ ": " ++ fault.message word
  | threadFailed thread => "fatal error in " ++ thread
  | started schedules capacity =>
    "scheduler started: " ++ toString schedules ++ " schedules, queue capacity " ++
      whole capacity
  | stopped processed drops errors =>
    "scheduler stopped: processed=" ++ toString processed ++ " drops=" ++ toString drops ++
      " errors=" ++ toString errors
  | settingsUnreadable path cause =>
    "config " ++ path ++ " unreadable (" ++ word cause ++ "); using defaults"
  | settingsUnusable path complaint =>
    "config " ++ path ++ " unreadable (" ++ complaint ++ "); using defaults"
  | ended fault => fault.message word
  | retained alerts pending capacity drops =>
    "alerts retained=" ++ toString alerts ++ " queue=" ++ toString pending ++ "/" ++
      whole capacity ++ " drops=" ++ toString drops
  | sinkReport name succeeded failed last =>
    "sink " ++ name ++ ": ok=" ++ toString succeeded ++ " failed=" ++ toString failed ++
      " last_error=" ++ (match last with | some f => f.message word | none => "None")
  | errorReport count first =>
    toString count ++ " errors recorded; first: " ++ first.message word

end Notice

end HostWatch
