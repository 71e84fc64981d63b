import HostWatch.Fault
import HostWatch.RecordFile.Basic
import HostWatch.Value.Key

/-!
# Responders

What acts on alerts. Besides the responders of the library there are those of the surrounding
program, of which only their answers are known, and places in a list that hold no responder at all.
-/

namespace HostWatch

/-- A part of the surrounding program that can be called any number of times. -/
structure Party where
  id : Nat
  name : String
  /-- The answer to the `n`-th call, from zero. -/
  answer : Nat → Option Fault
  /-- The answer to being closed, if the part can be closed. -/
  closing : Option (Option Fault) := none

inductive Responder where
  | external (party : Party)
  /-- Writes alerts to the standard output, if it is attached. -/
  | log (attached : Bool)
  | file (file : RecordFile)
  /-- Ends the processes that an alert names, or only says so. -/
  | kill (dryRun : Bool)
  /-- Passes on alerts of certain rules only, or all if no rule is named. -/
  | restricted (rules : List Key) (inner : Responder)
  /-- A place without a responder; it cannot even be asked for a name. -/
  | vacant

namespace Responder

def name? : Responder → Option String
  | external party => some party.name
  | log _ => some "log"
  | file _ => some "alert_file"
  | kill _ => some "process_kill"
  | restricted _ inner => inner.name?
  | vacant => none

/-- The name of a responder; a vacant place is missed where a name is wanted. -/
def name (r : Responder) : Except Fault String :=
  (Fault.missingPart Value.null.kindName "name").ofOption r.name?

end Responder

/-- What receives snapshots. -/
inductive Sink where
  | external (party : Party)
  | file (file : RecordFile)

def Sink.name : Sink → String
  | external party => party.name
  | file _ => "json_file"

end HostWatch
