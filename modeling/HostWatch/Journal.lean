import HostWatch.Alert
import HostWatch.Notice
import HostWatch.Response.Responder
import HostWatch.Snapshot

/-!
# The journal

Everything the program does that can be seen from outside, in its order.
-/

namespace HostWatch

/-- What comes of an attempt to end a process. -/
inductive KillOutcome where
  | killed
  | gone
  | denied
  | failed (fault : Fault)
  deriving DecidableEq, Repr

inductive Event where
  /-- A responder got an alert. -/
  | handed (responder : Responder) (alert : Alert)
  /-- A sink got a snapshot and took it or failed. -/
  | offered (sink : Sink) (snapshot : Snapshot) (failure : Option Fault)
  /-- The listeners of the surrounding program got a batch of alerts. -/
  | announced (alerts : List Alert)
  /-- The policy held back an alert, and the surrounding program was told. -/
  | dropped (alert : Alert)
  | printed (text : String)
  | signalled (pid : Int) (outcome : KillOutcome)
  | closed (party : Party)
  | noted (notice : Notice)

/-- The events so far, the latest first. -/
abbrev Journal := List Event

namespace Journal

/-- The events in their order. -/
def events (j : Journal) : List Event := j.reverse

/-- The notices in their order. -/
def notices (j : Journal) : List Notice :=
  j.events.filterMap fun e =>
    match e with
    | .noted n => some n
    | _ => none

/-- The processes that were ended. -/
def killed (j : Journal) : List Int :=
  j.events.filterMap fun e =>
    match e with
    | .signalled pid .killed => some pid
    | _ => none

/-- The texts on the standard output. -/
def printed (j : Journal) : List String :=
  j.events.filterMap fun e =>
    match e with
    | .printed s => some s
    | _ => none

end Journal

end HostWatch
