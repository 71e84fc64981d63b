import HostWatch.Files.Walk
import HostWatch.Journal
import HostWatch.Machine

/-!
# The host

What the program works on: files, clocks, the machine it observes, and the journal of what it did.
-/

namespace HostWatch

/-- What is known about the machine and the user from the start. -/
structure Facts where
  hostName : String := "localhost"
  /-- The user, if there is a name. -/
  user : Option String := none
  timezone : String := "+0000"
  os : String := "linux"
  architecture : String := "x86_64"
  deriving Repr

/-- The version of the program, which every snapshot names. -/
def agentVersion : String := "0.3.0"

/-- What comes of attempts to end processes. -/
structure KillOutcomes where
  /-- The outcome for a process in the `n`-th attempt, from zero. -/
  outcome : Nat → Int → KillOutcome := fun _ _ => .killed

/-- Outcomes that are the same in every attempt; a process that is not listed is ended. -/
instance : Coe (List (Int × KillOutcome)) KillOutcomes :=
  ⟨fun listed => ⟨fun _ pid => (listed.lookup pid).getD .killed⟩⟩

structure Host where
  files : Files := {}
  machine : Machine := {}
  facts : Facts := {}
  /-- The clock that durations are measured by, in seconds. -/
  clock : Number := .double 0
  /-- The date and time. -/
  now : Timestamp
  /-- Readings of the clock in seconds since 1970 that come first. -/
  upcoming : List Number := []
  /-- The outcomes of attempts to end processes. -/
  killOutcomes : KillOutcomes := {}
  /-- The attempts so far to end a process. -/
  attempts : Nat := 0
  /-- How often each part of the surrounding program was called. -/
  calls : OrderedMap Nat Nat := []
  journal : Journal := []

namespace Host

def record (h : Host) (e : Event) : Host := { h with journal := e :: h.journal }

def note (h : Host) (n : Notice) : Host := h.record (.noted n)

/-- The date and time in nanoseconds since 1970. -/
def nanoseconds (h : Host) : Int := h.now.micros * 1000

/-- Reads the clock in seconds since 1970. -/
def wallClock (h : Host) : Number × Host :=
  match h.upcoming with
  | [] => (.double h.now.seconds, h)
  | t :: rest => (t, { h with upcoming := rest })

/-- Calls a part of the surrounding program. -/
def call (h : Host) (p : Party) : Option Fault × Host :=
  let n := (OrderedMap.get? h.calls p.id).getD 0
  (p.answer n, { h with calls := OrderedMap.set h.calls p.id (n + 1) })

/-- Tries to end a process. -/
def signal (h : Host) (pid : Int) : KillOutcome × Host :=
  let outcome := h.killOutcomes.outcome h.attempts pid
  (outcome, { h with attempts := h.attempts + 1 }.record (.signalled pid outcome))

end Host

end HostWatch
