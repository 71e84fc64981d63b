import HostWatch.Capture.Capturer
import HostWatch.Correlation.History
import HostWatch.Response.Pipeline

/-!
# The scheduler

Sources are captured on schedules. Snapshots wait in a queue of bounded size; when it is full a
snapshot is processed at once, so none is lost. Processing offers a snapshot to the sinks, sends it
through the pipeline and tells the listeners of its alerts.
-/

namespace HostWatch

/-- A source with the seconds between its captures; none but a positive number counts. Without a
source or an interval there is nothing to run. -/
structure Schedule where
  capturer : Option Capturer
  interval : Option Value := some (.double 0)

/-- Whether a schedule has all it needs. -/
def Schedule.isComplete (sc : Schedule) : Bool := sc.capturer.isSome && sc.interval.isSome

/-- Who is told of alerts. -/
inductive Listener where
  /-- The surrounding program. -/
  | audience
  /-- A listener that fails. -/
  | failing (fault : Fault)
  /-- The history of alerts. -/
  | history

/-- How a sink has fared. -/
structure SinkStatistics where
  succeeded : Nat := 0
  failed : Nat := 0
  /-- The fault of the latest attempt, if it failed. -/
  last : Option Fault := none
  deriving DecidableEq, Repr

/-- A scheduler with all it works on. -/
structure Scheduler where
  schedules : List Schedule
  /-- The seconds between captures where a schedule sets none; of any shape until it is needed. -/
  defaultInterval : Value := .double 3
  /-- The number from which waiting snapshots are too many. -/
  capacity : Number := 64
  pipeline : Pipeline := {}
  verbose : Bool := false
  sinks : List Sink := []
  listeners : List Listener := []
  history : History Number
  session : String
  queue : List Snapshot := []
  /-- How often the queue was full. -/
  drops : Nat := 0
  processed : Nat := 0
  /-- The first faults, at most `Scheduler.maxErrors`. -/
  errors : List Fault := []
  statistics : OrderedMap String SinkStatistics := []
  host : Host

namespace Scheduler

def defaultCapacity : Number := 64

/-- A capacity that is not positive stands for the default. -/
def capacityOf (capacity : Value) : Except Fault Number := do
  let n ← capacity.comparable ">"
  return if n.isPositive then n else defaultCapacity

/-- A new session of a user, at a time in nanoseconds. -/
def newSession (user : Option String) (nanoseconds : Int) : String :=
  user.getD "unknown" ++ "-" ++ toString nanoseconds

def maxErrors : Nat := 1000

def firstError? (s : Scheduler) : Option Fault := s.errors.head?

def note (s : Scheduler) (n : Notice) : Scheduler := { s with host := s.host.note n }

/-- Keeps a fault, unless there are too many already. -/
def keep (s : Scheduler) (f : Fault) : Scheduler :=
  if s.errors.length < maxErrors then { s with errors := s.errors ++ [f] } else s

/-- Whether something can run at all. -/
def validate (s : Scheduler) : Except Fault Unit :=
  if s.schedules.isEmpty then .error (.configuration .noSchedules)
  else
    match s.schedules.findIdx? fun sc => !sc.isComplete with
    | some i => .error (.configuration (.capturerMissing i))
    | none => .ok ()

/-- The seconds between two captures: the first positive of the given ones and the default. -/
def intervalFor (s : Scheduler) (interval : Value) : Except Fault Value := do
  if ← interval.isPositiveIfAny then return interval
  if ← s.defaultInterval.isPositiveIfAny then return s.defaultInterval
  return .double 5

/-! ### Wiring -/

def addSink (s : Scheduler) (sink : Sink) : Scheduler := { s with sinks := s.sinks ++ [sink] }

def addResponder (s : Scheduler) (r : Responder) : Scheduler :=
  { s with pipeline := s.pipeline.addResponder r }

def setRouter (s : Scheduler) (r : Router) : Scheduler :=
  { s with pipeline := s.pipeline.setRouter r }

def addListener (s : Scheduler) (l : Listener) : Scheduler :=
  { s with listeners := s.listeners ++ [l] }

end Scheduler

end HostWatch
