import HostWatch.Capture.Basic

/-!
# New processes

A process is new if the capture before did not know its id with the same time of creation. The first
capture only learns what is there.
-/

namespace HostWatch

/-- A process that was not there before. -/
structure NewProcess where
  pid : Int
  parent : Int
  name : Value
  executable : Value
  command : String
  user : Value
  deriving Repr

def NewProcess.toValue (p : NewProcess) : Value := .object [
  ("pid", .int p.pid), ("ppid", .int p.parent), ("name", p.name),
  ("exe", p.executable), ("cmdline", .text p.command), ("user", p.user)]

structure ProcessCapturer where
  /-- The most new processes that a snapshot shows. -/
  maxNew : Value := .int 200
  /-- The known processes with their times of creation. -/
  known : Option (OrderedMap Int Float) := none
  count : Nat := 0
  fresh : List NewProcess := []
  freshTotal : Nat := 0
  isWarm : Bool := false
  deriving Repr

namespace ProcessCapturer

/-- The id of a process. -/
def idOf (p : ProcessReading) : Except Fault Int := do
  (← (Fault.missingKey "pid").ofOption p.pid).toInteger

/-- The time of creation; an unknown one is zero. -/
def created (p : ProcessReading) : Except Fault Float :=
  (p.created.orElse (.double 0)).toDouble

/-- A process as a new one. -/
def describe (pid : Int) (p : ProcessReading) : Except Fault NewProcess := do
  return {
    pid
    parent := ← (p.parent.orElse (.int 0)).toInteger
    name := p.name.orElse (.text "")
    executable := p.executable.orElse (.text "")
    command := ← p.command.joined
    user := p.user.orElse (.text "") }

/-- Whether a process with an id and a time of creation was known. -/
def wasKnown (known : OrderedMap Int Float) (pid : Int) (time : Float) : Bool :=
  match OrderedMap.get? known pid with
  | some t => t == time
  | none => false

/-- Goes through the list of processes: all that can be read, and those that are new. -/
def survey (known : Option (OrderedMap Int Float)) :
    List ProcessEntry → OrderedMap Int Float → List NewProcess →
      Except Fault (OrderedMap Int Float × List NewProcess)
  | [], current, fresh => .ok (current, fresh.reverse)
  | .unreadable :: rest, current, fresh => survey known rest current fresh
  | .readable p :: rest, current, fresh => do
    let pid ← idOf p
    let time ← created p
    let added ←
      match known with
      | some known => if wasKnown known pid time then .ok [] else (describe pid p).map ([·])
      | none => .ok []
    survey known rest (OrderedMap.set current pid time) (added ++ fresh)

/-- The new processes are kept last; if their number cannot be limited, those of the capture before
stay. -/
def capture (m : Machine) (c : ProcessCapturer) : ProcessCapturer × Option Fault :=
  match m.processes.bind fun entries => survey c.known entries [] [] with
  | .error f => (c, some f)
  | .ok (current, found) =>
    let warm := c.known.isSome
    let c := { c with known := some current, count := current.length, isWarm := warm }
    if warm then
      match Capture.upTo c.maxNew found with
      | .ok fresh => ({ c with fresh, freshTotal := found.length }, none)
      | .error f => (c, some f)
    else ({ c with fresh := [], freshTotal := 0 }, none)

def info (c : ProcessCapturer) : Snapshot :=
  if c.known.isNone then .beforeCapture "PROC"
  else {
    summary := "PROCSnapshot(count=" ++ toString c.count ++ ", new=" ++ toString c.freshTotal ++ ")"
    metrics := [("proc.count", Binary64.ofInt c.count), ("proc.new", Binary64.ofInt c.freshTotal)]
    fields := some [("proc.new", .list (c.fresh.map NewProcess.toValue))]
    metadata := some { capturer := "PROC" } }

end ProcessCapturer

end HostWatch
