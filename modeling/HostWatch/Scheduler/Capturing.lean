import HostWatch.Scheduler.Processing

/-!
# Capturing and running

`Scheduler.takeSnapshot` captures one source, `Scheduler.runOnce` captures every source once, and
`Scheduler.run` follows a given order of captures, handing each snapshot to the queue.
-/

namespace HostWatch.Scheduler

/-- What is known of every snapshot of a source. -/
def defaults (s : Scheduler) (capturer : String) (interval : Value) : Metadata where
  host := s.host.facts.hostName
  agentVersion := agentVersion
  agentBuild := agentVersion
  session := s.session
  timezone := s.host.facts.timezone
  capturedAt := some s.host.now
  os := s.host.facts.os
  arch := s.host.facts.architecture
  capturer
  interval

/-- Fills the gaps in the metadata of a snapshot. -/
def stamp (s : Scheduler) (capturer : String) (interval : Value) (snapshot : Snapshot) :
    Snapshot :=
  { snapshot with
    fields := some (snapshot.fields.getD [])
    metadata := some ((snapshot.metadata.getD {}).merge (s.defaults capturer interval)) }

/-- Marks a snapshot of a source that has nothing to compare yet. -/
def markWarming (snapshot : Snapshot) : Snapshot :=
  { snapshot with
    fields := some (OrderedMap.set (snapshot.fields.getD []) "warming_up" (.bool true)) }

/-- Keeps a fault of a capture. -/
def captureFailed (s : Scheduler) (f : Fault) : Scheduler := (s.note (.captureFailed f)).keep f

/-- Logs what a source says in more words, or the summary. -/
def report (s : Scheduler) (c : Capturer) (snapshot : Snapshot) : Scheduler :=
  if s.verbose then
    match c.verbose? with
    | none => s.note (.verboseInfo c.name snapshot.summary)
    | some (.ok detail) => s.note (.verboseInfo c.name detail)
    | some (.error cause) =>
      (s.captureFailed (.capture c.name .verbose cause)).note (.verboseInfo c.name snapshot.summary)
  else s

/-- The snapshot of a source after a capture, ready to be processed. The fault is that of the
question whether the source has something to compare. -/
def prepare (s : Scheduler) (c : Capturer) (interval : Value) (snapshot : Snapshot) :
    Scheduler × Except Fault (Option Snapshot) :=
  let snapshot := s.stamp c.name interval snapshot
  match c.isWarm? with
  | some (.error f) => (s, .error f)
  | some (.ok false) =>
    let snapshot := markWarming snapshot
    (s.report c snapshot, .ok (some snapshot))
  | _ => (s.report c snapshot, .ok (some snapshot))

/-- What is told of a source that is not there. -/
def absent : Fault :=
  .capture Value.null.kindName .capture (.missingPart Value.null.kindName "capture")

/-- Captures a source; nothing comes of it if the capture fails. -/
def captureOf (s : Scheduler) (c : Option Capturer) (interval : Value) :
    Scheduler × Option Capturer × Except Fault (Option Snapshot) :=
  match c with
  | none => (s.captureFailed absent, none, .ok none)
  | some c =>
    let (c, failure) := c.capture s.host.machine s.host.files s.host.clock
    match failure with
    | some cause => (s.captureFailed (.capture c.name .capture cause), some c, .ok none)
    | none =>
      match c.info with
      | .error cause => (s.captureFailed (.capture c.name .info cause), some c, .ok none)
      | .ok snapshot =>
        let (s, prepared) := s.prepare c interval snapshot
        (s, some c, prepared)

/-- Puts a source back into its schedule. -/
def setCapturer (s : Scheduler) (i : Nat) (c : Option Capturer) : Scheduler :=
  { s with schedules := s.schedules.modify i fun sc => { sc with capturer := c } }

/-- Captures the source of a schedule. -/
def takeSnapshot (s : Scheduler) (i : Nat) (interval : Value) :
    Scheduler × Except Fault (Option Snapshot) :=
  let (s, c, result) := s.captureOf (s.schedules[i]?.bind Schedule.capturer) interval
  (s.setCapturer i c, result)

/-- The seconds between two captures on a schedule. -/
def intervalAt (s : Scheduler) (i : Nat) : Except Fault Value :=
  s.intervalFor ((s.schedules[i]?.bind Schedule.interval).getD .null)

/-- Captures the sources of the given schedules in turn and processes each snapshot. -/
def captureEach : List Nat → Scheduler → Scheduler × Option Fault
  | [], s => (s, none)
  | i :: rest, s =>
    match s.intervalAt i with
    | .error f => (s, some f)
    | .ok interval =>
      match s.takeSnapshot i interval with
      | (s, .error f) => (s, some f)
      | (s, .ok none) => captureEach rest s
      | (s, .ok (some snapshot)) =>
        match s.process snapshot with
        | (s, some f) => (s, some f)
        | (s, none) => captureEach rest s

/-- Captures every source once. Gives the first fault kept so far, or the one that stopped it. -/
def runOnce (s : Scheduler) : Scheduler × Except Fault (Option Fault) :=
  match s.validate with
  | .error f => (s, .error f)
  | .ok () =>
    match captureEach (List.range s.schedules.length) s with
    | (s, some f) => (s, .error f)
    | (s, none) => (s, .ok s.firstError?)

/-- Captures every source once, `n` times over, up to the first fault that stops it. -/
def runTimes : Nat → Scheduler → Scheduler × Except Fault (Option Fault)
  | 0, s => (s, .ok none)
  | 1, s => s.runOnce
  | n + 1, s =>
    match s.runOnce with
    | (s, .error f) => (s, .error f)
    | (s, .ok _) => runTimes n s

/-- The name of the thread that captures on a schedule. -/
def captureThread (s : Scheduler) (i : Nat) : String :=
  "hostsentry-" ++ ((s.schedules[i]?.bind Schedule.capturer).map Capturer.name).getD ""

/-- The name of the thread that processes what is queued. -/
def processThread : String := "hostsentry-process"

/-- Whether the time of the next capture can be told. -/
def nextTick (s : Scheduler) (interval : Value) : Scheduler × Option Fault :=
  match interval with
  | .number n => (s, if n.toFloat?.isNone then some .integerTooLarge else none)
  | _ => (s, none)

/-- One capture on a schedule, up to the time of the next; the snapshot goes through the queue. -/
def captureOnto (i : Nat) (s : Scheduler) : Scheduler × Option Fault :=
  match s.intervalAt i with
  | .error f => (s, some f)
  | .ok interval =>
    match s.takeSnapshot i interval with
    | (s, .error f) => (s, some f)
    | (s, .ok none) => s.nextTick interval
    | (s, .ok (some snapshot)) =>
      match s.handOff snapshot with
      | (s, some f) => (s, some f)
      | (s, none) => s.nextTick interval

/-- How a run goes on. -/
structure Progress where
  /-- The fault that ends it. -/
  fatal : Option Fault := none
  /-- Whether the queue is still emptied. -/
  isDraining : Bool := true
  /-- The schedules that make no more captures. -/
  ended : List Nat := []

/-- Notes that a thread has failed. -/
def Progress.fail (p : Progress) (thread : String) (f : Fault) (s : Scheduler) :
    Progress × Scheduler :=
  ({ p with fatal := p.fatal <|> some f }, s.note (.threadFailed thread))

/-- Processes what is queued, as far as that goes. -/
def Progress.drain (p : Progress) (s : Scheduler) : Progress × Scheduler :=
  if p.isDraining then
    match s.drainAll with
    | (s, some f) => { p with isDraining := false }.fail processThread f s
    | (s, none) => (p, s)
  else (p, s)

/-- Captures in the given order; every snapshot goes through the queue, which is emptied after each
capture. After a fault each schedule captures at most once more, and a fault of the processing
leaves behind what is queued. -/
def follow : List Nat → Progress → Scheduler → Scheduler × Option Fault
  | [], p, s => (s, p.fatal)
  | i :: rest, p, s =>
    if i ∈ p.ended then follow rest p s
    else
      let (s, failure) := s.captureOnto i
      let (p, s) :=
        match failure with
        | some f => p.fail (s.captureThread i) f s
        | none => (p, s)
      let (p, s) := p.drain s
      follow rest (if p.fatal.isSome then { p with ended := i :: p.ended } else p) s

/-- Runs until the given captures are made. -/
def run (s : Scheduler) (order : List Nat) : Scheduler × Except Fault (Option Fault) :=
  match s.validate with
  | .error f => (s, .error f)
  | .ok () =>
    let s := s.note (.started s.schedules.length s.capacity)
    let (p, s) := Progress.drain {} s
    let (s, fatal) := follow order p s
    let s := s.note (.stopped s.processed s.drops s.errors.length)
    match fatal with
    | some f => (s, .error f)
    | none => (s, .ok s.firstError?)

/-- Closes things in turn. A fault of the system is only noted; any other ends the closing. -/
def closeEach : List (String × (Host → Host × Option Fault)) → Scheduler →
    Scheduler × Option Fault
  | [], s => (s, none)
  | (name, close) :: rest, s =>
    let (host, failure) := close s.host
    let s := { s with host }
    match failure with
    | none => closeEach rest s
    | some f =>
      if f.isSystem then closeEach rest (s.note (.closeFailed name f)) else (s, some f)

/-- Closes every sink and every responder. -/
def close (s : Scheduler) : Scheduler × Option Fault :=
  closeEach (s.sinks.map (fun k => (k.name, k.close)) ++
    s.pipeline.allResponders.map fun r => (r.name?.getD "", r.close)) s

end HostWatch.Scheduler
