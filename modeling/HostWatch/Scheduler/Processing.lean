import HostWatch.Scheduler.Basic

/-!
# Processing snapshots

A snapshot is offered to every sink, then goes through the pipeline; what fails is kept and stops
nothing. Only a listener that fails stops the processing.
-/

namespace HostWatch.Scheduler

/-- Counts an attempt of a sink. -/
def countAttempt (s : Scheduler) (name : String) (failure : Option Fault) : Scheduler :=
  let stat := (OrderedMap.get? s.statistics name).getD {}
  let stat :=
    match failure with
    | none => { stat with succeeded := stat.succeeded + 1, last := none }
    | some f => { stat with failed := stat.failed + 1, last := some f }
  { s with statistics := OrderedMap.set s.statistics name stat }

/-- Offers a snapshot to one sink. -/
def offer (snapshot : Snapshot) (capturer : String) (s : Scheduler) (sink : Sink) : Scheduler :=
  let (host, failure) := sink.consume snapshot s.host
  let s := { s with host }
  match failure with
  | none => s.countAttempt sink.name none
  | some cause =>
    let f := Fault.sink sink.name cause
    ((s.note (.sinkFailed capturer f)).countAttempt sink.name (some f)).keep f

/-- Keeps the failures of responders. -/
def keepFailures (capturer : String) (s : Scheduler) (failures : List Fault) : Scheduler :=
  failures.foldl (fun s f => (s.note (.responderFailed capturer f)).keep f) s

/-- Tells one listener of alerts. -/
def tell (alerts : List Alert) (s : Scheduler) : Listener → Scheduler × Option Fault
  | .audience => ({ s with host := s.host.record (.announced alerts) }, none)
  | .failing fault => (s, some fault)
  | .history =>
    let (history, failure) := s.history.extend alerts
    ({ s with history }, failure)

/-- Tells the listeners in turn, up to the first that fails. -/
def tellAll (alerts : List Alert) : List Listener → Scheduler → Scheduler × Option Fault
  | [], s => (s, none)
  | l :: rest, s =>
    match tell alerts s l with
    | (s, some f) => (s, some f)
    | (s, none) => tellAll alerts rest s

/-- What becomes of something that has no metadata and is asked for its source. -/
def nameless : Fault := .missingPart Value.null.kindName "capturer"

/-- Calls a sink whose answer is of no use. -/
def callInVain (h : Host) : Sink → Host
  | .external party => (h.call party).2
  | .file _ => h

/-- A snapshot without metadata cannot be named, which stops the processing: at the first sink, in
detection, or when all else is done. -/
def processNameless (s : Scheduler) : Scheduler × Option Fault :=
  let host := (s.sinks.head?.map (callInVain s.host)).getD s.host
  let counted := if s.sinks.isEmpty && s.pipeline.detector.isNone then 1 else 0
  ({ s with host, processed := s.processed + counted }, some nameless)

/-- Processes a snapshot. The fault is what stopped it: in detection, of the policy, of a listener,
or because the snapshot has no metadata. -/
def process (s : Scheduler) (snapshot : Snapshot) : Scheduler × Option Fault :=
  match snapshot.metadata with
  | none => s.processNameless
  | some metadata =>
    let s := s.sinks.foldl (offer snapshot metadata.capturer) s
    let o := s.pipeline.process snapshot metadata s.host
    let s := { s with pipeline := o.pipeline, host := o.host }
    match o.fault with
    | some f => (s, some f)
    | none =>
      let s := s.keepFailures metadata.capturer o.failures
      match tellAll o.alerts (if o.alerts.isEmpty then [] else s.listeners) s with
      | (s, some f) => (s, some f)
      | (s, none) =>
        let s := { s with processed := s.processed + 1 }
        (s.note (.snapshotProcessed metadata.capturer snapshot.summary o.alerts.length), none)

/-- Whether no snapshot fits into the queue any more. -/
def isFull (s : Scheduler) : Bool := decide (s.capacity ≤ .int s.queue.length)

/-- Puts a snapshot into the queue, or processes it at once if the queue is full. -/
def handOff (s : Scheduler) (snapshot : Snapshot) : Scheduler × Option Fault :=
  if s.isFull then
    let s := { s with drops := s.drops + 1 }
    match snapshot.metadata with
    | none => (s, some nameless)
    | some metadata => (s.note (.queueFull metadata.capturer)).process snapshot
  else ({ s with queue := s.queue ++ [snapshot] }, none)

/-- Hands off snapshots in turn, up to the first that stops the processing. -/
def handOffAll : List Snapshot → Scheduler → Scheduler × Option Fault
  | [], s => (s, none)
  | snapshot :: rest, s =>
    match s.handOff snapshot with
    | (s, some f) => (s, some f)
    | (s, none) => handOffAll rest s

/-- Processes the oldest snapshot in the queue. -/
def drainOne (s : Scheduler) : Scheduler × Option Fault :=
  match s.queue with
  | [] => (s, none)
  | snapshot :: rest => { s with queue := rest }.process snapshot

/-- Processes up to `n` snapshots from the queue, up to the first that stops the processing. -/
def drain : Nat → Scheduler → Scheduler × Option Fault
  | 0, s => (s, none)
  | n + 1, s =>
    match s.drainOne with
    | (s, some f) => (s, some f)
    | (s, none) => drain n s

/-- Processes all that is in the queue. -/
def drainAll (s : Scheduler) : Scheduler × Option Fault := drain s.queue.length s

end HostWatch.Scheduler
