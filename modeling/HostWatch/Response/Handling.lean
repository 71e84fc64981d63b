import HostWatch.RecordFile.Writing
import HostWatch.Response.Pids

/-!
# How responders act

`Responder.handle` gives one alert to one responder. A failure is returned and never stops anything
else; only a vacant place among the responders does.
-/

namespace HostWatch

/-- Ends processes in turn until one of them cannot be ended. -/
def endProcesses (a : Alert) : List Int → Host → Host × Option Fault
  | [], h => (h, none)
  | pid :: rest, h =>
    let (outcome, h) := h.signal pid
    match outcome with
    | .killed => endProcesses a rest (h.note (.killed pid a.id a.ruleId.display))
    | .gone => (h, some (.processGone pid))
    | .denied => (h, some (.processDenied pid))
    | .failed fault => (h, some fault)

/-- Answers an alert by ending the processes it names; a dry run only notes them. -/
def answerByKilling (dryRun : Bool) (a : Alert) (h : Host) : Host × Option Fault :=
  let pids := pidsIn a.evidence
  if pids.isEmpty then (h, some (.noPid a.ruleId.display))
  else if dryRun then
    (pids.foldl (fun h pid => h.note (.killSkipped pid a.id a.ruleId.display)) h, none)
  else endProcesses a pids h

namespace Responder

/-- What a responder does with an alert. -/
def act (a : Alert) : Responder → Host → Host × Option Fault
  | external party, h =>
    let (answer, h) := h.call party
    (h, answer)
  | log false, h => (h, some (.configuration .writerMissing))
  | log true, h =>
    match a.toValue with
    | .error f => (h, some f)
    | .ok v =>
      match Json.render .escaped v with
      | .error obstacle => (h, some (.unwritable obstacle))
      | .ok s => (h.record (.printed (s ++ "\n")), none)
  | file f, h =>
    match a.toValue with
    | .ok v => f.write v h
    | .error fault => (h, some fault)
  | kill dryRun, h => answerByKilling dryRun a h
  | restricted rules inner, h =>
    if rules.isEmpty then inner.act a h
    else
      match a.ruleId.toKey with
      | .error f => (h, some f)
      | .ok rule => if rules.contains rule then inner.act a h else (h, none)
  | vacant, h => (h, some (.missingPart Value.null.kindName "handle"))

/-- Hands an alert to a responder. -/
def handle (r : Responder) (a : Alert) (h : Host) : Host × Option Fault :=
  r.act a (h.record (.handed r a))

/-- Closes what a responder holds open. -/
def close (r : Responder) (h : Host) : Host × Option Fault :=
  match r with
  | external party =>
    match party.closing with
    | some answer => (h.record (.closed party), answer)
    | none => (h, none)
  | file f => (f.close h, none)
  | _ => (h, none)

end Responder

/-- Gives one alert to every responder in turn; the failures in their order. The failure of a
responder without a name cannot be kept, which ends the delivery. -/
def deliverOne (a : Alert) : List Responder → Host → Host × Except Fault (List Fault)
  | [], h => (h, .ok [])
  | r :: rest, h =>
    match r.handle a h with
    | (h, none) => deliverOne a rest h
    | (h, some failure) =>
      match r.name with
      | .error f => (h, .error f)
      | .ok name =>
        let (h, more) := deliverOne a rest h
        (h, more.map (.responder name failure :: ·))

/-- Gives every alert to every responder, alert by alert; the failures in their order. -/
def deliver (responders : List Responder) : List Alert → Host → Host × Except Fault (List Fault)
  | [], h => (h, .ok [])
  | a :: rest, h =>
    match deliverOne a responders h with
    | (h, .error f) => (h, .error f)
    | (h, .ok failures) =>
      let (h, more) := deliver responders rest h
      (h, more.map (failures ++ ·))

namespace Sink

/-- Offers a snapshot to a sink. -/
def consume (s : Sink) (snapshot : Snapshot) (h : Host) : Host × Option Fault :=
  let (h, failure) :=
    match s with
    | external party =>
      let (answer, h) := h.call party
      (h, answer)
    | file f =>
      match snapshot.toValue? with
      | some v => f.write v h
      | none => (h, some (.missingPart Value.null.kindName "to_dict"))
  (h.record (.offered s snapshot failure), failure)

/-- Closes what a sink holds open. -/
def close (s : Sink) (h : Host) : Host × Option Fault :=
  match s with
  | external party =>
    match party.closing with
    | some answer => (h.record (.closed party), answer)
    | none => (h, none)
  | file f => (f.close h, none)

end Sink

end HostWatch
