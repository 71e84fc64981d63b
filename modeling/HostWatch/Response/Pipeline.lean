import HostWatch.Detection.Detector
import HostWatch.Response.Router

/-!
# The pipeline

Detection followed by response. Alerts that the rate limiter holds back stay in the result and are
never delivered.
-/

namespace HostWatch

structure Pipeline where
  detector : Option (Detector Number) := none
  router : Option Router := none
  /-- The responders that alerts go to where there is no router. -/
  responders : Option (List Responder) := none

namespace Pipeline

/-- What comes of a snapshot. -/
structure Outcome where
  alerts : List Alert := []
  failures : List Fault := []
  /-- What ended the work on the snapshot. -/
  fault : Option Fault := none
  pipeline : Pipeline
  host : Host

/-- Sends alerts to the router, or to the responders if there is none. -/
def respond (p : Pipeline) (due : List Alert) (h : Host) :
    Pipeline × Host × Except Fault (List Fault) :=
  match p.router with
  | some r =>
    let (r, h, failures) := r.run p.responders due h
    ({ p with router := some r }, h, failures)
  | none =>
    match p.responders with
    | some responders => (p, deliver responders due h)
    | none => (p, h, .ok [])

/-- Looks at a snapshot and answers what is found in it. -/
def process (p : Pipeline) (s : Snapshot) (metadata : Metadata) (h : Host) : Outcome :=
  match p.detector with
  | none => { pipeline := p, host := h }
  | some d =>
    let verdict := d.evaluate h.clock h.now s metadata true
    let h := verdict.notices.foldl Host.note h
    let p := { p with detector := some verdict.detector }
    match verdict.alerts with
    | .error f => { fault := some f, pipeline := p, host := h }
    | .ok alerts =>
      let due := alerts.filter fun a => !a.rateLimited
      if due.isEmpty then { alerts, pipeline := p, host := h }
      else
        match p.respond due h with
        | (p, h, .ok failures) => { alerts, failures, pipeline := p, host := h }
        | (p, h, .error f) => { fault := some f, pipeline := p, host := h }

/-- Adds a responder: to the router if there is one, else to the plain responders. -/
def addResponder (p : Pipeline) (added : Responder) : Pipeline :=
  match p.router with
  | none => { p with responders := some (p.responders.getD [] ++ [added]) }
  | some r =>
    match r.target with
    | .none => { p with router := some { r with target := .own [added] } }
    | .own responders => { p with router := some { r with target := .own (responders ++ [added]) } }
    | .shared => { p with responders := some (p.responders.getD [] ++ [added]) }

/-- Puts a router in front. If it has no responders of its own it takes those added earlier. -/
def setRouter (p : Pipeline) (r : Router) : Pipeline :=
  match r.target, p.responders with
  | .none, some _ => { p with router := some { r with target := .shared } }
  | _, _ => { p with router := some r }

/-- All responders, each list once: the plain ones, then those of the router itself. -/
def allResponders (p : Pipeline) : List Responder :=
  p.responders.getD [] ++
    match p.router with
    | some { target := .own responders, .. } => responders
    | _ => []

end Pipeline

end HostWatch
