import HostWatch.Response.Handling
import HostWatch.Response.Policy

/-!
# Routing

A `Router` puts a policy in front of responders. Alerts that the policy holds back are reported, the
others go to every responder.
-/

namespace HostWatch

/-- Who is told of an alert that the policy holds back. -/
inductive DropHook where
  | silent
  /-- The surrounding program. -/
  | reported
  /-- The log. -/
  | noted
  deriving DecidableEq, Repr

namespace DropHook

def run (hook : DropHook) (a : Alert) (h : Host) : Host :=
  match hook with
  | silent => h
  | reported => h.record (.dropped a)
  | noted => h.note (.policyDropped a.id a.ruleId.display)

end DropHook

/-- Where a router sends what it accepts. -/
inductive Target where
  | none
  | own (responders : List Responder)
  /-- To the responders of the pipeline that the router belongs to. -/
  | shared

structure Router where
  policy : Option (Policy Number) := none
  target : Target := .none
  hook : DropHook := .silent

namespace Router

/-- The alerts that pass, with the router afterwards; the others are reported in turn. -/
def screen (r : Router) (alerts : List Alert) (h : Host) :
    Except Fault (List Alert) × Router × Host :=
  match r.policy with
  | .none => (.ok alerts, r, h)
  | some p =>
    let d := p.decideAll h.clock alerts
    let rejected := (d.made.filter fun (_, accepted) => !accepted).map Prod.fst
    let accepted := (d.made.filter Prod.snd).map Prod.fst
    ((d.fault.map Except.error).getD (.ok accepted), { r with policy := some d.policy },
      rejected.foldl (fun h a => r.hook.run a h) h)

/-- The responders that a router reaches, given those of its pipeline. -/
def responders? (r : Router) (shared : Option (List Responder)) : Option (List Responder) :=
  match r.target with
  | .none => .none
  | .own responders => some responders
  | .shared => some (shared.getD [])

/-- Sends a batch of alerts through the router: what fails behind it, or what stops the policy. -/
def run (r : Router) (shared : Option (List Responder)) (alerts : List Alert) (h : Host) :
    Router × Host × Except Fault (List Fault) :=
  match r.screen alerts h with
  | (.error f, r, h) => (r, h, .error f)
  | (.ok [], r, h) => (r, h, .ok [])
  | (.ok accepted, r, h) =>
    match r.responders? shared with
    | .none => (r, h, .ok [.configuration (.undelivered accepted.length)])
    | some responders => (r, deliver responders accepted h)

end Router

end HostWatch
