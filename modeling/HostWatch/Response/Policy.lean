import HostWatch.Alert
import HostWatch.Clock
import HostWatch.Severity

/-!
# Policy

A `Policy` decides which alerts are answered. It asks in turn: is the rule denied, is it allowed,
is the alert severe enough, and is its key past its cooldown. Only an accepted alert starts a
cooldown.
-/

namespace HostWatch

/-- Admission of alerts over a type `τ` of clock readings. -/
structure Policy (τ : Type) where
  minSeverity : Value := .text ""
  /-- The only rules that are answered; all if empty. -/
  allow : List Key := []
  deny : List Key := []
  /-- The cooldown; one that is none is only missed where it is needed. -/
  cooldown : Except Fault τ
  /-- From when each key is accepted again. -/
  eligible : OrderedMap Key τ := []

namespace Policy

/-- Whether an alert is severe enough. -/
def isSevere {τ : Type} (p : Policy τ) (a : Alert) : Except Fault Bool := do
  if p.minSeverity.isEmpty then return true
  let rank ← Severity.rankOf a.severity
  return decide ((← Severity.rankOf p.minSeverity) ≤ rank)

/-- Whether rule and severity admit an alert at all times. -/
def admits {τ : Type} (p : Policy τ) (a : Alert) : Except Fault Bool := do
  let rule ← a.ruleId.toKey
  if p.deny.contains rule then return false
  if !p.allow.isEmpty && !p.allow.contains rule then return false
  p.isSevere a

variable {τ : Type} [Clock τ] [LT τ] [DecidableLT τ] [OfNat τ 0]

/-- Whether a key is still cooling down at the time `now`. -/
def cooling (p : Policy τ) (now : τ) (key : Key) : Bool :=
  match OrderedMap.get? p.eligible key with
  | some t => decide (now < t)
  | none => false

/-- Whether an alert is accepted at the time `now`, and the policy afterwards. -/
def decision (p : Policy τ) (now : τ) (a : Alert) : Except Fault (Bool × Policy τ) := do
  if !(← p.admits a) then return (false, p)
  let cooldown ← p.cooldown
  if !decide (0 < cooldown) then return (true, p)
  let key ← a.key.toKey
  if p.cooling now key then return (false, p)
  let next ← Clock.after now cooldown
  return (true, { p with eligible := OrderedMap.set p.eligible key next })

/-- The decisions on a batch, with each alert in turn, up to the first that cannot be made. -/
structure Decisions (τ : Type) where
  made : List (Alert × Bool) := []
  policy : Policy τ
  fault : Option Fault := none

/-- Decides on the alerts of a batch in turn. -/
def decideAll (p : Policy τ) (now : τ) : List Alert → Decisions τ
  | [] => { policy := p }
  | a :: rest =>
    match p.decision now a with
    | .error f => { policy := p, fault := some f }
    | .ok (accepted, p) =>
      let later := decideAll p now rest
      { later with made := (a, accepted) :: later.made }

end Policy

end HostWatch
