import HostWatch.Alert
import HostWatch.Clock

/-!
# Rate limiting

A `RateLimiter` passes the first few alerts of a key in each window. A window opens with the first
alert of a key that finds none open. The alerts beyond are flagged.
-/

namespace HostWatch

/-- An open window of a key. -/
structure RateWindow (τ : Type) where
  passed : Nat
  /-- The time from which a new window opens. -/
  ends : τ
  deriving DecidableEq, Repr

/-- Rate limiting over a type `τ` of clock readings. -/
structure RateLimiter (τ : Type) where
  window : τ
  /-- The number from which the alerts of a window are held back. -/
  burst : Number
  windows : OrderedMap Key (RateWindow τ) := []

namespace RateLimiter

variable {τ : Type} [Clock τ] [LT τ] [LE τ] [DecidableLT τ] [DecidableLE τ] [OfNat τ 0]

/-- The open window of a key at the time `now`. -/
def open? (windows : OrderedMap Key (RateWindow τ)) (now : τ) (key : Key) :
    Option (RateWindow τ) :=
  (OrderedMap.get? windows key).filter fun w => !decide (w.ends ≤ now)

/-- The window that an alert of a key falls into, a new one if none is open. -/
def windowAt (window now : τ) (windows : OrderedMap Key (RateWindow τ)) (key : Key) :
    Except Fault (RateWindow τ) :=
  match open? windows now key with
  | some w => .ok w
  | none => (Clock.after now window).map (RateWindow.mk 0)

/-- Counts the alerts of a key anew, if it has been seen before. -/
def restart (windows : OrderedMap Key (RateWindow τ)) (key : Key) : OrderedMap Key (RateWindow τ) :=
  match OrderedMap.get? windows key with
  | some w => OrderedMap.set windows key { w with passed := 0 }
  | none => windows

/-- What becomes of a batch, up to the first alert that cannot be judged: each alert with whether it
passes. -/
structure Metering (τ : Type) where
  metered : List (Alert × Bool) := []
  windows : OrderedMap Key (RateWindow τ)
  fault : Option Fault := none

/-- Goes through a batch; the alerts that do not pass are flagged. If no window can be opened the
count of the key starts anew. -/
def meter (window : τ) (burst : Number) (now : τ) :
    OrderedMap Key (RateWindow τ) → List Alert → Metering τ
  | windows, [] => { windows }
  | windows, a :: rest =>
    match a.key.toKey with
    | .error f => { windows, fault := some f }
    | .ok key =>
      match windowAt window now windows key with
      | .error f => { windows := restart windows key, fault := some f }
      | .ok w =>
        if burst ≤ .int w.passed then
          let later := meter window burst now (OrderedMap.set windows key w) rest
          { later with metered := ({ a with rateLimited := true }, false) :: later.metered }
        else
          let counted := { w with passed := w.passed + 1 }
          let later := meter window burst now (OrderedMap.set windows key counted) rest
          { later with metered := (a, true) :: later.metered }

/-- The whole batch with its flags, and whether each alert passes. A window or a burst that is not
positive passes all. -/
def filter (l : RateLimiter τ) (now : τ) (alerts : List Alert) :
    Except Fault (List (Alert × Bool)) × RateLimiter τ :=
  if l.window ≤ 0 ∨ l.burst ≤ 0 then (.ok (alerts.map fun a => (a, true)), l)
  else
    let metering := meter l.window l.burst now l.windows alerts
    (match metering.fault with
      | some f => .error f
      | none => .ok metering.metered,
      { l with windows := metering.windows })

end RateLimiter

/-- The alerts that passed. -/
def passedOf (metered : List (Alert × Bool)) : List Alert :=
  (metered.filter Prod.snd).map Prod.fst

end HostWatch
