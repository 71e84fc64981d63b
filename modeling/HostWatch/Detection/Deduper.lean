import HostWatch.Alert
import HostWatch.Clock

/-!
# Deduplication

A `Deduper` passes an alert unless one with the same key passed less than a window before. It
remembers for each key until when it is suppressed, and forgets keys whose time is over.
-/

namespace HostWatch

/-- Deduplication over a type `τ` of clock readings. -/
structure Deduper (τ : Type) where
  window : τ
  /-- Until when each key is suppressed. -/
  suppressed : OrderedMap Key τ := []

namespace Deduper

variable {τ : Type} [Clock τ] [LT τ] [LE τ] [DecidableLT τ] [DecidableLE τ] [OfNat τ 0]

/-- Whether a key is still suppressed at the time `now`. -/
def suppresses (suppressed : OrderedMap Key τ) (now : τ) (key : Key) : Bool :=
  match OrderedMap.get? suppressed key with
  | some t => decide (now < t)
  | none => false

/-- What becomes of one alert: nothing if it is suppressed, else the keys that are suppressed after
it has passed. -/
def pass (window now : τ) (suppressed : OrderedMap Key τ) (a : Alert) :
    Except Fault (Option (OrderedMap Key τ)) := do
  let key ← a.key.toKey
  if suppresses suppressed now key then return none
  return some (OrderedMap.set suppressed key (← Clock.after now window))

/-- What becomes of a batch, up to the first alert that cannot be judged. -/
structure Sifting (τ : Type) where
  passed : List Alert := []
  suppressed : OrderedMap Key τ
  fault : Option Fault := none

/-- Goes through a batch; every alert that passes starts the window of its key anew. -/
def sift (window now : τ) : OrderedMap Key τ → List Alert → Sifting τ
  | suppressed, [] => { suppressed }
  | suppressed, a :: rest =>
    match pass window now suppressed a with
    | .error f => { suppressed, fault := some f }
    | .ok none => sift window now suppressed rest
    | .ok (some after) =>
      let later := sift window now after rest
      { later with passed := a :: later.passed }

/-- The alerts of a batch that pass at the time `now`. A window that is not positive passes all.
Keys whose time is over are forgotten at the end of a batch. -/
def filter (d : Deduper τ) (now : τ) (alerts : List Alert) :
    Except Fault (List Alert) × Deduper τ :=
  if d.window ≤ 0 then (.ok alerts, d)
  else
    let sifting := sift d.window now d.suppressed alerts
    match sifting.fault with
    | some f => (.error f, { d with suppressed := sifting.suppressed })
    | none =>
      (.ok sifting.passed,
        { d with suppressed := sifting.suppressed.filter fun (_, t) => !decide (t ≤ now) })

end Deduper

end HostWatch
