import HostWatch.Correlation.Sweep

/-!
# History

A `History` keeps the latest alerts. Whenever alerts are added, all that are kept are linked anew.
-/

namespace HostWatch

structure History (τ : Type) where
  /-- The most alerts that are kept. -/
  limit : Nat
  correlation : Correlation τ
  /-- The kept alerts, oldest first. -/
  alerts : List Alert := []

namespace History

/-- The number from which on a limit counts too many alerts. -/
def limitBound : Int := 9223372036854775808

/-- The number of alerts that a value bounds: at least one, and else an integer. -/
def limitOf (limit : Value) : Except Fault Nat := do
  let n ← limit.comparable ">"
  if !decide ((1 : Number) < n) then return 1
  match n with
  | .int n => if n < limitBound then return n.toNat else throw .integerTooLong
  | _ => throw (.wrongType .notBound)

/-- An empty history. It keeps at least one alert. -/
def empty {τ : Type} (limit : Value) (correlation : Correlation τ) :
    Except Fault (History τ) := do
  return { limit := ← limitOf limit, correlation }

variable {τ : Type} [LT τ] [LE τ] [DecidableLT τ] [DecidableLE τ] [OfNat τ 0] [TimeScale τ]

/-- The last `n` of a list. -/
def lastOf {α : Type} (n : Nat) (l : List α) : List α := l.drop (l.length - n)

/-- Adds alerts and links what is kept. If linking fails the alerts are kept without new links. -/
def extend (h : History τ) (added : List Alert) : History τ × Option Fault :=
  let kept := lastOf h.limit (h.alerts ++ added)
  if added.isEmpty then (h, none)
  else
    match h.correlation.correlate kept with
    | .ok alerts => ({ h with alerts }, none)
    | .error f => ({ h with alerts := kept }, some f)

/-- Changes the interval of a source for the links to come. -/
def setInterval (h : History τ) (source : Key) (interval : Except Fault τ) : History τ :=
  { h with correlation :=
      { h.correlation with
        intervals := OrderedMap.set h.correlation.intervals source interval } }

/-- The latest alerts, at most `n`. -/
def recent (h : History τ) (n : Value) : Except Fault (List Alert) := do
  let n ← n.comparable "<="
  if n ≤ 0 then return []
  match n.worth with
  | .inl n => return lastOf n.toNat h.alerts
  | .inr _ => throw (.wrongType .notIndex)

end History

end HostWatch
