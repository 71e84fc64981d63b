import HostWatch.Machine
import HostWatch.Numeric.Notation
import HostWatch.Snapshot

/-!
# Capturing

What all sources share: the snapshot before the first capture, rates between two captures, and the
number of records that a snapshot shows.
-/

namespace HostWatch

namespace Snapshot

/-- The snapshot of a source that has captured nothing yet. -/
def beforeCapture (capturer : String) : Snapshot where
  summary := capturer ++ "Snapshot(empty)"
  metadata := some { capturer }

end Snapshot

namespace Capture

/-- The seconds between two captures, at least a thousandth. -/
def elapsed (earlier later : Number) : Except Fault Number :=
  (Fault.integerTooLarge.ofOption (later.sub? earlier)).map (Number.larger (.double 0.001))

/-- Why two numbers have no quotient. -/
def quotientFault (a b : Number) : Fault :=
  match a.worth, b.worth with
  | .inl _, .inl _ => .quotientTooLarge
  | _, _ => .integerTooLarge

/-- The growth per second of a counter; a counter that fell has none. -/
def rate (earlier later : Value) (seconds : Number) : Except Fault Float := do
  let growth ← later.minus earlier
  let x ← (quotientFault growth seconds).ofOption (growth.quotient? seconds)
  return if 0 < x then x else 0

/-- The first `limit` of a list; a negative limit leaves out as many at the end. -/
def firstOf {α : Type} (limit : Int) (l : List α) : List α :=
  if 0 ≤ limit then l.take limit.toNat else l.take (l.length - limit.natAbs)

/-- The first of a list, as many as a value says; `null` sets no limit. -/
def upTo {α : Type} (limit : Value) (l : List α) : Except Fault (List α) :=
  match limit with
  | .null => .ok l
  | .number n =>
    match n.worth with
    | .inl n => .ok (firstOf n l)
    | .inr _ => .error (.wrongType .notIndex)
  | _ => .error (.wrongType .notIndex)

end Capture

end HostWatch
