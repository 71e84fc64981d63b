import HostWatch.Text.Case
import HostWatch.Value.Reading

/-!
# Severities

Five names in a fixed order; any other text ranks below all of them.
-/

namespace HostWatch.Severity

def info : String := "info"

def low : String := "low"

def medium : String := "medium"

def high : String := "high"

def critical : String := "critical"

/-- The names from the lowest rank to the highest. -/
def names : List String := [info, low, medium, high, critical]

/-- The place of a severity among the names, from one, whatever its case; unknown texts have none
and rank at zero. -/
def rank (severity : String) : Nat :=
  let name := Text.lower severity
  if name ∈ names then names.idxOf name + 1 else 0

/-- The rank of a value that should be a severity; an empty value has none. -/
def rankOf (severity : Value) : Except Fault Nat :=
  if severity.isEmpty then .ok 0 else (severity.textFor "lower").map rank

end HostWatch.Severity
