import HostWatch.Value.Basic

/-!
# Process ids in evidence

An alert names processes under `pid` (one) and `pids` (a list). Whole numbers count, whatever their
kind; anything else is passed over.
-/

namespace HostWatch

/-- The process id that a value is; a truth value is none. -/
def pidOf? : Value → Option Int
  | .bool _ => none
  | .number n => n.integral?
  | _ => none

/-- All process ids that evidence names, the single one first. -/
def pidsIn (evidence : List (String × Value)) : List Int :=
  let single := ((OrderedMap.get? evidence "pid").bind pidOf?).toList
  match OrderedMap.get? evidence "pids" with
  | some (.list items) => single ++ items.filterMap pidOf?
  | _ => single

end HostWatch
