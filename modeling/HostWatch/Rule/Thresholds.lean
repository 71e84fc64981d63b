import HostWatch.Value.Reading

/-!
# Thresholds

The limits of the built-in rules. `Thresholds.fields` and `Thresholds.ofValue` give them the names
under which they are stored; a limit may be of any shape until `Thresholds.normalized` has looked at
it.
-/

namespace HostWatch

structure Thresholds where
  cpuPercent : Value := .double 90
  ramPercent : Value := .double 90
  swapPercent : Value := .double 60
  newProcesses : Value := .int 10
  /-- Bytes per second, both directions together. -/
  networkBytes : Value := .int 1048576
  fileEvents : Value := .int 50
  persistenceChanges : Value := .int 1
  deriving Repr

instance : Inhabited Thresholds := ⟨{}⟩

namespace Thresholds

/-- Every limit with its name. -/
def fields (t : Thresholds) : List (String × Value) := [
  ("cpu_high_pct", t.cpuPercent),
  ("mem_ram_pct", t.ramPercent),
  ("mem_swap_pct", t.swapPercent),
  ("proc_burst", t.newProcesses),
  ("net_spike_bytes", t.networkBytes),
  ("file_events_burst", t.fileEvents),
  ("persist_min_change", t.persistenceChanges)]

/-- Takes the limits from an object, over others. -/
def override (t : Thresholds) (v : Value) : Thresholds where
  cpuPercent := v.getOr "cpu_high_pct" t.cpuPercent
  ramPercent := v.getOr "mem_ram_pct" t.ramPercent
  swapPercent := v.getOr "mem_swap_pct" t.swapPercent
  newProcesses := v.getOr "proc_burst" t.newProcesses
  networkBytes := v.getOr "net_spike_bytes" t.networkBytes
  fileEvents := v.getOr "file_events_burst" t.fileEvents
  persistenceChanges := v.getOr "persist_min_change" t.persistenceChanges

/-- Takes the limits from an object; one that it does not give is the default. -/
def ofValue (v : Value) : Thresholds := override {} v

/-- A positive limit as it is; an empty one, and any other number, falls back to the default. -/
def positiveOr (default limit : Value) : Except Fault Value := do
  return if ← limit.isPositiveIfAny then limit else default

/-- All limits positive: the others are replaced by their defaults. -/
def normalized (t : Thresholds) : Except Fault Thresholds := do
  let d : Thresholds := {}
  return {
    cpuPercent := ← positiveOr d.cpuPercent t.cpuPercent
    ramPercent := ← positiveOr d.ramPercent t.ramPercent
    swapPercent := ← positiveOr d.swapPercent t.swapPercent
    newProcesses := ← positiveOr d.newProcesses t.newProcesses
    networkBytes := ← positiveOr d.networkBytes t.networkBytes
    fileEvents := ← positiveOr d.fileEvents t.fileEvents
    persistenceChanges := ← positiveOr d.persistenceChanges t.persistenceChanges }

end Thresholds

end HostWatch
