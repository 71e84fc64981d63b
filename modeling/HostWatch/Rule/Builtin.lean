import HostWatch.Numeric.Notation
import HostWatch.Rule.Basic
import HostWatch.Rule.Thresholds
import HostWatch.Severity

/-!
# Built-in rules

One rule per source: processor load, memory, bursts of processes, network throughput, bursts of file
changes, and changes of what starts by itself. The rules on differences keep silent while their
source is warming up.
-/

namespace HostWatch.Rule

/-- Whether a measurement is below a limit. -/
def isBelow (x : Float) (limit : Value) : Except Fault Bool := do
  return decide (Number.double x < (← limit.limiting "<" "float"))

/-- Whether a count is below a limit. -/
def isFewer (n : Int) (limit : Value) : Except Fault Bool := do
  return decide (Number.int n < (← limit.limiting "<" "int"))

/-- A measured count as an integer. -/
def count (x : Float) : Except Fault Int := Fault.ofUnbounded (Binary64.truncate? x)

/-- What the alert on a percentage says: `what` is measured, and how the limit is introduced. -/
structure PercentAlert where
  metric : String
  ruleId : String
  title : String
  severity : String
  what : String
  verb : String

/-- The alert on the percentage `x`. -/
def PercentAlert.raise (a : PercentAlert) (limit : Value) (x : Float) :
    Except Fault (List Alert) := do
  let shown ← limit.toFixed 0
  .ok [{
    ruleId := .text a.ruleId
    title := .text a.title
    severity := .text a.severity
    message := a.what ++ " " ++ Binary64.displayFixed 2 x ++ "% " ++ a.verb ++ " " ++ shown ++ "%"
    evidence := [(a.metric, .double x)] }]

/-- High processor load: everything that is not below the limit. -/
def cpuHigh (limit : Value) : Rule where
  id := "cpu.high_usage"
  title := "High CPU usage"
  severity := Severity.medium
  description := "Total CPU usage above threshold"
  tags := ["resource"]
  evaluate := some fun s =>
    match s.metric? "cpu.total_pct" with
    | none => .ok []
    | some x => do
      if ← isBelow x limit then .ok []
      else PercentAlert.raise ⟨"cpu.total_pct", "cpu.high_usage", "High CPU usage",
        Severity.medium, "CPU usage", "exceeds threshold"⟩ limit x

/-- A used share of memory that reaches its limit. -/
def usedShare (a : PercentAlert) (limit : Value) : Evaluation := fun s =>
  match s.metric? a.metric with
  | none => .ok []
  | some x => do
    if (← limit.limiting ">=" "float") ≤ Number.double x then a.raise limit x else .ok []

/-- High use of memory or swap space. -/
def memoryPressure (ram swap : Value) : Rule where
  id := "mem.pressure"
  title := "Memory pressure"
  severity := Severity.medium
  description := "RAM or swap usage above threshold"
  tags := ["resource"]
  evaluate := some fun s => do
    let first ← usedShare ⟨"mem.ram.used_pct", "mem.high_usage", "High RAM usage",
      Severity.medium, "RAM usage", "exceeds"⟩ ram s
    let second ← usedShare ⟨"mem.swap.used_pct", "mem.swap_pressure", "Swap pressure",
      Severity.low, "Swap usage", "exceeds"⟩ swap s
    .ok (first ++ second)

/-- The most process ids that an alert names. -/
def maxPids : Nat := 50

/-- The ids of the process records among some values. -/
def pidsOf (records : List Value) : List Value :=
  records.filterMap fun r =>
    match r with
    | .object fields => some ((OrderedMap.get? fields "pid").getD .null)
    | _ => none

/-- What a loop over a field visits; an absent or empty field has nothing to visit. -/
def visited (field : Option Value) : Except Fault (List Value) :=
  (field.getD .null).elementsIfAny

/-- Many processes started between two captures. -/
def processBurst (limit : Value) : Rule where
  id := "proc.burst"
  title := "Process burst"
  severity := Severity.medium
  description := "Many processes started within one capture interval"
  tags := ["process"]
  evaluate := some fun s =>
    if s.isWarming then .ok []
    else
      match s.metric? "proc.new" with
      | none => .ok []
      | some x => do
        let n ← count x
        if ← isFewer n limit then .ok []
        else
          match s.fields with
          | none => .error (.missingPart Value.null.kindName "get")
          | some fields =>
            let records ← visited (OrderedMap.get? fields "proc.new")
            let pids := pidsOf records
            .ok [{
              ruleId := "proc.burst"
              title := "Process burst"
              severity := Severity.medium
              message := toString n ++ " new processes detected (limit " ++ limit.display ++ ")"
              evidence := ("proc.new", .int n) ::
                if pids.isEmpty then [] else [("pids", .list (pids.take maxPids))] }]

/-- An absent rate counts as zero, and so does a negative zero. -/
def rateOrZero (x : Option Float) : Float :=
  match x with
  | none => 0
  | some x => if x == 0 then 0 else x

/-- High throughput of the network. -/
def networkSpike (limit : Value) : Rule where
  id := "net.spike"
  title := "Network spike"
  severity := Severity.low
  description := "Combined RX+TX throughput above threshold"
  tags := ["network"]
  evaluate := some fun s =>
    if s.isWarming then .ok []
    else
      let received := s.metric? "net.rx_bytes_per_sec"
      let sent := s.metric? "net.tx_bytes_per_sec"
      if received.isNone && sent.isNone then .ok []
      else do
        let rx := rateOrZero received
        let tx := rateOrZero sent
        let total := rx + tx
        if ← isBelow total limit then return []
        let shown ← limit.toFixed 0
        return [{
          ruleId := "net.spike"
          title := "Network spike"
          severity := Severity.low
          message := "Network throughput " ++ Binary64.displayFixed 0 total ++ "B/s exceeds " ++
            shown ++ "B/s"
          evidence := [("net.rx_bytes_per_sec", .double rx),
            ("net.tx_bytes_per_sec", .double tx)] }]

/-- Many file changes between two captures. -/
def fileEventBurst (limit : Value) : Rule where
  id := "file.events_burst"
  title := "File change burst"
  severity := Severity.low
  description := "Many file changes within one capture interval"
  tags := ["file"]
  evaluate := some fun s =>
    if s.isWarming then .ok []
    else
      match s.metric? "file.events" with
      | none => .ok []
      | some x => do
        let n ← count x
        if ← isFewer n limit then .ok []
        else .ok [{
          ruleId := "file.events_burst"
          title := "File change burst"
          severity := Severity.low
          message := toString n ++ " file events detected (limit " ++ limit.display ++ ")"
          evidence := [("file.events", .int n)] }]

/-- A count that may be absent. -/
def countOrZero (x : Option Float) : Except Fault Int :=
  match x with
  | none => .ok 0
  | some x => count x

/-- Changes among the entries that start by themselves. -/
def persistenceChange (least : Value) : Rule where
  id := "persist.change"
  title := "Persistence modified"
  severity := Severity.high
  description := "Autorun, service or scheduled task entries changed"
  tags := ["persistence"]
  evaluate := some fun s =>
    let added := s.metric? "persist.added"
    let changed := s.metric? "persist.changed"
    let removed := s.metric? "persist.removed"
    if added.isNone && changed.isNone && removed.isNone then .ok []
    else do
      let added ← countOrZero added
      let changed ← countOrZero changed
      let removed ← countOrZero removed
      if ← isFewer (added + changed + removed) least then .ok []
      else
        let entries := (s.field? "persist.diff").bind Value.nonempty?
        .ok [{
          ruleId := "persist.change"
          title := "Persistence modified"
          severity := Severity.high
          message := "Persistence entries changed (added=" ++ toString added ++ " changed=" ++
            toString changed ++ " removed=" ++ toString removed ++ ")"
          evidence := [("persist.added", .int added), ("persist.changed", .int changed),
            ("persist.removed", .int removed)] ++
            (entries.map fun v => [("entries", v)]).getD [] }]

/-- The built-in rules under the given limits. Counts are cut to integers. -/
def builtin (limits : Thresholds) : Except Fault (List Rule) := do
  let t ← limits.normalized
  let newProcesses ← t.newProcesses.toInteger
  let fileEvents ← t.fileEvents.toInteger
  let changes ← t.persistenceChanges.toInteger
  .ok [cpuHigh t.cpuPercent, memoryPressure t.ramPercent t.swapPercent,
    processBurst (.int newProcesses), networkSpike t.networkBytes,
    fileEventBurst (.int fileEvents), persistenceChange (.int changes)]

end HostWatch.Rule
