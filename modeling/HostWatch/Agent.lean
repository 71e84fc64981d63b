import HostWatch.Indicator.Loading
import HostWatch.Indicator.Rule
import HostWatch.Rule.Loading
import HostWatch.Scheduler.Capturing

/-!
# The agent

Builds detection, response and a scheduler as the settings ask for.
-/

namespace HostWatch.Agent

/-- The path that a setting names; none if it is empty. -/
def pathAt (setting : Value) : Except Fault (Option String) :=
  if setting.isEmpty then .ok none else setting.toPath.map some

/-- All rules: the built-in ones, the indicators, and those of the user. -/
def rules (s : Settings) (f : Files) : Except Fault (List Rule) := do
  let builtin ← Rule.builtin s.thresholds
  let indicators ←
    match ← pathAt s.indicatorPath with
    | none => pure []
    | some path => (Indicators.load f path).map fun i => [i.rule]
  let custom ←
    match ← pathAt s.customRulesPath with
    | none => pure []
    | some path => do (← RuleDefinition.load f path).mapM RuleDefinition.compile
  return builtin ++ indicators ++ custom

/-- The deduper, if the settings ask for one. -/
def deduper (s : Settings) : Except Fault (Option (Deduper Number)) := do
  let window ← s.dedupWindow.comparable ">"
  return if window.isPositive then some { window } else none

/-- The rate limiter, if the settings ask for one. -/
def limiter (s : Settings) : Except Fault (Option (RateLimiter Number)) := do
  let window ← s.rateLimitWindow.comparable ">"
  if !window.isPositive then return none
  let burst ← s.rateLimitBurst.comparable ">"
  return if burst.isPositive then some { window, burst } else none

/-- Detection; `nanoseconds` is the time in the ids of alerts. -/
def detector (s : Settings) (f : Files) (nanoseconds : Int) : Except Fault (Detector Number) := do
  return {
    rules := ← rules s f
    deduper := ← deduper s
    limiter := ← limiter s
    ids := Ids.default fun _ => nanoseconds }

/-- Whether the settings ask for a policy. -/
def hasPolicy (s : Settings) : Except Fault Bool :=
  if !s.policyMinSeverity.isEmpty || !s.policyAllow.isEmpty || !s.policyDeny.isEmpty then .ok true
  else s.policyCooldown.isPositive

/-- The rules that a policy names. -/
def ruleList (setting : Value) : Except Fault (List Key) :=
  if setting.isEmpty then .ok [] else setting.toKeys

/-- The router in front of some responders, if the settings ask for a policy. -/
def router (s : Settings) (responders : List Responder) : Except Fault (Option Router) := do
  if !(← hasPolicy s) then return none
  return some {
    policy := some {
      minSeverity := s.policyMinSeverity
      allow := ← ruleList s.policyAllow
      deny := ← ruleList s.policyDeny
      cooldown := s.policyCooldown.comparable ">" }
    target := .own responders
    hook := .noted }

/-- Where the alert file is kept open. -/
def alertSlot : Nat := 0

/-- Where the telemetry file is kept open. -/
def telemetrySlot : Nat := 1

/-- The record file that a setting names; none if it is empty. -/
def recordFile (path maxBytes : Value) (slot : Nat) : Except Fault (Option RecordFile) :=
  if path.isEmpty then .ok none else (RecordFile.ofPath path maxBytes slot).map some

def responders (s : Settings) : Except Fault (List Responder) := do
  let log := if s.logAlerts.isEmpty then [] else [.log true]
  let file ← recordFile s.alertFilePath s.alertFileMaxBytes alertSlot
  let kill ←
    if s.killEnabled.isEmpty then pure []
    else s.killRules.toKeys.map fun rules =>
      [Responder.restricted rules (.kill (!s.killDryRun.isEmpty))]
  return log ++ (file.map Responder.file).toList ++ kill

def sinks (s : Settings) : Except Fault (List Sink) := do
  let file ← recordFile s.telemetryPath s.telemetryMaxBytes telemetrySlot
  return (file.map Sink.file).toList

/-- The seconds between two captures of each source. -/
def intervals (s : Settings) (capturers : List Capturer) : Except Fault (List Value) :=
  match s.intervals with
  | .object given => .ok (capturers.map fun c =>
      (OrderedMap.get? given c.name).getD (.number (Capturer.defaultInterval c.name)))
  | v => .error (.missingPart v.kindName "get")

/-- The intervals by which the alerts of each source are linked. -/
def linkIntervals (s : Scheduler) : Except Fault (OrderedMap Key (Except Fault Number)) := do
  let pairs ← (s.schedules.zipIdx.filterMap fun (sc, i) =>
    sc.capturer.map fun c => (c.name, s.intervalAt i)).mapM fun (name, interval) => do
      return (Key.ofText name, (← interval).comparable "<=")
  return OrderedMap.ofPairs pairs

/-- The whole agent on a host; `folders` are those watched for persistence. Each setting is looked
at where it is put to use, and the first that cannot be used is the one that is complained of. -/
def build (s : Settings) (folders : Except Fault (List String)) (h : Host) :
    Except Fault Scheduler := do
  let capturers ← Capturer.ofSettings s h.machine folders
  let intervals ← intervals s capturers
  let responders ← responders s
  let router ← router s responders
  let detector ← detector s h.files h.nanoseconds
  let capacity ← Scheduler.capacityOf s.queueCapacity
  let sinks ← sinks s
  let correlation : Correlation Number := {
    defaultInterval := s.defaultInterval.comparable "<="
    crossSourceOnly := !s.crossSourceOnly.isEmpty }
  let scheduler : Scheduler := {
    schedules := capturers.zipWith (fun c i => { capturer := some c, interval := some i }) intervals
    defaultInterval := s.defaultInterval
    capacity
    pipeline := {
      detector := some detector
      router
      responders := if router.isSome then none else some responders }
    verbose := !s.verbose.isEmpty
    sinks
    listeners := [.history]
    history := { limit := 1, correlation }
    session := Scheduler.newSession h.facts.user h.nanoseconds
    host := h }
  let intervals ← linkIntervals scheduler
  return { scheduler with
    history := ← History.empty s.historyLimit { correlation with intervals } }

end HostWatch.Agent
