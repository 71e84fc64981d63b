import HostWatch.Files.Location
import HostWatch.Rule.Thresholds

/-!
# Settings

All that a user can choose. A setting keeps the value that stands in the file, of whatever kind; it
is only looked at where it is put to use. `Settings.fields` gives the settings the names they are
stored under, and `Settings.override` takes them from there.
-/

namespace HostWatch

structure Settings where
  /-- Seconds between two captures where nothing else is set. -/
  defaultInterval : Value := .double 3
  queueCapacity : Value := .int 64
  verbose : Value := .bool false
  logLevel : Value := .text "INFO"
  /-- No file if empty, as for the other paths. -/
  logFile : Value := .text ""
  cpuEnabled : Value := .bool true
  memoryEnabled : Value := .bool true
  networkEnabled : Value := .bool true
  processesEnabled : Value := .bool true
  connectionsEnabled : Value := .bool true
  connectionKind : Value := .text "inet"
  disksEnabled : Value := .bool true
  diskPaths : Value := .list [.text "/"]
  persistenceEnabled : Value := .bool true
  fileWatchEnabled : Value := .bool false
  fileWatchPaths : Value := .list []
  fileWatchMaxFiles : Value := .int 50000
  /-- Seconds between two captures of a source. -/
  intervals : Value := .object []
  thresholds : Thresholds := {}
  /-- No deduplication if not positive, as for the other durations. -/
  dedupWindow : Value := .double 30
  rateLimitWindow : Value := .double 30
  rateLimitBurst : Value := .int 20
  indicatorPath : Value := .text ""
  customRulesPath : Value := .text ""
  policyMinSeverity : Value := .text ""
  policyAllow : Value := .list []
  policyDeny : Value := .list []
  policyCooldown : Value := .double 0
  logAlerts : Value := .bool true
  alertFilePath : Value := .text ""
  alertFileMaxBytes : Value := .int 5242880
  killEnabled : Value := .bool false
  killDryRun : Value := .bool true
  killRules : Value := .list []
  telemetryPath : Value := .text ""
  telemetryMaxBytes : Value := .int 5242880
  historyLimit : Value := .int 500
  crossSourceOnly : Value := .bool true
  deriving Repr

instance : Inhabited Settings := ⟨{}⟩

namespace Settings

/-- The files that settings name. -/
def paths (s : Settings) : List String :=
  [s.indicatorPath, s.customRulesPath, s.alertFilePath, s.telemetryPath, s.logFile].filterMap
    fun path => path.nonempty?.bind Value.toText?

/-- Every setting with the name it is stored under, in the order of the file. -/
def fields (s : Settings) : List (String × Value) := [
  ("default_interval_sec", s.defaultInterval),
  ("queue_capacity", s.queueCapacity),
  ("verbose", s.verbose),
  ("log_level", s.logLevel),
  ("log_file", s.logFile),
  ("cpu_enabled", s.cpuEnabled),
  ("mem_enabled", s.memoryEnabled),
  ("net_enabled", s.networkEnabled),
  ("proc_enabled", s.processesEnabled),
  ("conn_enabled", s.connectionsEnabled),
  ("conn_kind", s.connectionKind),
  ("disk_enabled", s.disksEnabled),
  ("disk_paths", s.diskPaths),
  ("persist_enabled", s.persistenceEnabled),
  ("filewatch_enabled", s.fileWatchEnabled),
  ("filewatch_paths", s.fileWatchPaths),
  ("filewatch_max_files", s.fileWatchMaxFiles),
  ("intervals", s.intervals)] ++
  s.thresholds.fields ++ [
  ("dedup_window_sec", s.dedupWindow),
  ("rate_limit_window_sec", s.rateLimitWindow),
  ("rate_limit_burst", s.rateLimitBurst),
  ("ioc_path", s.indicatorPath),
  ("custom_rules_path", s.customRulesPath),
  ("policy_min_severity", s.policyMinSeverity),
  ("policy_allow_rules", s.policyAllow),
  ("policy_deny_rules", s.policyDeny),
  ("policy_cooldown_sec", s.policyCooldown),
  ("log_alerts", s.logAlerts),
  ("alert_file_path", s.alertFilePath),
  ("alert_file_max_bytes", s.alertFileMaxBytes),
  ("kill_enabled", s.killEnabled),
  ("kill_dry_run", s.killDryRun),
  ("kill_rules", s.killRules),
  ("telemetry_path", s.telemetryPath),
  ("telemetry_max_bytes", s.telemetryMaxBytes),
  ("history_limit", s.historyLimit),
  ("correlate_cross_source_only", s.crossSourceOnly)]

/-- The names of all settings. -/
def names : List String := ({} : Settings).fields.map Prod.fst

/-- The settings that an object gives, over others; names that are not known are left out. -/
def override (s : Settings) (given : List (String × Value)) : Settings :=
  let choose (name : String) (own : Value) : Value := (OrderedMap.get? given name).getD own
  { defaultInterval := choose "default_interval_sec" s.defaultInterval
    queueCapacity := choose "queue_capacity" s.queueCapacity
    verbose := choose "verbose" s.verbose
    logLevel := choose "log_level" s.logLevel
    logFile := choose "log_file" s.logFile
    cpuEnabled := choose "cpu_enabled" s.cpuEnabled
    memoryEnabled := choose "mem_enabled" s.memoryEnabled
    networkEnabled := choose "net_enabled" s.networkEnabled
    processesEnabled := choose "proc_enabled" s.processesEnabled
    connectionsEnabled := choose "conn_enabled" s.connectionsEnabled
    connectionKind := choose "conn_kind" s.connectionKind
    disksEnabled := choose "disk_enabled" s.disksEnabled
    diskPaths := choose "disk_paths" s.diskPaths
    persistenceEnabled := choose "persist_enabled" s.persistenceEnabled
    fileWatchEnabled := choose "filewatch_enabled" s.fileWatchEnabled
    fileWatchPaths := choose "filewatch_paths" s.fileWatchPaths
    fileWatchMaxFiles := choose "filewatch_max_files" s.fileWatchMaxFiles
    intervals := choose "intervals" s.intervals
    thresholds := s.thresholds.override (.object given)
    dedupWindow := choose "dedup_window_sec" s.dedupWindow
    rateLimitWindow := choose "rate_limit_window_sec" s.rateLimitWindow
    rateLimitBurst := choose "rate_limit_burst" s.rateLimitBurst
    indicatorPath := choose "ioc_path" s.indicatorPath
    customRulesPath := choose "custom_rules_path" s.customRulesPath
    policyMinSeverity := choose "policy_min_severity" s.policyMinSeverity
    policyAllow := choose "policy_allow_rules" s.policyAllow
    policyDeny := choose "policy_deny_rules" s.policyDeny
    policyCooldown := choose "policy_cooldown_sec" s.policyCooldown
    logAlerts := choose "log_alerts" s.logAlerts
    alertFilePath := choose "alert_file_path" s.alertFilePath
    alertFileMaxBytes := choose "alert_file_max_bytes" s.alertFileMaxBytes
    killEnabled := choose "kill_enabled" s.killEnabled
    killDryRun := choose "kill_dry_run" s.killDryRun
    killRules := choose "kill_rules" s.killRules
    telemetryPath := choose "telemetry_path" s.telemetryPath
    telemetryMaxBytes := choose "telemetry_max_bytes" s.telemetryMaxBytes
    historyLimit := choose "history_limit" s.historyLimit
    crossSourceOnly := choose "correlate_cross_source_only" s.crossSourceOnly }

def sameContent (a b : Settings) : Bool := Value.sameContent (.object a.fields) (.object b.fields)

/-- Where things are kept if no path is set. -/
structure Places where
  settings : Location
  alerts : String
  deriving DecidableEq, Repr

/-- The directory in the home directory of the user. -/
def directory (home : String) : Location := (Location.parse home).child ".hostsentry"

/-- The places in a home directory. -/
def Places.ofHome (home : String) : Places where
  settings := (directory home).child "config.json"
  alerts := ((directory home).child "alerts.jsonl").display

/-- The settings that hold where nothing is said. -/
def initial (p : Places) : Settings := { alertFilePath := .text p.alerts }

end Settings

end HostWatch
