import HostWatch.Indicator.Basic
import HostWatch.Rule.Builtin
import HostWatch.Text.Search

/-!
# The indicator rule

Compares new processes, file events and new connections with the indicators. A process or a file
matches if an indicator occurs inside its name or path; a connection matches if its remote address
is one.
-/

namespace HostWatch.Indicators

/-- The most alerts that one snapshot raises. -/
def maxAlerts : Nat := 50

/-- The first indicator that occurs in a text. -/
def firstWithin? (indicators : List String) (subject : String) : Option String :=
  indicators.find? fun i => Text.occurs i subject

/-- The text of a part; empty parts have none. -/
def partText (record : Value) (name : String) : String :=
  let v := record.getOr name (.text "")
  if v.isEmpty then "" else v.display

/-- The parts of a process record that are compared, with the indicators for each. -/
def processParts (i : Indicators) : List (String × List String) :=
  [("name", i.processNames), ("exe", i.processPaths), ("cmdline", i.processCommands)]

/-- The first indicator of a process, and the part it occurs in. -/
def matchProcess? (i : Indicators) (record : Value) : Option (String × String) :=
  i.processParts.findSome? fun (part, indicators) =>
    (firstWithin? indicators (Text.lower (partText record part))).map fun found => (found, part)

/-- The first indicator of a file. -/
def matchFile? (i : Indicators) (path : String) : Option String :=
  firstWithin? i.filePaths (Text.lower path)

/-- The indicator that a remote address is. -/
def matchAddress? (i : Indicators) (address : String) : Option String :=
  let a := Text.lower (Text.trim address)
  if a ≠ "" ∧ a ∈ i.remoteAddresses then some a else none

/-- What a process is called in a message. -/
def processLabel (record : Value) : String :=
  match ["name", "exe", "cmdline"].findSome? fun part =>
      (record.getOr part (.text "")).nonempty? with
  | some v => v.display
  | none => "pid=" ++ (record.getOr "pid" (.int 0)).display

/-- The alert on a process record, if it matches. -/
def processAlert? (i : Indicators) (record : Value) : Option Alert :=
  (i.matchProcess? record).map fun (indicator, part) =>
    let pid := record.getOr "pid" (.int 0)
    { ruleId := "ioc.match"
      message := "IOC match on process " ++ processLabel record ++ " (" ++ part ++ "=" ++
        indicator ++ ")"
      evidence := [("kind", .text "process"), ("indicator", .text indicator),
        ("field", .text part), ("pid", pid), ("name", record.getOr "name" (.text "")),
        ("exe", record.getOr "exe" (.text "")),
        ("cmdline", record.getOr "cmdline" (.text ""))]
      dedupKey := "ioc|process|" ++ indicator ++ "|" ++ pid.display }

/-- The alert on a file event, if its path matches. -/
def fileAlert? (i : Indicators) (event : Value) : Option Alert :=
  let path := partText event "path"
  (i.matchFile? path).map fun indicator =>
    { ruleId := "ioc.match"
      message := "IOC match on file " ++ path ++ " (path=" ++ indicator ++ ")"
      evidence := [("kind", .text "file"), ("indicator", .text indicator), ("path", .text path),
        ("event", event.getOr "type" (.text ""))]
      dedupKey := "ioc|file|" ++ indicator ++ "|" ++ path }

/-- The alert on a connection, if its remote address matches. -/
def connectionAlert? (i : Indicators) (connection : Value) : Option Alert :=
  let address := partText connection "remote_ip"
  (i.matchAddress? address).map fun indicator =>
    let pid := connection.getOr "pid" (.int 0)
    { ruleId := "ioc.match"
      message := "IOC match on remote IP " ++ address
      evidence := [("kind", .text "connection"), ("indicator", .text indicator),
        ("remote_ip", .text address),
        ("remote_port", connection.getOr "remote_port" (.int 0)), ("pid", pid)]
      dedupKey := "ioc|conn|" ++ indicator ++ "|" ++ address ++ "|" ++ pid.display }

/-- The fields of a snapshot that are looked at, each with what raises an alert in it. -/
def sources (i : Indicators) : List (String × (Value → Option Alert)) :=
  [("proc.new", i.processAlert?), ("file.events", i.fileAlert?), ("conn.new", i.connectionAlert?)]

/-- Goes through the sources until `room` alerts are found; a field behind that point is not
looked at, so it may hold anything. -/
def collect (fields : List (String × Value)) :
    Nat → List (String × (Value → Option Alert)) → Except Fault (List Alert)
  | 0, _ => .ok []
  | _, [] => .ok []
  | room, (name, alert?) :: rest => do
    let records ← Rule.visited (OrderedMap.get? fields name)
    let found := (records.filterMap alert?).take room
    let more ← collect fields (room - found.length) rest
    .ok (found ++ more)

/-- Every alert that is collected comes from a record that one of the sources looks at. -/
theorem exists_record_of_mem_collect {fields : List (String × Value)}
    {sources : List (String × (Value → Option Alert))} {room : Nat} {raised : List Alert} {a : Alert}
    (h : collect fields room sources = .ok raised) (ha : a ∈ raised) :
    ∃ source ∈ sources, ∃ records, Rule.visited (OrderedMap.get? fields source.1) = .ok records ∧
      ∃ record ∈ records, source.2 record = some a := by
  induction sources generalizing room raised with
  | nil =>
    have none : raised = [] := by cases room <;> exact (Except.ok.inj h).symm
    simp [none] at ha
  | cons source rest ih =>
    cases room with
    | zero =>
      have none : raised = [] := (Except.ok.inj h).symm
      simp [none] at ha
    | succ room =>
      obtain ⟨records, visited, h⟩ := ok_of_bind h
      obtain ⟨more, later, h⟩ := ok_of_bind h
      rw [← Except.ok.inj h] at ha
      rcases List.mem_append.1 ha with ha | ha
      · obtain ⟨record, hrecord, hraised⟩ := List.mem_filterMap.1 (List.mem_of_mem_take ha)
        exact ⟨source, List.mem_cons_self, records, visited, record, hrecord, hraised⟩
      · obtain ⟨source', hsource, found⟩ := ih later ha
        exact ⟨source', List.mem_cons_of_mem _ hsource, found⟩

/-- The rule that looks for indicators. Without indicators it never raises an alert. -/
def rule (i : Indicators) : Rule where
  id := "ioc.match"
  title := "IOC match"
  severity := Severity.high
  description := "Known-bad process, file path or remote address observed"
  tags := ["ioc"]
  evaluate := some fun s =>
    match s.fields with
    | none => .ok []
    | some fields => if i.isEmpty then .ok [] else collect fields maxAlerts i.sources

end HostWatch.Indicators
