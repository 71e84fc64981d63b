import HostWatch.Proofs.Indicator.Keys
import Mathlib.Data.List.Forall2

/-!
# What the indicator rule matches

`OnProcess`, `OnFile` and `OnConnection` say which records match, by the indicators that stand in their
parts. The rule goes through three fields and stops once it has enough alerts; what it raises is still
no more than a beginning of all alerts on all matching records (`Indicators.collect_eq_take`). A search
through the lists of indicators, one for each part, is a search through one list
(`Indicators.matchProcess?_eq_find?`), so the first indicator in it is the one that is reported. The rule
as a whole is `Indicators.evaluate_matches`.
-/

namespace HostWatch

namespace Snapshot

/-- The records under a name, if there is a list of them. -/
def records (s : Snapshot) (name : String) : List Value := ((s.field? name).getD .null).items

/-- Under the name there is nothing but a list. -/
def ListsRecords (s : Snapshot) (name : String) : Prop :=
  ∀ v, s.field? name = some v → ∃ records, v = .list records

end Snapshot

def IndicatorSource.IsListed (g : IndicatorSource) : Prop := ∀ entry ∈ g.fields, ∃ values, entry.2 = .list values

/-- The alert says what kind of record it is on, and for which indicator. -/
structure Alert.Names (a : Alert) (kind indicator : String) : Prop where
  kind : a.clue "kind" = some (.text kind)
  indicator : a.clue "indicator" = some (.text indicator)

theorem Value.elementsIfAny_list (items : List Value) : (Value.list items).elementsIfAny = .ok items := by
  cases items with
  | nil => rfl
  | cons v rest => rfl

theorem Snapshot.ListsRecords.visited {s : Snapshot} {name : String} (h : s.ListsRecords name) :
    Rule.visited (s.field? name) = .ok (s.records name) := by
  unfold Rule.visited records
  rcases hv : s.field? name with _ | v
  · rfl
  · obtain ⟨items, rfl⟩ := h v hv
    exact Value.elementsIfAny_list items

namespace Indicators

/-- The first one of a list with a property. -/
def IsFirst {α : Type} (p : α → Prop) (l : List α) (x : α) : Prop :=
  ∃ before after, l = before ++ x :: after ∧ p x ∧ ∀ y ∈ before, ¬ p y

/-- The indicator stands in the lower case of a part. -/
def Within (record : Value) (indicator part : String) : Prop :=
  indicator.toList <:+: (Text.lower (partText record part)).toList

instance (record : Value) (indicator part : String) : Decidable (Within record indicator part) :=
  decidable_of_iff _ Text.occurs_iff

section Matches
variable (i : Indicators) (record : Value)

def OnProcess : Prop :=
  (∃ n ∈ i.processNames, Within record n "name") ∨ (∃ n ∈ i.processPaths, Within record n "exe") ∨
    ∃ n ∈ i.processCommands, Within record n "cmdline"

def OnFile : Prop := ∃ n ∈ i.filePaths, Within record n "path"

def OnConnection : Prop := ∃ n ∈ i.remoteAddresses, Text.lower (Text.trim (partText record "remote_ip")) = n

instance : DecidablePred i.OnProcess := fun _ => inferInstanceAs (Decidable (_ ∨ _ ∨ _))

instance : DecidablePred i.OnFile := fun _ => inferInstanceAs (Decidable (∃ n ∈ i.filePaths, _))

instance : DecidablePred i.OnConnection := fun _ => inferInstanceAs (Decidable (∃ n ∈ i.remoteAddresses, _))

/-- What is looked for in a process, in that order: indicators, each with the part it should stand in. -/
def soughtInProcess : List (String × String) :=
  i.processNames.map (·, "name") ++ i.processPaths.map (·, "exe") ++ i.processCommands.map (·, "cmdline")

end Matches

/-- The alert on a process names the first indicator that stands in it, and the part. -/
structure ReportsProcess (i : Indicators) (record : Value) (a : Alert) : Prop where
  raised : i.processAlert? record = some a
  first : ∃ n part, IsFirst (fun x => Within record x.1 x.2) i.soughtInProcess (n, part) ∧
    a.Names "process" n ∧ a.clue "field" = some (.text part)

structure ReportsFile (i : Indicators) (record : Value) (a : Alert) : Prop where
  raised : i.fileAlert? record = some a
  first : ∃ n, IsFirst (Within record · "path") i.filePaths n ∧ a.Names "file" n

structure ReportsConnection (i : Indicators) (record : Value) (a : Alert) : Prop where
  raised : i.connectionAlert? record = some a
  names : a.Names "connection" (Text.lower (Text.trim (partText record "remote_ip")))

/-! ### Normal form -/

theorem mem_distinctAfter {seen texts : List String} {s : String} :
    s ∈ distinctAfter seen texts ↔ s ∈ texts ∧ s ≠ "" ∧ s ∉ seen := by
  induction texts generalizing seen with
  | nil => simp [distinctAfter]
  | cons t rest ih =>
    unfold distinctAfter
    split
    · rename_i dropped
      rw [ih, List.mem_cons]
      constructor
      · rintro ⟨hs, new⟩
        exact ⟨.inr hs, new⟩
      · rintro ⟨rfl | hs, hne, new⟩
        · exact absurd dropped (by simp [hne, new])
        · exact ⟨hs, hne, new⟩
    · rename_i kept
      rw [not_or] at kept
      rw [List.mem_cons, List.mem_cons, ih, List.mem_cons, not_or]
      constructor
      · rintro (rfl | ⟨hs, hne, -, new⟩)
        · exact ⟨.inl rfl, kept⟩
        · exact ⟨.inr hs, hne, new⟩
      · rintro ⟨rfl | hs, hne, new⟩
        · exact .inl rfl
        · by_cases hst : s = t
          · exact .inl hst
          · exact .inr ⟨hs, hne, hst, new⟩

theorem empty_not_mem_of_ofValue {v : Value} {texts : List String} (h : ofValue v = .ok texts) : "" ∉ texts := by
  unfold ofValue at h
  rcases hv : v.elementsIfAny with f | values
  · rw [hv] at h
    cases h
  · rw [hv] at h
    obtain rfl := Except.ok.inj h
    exact fun hs => (mem_distinctAfter.1 hs).2.1 rfl

theorem ofValue_list (values : List Value) : ofValue (.list values) = .ok (normalize values) := by
  unfold ofValue
  rw [Value.elementsIfAny_list]
  rfl

end Indicators

namespace IndicatorSource
variable {g : IndicatorSource} {i : Indicators}

theorem exists_normalized (lists : g.IsListed) : ∃ i, g.normalized = .ok i := by
  simp only [IsListed, fields, List.forall_mem_cons] at lists
  obtain ⟨⟨names, hn⟩, ⟨paths, hp⟩, ⟨commands, hc⟩, ⟨files, hf⟩, ⟨addresses, ha⟩, -⟩ := lists
  unfold normalized
  rw [hn, hp, hc, hf, ha]
  simp only [Indicators.ofValue_list]
  exact ⟨_, rfl⟩

theorem normalized_ok_iff : g.normalized = .ok i ↔
    Indicators.ofValue g.processNames = .ok i.processNames ∧ Indicators.ofValue g.processPaths = .ok i.processPaths ∧
      Indicators.ofValue g.processCommands = .ok i.processCommands ∧ Indicators.ofValue g.filePaths = .ok i.filePaths ∧
      Indicators.ofValue g.remoteAddresses = .ok i.remoteAddresses := by
  constructor
  · intro h
    obtain ⟨names, hnames, h⟩ := ok_of_bind h
    obtain ⟨paths, hpaths, h⟩ := ok_of_bind h
    obtain ⟨commands, hcommands, h⟩ := ok_of_bind h
    obtain ⟨files, hfiles, h⟩ := ok_of_bind h
    obtain ⟨addresses, haddresses, h⟩ := ok_of_bind h
    obtain rfl := Except.ok.inj h
    exact ⟨hnames, hpaths, hcommands, hfiles, haddresses⟩
  · rintro ⟨names, paths, commands, files, addresses⟩
    unfold normalized
    rw [names, paths, commands, files, addresses]
    rfl

theorem empty_not_mem_remoteAddresses (h : g.normalized = .ok i) : "" ∉ i.remoteAddresses := by
  obtain ⟨-, -, -, -, addresses⟩ := normalized_ok_iff.1 h
  exact Indicators.empty_not_mem_of_ofValue addresses

end IndicatorSource

namespace Indicators
variable {i : Indicators} {record : Value} {a : Alert}

/-! ### One record -/

theorem isFirst_of_find? {α : Type} {p : α → Prop} {q : α → Bool} {l : List α} {x : α} (hq : ∀ y, q y ↔ p y)
    (h : l.find? q = some x) : IsFirst p l x := by
  obtain ⟨hx, before, after, hl, none⟩ := List.find?_eq_some_iff_append.1 h
  refine ⟨before, after, hl, (hq x).1 hx, fun y hy hpy => ?_⟩
  simpa [(hq y).2 hpy] using none y hy

theorem matchProcess?_eq_find? (i : Indicators) (record : Value) : i.matchProcess? record =
    i.soughtInProcess.find? fun x => Text.occurs x.1 (Text.lower (partText record x.2)) := by
  have joined : i.soughtInProcess = i.processParts.flatMap fun p => p.2.map (·, p.1) := by
    simp [soughtInProcess, processParts]
  rw [joined, List.find?_flatMap]
  unfold matchProcess? firstWithin?
  congr
  funext p
  rw [List.find?_map]
  rfl

theorem processAlert?_isSome_iff : (i.processAlert? record).isSome ↔ i.OnProcess record := by
  unfold processAlert? OnProcess Within
  rw [Option.isSome_map, matchProcess?_eq_find?, List.find?_isSome]
  simp only [Text.occurs_iff, soughtInProcess, List.mem_append, List.mem_map]
  constructor
  · rintro ⟨_, (⟨n, hn, rfl⟩ | ⟨n, hn, rfl⟩) | ⟨n, hn, rfl⟩, within⟩
    · exact .inl ⟨n, hn, within⟩
    · exact .inr (.inl ⟨n, hn, within⟩)
    · exact .inr (.inr ⟨n, hn, within⟩)
  · rintro (⟨n, hn, within⟩ | ⟨n, hn, within⟩ | ⟨n, hn, within⟩)
    · exact ⟨(n, "name"), .inl (.inl ⟨n, hn, rfl⟩), within⟩
    · exact ⟨(n, "exe"), .inl (.inr ⟨n, hn, rfl⟩), within⟩
    · exact ⟨(n, "cmdline"), .inr ⟨n, hn, rfl⟩, within⟩

theorem reportsProcess (h : i.processAlert? record = some a) : i.ReportsProcess record a := by
  refine ⟨h, ?_⟩
  obtain ⟨⟨n, part⟩, found, rfl⟩ := Option.map_eq_some_iff.1 h
  rw [matchProcess?_eq_find?] at found
  refine ⟨n, part, isFirst_of_find? (fun x => Text.occurs_iff) found, ⟨?_, ?_⟩, ?_⟩
  · rfl
  · rfl
  · rfl

theorem fileAlert?_isSome_iff : (i.fileAlert? record).isSome ↔ i.OnFile record := by
  unfold fileAlert? matchFile? firstWithin? OnFile Within
  rw [Option.isSome_map, List.find?_isSome]
  simp only [Text.occurs_iff]

theorem reportsFile (h : i.fileAlert? record = some a) : i.ReportsFile record a := by
  refine ⟨h, ?_⟩
  obtain ⟨n, found, rfl⟩ := Option.map_eq_some_iff.1 h
  refine ⟨n, isFirst_of_find? (fun x => Text.occurs_iff) found, ?_, ?_⟩
  · rfl
  · rfl

/-- An address of blanks only is no indicator, since none is empty. -/
theorem connectionAlert?_isSome_iff (named : "" ∉ i.remoteAddresses) :
    (i.connectionAlert? record).isSome ↔ i.OnConnection record := by
  unfold connectionAlert? matchAddress? OnConnection
  simp only [Option.isSome_map]
  constructor
  · intro h
    split at h
    · rename_i found
      exact ⟨_, found.2, rfl⟩
    · cases h
  · rintro ⟨n, hn, rfl⟩
    rw [if_pos ⟨fun blank => named (blank ▸ hn), hn⟩]
    rfl

theorem reportsConnection (h : i.connectionAlert? record = some a) : i.ReportsConnection record a := by
  refine ⟨h, ?_⟩
  simp only [connectionAlert?, Option.map_eq_some_iff] at h
  obtain ⟨n, found, rfl⟩ := h
  rw [← eq_lower_of_matchAddress? found]
  constructor
  · rfl
  · rfl

/-! ### All records -/

/-- One alert on each matching record, in their order. -/
theorem forall₂_filterMap {alert? : Value → Option Alert} {p : Value → Prop} [DecidablePred p]
    {reports : Value → Alert → Prop} (matches_iff : ∀ record, (alert? record).isSome ↔ p record)
    (raised : ∀ record a, alert? record = some a → reports record a) (records : List Value) :
    List.Forall₂ reports (records.filter (p ·)) (records.filterMap alert?) := by
  induction records with
  | nil => exact .nil
  | cons record rest ih =>
    rcases h : alert? record with _ | a
    · rw [List.filter_cons_of_neg (by simp [← matches_iff, h]), List.filterMap_cons_none h]
      exact ih
    · rw [List.filter_cons_of_pos (by simp [← matches_iff, h]), List.filterMap_cons_some h]
      exact .cons (raised record a h) ih

/-- Going through the fields with the room that is left gives the beginning of all there is. -/
theorem collect_eq_take {fields : List (String × Value)} {sources : List (String × (Value → Option Alert))}
    {records : String → List Value}
    (visited : ∀ source ∈ sources, Rule.visited (OrderedMap.get? fields source.1) = .ok (records source.1))
    (room : Nat) : collect fields room sources =
      .ok ((sources.flatMap fun source => (records source.1).filterMap source.2).take room) := by
  induction sources generalizing room with
  | nil => cases room <;> rfl
  | cons source rest ih =>
    obtain ⟨name, alert?⟩ := source
    obtain ⟨first, visited⟩ := List.forall_mem_cons.1 visited
    cases room with
    | zero => rfl
    | succ room =>
      unfold collect
      simp only [first, ih visited]
      show Except.ok _ = Except.ok _
      -- what is left of the room is the same whether the first records are cut to it or not
      rw [List.flatMap_cons, List.take_append, List.length_take]
      congr 3
      dsimp only
      omega

/-- Where there are no indicators, nothing is raised on any record. -/
theorem alerts_of_isEmpty (empty : i.isEmpty) (record : Value) :
    i.processAlert? record = none ∧ i.fileAlert? record = none ∧ i.connectionAlert? record = none := by
  simp only [isEmpty, Bool.and_eq_true, List.isEmpty_iff] at empty
  obtain ⟨⟨⟨⟨names, paths⟩, commands⟩, files⟩, addresses⟩ := empty
  simp [processAlert?, matchProcess?, processParts, fileAlert?, matchFile?, firstWithin?, connectionAlert?,
    matchAddress?, names, paths, commands, files, addresses]

theorem evaluate_eq_take {evaluate : Evaluation} (rule : i.rule.evaluate = some evaluate) {s : Snapshot}
    (lists : ∀ source ∈ i.sources, s.ListsRecords source.1) : evaluate s =
      .ok ((i.sources.flatMap fun source => (s.records source.1).filterMap source.2).take maxAlerts) := by
  obtain rfl := Option.some.inj rule
  dsimp only
  split
  · rename_i bare
    have nothing (name : String) : s.records name = [] := by
      simp [Snapshot.records, Snapshot.field?, bare, Value.items]
    simp [nothing]
  · rename_i fields given
    split
    · rename_i empty
      have silent : ∀ source ∈ i.sources, (s.records source.1).filterMap source.2 = [] := by
        simp only [sources, List.forall_mem_cons, List.filterMap_eq_nil_iff]
        exact ⟨fun r _ => (alerts_of_isEmpty empty r).1, fun r _ => (alerts_of_isEmpty empty r).2.1,
          fun r _ => (alerts_of_isEmpty empty r).2.2, by simp⟩
      rw [List.flatMap_eq_nil_iff.2 silent]
      rfl
    · refine collect_eq_take (fun source hsource => ?_) maxAlerts
      have visited := (lists source hsource).visited
      rwa [show s.field? source.1 = OrderedMap.get? fields source.1 by simp [Snapshot.field?, given]] at visited

/-- The rule raises an alert on each process, file and connection that matches, in this order and in the order of
the records, up to fifty. The alert names the first indicator that stands in the record. Lists of indicators
always have a normal form. -/
theorem evaluate_matches (g : IndicatorSource) :
    (g.IsListed → ∃ i, g.normalized = .ok i) ∧
    ∀ i, g.normalized = .ok i → ∃ evaluate, i.rule.evaluate = some evaluate ∧ ∀ s : Snapshot,
      (∀ name ∈ ["proc.new", "file.events", "conn.new"], s.ListsRecords name) →
      ∃ processes files connections, evaluate s = .ok ((processes ++ files ++ connections).take 50) ∧
        List.Forall₂ i.ReportsProcess ((s.records "proc.new").filter (i.OnProcess ·)) processes ∧
        List.Forall₂ i.ReportsFile ((s.records "file.events").filter (i.OnFile ·)) files ∧
        List.Forall₂ i.ReportsConnection ((s.records "conn.new").filter (i.OnConnection ·)) connections := by
  refine ⟨IndicatorSource.exists_normalized, fun i normal => ⟨_, rfl, fun s lists => ?_⟩⟩
  have named := IndicatorSource.empty_not_mem_remoteAddresses normal
  refine ⟨(s.records "proc.new").filterMap i.processAlert?, (s.records "file.events").filterMap i.fileAlert?,
    (s.records "conn.new").filterMap i.connectionAlert?, ?_, ?_, ?_, ?_⟩
  · rw [evaluate_eq_take rfl (by simpa [sources] using lists)]
    simp [sources, maxAlerts]
  · exact forall₂_filterMap (fun _ => processAlert?_isSome_iff) (fun _ _ => reportsProcess) _
  · exact forall₂_filterMap (fun _ => fileAlert?_isSome_iff) (fun _ _ => reportsFile) _
  · exact forall₂_filterMap (fun _ => connectionAlert?_isSome_iff named) (fun _ _ => reportsConnection) _

/-- A name with blanks around it, one path for processes, two for files, and an address. -/
def watched : IndicatorSource where
  processNames := .list [.text " Evil "]
  processPaths := .list [.text "/tmp/"]
  filePaths := .list [.text "shadow", .text "/etc/"]
  remoteAddresses := .list [.text "10.0.0.1"]

/-- Two processes, one of them an object with attributes, a file, and two connections. -/
def observed : Snapshot where
  fields := some [
    ("proc.new", .list [.record [("pid", .int 1), ("name", .text "cat"), ("exe", .text "/TMP/cat")],
      .object [("pid", .int 2), ("name", .text "EVIL.exe"), ("exe", .text "/tmp/evil")]]),
    ("file.events", .list [.object [("path", .text "/etc/Shadow")]]),
    ("conn.new", .list [.object [("remote_ip", .text "10.0.0.10")], .object [("remote_ip", .text " 10.0.0.1 ")]])]

theorem evaluate_matches_observed :
    watched.IsListed ∧ (∀ name ∈ ["proc.new", "file.events", "conn.new"], observed.ListsRecords name) ∧
    ∃ i, watched.normalized = .ok i ∧ ∃ evaluate, i.rule.evaluate = some evaluate ∧
      (evaluate observed).map (List.map Alert.dedupKey) = .ok ["ioc|process|/tmp/|1", "ioc|process|evil|2",
        "ioc|file|shadow|/etc/Shadow", "ioc|conn|10.0.0.1| 10.0.0.1 |0"] ∧
      ∃ processes files connections, evaluate observed = .ok ((processes ++ files ++ connections).take 50) ∧
        List.Forall₂ i.ReportsProcess ((observed.records "proc.new").filter (i.OnProcess ·)) processes ∧
        List.Forall₂ i.ReportsFile ((observed.records "file.events").filter (i.OnFile ·)) files ∧
        List.Forall₂ i.ReportsConnection ((observed.records "conn.new").filter (i.OnConnection ·)) connections := by
  have listed : watched.IsListed := by
    simp only [IndicatorSource.IsListed, IndicatorSource.fields, List.forall_mem_cons]
    exact ⟨⟨_, rfl⟩, ⟨_, rfl⟩, ⟨_, rfl⟩, ⟨_, rfl⟩, ⟨_, rfl⟩, by simp⟩
  have lists : ∀ name ∈ ["proc.new", "file.events", "conn.new"], observed.ListsRecords name := by
    simp only [List.forall_mem_cons]
    refine ⟨?_, ?_, ?_, by simp⟩
    all_goals
      intro v hv
      exact ⟨_, (Option.some.inj hv).symm⟩
  obtain ⟨-, finds⟩ := evaluate_matches watched
  have normal : watched.normalized = .ok _ := rfl
  obtain ⟨evaluate, hevaluate, found⟩ := finds _ normal
  obtain rfl := Option.some.inj hevaluate
  exact ⟨listed, lists, _, normal, _, rfl, rfl, found observed lists⟩

end Indicators

end HostWatch
