import HostWatch.Rule.Basic
import HostWatch.Severity

/-!
# Enrichment

An alert leaves open what its rule does not care about. `Alert.enrich` fills what is empty, from the
snapshot and from the rule, and changes nothing else. New alerts are numbered by an `Ids`.
-/

namespace HostWatch

/-- Where the ids of alerts come from: the name of the `n`-th alert, given its rule. -/
structure Ids where
  name : Nat → String → String
  issued : Nat := 0

namespace Ids

/-- The next id, for an alert of the given rule. -/
def next (ids : Ids) (ruleId : String) : String × Ids :=
  (ids.name (ids.issued + 1) ruleId, { ids with issued := ids.issued + 1 })

/-- Ids from the rule, the wall clock in nanoseconds and the number of the alert. -/
def default (clock : Nat → Int) : Ids where
  name n ruleId := ruleId ++ "-" ++ toString (clock n) ++ "-" ++ toString n

end Ids

namespace Alert

/-- The key of alerts for which neither alert nor rule names one. -/
def defaultKey (ruleId source session : String) : String :=
  ruleId ++ "|" ++ source ++ "|" ++ session

/-- Gives the alert a rule and an id. -/
def identify (rule : Rule) (ids : Ids) (a : Alert) : Alert × Ids :=
  let a := { a with ruleId := a.ruleId.orElse (rule.id.orElse (.text "unknown_rule")) }
  if a.id = "" then
    let (id, ids) := ids.next a.ruleId.display
    ({ a with id }, ids)
  else (a, ids)

/-- The time of an alert: its own, or that of the snapshot, or else `now`. A snapshot without
metadata is only missed by an alert that has no time. -/
def raisedAt? (metadata : Option Metadata) (now : Timestamp) (a : Alert) : Except Fault Timestamp :=
  match a.raisedAt, metadata with
  | some t, _ => .ok t
  | none, some m => .ok (m.capturedAt.getD now)
  | none, none => .error (.missingPart Value.null.kindName "captured_at")

/-- The metadata of an alert, its gaps filled from the snapshot. A snapshot without metadata is only
missed by metadata with gaps; an alert without any cannot be completed. -/
def mergedMetadata (metadata : Option Metadata) (a : Alert) : Except Fault Metadata :=
  match a.metadata, metadata with
  | none, _ => .error (.wrongType .notMetadata)
  | some own, some m => .ok (own.merge m)
  | some own, none =>
    match own.firstEmpty? with
    | some name => .error (.missingPart Value.null.kindName name)
    | none => .ok own

/-- Fills the fields that a rule answers for, given the time and the metadata of the alert. -/
def completeWith (rule : Rule) (raisedAt : Timestamp) (metadata : Metadata) (a : Alert) : Alert :=
  let source := a.source.orElse
    ((Value.text metadata.capturer).orElse (rule.source.orElse (.text "unknown")))
  { a with
    raisedAt := some raisedAt
    metadata := some metadata
    source
    severity := a.severity.orElse (rule.severity.orElse (.text Severity.info))
    title := a.title.orElse (rule.title.orElse a.ruleId)
    evidence :=
      if a.evidence.isEmpty && !rule.tags.isEmpty then [("tags", .list rule.tags)]
      else a.evidence
    dedupKey := firstText a.dedupKey (firstText rule.dedupKey
      (defaultKey a.ruleId.display source.display metadata.session)) }

/-- Fills the other fields. -/
def complete (rule : Rule) (metadata : Option Metadata) (now : Timestamp) (a : Alert) :
    Except Fault Alert := do
  let raisedAt ← a.raisedAt? metadata now
  return a.completeWith rule raisedAt (← a.mergedMetadata metadata)

/-- Fills only what the rule left empty, from the rule and the metadata of the snapshot. -/
def enrich (rule : Rule) (metadata : Option Metadata) (now : Timestamp) (ids : Ids) (a : Alert) :
    Except Fault Alert × Ids :=
  let (a, ids) := a.identify rule ids
  (a.complete rule metadata now, ids)

end Alert

end HostWatch
