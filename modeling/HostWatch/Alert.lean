import HostWatch.Fault
import HostWatch.Metadata
import HostWatch.Value.Display
import HostWatch.Value.Key

/-!
# Alerts

An `Alert` is what a rule finds. `Alert.key` is what suppression and policy count it under, and
`Alert.toValue` is its written form, which `Alert.ofValue` reads. What an alert takes over from the
definition of a rule may be of any shape.
-/

namespace HostWatch

structure Alert where
  id : String := ""
  ruleId : Value := .text ""
  title : Value := .text ""
  severity : Value := .text ""
  message : String := ""
  source : Value := .text ""
  raisedAt : Option Timestamp := none
  metadata : Option Metadata := some {}
  evidence : List (String × Value) := []
  /-- The ids of other alerts that overlap in time. -/
  correlated : List String := []
  dedupKey : String := ""
  /-- Set by the rate limiter: kept for audit and never delivered. -/
  rateLimited : Bool := false
  deriving Repr

instance : Inhabited Alert := ⟨{}⟩

namespace Alert

/-- The deduplication key, or the rule where there is none. -/
def key (a : Alert) : Value := (Value.text a.dedupKey).orElse a.ruleId

/-- The fields that are always written, with the metadata `m`. -/
def requiredFields (a : Alert) (m : Metadata) : List (String × Value) := [
  ("id", .text a.id),
  ("rule_id", a.ruleId),
  ("title", a.title),
  ("severity", a.severity),
  ("message", .text a.message),
  ("source", a.source),
  ("at", (a.raisedAt.map fun t => .text t.iso).getD .null),
  ("meta", .object m.toFields)]

/-- The fields that are written only if they hold something. -/
def optionalFields (a : Alert) : List (String × Value) :=
  [("evidence", .object a.evidence), ("correlated", .list (a.correlated.map .text)),
    ("dedup_key", .text a.dedupKey), ("rate_limited", .bool a.rateLimited)].filter
    fun (_, v) => !v.isEmpty

/-- The written form; an alert without metadata has none. -/
def toValue (a : Alert) : Except Fault Value :=
  match a.metadata with
  | some m => .ok (.object (a.requiredFields m ++ a.optionalFields))
  | none => .error (.missingPart Value.null.kindName "to_dict")

/-- Reads an alert from its written form; what is missing there stays empty. -/
def ofValue (v : Value) : Alert where
  id := v.textAt "id"
  ruleId := v.getOr "rule_id" (.text "")
  title := v.getOr "title" (.text "")
  severity := v.getOr "severity" (.text "")
  message := v.textAt "message"
  source := v.getOr "source" (.text "")
  raisedAt := (v.get "at").toMoment?
  metadata :=
    match v.part? "meta" with
    | some .null => none
    | some m => some (.ofValue m)
    | none => some {}
  evidence := (v.get "evidence").entries
  correlated := (v.get "correlated").toTexts
  dedupKey := v.textAt "dedup_key"
  rateLimited := (v.get "rate_limited").toBool

end Alert

end HostWatch
