import HostWatch.Alert
import HostWatch.Fault
import HostWatch.Snapshot

/-!
# Rules

A `Rule` looks at one snapshot and says which alerts it raises.
-/

namespace HostWatch

/-- What a rule does with a snapshot. -/
abbrev Evaluation := Snapshot → Except Fault (List Alert)

/-- A rule: what it fills into alerts that leave it open, the one source it looks at (every source
if empty), and its evaluation. A rule without evaluation is never run. What a user may write is of
any shape. -/
structure Rule where
  id : Value
  title : Value := .text ""
  description : String := ""
  severity : Value := .text ""
  tags : List Value := []
  source : Value := .text ""
  dedupKey : String := ""
  evaluate : Option Evaluation := none

/-- What a rule fills in, as a value. -/
def Rule.toValue (r : Rule) : Value := .object [
  ("id", r.id), ("title", r.title), ("description", .text r.description),
  ("severity", r.severity), ("tags", .list r.tags),
  ("source", r.source), ("dedup_key", .text r.dedupKey)]

/-- Reads what a rule fills in; such a rule has no evaluation. -/
def Rule.ofValue (v : Value) : Rule where
  id := v.getOr "id" (.text "")
  title := v.getOr "title" (.text "")
  description := v.textAt "description"
  severity := v.getOr "severity" (.text "")
  tags := (v.get "tags").items
  source := v.getOr "source" (.text "")
  dedupKey := v.textAt "dedup_key"

end HostWatch
