import HostWatch.Metadata
import HostWatch.Value.Reading

/-!
# Snapshots

A `Snapshot` is what one capture of one source yields: named measurements, further fields of any
shape, and metadata.
-/

namespace HostWatch

/-- One capture of one source. Fields and metadata may be missing altogether. -/
structure Snapshot where
  summary : String := ""
  metrics : OrderedMap String Float := []
  fields : Option (List (String × Value)) := some []
  metadata : Option Metadata := some {}
  deriving Repr

instance : Inhabited Snapshot := ⟨{}⟩

namespace Snapshot

/-- A measurement. -/
def metric? (s : Snapshot) (name : String) : Option Float := OrderedMap.get? s.metrics name

/-- A further field; none if there are no fields. -/
def field? (s : Snapshot) (name : String) : Option Value := do OrderedMap.get? (← s.fields) name

/-- Whether the source has not yet seen two captures to compare. -/
def isWarming (s : Snapshot) : Bool :=
  match s.field? "warming_up" with
  | some v => !v.isEmpty
  | none => false

/-- What a sink writes, if there is metadata. -/
def toValue? (s : Snapshot) : Option Value :=
  s.metadata.map fun m => .object [
    ("summary", .text s.summary),
    ("metrics", .object (s.metrics.map fun (k, x) => (k, .double x))),
    ("fields", .object (s.fields.getD [])),
    ("meta", .object m.toFields)]

/-- Reads a snapshot from its written form, where the measurements may be all that stands for
doubles. Fields and metadata that are `null` are missing altogether. -/
def ofValue (v : Value) : Except Fault Snapshot := do
  return {
    summary := v.textAt "summary"
    metrics := ← (v.get "metrics").entries.mapM fun (k, x) => do return (k, ← x.toDouble)
    fields :=
      match v.part? "fields" with
      | some (.object fields) => some fields
      | some _ => none
      | none => some []
    metadata :=
      match v.part? "meta" with
      | some .null => none
      | some m => some (.ofValue m)
      | none => some {} }

end Snapshot

end HostWatch
