import HostWatch.Numeric.Reading
import HostWatch.Rule.Basic
import HostWatch.Severity
import HostWatch.Value.Display

/-!
# Rule definitions

A `RuleDefinition` compares one measurement with a threshold. Its fields may hold anything, as they
come from a file; `RuleDefinition.compile` checks them and gives a rule of the same shape as the
built-in ones, with id, title, source and tags as they were given.
-/

namespace HostWatch

/-- How a measurement is compared with its threshold. -/
inductive Comparison where
  | gt | ge | lt | le | eq | ne
  deriving DecidableEq, Repr

namespace Comparison

def symbol : Comparison → String
  | gt => ">"
  | ge => ">="
  | lt => "<"
  | le => "<="
  | eq => "=="
  | ne => "!="

def all : List Comparison := [gt, ge, lt, le, eq, ne]

def ofSymbol? (s : String) : Option Comparison := all.find? fun c => c.symbol == s

/-- Whether the comparison holds. Nothing but `ne` holds of NaN. -/
def holds : Comparison → Float → Float → Bool
  | gt, x, y => decide (y < x)
  | ge, x, y => decide (y ≤ x)
  | lt, x, y => decide (x < y)
  | le, x, y => decide (x ≤ y)
  | eq, x, y => x == y
  | ne, x, y => !(x == y)

end Comparison

structure RuleDefinition where
  id : Value
  metric : Value
  threshold : Value
  op : Value := .text ">="
  title : Value := .text ""
  severity : Value := .text Severity.medium
  source : Value := .text ""
  tags : Value := .list []
  deriving Repr

namespace RuleDefinition

/-- Every field with its name. -/
def fields (d : RuleDefinition) : List (String × Value) := [
  ("id", d.id), ("metric", d.metric), ("threshold", d.threshold), ("op", d.op),
  ("title", d.title), ("severity", d.severity), ("source", d.source), ("tags", d.tags)]

/-- Takes the fields of a definition from an object; what it does not know is left out. Without id,
metric and threshold there is no definition. -/
def ofFields? (given : List (String × Value)) : Option RuleDefinition := do
  let field (name : String) (default : Value) := (OrderedMap.get? given name).getD default
  some {
    id := ← OrderedMap.get? given "id"
    metric := ← OrderedMap.get? given "metric"
    threshold := ← OrderedMap.get? given "threshold"
    op := field "op" (.text ">=")
    title := field "title" (.text "")
    severity := field "severity" (.text Severity.medium)
    source := field "source" (.text "")
    tags := field "tags" (.list []) }

theorem ofFields?_fields (d : RuleDefinition) : ofFields? d.fields = some d := rfl

/-- The operator that a value names. -/
def comparison (id : String) (op : Value) : Except Fault Comparison := do
  let unsupported : Fault := .rule (.unsupportedOperator id op.inspect)
  match ← op.toKey with
  | ⟨.text s⟩ => unsupported.ofOption (Comparison.ofSymbol? s)
  | _ => .error unsupported

/-- The severity that a value names; an empty value is the middle one. -/
def severityName (id : String) (severity : Value) : Except Fault String := do
  let name := Text.lower (← (severity.orElse (.text Severity.medium)).textFor "lower")
  if name ∈ Severity.names then return name
  else throw (.rule (.unknownSeverity id severity.inspect))

/-- The measurement that a value names. Nothing but a text names one. -/
def measured? (s : Snapshot) (metric : Value) : Except Fault (Option Float) := do
  if s.metrics.isEmpty then return none
  match ← metric.toKey with
  | ⟨.text name⟩ => return s.metric? name
  | _ => return none

/-- The alert that the measurement `x` raises. -/
def alertOn (id : Value) (metric : String) (c : Comparison) (threshold x : Float) : Alert where
  ruleId := id
  message := metric ++ "=" ++ Binary64.displayFixed 2 x ++ " " ++ c.symbol ++ " " ++
    Binary64.displayGeneral threshold
  evidence := OrderedMap.ofPairs
    [(metric, .double x), ("threshold", .double threshold), ("op", .text c.symbol)]

/-- The comparison as a rule. -/
def evaluation (id metric : Value) (c : Comparison) (threshold : Float) : Evaluation :=
  fun s => do
    match ← measured? s metric with
    | none => return []
    | some x => return if c.holds x threshold then [alertOn id metric.display c threshold x] else []

/-- Checks the fields in turn and gives the rule. -/
def compile (d : RuleDefinition) : Except Fault Rule := do
  if d.id.isEmpty then throw (.rule .withoutId)
  let id := d.id.display
  if d.metric.isEmpty then throw (.rule (.withoutMetric id))
  let c ← comparison id d.op
  let severity ← severityName id d.severity
  let threshold ← d.threshold.toDouble
  let tags ← d.tags.elements
  return {
    id := d.id
    title := d.title.orElse d.id
    severity := .text severity
    source := d.source
    tags
    description := d.metric.display ++ " " ++ c.symbol ++ " " ++ Binary64.displayGeneral threshold
    evaluate := some (evaluation d.id d.metric c threshold) }

/-- The definitions in a list of objects read from the file `path`. -/
def ofEntries (path : String) : Nat → List Value → Except Fault (List RuleDefinition)
  | _, [] => .ok []
  | index, .object fields :: rest =>
    match ofFields? fields with
    | none => .error (.rule (.entryIncomplete path index .fields))
    | some d => do
      let ds ← ofEntries path (index + 1) rest
      .ok (d :: ds)
  | index, _ :: _ => .error (.rule (.entryNotObject path index))

/-- The definitions in a value read from the file `path`. -/
def ofValue (path : String) : Value → Except Fault (List RuleDefinition)
  | .list entries => ofEntries path 0 entries
  | _ => .error (.rule (.notList path))

end RuleDefinition

end HostWatch
