import HostWatch.Alert
import HostWatch.Clock
import HostWatch.Value.Key

/-!
# Correlation

Every alert stands for the time from its interval before it was raised to when it was raised. Two
alerts are linked if these spans share a whole second. `Correlation.correlate` finds the links in
one sweep over the spans in the order of their ends: the sweep stops early, as a span cannot start
long before it ends.
-/

namespace HostWatch

/-- Times that timestamps name and that can be cut to whole seconds. -/
class TimeScale (τ : Type) extends Clock τ where
  /-- The seconds since 1970-01-01 that a timestamp stands for. -/
  instant : Timestamp → Except Fault τ
  floor : τ → Except Fault Int
  ceil : τ → Except Fault Int

/-- The first second that a timestamp without offset can name: local time is looked for a day around
it, and there is no year before the first. -/
def firstLocalSecond : Int := Timestamp.daysFromCivil 1 1 2 * 86400

instance : TimeScale Number where
  instant t :=
    if t.offset.isNone && decide (t.localSeconds < firstLocalSecond) then .error .yearOutOfRange
    else .ok (.double t.seconds)
  floor n := Fault.ofUnbounded n.floor?
  ceil n := Fault.ofUnbounded n.ceil?

/-- How alerts are linked. An interval that is none is only missed where it is needed. -/
structure Correlation (τ : Type) where
  /-- The interval of each source. -/
  intervals : OrderedMap Key (Except Fault τ) := []
  /-- The interval of sources for which no positive one is known. -/
  defaultInterval : Except Fault τ
  /-- Whether only alerts of different sources are linked. -/
  crossSourceOnly : Bool := true

namespace Correlation

/-- The whole seconds that an alert covers. -/
structure Span where
  first : Int
  last : Int
  alert : Alert

variable {τ : Type} [LT τ] [LE τ] [DecidableLT τ] [DecidableLE τ] [OfNat τ 0] [TimeScale τ]

/-- The interval of a source. -/
def intervalOf (c : Correlation τ) (source : Value) : Except Fault τ := do
  let known ← (OrderedMap.get? c.intervals (← source.toKey)).getD (.ok 0)
  if known ≤ 0 then c.defaultInterval else return known

/-- Whether an alert takes part: it has an id and a time. -/
def isEligible (a : Alert) : Bool := a.id != "" && a.raisedAt.isSome

/-- The span of an alert raised at the time `t`, with an interval. -/
def spanAt (a : Alert) (t : Timestamp) (interval : τ) : Except Fault Span := do
  let last ← TimeScale.instant t
  let first ← Clock.before last interval
  return ⟨← TimeScale.floor first, ← TimeScale.floor last, a⟩

/-- The larger of two intervals. -/
def longer (a b : τ) : τ := if a < b then b else a

/-- The spans of all alerts that take part, and the longest interval of them and `longest`. -/
def spans (c : Correlation τ) (longest : τ) : List Alert → Except Fault (List Span × τ)
  | [] => .ok ([], longest)
  | a :: rest =>
    match a.raisedAt with
    | none => spans c longest rest
    | some t => do
      if a.id = "" then spans c longest rest
      else
        let interval ← c.intervalOf a.source
        let span ← spanAt a t interval
        let (more, longest) ← spans c (longer longest interval) rest
        return (span :: more, longest)

/-- Whether two spans share a second. -/
def Span.meets (a b : Span) : Bool := decide (b.first ≤ a.last) && decide (a.first ≤ b.last)

/-- Whether two spans are linked. -/
def linked (crossSourceOnly : Bool) (a b : Span) : Bool :=
  a.alert.id != b.alert.id &&
    !(crossSourceOnly && a.alert.source.sameContent b.alert.source) && a.meets b

/-- Orders spans by their last second; equal ones stay in their order. -/
def byLast (spans : List Span) : List Span :=
  spans.mergeSort fun a b => decide (a.last ≤ b.last)

/-- The new links of each id, each list in the order in which its links are found. -/
abbrev Links := OrderedMap String (List String)

/-- Adds a link from one id to another. -/
def Links.add (links : Links) (source target : String) : Links :=
  OrderedMap.set links source ((OrderedMap.get? links source).getD [] ++ [target])

/-- Links a span with the later ones, as far as they can reach back to it. -/
def scan (crossSourceOnly : Bool) (reach : Int) (a : Span) (later : List Span) (links : Links) :
    Links :=
  let near := later.takeWhile fun b => decide (b.last ≤ a.last + reach)
  (near.filter (linked crossSourceOnly a)).foldl
    (fun links b => (links.add a.alert.id b.alert.id).add b.alert.id a.alert.id) links

/-- Links every span with the later ones. -/
def sweep (crossSourceOnly : Bool) (reach : Int) : List Span → Links → Links
  | [], links => links
  | a :: later, links =>
    sweep crossSourceOnly reach later (scan crossSourceOnly reach a later links)

/-- Keeps the first of equal ids; those in `seen` count as found before. -/
def distinctAfter (seen : List String) : List String → List String
  | [] => []
  | id :: rest =>
    if id ∈ seen then distinctAfter seen rest else id :: distinctAfter (id :: seen) rest

/-- The ids of a list and then the new ones of another, each once. -/
def mergeIds (existing extra : List String) : List String := distinctAfter [] (existing ++ extra)

/-- Gives an alert its new links. -/
def relink (links : Links) (a : Alert) : Alert :=
  if isEligible a then
    match OrderedMap.get? links a.id with
    | some ids => { a with correlated := mergeIds a.correlated ids }
    | none => a
  else a

/-- Links the alerts. Only the links change, and those already there are kept. -/
def correlate (c : Correlation τ) (alerts : List Alert) : Except Fault (List Alert) := do
  let (spans, longest) ← c.spans 0 alerts
  let reach ← TimeScale.ceil longest
  return alerts.map (relink (sweep c.crossSourceOnly reach (byLast spans) []))

end Correlation

end HostWatch
