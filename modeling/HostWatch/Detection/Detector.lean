import HostWatch.Detection.Deduper
import HostWatch.Detection.Enrichment
import HostWatch.Detection.RateLimiter
import HostWatch.Notice

/-!
# Detection

A `Detector` runs its rules over a snapshot, enriches what they find, and then removes duplicates
and limits rates, in that order. A rule that fails is noted and changes nothing else; what goes
wrong around the rules ends the look at the snapshot.
-/

namespace HostWatch

/-- Rules with the state of detection, over a type `τ` of clock readings. -/
structure Detector (τ : Type) where
  rules : List Rule
  deduper : Option (Deduper τ) := none
  limiter : Option (RateLimiter τ) := none
  ids : Ids

/-- Whether a rule looks at snapshots of a source. An empty name on either side fits all. -/
def Rule.appliesTo (rule : Rule) (capturer : String) : Except Fault Bool :=
  if rule.source.isEmpty || capturer == "" then .ok true
  else (rule.source.textFor "lower").map fun source => Text.lower source == Text.lower capturer

namespace Detector

/-- What the rules found in a snapshot. -/
structure Findings where
  alerts : List Alert := []
  failed : List Rule := []
  ids : Ids
  /-- What ended the look at the snapshot. -/
  fault : Option Fault := none

/-- Enriches the alerts of one rule in turn. -/
def enrichAll (rule : Rule) (metadata : Metadata) (now : Timestamp) :
    Ids → List Alert → Except Fault (List Alert) × Ids
  | ids, [] => (.ok [], ids)
  | ids, a :: rest =>
    match a.enrich rule (some metadata) now ids with
    | (.error f, ids) => (.error f, ids)
    | (.ok a, ids) =>
      let (rest, ids) := enrichAll rule metadata now ids rest
      (rest.map (a :: ·), ids)

/-- Adds the alerts that a rule raises. -/
def Findings.add (rule : Rule) (metadata : Metadata) (now : Timestamp) (f : Findings)
    (raw : List Alert) : Findings :=
  match enrichAll rule metadata now f.ids raw with
  | (.error fault, ids) => { f with ids, fault := some fault }
  | (.ok alerts, ids) => { f with alerts := f.alerts ++ alerts, ids }

/-- What one rule adds. -/
def consult (s : Snapshot) (metadata : Metadata) (now : Timestamp) (f : Findings) (rule : Rule) :
    Findings :=
  match f.fault, rule.evaluate with
  | some _, _ | _, none => f
  | none, some evaluate =>
    match rule.appliesTo metadata.capturer with
    | .error fault => { f with fault := some fault }
    | .ok false => f
    | .ok true =>
      match evaluate s with
      | .error _ => { f with failed := f.failed ++ [rule] }
      | .ok raw => f.add rule metadata now raw

/-- What all rules find, in their order. -/
def gather (rules : List Rule) (s : Snapshot) (metadata : Metadata) (now : Timestamp) (ids : Ids) :
    Findings :=
  rules.foldl (consult s metadata now) { ids }

variable {τ : Type} [Clock τ] [LT τ] [LE τ] [DecidableLT τ] [DecidableLE τ] [OfNat τ 0]

/-- Removes duplicates, if there is a deduper. -/
def dedupe (d : Detector τ) (clock : τ) (alerts : List Alert) :
    Except Fault (List Alert) × Detector τ :=
  match d.deduper with
  | none => (.ok alerts, d)
  | some deduper =>
    let (passed, deduper) := deduper.filter clock alerts
    (passed, { d with deduper := some deduper })

/-- Limits rates, if there is a limiter: the batch with its flags, and which alerts pass. -/
def limit (d : Detector τ) (clock : τ) (alerts : List Alert) :
    Except Fault (List (Alert × Bool)) × Detector τ :=
  match d.limiter with
  | none => (.ok (alerts.map fun a => (a, true)), d)
  | some limiter =>
    let (metered, limiter) := limiter.filter clock alerts
    (metered, { d with limiter := some limiter })

/-- What comes of a look at a snapshot: the alerts, or what ended it. -/
structure Verdict (τ : Type) where
  alerts : Except Fault (List Alert)
  /-- The notices on failed rules. -/
  notices : List Notice
  detector : Detector τ

/-- The alerts of a snapshot. With `includeLimited` the alerts that the limiter holds back stay in
the batch, flagged. -/
def evaluate (d : Detector τ) (clock : τ) (now : Timestamp) (s : Snapshot)
    (metadata : Metadata) (includeLimited : Bool) : Verdict τ :=
  let found := gather d.rules s metadata now d.ids
  let notices := found.failed.map fun r => Notice.ruleFailed r.id.display metadata.capturer
  let d := { d with ids := found.ids }
  match found.fault with
  | some f => ⟨.error f, notices, d⟩
  | none =>
    match dedupe d clock found.alerts with
    | (.error f, d) => ⟨.error f, notices, d⟩
    | (.ok unique, d) =>
      match limit d clock unique with
      | (.error f, d) => ⟨.error f, notices, d⟩
      | (.ok metered, d) =>
        ⟨.ok (if includeLimited then metered.map Prod.fst else passedOf metered), notices, d⟩

end Detector

end HostWatch
