import HostWatch.Proofs.OrderedMap
import HostWatch.Proofs.Response.Unread
import HostWatch.Proofs.Scheduler.HandOff

/-!
# How sinks have fared

Whatever snapshots are processed, each is offered to every sink once, in the order of the sinks and before it
is looked at, whether or not other sinks fail. An `Attempt` is such an offer with what came of it, and the
statistics of a name tally with the attempts of the sinks of that name (`statistics_exact`).
-/

namespace HostWatch

/-- The offer of a snapshot to a sink, and how the sink has failed if it has. -/
structure Attempt where
  sink : Sink
  snapshot : Snapshot
  failure : Option Fault

namespace Attempt

def offer (a : Attempt) : Sink × Snapshot := (a.sink, a.snapshot)

/-- The fault that is kept of an attempt. -/
def fault? (a : Attempt) : Option Fault := a.failure.map (Fault.sink a.sink.name)

/-- The attempts of the sinks of a name. -/
def under (name : String) (attempts : List Attempt) : List Attempt :=
  attempts.filter fun a => a.sink.name == name

theorem under_append (name : String) (xs ys : List Attempt) :
    under name (xs ++ ys) = under name xs ++ under name ys :=
  List.filter_append ..

theorem under_self (a : Attempt) : under a.sink.name [a] = [a] := by simp [under]

theorem under_other {name : String} {a : Attempt} (h : a.sink.name ≠ name) : under name [a] = [] := by
  simp [under, h]

end Attempt

/-- The attempt of a sink that an event records. -/
def Event.attempt? : Event → Option Attempt
  | offered sink snapshot failure => some ⟨sink, snapshot, failure⟩
  | _ => none

theorem Event.offer?_eq (e : Event) : e.offer? = e.attempt?.map Attempt.offer := by
  cases e <;> rfl

theorem Event.attempt?_of_not_offer (e : Event) (h : e.offer? = none) : e.attempt? = none := by
  rw [offer?_eq] at h
  exact Option.map_eq_none_iff.1 h

theorem Sink.consume_attempt (k : Sink) (x : Snapshot) (h : Host) :
    Host.Emits Event.attempt? h (k.consume x h).1 [⟨k, x, (k.consume x h).2⟩] := by
  have consumed (h' : Host) (failure : Option Fault) (hadd : Host.Adds (Event.isDeed ·) h h') :
      Host.Emits Event.attempt? h (h'.record (.offered k x failure)) [⟨k, x, failure⟩] :=
    (hadd.emits_nil fun e he => e.attempt?_of_not_offer (e.offer?_of_isDeed he)).trans (Host.emits_record rfl)
  cases k with
  | external party => exact consumed _ _ (.of_journal_eq rfl)
  | file f =>
    simp only [consume]
    split
    · exact consumed _ _ ((f.write_adds _ h).mono Event.isDeed_of_isRotation)
    · exact consumed _ _ .refl

/-! ### Counting -/

/-- Statistics that are those of some attempts. -/
structure SinkStatistics.Tallies (stat : SinkStatistics) (attempts : List Attempt) : Prop where
  all : stat.succeeded + stat.failed = attempts.length
  failed : stat.failed = attempts.countP fun a => a.failure.isSome
  /-- The fault of the latest attempt, and none if that has succeeded. -/
  last : stat.last = attempts.getLast?.bind Attempt.fault?

/-- Each name that sinks have been tried under has its statistics, which are those of the attempts. -/
structure AreExact (statistics : OrderedMap String SinkStatistics) (attempts : List Attempt) : Prop where
  distinct : OrderedMap.Distinct statistics
  absent (name : String) (none : OrderedMap.get? statistics name = none) : Attempt.under name attempts = []
  tallies (name : String) (stat : SinkStatistics) (some : OrderedMap.get? statistics name = some stat) :
    Attempt.under name attempts ≠ [] ∧ stat.Tallies (Attempt.under name attempts)

theorem areExact_nil : AreExact [] [] where
  distinct := OrderedMap.distinct_nil
  absent _ _ := rfl
  tallies _ _ some := nomatch some

namespace SinkStatistics
variable {stat : SinkStatistics} {attempts : List Attempt}

theorem tallies_nil : Tallies {} [] := ⟨rfl, rfl, rfl⟩

/-- The statistics after one more attempt, given the fault that is kept of it. -/
def after (stat : SinkStatistics) : Option Fault → SinkStatistics
  | none => { stat with succeeded := stat.succeeded + 1, last := none }
  | some f => { stat with failed := stat.failed + 1, last := some f }

theorem Tallies.after (h : stat.Tallies attempts) (a : Attempt) :
    (stat.after a.fault?).Tallies (attempts ++ [a]) := by
  obtain ⟨sink, snapshot, failure⟩ := a
  have all := h.all
  have failed := h.failed
  cases failure with
  | none =>
    refine ⟨?_, ?_, ?_⟩
    · show stat.succeeded + 1 + stat.failed = (attempts ++ [_]).length
      rw [List.length_append, List.length_singleton]
      omega
    · show stat.failed = _
      simpa using failed
    · show none = _
      simp [Attempt.fault?]
  | some cause =>
    refine ⟨?_, ?_, ?_⟩
    · show stat.succeeded + (stat.failed + 1) = (attempts ++ [_]).length
      rw [List.length_append, List.length_singleton]
      omega
    · show stat.failed + 1 = _
      simpa using failed
    · show some (Fault.sink sink.name cause) = _
      simp [Attempt.fault?]

end SinkStatistics

namespace Scheduler
open Host
variable {s s' s'' : Scheduler} {x : Snapshot} {metadata : Metadata} {xs ys : List Attempt} {fs gs : List Fault}

theorem countAttempt_statistics (s : Scheduler) (name : String) (failure : Option Fault) :
    (s.countAttempt name failure).statistics =
      OrderedMap.set s.statistics name (((OrderedMap.get? s.statistics name).getD {}).after failure) := by
  cases failure <;> rfl

/-- One more attempt keeps the statistics exact: those of its name are brought up to date, and those of the other
names stay. -/
theorem areExact_countAttempt {attempts : List Attempt} (exact : AreExact s.statistics attempts) (a : Attempt) :
    AreExact (s.countAttempt a.sink.name a.fault?).statistics (attempts ++ [a]) := by
  rw [countAttempt_statistics]
  have earlier : ((OrderedMap.get? s.statistics a.sink.name).getD {}).Tallies
      (Attempt.under a.sink.name attempts) := by
    rcases known : OrderedMap.get? s.statistics a.sink.name with _ | stat
    · rw [exact.absent _ known]
      exact SinkStatistics.tallies_nil
    · exact (exact.tallies _ _ known).2
  refine ⟨exact.distinct.set _ _, ?_, ?_⟩
  · intro name none
    rw [OrderedMap.get?_set] at none
    by_cases own : a.sink.name = name
    · simp [own] at none
    · rw [if_neg (by simpa using own)] at none
      rw [Attempt.under_append, Attempt.under_other own, exact.absent name none]
      rfl
  · intro name stat known
    rw [OrderedMap.get?_set] at known
    by_cases own : a.sink.name = name
    · subst own
      rw [if_pos (by simp)] at known
      cases known
      rw [Attempt.under_append, Attempt.under_self]
      exact ⟨by simp, earlier.after a⟩
    · rw [if_neg (by simpa using own)] at known
      rw [Attempt.under_append, Attempt.under_other own, List.append_nil]
      exact exact.tallies name stat known

/-! ### Effects of the processing -/

/-- What has been cut off does not come back. -/
theorem take_take_append {α : Type} (n : Nat) (xs ys : List α) : (xs.take n ++ ys).take n = (xs ++ ys).take n := by
  rcases Nat.le_total n xs.length with long | short
  · rw [List.take_append_of_le_length (by simp [long]), List.take_append_of_le_length long, List.take_take,
      Nat.min_self]
  · rw [List.take_of_length_le short]

/-- What processing leaves as it is. -/
structure Standing where
  /-- Whether there is a source on each schedule, with the seconds between its captures. -/
  shape : List (Bool × Option Value)
  defaultInterval : Value
  verbose : Bool
  sinks : List Sink
  listeners : List Listener
  clock : Number

def standing (s : Scheduler) : Standing where
  shape := s.schedules.map fun sc => (sc.capturer.isSome, sc.interval)
  defaultInterval := s.defaultInterval
  verbose := s.verbose
  sinks := s.sinks
  listeners := s.listeners
  clock := s.host.clock

/-- From one state to the other the attempts are made and counted, and the faults are kept as far as there is
room. -/
structure Effects (attempts : List Attempt) (faults : List Fault) (s s' : Scheduler) : Prop where
  standing : s'.standing = s.standing
  host : Emits Event.attempt? s.host s'.host attempts
  statistics (earlier : List Attempt) (exact : AreExact s.statistics earlier) :
    AreExact s'.statistics (earlier ++ attempts)
  errors (room : s.errors.length ≤ maxErrors) : s'.errors = (s.errors ++ faults).take maxErrors

theorem effects_of_eq (standing : s'.standing = s.standing) (statistics : s'.statistics = s.statistics)
    (errors : s'.errors = s.errors) (host : Adds (Event.offer? · = none) s.host s'.host) : Effects [] [] s s' where
  standing := standing
  host := host.emits_nil Event.attempt?_of_not_offer
  statistics earlier exact := by rwa [statistics, List.append_nil]
  errors room := by rw [errors, List.append_nil, List.take_of_length_le room]

namespace Effects

theorem refl : Effects [] [] s s := effects_of_eq rfl rfl rfl .refl

theorem trans (h : Effects xs fs s s') (h' : Effects ys gs s' s'') : Effects (xs ++ ys) (fs ++ gs) s s'' where
  standing := h'.standing.trans h.standing
  host := h.host.trans h'.host
  statistics earlier exact := by
    have both := h'.statistics _ (h.statistics earlier exact)
    rwa [List.append_assoc] at both
  errors room := by
    have first := h.errors room
    have room' : s'.errors.length ≤ maxErrors := by
      rw [first]
      exact List.length_take_le _ _
    rw [h'.errors room', first, take_take_append, List.append_assoc]

/-- A step that makes no attempts and keeps no faults. -/
theorem quiet (h : Effects xs fs s s') (h' : Effects [] [] s' s'') : Effects xs fs s s'' := by
  simpa using h.trans h'

theorem sinks (h : Effects xs fs s s') : s'.sinks = s.sinks := congrArg Standing.sinks h.standing

end Effects

theorem effects_note (s : Scheduler) (n : Notice) : Effects [] [] s (s.note n) :=
  effects_of_eq rfl rfl rfl (adds_record rfl)

theorem effects_keep (s : Scheduler) (f : Fault) : Effects [] [f] s (s.keep f) := by
  unfold keep
  by_cases room : s.errors.length < maxErrors
  · rw [if_pos room]
    refine ⟨rfl, .refl, by simp, fun _ => ?_⟩
    rw [List.take_of_length_le]
    simpa using Nat.succ_le_of_lt room
  · rw [if_neg room]
    refine ⟨rfl, .refl, by simp, fun full => ?_⟩
    have length : s.errors.length = maxErrors := by omega
    rw [← length, List.take_left]

/-- A sink has answered and the answer is counted. -/
theorem effects_answered (s : Scheduler) (x : Snapshot) (k : Sink) :
    let a : Attempt := ⟨k, x, (k.consume x s.host).2⟩
    Effects [a] [] s ({ s with host := (k.consume x s.host).1 }.countAttempt k.name a.fault?) where
  standing := by
    have clock := (unread_consume k x s.host []).clock
    show ({ s.standing with clock := (k.consume x s.host).1.clock } : Standing) = s.standing
    rw [clock]
    rfl
  host := k.consume_attempt x s.host
  statistics earlier exact := areExact_countAttempt exact ⟨k, x, (k.consume x s.host).2⟩
  errors room := by
    show s.errors = _
    rw [List.append_nil, List.take_of_length_le room]

theorem effects_offer (s : Scheduler) (x : Snapshot) (capturer : String) (k : Sink) :
    ∃ a : Attempt, a.offer = (k, x) ∧ Effects [a] a.fault?.toList s (offer x capturer s k) := by
  have answered := effects_answered s x k
  refine ⟨⟨k, x, (k.consume x s.host).2⟩, rfl, ?_⟩
  unfold offer
  simp only
  rcases answer : (k.consume x s.host).2 with _ | cause
  · rw [answer] at answered
    exact answered
  · rw [answer] at answered
    have noted := answered.quiet (effects_note _ (.sinkFailed capturer (.sink k.name cause)))
    exact noted.trans (effects_keep _ (.sink k.name cause))

theorem effects_foldl_offer (x : Snapshot) (capturer : String) (sinks : List Sink) (s : Scheduler) :
    ∃ attempts : List Attempt, attempts.map Attempt.offer = sinks.map (·, x) ∧
      Effects attempts (attempts.filterMap Attempt.fault?) s (sinks.foldl (offer x capturer) s) := by
  refine foldl_related (R := fun sinks s s' => ∃ attempts : List Attempt, attempts.map Attempt.offer =
    sinks.map (·, x) ∧ Effects attempts (attempts.filterMap Attempt.fault?) s s') ?_ ?_ ?_ sinks s
  · exact fun s => ⟨[], rfl, .refl⟩
  · rintro _ _ _ _ _ ⟨attempts, offers, effects⟩ ⟨attempts', offers', effects'⟩
    refine ⟨attempts ++ attempts', by rw [List.map_append, List.map_append, offers, offers'], ?_⟩
    rw [List.filterMap_append]
    exact effects.trans effects'
  · intro s k
    obtain ⟨a, offered, effects⟩ := effects_offer s x capturer k
    refine ⟨[a], congrArg (fun offer => [offer]) offered, ?_⟩
    have faults : [a].filterMap Attempt.fault? = a.fault?.toList := by
      cases kept : a.fault? <;> simp [kept]
    rw [faults]
    exact effects

theorem effects_keepFailures (capturer : String) (failures : List Fault) (s : Scheduler) :
    Effects [] failures s (keepFailures capturer s failures) :=
  foldl_related (R := Effects []) (fun _ => .refl) Effects.trans
    (fun s f => (effects_note s (.responderFailed capturer f)).trans (effects_keep _ f)) failures s

theorem effects_tell (alerts : List Alert) (s : Scheduler) (l : Listener) :
    Effects [] [] s (tell alerts s l).1 := by
  cases l with
  | audience => exact effects_of_eq rfl rfl rfl (adds_record rfl)
  | failing fault => exact .refl
  | history => exact effects_of_eq rfl rfl rfl .refl

theorem effects_tellAll {alerts : List Alert} {listeners : List Listener} {failure : Option Fault}
    (h : tellAll alerts listeners s = (s', failure)) : Effects [] [] s s' := by
  have told := tellAll_related (R := Effects [] []) (fun _ => .refl) Effects.quiet (effects_tell alerts) listeners s
  rwa [h] at told

/-! ### The way of a snapshot -/

/-- A scheduler once a snapshot has gone through its pipeline. -/
def looked (s : Scheduler) (x : Snapshot) (metadata : Metadata) : Scheduler :=
  let o := s.pipeline.process x metadata s.host
  { s with pipeline := o.pipeline, host := o.host }

theorem effects_looked (s : Scheduler) (x : Snapshot) (metadata : Metadata) :
    Effects [] [] s (s.looked x metadata) := by
  refine effects_of_eq ?_ rfl rfl (s.pipeline.process_adds x metadata s.host)
  have clock := (process_unread s.host [] s.pipeline x metadata).1
  show ({ s.standing with clock := (s.pipeline.process x metadata s.host).host.clock } : Standing) = s.standing
  rw [clock]
  rfl

/-- Nothing is detected and nothing captured from one state to the other. -/
structure Apart (s s' : Scheduler) : Prop where
  pipeline : s'.pipeline = s.pipeline
  schedules : s'.schedules = s.schedules

theorem Apart.refl : Apart s s := ⟨rfl, rfl⟩

theorem Apart.trans (h : Apart s s') (h' : Apart s' s'') : Apart s s'' :=
  ⟨h'.pipeline.trans h.pipeline, h'.schedules.trans h.schedules⟩

theorem Apart.note (h : Apart s s') (n : Notice) : Apart s (s'.note n) := ⟨h.pipeline, h.schedules⟩

theorem Apart.keep (h : Apart s s') (f : Fault) : Apart s (s'.keep f) := by
  unfold Scheduler.keep
  split
  · exact ⟨h.pipeline, h.schedules⟩
  · exact h

theorem apart_offer (x : Snapshot) (capturer : String) (s : Scheduler) (k : Sink) :
    Apart s (offer x capturer s k) := by
  unfold offer
  simp only
  split
  · exact ⟨rfl, rfl⟩
  · refine Apart.keep ?_ _
    exact ⟨rfl, rfl⟩

theorem apart_foldl_offer (x : Snapshot) (capturer : String) (sinks : List Sink) (s : Scheduler) :
    Apart s (sinks.foldl (offer x capturer) s) :=
  foldl_related (R := fun _ => Apart) (fun _ => .refl) Apart.trans (apart_offer x capturer) sinks s

theorem apart_keepFailures (capturer : String) (failures : List Fault) (s : Scheduler) :
    Apart s (keepFailures capturer s failures) :=
  foldl_related (R := fun _ => Apart) (fun _ => .refl) Apart.trans (fun _ f => (Apart.refl.note _).keep f) failures s

theorem apart_tellAll {alerts : List Alert} {listeners : List Listener} {failure : Option Fault}
    (h : tellAll alerts listeners s = (s', failure)) : Apart s s' := by
  have one (s : Scheduler) (l : Listener) : Apart s (tell alerts s l).1 := by cases l <;> exact ⟨rfl, rfl⟩
  have told := tellAll_related (R := Apart) (fun _ => .refl) Apart.trans one listeners s
  rwa [h] at told

/-- A snapshot is offered to every sink, then looked at, and then no more is offered. -/
structure Processing (x : Snapshot) (metadata : Metadata) (attempts : List Attempt) (failures : List Fault)
    (s s₁ s' : Scheduler) : Prop where
  everySink : attempts.map Attempt.offer = s.sinks.map (·, x)
  before : Effects attempts (attempts.filterMap Attempt.fault?) s s₁
  untouched : Apart s s₁
  after : Effects [] failures (s₁.looked x metadata) s'
  done : Apart (s₁.looked x metadata) s'

theorem Processing.effects {s₁ : Scheduler} (h : Processing x metadata xs fs s s₁ s') :
    Effects xs (xs.filterMap Attempt.fault? ++ fs) s s' := by
  have looked := h.before.quiet (effects_looked s₁ x metadata)
  simpa using looked.trans h.after

/-- The stages of processing, in terms of the state that the sinks leave behind. -/
theorem process_stages (s : Scheduler) (named : x.metadata = some metadata) : s.process x = (
    let s₁ := s.sinks.foldl (offer x metadata.capturer) s
    let o := s.pipeline.process x metadata s₁.host
    match o.fault with
    | some f => (s₁.looked x metadata, some f)
    | none =>
      let s₃ := keepFailures metadata.capturer (s₁.looked x metadata) o.failures
      match tellAll o.alerts (if o.alerts.isEmpty then [] else s₃.listeners) s₃ with
      | (s, some f) => (s, some f)
      | (s, none) => (({ s with processed := s.processed + 1 } : Scheduler).note
          (.snapshotProcessed metadata.capturer x.summary o.alerts.length), none)) := by
  unfold process
  rw [named, ← (apart_foldl_offer x metadata.capturer s.sinks s).pipeline]
  rfl

/-- What is done with a snapshot, whatever stops it. -/
theorem process_processing (s : Scheduler) (named : x.metadata = some metadata) : ∃ attempts failures s₁,
    Processing x metadata attempts failures s s₁ (s.process x).1 ∧
    ((s.process x).2 = none → failures = (s.pipeline.process x metadata s₁.host).failures) := by
  obtain ⟨attempts, everySink, before⟩ := effects_foldl_offer x metadata.capturer s.sinks s
  have untouched := apart_foldl_offer x metadata.capturer s.sinks s
  rw [process_stages s named]
  -- The sinks are done; what follows depends on the state that they leave behind only.
  generalize s.sinks.foldl (offer x metadata.capturer) s = s₁ at before untouched
  simp only
  rcases (s.pipeline.process x metadata s₁.host).fault with _ | f
  · have kept := effects_keepFailures metadata.capturer (s.pipeline.process x metadata s₁.host).failures
      (s₁.looked x metadata)
    have apart := apart_keepFailures metadata.capturer (s.pipeline.process x metadata s₁.host).failures
      (s₁.looked x metadata)
    simp only
    generalize keepFailures metadata.capturer (s₁.looked x metadata) _ = s₃ at kept apart ⊢
    split
    · rename_i heq
      exact ⟨attempts, _, s₁, ⟨everySink, before, untouched, kept.quiet (effects_tellAll heq),
        apart.trans (apart_tellAll heq)⟩, fun _ => rfl⟩
    · rename_i s₄ heq
      have counted : Effects [] [] s₄ { s₄ with processed := s₄.processed + 1 } := effects_of_eq rfl rfl rfl .refl
      have noted := ((effects_tellAll heq).quiet counted).quiet (effects_note _ (.snapshotProcessed metadata.capturer
        x.summary (s.pipeline.process x metadata s₁.host).alerts.length))
      exact ⟨attempts, _, s₁, ⟨everySink, before, untouched, kept.quiet noted,
        (apart.trans (apart_tellAll heq)).trans ⟨rfl, rfl⟩⟩, fun _ => rfl⟩
  · exact ⟨attempts, [], s₁, ⟨everySink, before, untouched, .refl, .refl⟩, nofun⟩

/-! ### Any number of snapshots -/

/-- The states that the processing of snapshots leads to, whatever stops it. In between anything may happen that
makes no attempts and leaves the sinks and their statistics alone. -/
inductive Processed (start : Scheduler) : Scheduler → List Snapshot → Prop
  | start : Processed start start []
  | process {s : Scheduler} {xs : List Snapshot} (x : Snapshot) (run : Processed start s xs)
      (named : x.metadata.isSome) : Processed start (s.process x).1 (xs ++ [x])
  | meanwhile {s s' : Scheduler} {xs : List Snapshot} (run : Processed start s xs) (sinks : s'.sinks = s.sinks)
      (statistics : s'.statistics = s.statistics) (quiet : Emits Event.attempt? s.host s'.host []) :
      Processed start s' xs

/-- Every attempt that a run has made is counted. -/
structure Accounted (start s : Scheduler) (snapshots : List Snapshot) (attempts : List Attempt) : Prop where
  attempted : Emits Event.attempt? start.host s.host attempts
  /-- Each snapshot is offered once to each sink, in the order of the sinks. -/
  everySink : attempts.map Attempt.offer = snapshots.flatMap fun x => start.sinks.map (·, x)
  sinks : s.sinks = start.sinks
  exact : AreExact s.statistics attempts

theorem Accounted.process {start s₁ : Scheduler} {snapshots : List Snapshot} (h : Accounted start s snapshots xs)
    (step : Processing x metadata ys fs s s₁ s') : Accounted start s' (snapshots ++ [x]) (xs ++ ys) where
  attempted := h.attempted.trans step.effects.host
  everySink := by
    rw [List.map_append, h.everySink, step.everySink, h.sinks]
    simp
  sinks := step.effects.sinks.trans h.sinks
  exact := step.effects.statistics xs h.exact

/-- Along every run the statistics of a scheduler that starts without any are exact, and whichever snapshot is
processed next goes to the sinks first. -/
theorem Processed.statistics_exact {start : Scheduler} {snapshots : List Snapshot} (new : start.statistics = [])
    (run : Processed start s snapshots) : (∃ attempts, Accounted start s snapshots attempts) ∧
    ∀ x metadata, x.metadata = some metadata → ∃ attempts failures s₁,
      Processing x metadata attempts failures s s₁ (s.process x).1 := by
  refine ⟨?_, ?_⟩
  · induction run with
    | start => exact ⟨[], .refl, rfl, rfl, new ▸ areExact_nil⟩
    | process x run named ih =>
      obtain ⟨attempts, accounted⟩ := ih
      obtain ⟨metadata, named⟩ := Option.isSome_iff_exists.1 named
      obtain ⟨more, failures, s₁, step, -⟩ := process_processing _ named
      exact ⟨attempts ++ more, accounted.process step⟩
    | meanwhile run sinks statistics quiet ih =>
      obtain ⟨attempts, accounted⟩ := ih
      have attempted := accounted.attempted.trans quiet
      rw [List.append_nil] at attempted
      exact ⟨attempts, attempted, accounted.everySink, sinks.trans accounted.sinks, statistics ▸ accounted.exact⟩
  · intro x metadata named
    obtain ⟨attempts, failures, s₁, step, -⟩ := process_processing s named
    exact ⟨attempts, failures, s₁, step⟩

/-- Two sinks of one name, of which the second fails at first and then no more. -/
def namesakes : Scheduler where
  schedules := []
  sinks := [.external { id := 0, name := "sink", answer := fun _ => none },
    .external { id := 1, name := "sink", answer := fun n => if n = 0 then some (.external .general "busy") else none }]
  history := { limit := 1, correlation := { defaultInterval := .ok 1 } }
  session := "session"
  host := { now := .ofMicros 0 }

/-- After one snapshot the fault of the second sink is the latest, after two there is none. -/
theorem statistics_exact_namesakes : ∃ s s' x, x.metadata = some {} ∧ Processed namesakes s [x] ∧
    Processed namesakes s' [x, x] ∧
    s.statistics = [("sink", ⟨1, 1, some (.sink "sink" (.external .general "busy"))⟩)] ∧
    s'.statistics = [("sink", ⟨3, 1, none⟩)] ∧ ∃ attempts, Accounted namesakes s' [x, x] attempts := by
  let x : Snapshot := { metadata := some {} }
  have one : Processed namesakes (namesakes.process x).1 [x] := .process x .start rfl
  have two : Processed namesakes ((namesakes.process x).1.process x).1 [x, x] := .process x one rfl
  obtain ⟨accounted, -⟩ := two.statistics_exact rfl
  exact ⟨_, _, x, rfl, one, two, by decide, by decide, accounted⟩

end Scheduler
end HostWatch
