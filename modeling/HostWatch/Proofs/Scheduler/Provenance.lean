import HostWatch.Proofs.Precedence
import HostWatch.Proofs.Scheduler.Spreading

/-!
# Where metadata come from

The metadata of a snapshot have two layers: what its source gives, and what is known of every snapshot of that
source. Those of an alert have one more in front, what the rule gives that raises it. An `Origin` is a capture with
the snapshot that has come of it, and `Works` names the captures behind a state of the scheduler. Whatever sinks and
detection, responders, listeners and the history see goes back to one of these, with its layers in this order
(`Works.provenance`). The runs of the program are all work of this kind (`WorksTo.runOnce`, `WorksTo.run`).
-/

namespace HostWatch

/-- A capture that has given a snapshot. -/
structure Origin where
  /-- What the source gave. -/
  raw : Snapshot
  /-- What was known of it besides. -/
  defaults : Metadata
  /-- What went on to be processed. -/
  snapshot : Snapshot

namespace Origin

/-- The metadata that the source gave, empty if it gave none. -/
def given (o : Origin) : Metadata := o.raw.metadata.getD {}

/-- The name that rules are restricted by. -/
def name (o : Origin) : String := firstText o.given.capturer o.defaults.capturer

/-- The snapshot has the metadata `m`, which are stamped for good, and is of no concern to rules that are restricted
to other names. -/
structure Stamped (o : Origin) (m : Metadata) : Prop where
  metadata : o.snapshot.metadata = some m
  fills : m.Fills [o.given, o.defaults]
  /-- But for metadata and fields it is what the source gave. -/
  same : o.snapshot = { o.raw with fields := o.snapshot.fields, metadata := some m }
  /-- Stamped once more with what is known of the source it stays as it is, at whatever time. -/
  again (s : Scheduler) (capturer : String) (interval : Value)
    (known : ∀ f ≠ .capturedAt, (s.defaults capturer interval).get f = o.defaults.get f) :
    s.stamp capturer interval o.snapshot = o.snapshot
  restricted (rule : Rule) (source : String) (only : rule.source = .text source) (some : source ≠ "")
    (named : o.name ≠ "") : rule.appliesTo m.capturer = .ok (Text.lower source == Text.lower o.name)
  skipped (rule : Rule) (source : String) (only : rule.source = .text source) (some : source ≠ "")
    (named : o.name ≠ "") (other : Text.lower source ≠ Text.lower o.name) (now : Timestamp)
    (f : Detector.Findings) : Detector.consult o.snapshot m now f rule = f

/-- The alert `a` is what the rule has raised on the snapshot once its gaps are filled, except that it may have been
flagged and linked. -/
structure Raised (o : Origin) (rule : Rule) (raw : Alert) (own : Metadata) (a : Alert) (m : Metadata) : Prop where
  byRule : ∃ known, o.snapshot.metadata = some known ∧ (rule, raw) ∈ rule.raises o.snapshot known.capturer ∧
    ∃ now ids e, (raw.enrich rule (some known) now ids).1 = .ok e ∧
      a = { e with correlated := a.correlated, rateLimited := a.rateLimited }
  ruleGave : raw.metadata = some own
  metadata : a.metadata = some m
  fills : m.Fills [own, o.given, o.defaults]

end Origin

/-- A snapshot of one of the captures. -/
def CapturedBy (os : List Origin) (x : Snapshot) : Prop := ∃ o ∈ os, o.snapshot = x

/-- An alert that one of the rules has raised on a snapshot of one of the captures. -/
def RaisedFrom (os : List Origin) (rules : List Rule) (a : Alert) : Prop :=
  ∃ o ∈ os, ∃ rule ∈ rules, ∃ raw own m, o.Raised rule raw own a m

/-- Metadata that are there and name their source. -/
def NamesSource (metadata : Option Metadata) : Prop := ∃ m, metadata = some m ∧ m.capturer ≠ ""

/-! ### What detection makes of a snapshot -/

section Detection
variable {rule : Rule} {raw a e : Alert} {x : Snapshot} {base metadata : Metadata} {now : Timestamp}
  {ids ids' : Ids} {raised : List (Rule × Alert)} {batch : List Alert}

theorem Alert.enrich_metadata (h : (raw.enrich rule (some base) now ids).1 = .ok e) :
    ∃ own, raw.metadata = some own ∧ e.metadata = some (own.merge base) := by
  obtain ⟨id, t, m, -, -, merged, rfl⟩ := Alert.of_enrich h
  unfold Alert.mergedMetadata at merged
  rcases ruleGave : raw.metadata with _ | own
  · rw [ruleGave] at merged
    cases merged
  · rw [ruleGave] at merged
    exact ⟨own, rfl, congrArg some (Except.ok.inj merged).symm⟩

theorem Detector.Enriched.exists_raised (h : Detector.Enriched metadata now ids raised batch ids')
    (he : e ∈ batch) : ∃ rule raw ids, (rule, raw) ∈ raised ∧ (raw.enrich rule (some metadata) now ids).1 = .ok e := by
  induction h with
  | nil => cases he
  | @cons ids _ _ rule raw _ _ _ one _ ih =>
    rcases List.mem_cons.1 he with rfl | later
    · exact ⟨rule, raw, ids, List.mem_cons_self .., by rw [one]⟩
    · obtain ⟨rule, raw, ids, mem, enriched⟩ := ih later
      exact ⟨rule, raw, ids, List.mem_cons_of_mem _ mem, enriched⟩

theorem Detector.Detected.exists_enriched {d : Detector Number} {clock : Number} {unique alerts : List Alert}
    (h : d.Detected clock now x metadata batch unique alerts) (ha : a ∈ alerts) :
    ∃ e ∈ batch, a = { e with rateLimited := a.rateLimited } := by
  obtain ⟨metered, -, flagged, rfl⟩ := h.limited
  obtain ⟨flag, mem, rfl⟩ := List.mem_map.1 ha
  obtain ⟨e, he, one⟩ := exists_left_of_forall₂ flagged mem
  refine ⟨e, h.inOrder.subset he, ?_⟩
  unfold Detector.Metered at one
  split at one
  · rw [one]
  · rw [one]

theorem Pipeline.of_mem_detects {p : Pipeline} {h : Host} (ha : a ∈ p.detects x metadata h) :
    ∃ rule ∈ p.rules, ∃ raw now ids e, (rule, raw) ∈ rule.raises x metadata.capturer ∧
      (raw.enrich rule (some metadata) now ids).1 = .ok e ∧ a = { e with rateLimited := a.rateLimited } := by
  unfold detects at ha
  split at ha
  · cases ha
  · rename_i d hd
    split at ha
    · cases ha
    · rename_i alerts ok
      obtain ⟨batch, unique, detected⟩ := Detector.evaluate_detected ok
      obtain ⟨e, he, same⟩ := detected.exists_enriched ha
      obtain ⟨ids', enriched⟩ := detected.enriched
      obtain ⟨rule, raw, ids, mem, one⟩ := enriched.exists_raised he
      obtain ⟨r, hr, raises⟩ := List.mem_flatMap.1 mem
      obtain ⟨rfl, -⟩ := Rule.of_mem_raises raises
      refine ⟨rule, ?_, raw, h.now, ids, e, raises, one, same⟩
      rw [rules, hd]
      exact hr

theorem Rule.appliesTo_text {source capturer : String} (only : rule.source = .text source) (some : source ≠ "")
    (named : capturer ≠ "") : rule.appliesTo capturer = .ok (Text.lower source == Text.lower capturer) := by
  have open' : ¬ (rule.source.isEmpty || capturer == "") := by simp [only, Value.isEmpty, some, named]
  unfold appliesTo
  rw [if_neg open', only]
  rfl

theorem Detector.consult_of_skipped (skip : rule.appliesTo metadata.capturer = .ok false) (f : Detector.Findings) :
    Detector.consult x metadata now f rule = f := by
  unfold Detector.consult
  rcases f.fault with _ | fault
  · rcases rule.evaluate with _ | evaluate
    · rfl
    · simp only [skip]
  · rfl

end Detection

/-! ### One capture -/

namespace Origin
variable {o : Origin} {rule : Rule} {raw a b : Alert} {own m known : Metadata}

theorem Raised.alike (h : o.Raised rule raw own b m) (alike : Correlation.Alike b a) :
    o.Raised rule raw own a m := by
  obtain ⟨known, stamped, mem, now, ids, e, one, same⟩ := h.byRule
  have linked : a = { e with correlated := a.correlated, rateLimited := a.rateLimited } := by
    rw [alike.eq, same]
  have metadata : a.metadata = b.metadata := by rw [alike.eq]
  exact ⟨⟨known, stamped, mem, now, ids, e, one, linked⟩, h.ruleGave, metadata.trans h.metadata, h.fills⟩

theorem Stamped.raised (h : o.Stamped known) {p : Pipeline} {host : Host}
    (ha : a ∈ p.detects o.snapshot known host) : ∃ rule ∈ p.rules, ∃ raw own m, o.Raised rule raw own a m := by
  obtain ⟨rule, hrule, raw, now, ids, e, raises, one, same⟩ := Pipeline.of_mem_detects ha
  obtain ⟨own, hown, merged⟩ := Alert.enrich_metadata one
  have metadata : a.metadata = some (own.merge known) := by rw [same, merged]
  have linked : a = { e with correlated := a.correlated, rateLimited := a.rateLimited } := by
    have unlinked : a.correlated = e.correlated := by rw [same]
    rw [unlinked]
    exact same
  exact ⟨rule, hrule, raw, own, _, ⟨known, h.metadata, raises, now, ids, e, one, linked⟩, hown, metadata,
    h.fills.merge (List.cons_ne_nil _ _) own⟩

theorem stamped_readied (s : Scheduler) (c : Capturer) (interval : Value) (raw : Snapshot) :
    ∃ m, Stamped ⟨raw, s.defaults c.name interval, s.readied c interval raw⟩ m := by
  generalize origin : (⟨raw, s.defaults c.name interval, s.readied c interval raw⟩ : Origin) = o
  have fills : (o.given.merge o.defaults).Fills [o.given, o.defaults] := Metadata.fills_merge _ _
  have shape : ∃ fields, o.snapshot =
      { o.raw with fields := some fields, metadata := some (o.given.merge o.defaults) } := by
    rw [← origin]
    unfold Scheduler.readied
    split
    · exact ⟨_, rfl⟩
    · exact ⟨_, rfl⟩
  have timed : o.defaults.capturedAt.isSome := by
    rw [← origin]
    rfl
  obtain ⟨fields, shape⟩ := shape
  have applies {rule : Rule} {source : String} (only : rule.source = .text source) (some : source ≠ "")
      (named : o.name ≠ "") :
      rule.appliesTo (o.given.merge o.defaults).capturer = .ok (Text.lower source == Text.lower o.name) :=
    Rule.appliesTo_text only some named
  refine ⟨_, by rw [shape], fills, by rw [shape], fun t capturer interval known => ?_,
    fun rule source => applies, fun rule source only some named other now f => ?_⟩
  · have unchanged := fills.merge_last timed known
    rw [shape]
    simp only [Scheduler.stamp, Option.getD_some, unchanged]
  · refine Detector.consult_of_skipped ?_ f
    rw [applies only some named, beq_false_of_ne other]

end Origin

/-! ### Any work of the scheduler -/

namespace Scheduler
open Host

/-- The states that a scheduler comes to, with the captures that have given a snapshot and the snapshots that were
processed: these went to the sinks and to detection. What a capture has given is processed or handed off at any time
later. In between anything may happen that spreads neither snapshots nor alerts. -/
inductive Works (start : Scheduler) : List Origin → List Snapshot → Scheduler → Prop
  | start : Works start [] [] start
  | captured {s s' : Scheduler} {os : List Origin} {seen : List Snapshot} {i : Nat} {interval : Value}
      {c c' : Capturer} {raw x : Snapshot} (works : Works start os seen s) (source : s.source? i = some c)
      (taken : c.take s.host = (c', .ok raw)) (given : s.takeSnapshot i interval = (s', .ok (some x))) :
      Works start (os ++ [⟨raw, s.defaults c'.name interval, x⟩]) seen s'
  | processed {s : Scheduler} {os : List Origin} {seen : List Snapshot} {o : Origin} (works : Works start os seen s)
      (known : o ∈ os) : Works start os (seen ++ [o.snapshot]) (s.process o.snapshot).1
  | handedOff {s : Scheduler} {os : List Origin} {seen : List Snapshot} {o : Origin} (works : Works start os seen s)
      (known : o ∈ os) : Works start os (seen ++ if s.isFull then [o.snapshot] else []) (s.handOff o.snapshot).1
  | drained {s : Scheduler} {os : List Origin} {seen : List Snapshot} (works : Works start os seen s) :
      Works start os (seen ++ s.queue.take 1) s.drainOne.1
  | meanwhile {s s' : Scheduler} {os : List Origin} {seen : List Snapshot} (works : Works start os seen s)
      (quiet : Spreads (fun _ => False) (fun _ => False) s s') : Works start os seen s'

/-- Sinks and detection have seen no snapshots but those with `S`, and responders, listeners and the history no
alerts but those with `P`. -/
structure Sees (S : Snapshot → Prop) (P : Alert → Prop) (start : Scheduler) (seen : List Snapshot)
    (s : Scheduler) : Prop where
  journal : Adds (Event.Shows S P) start.host s.host
  detection : ∀ x ∈ seen, S x
  history : ∀ a ∈ s.history.alerts, P a

/-- Everything goes back to the captures. -/
structure Traced (start : Scheduler) (os : List Origin) (seen : List Snapshot) (s : Scheduler) : Prop where
  stamped : ∀ o ∈ os, ∃ m, o.Stamped m
  spreads : Spreads (CapturedBy os) (RaisedFrom os start.pipeline.rules) start s
  detection : ∀ x ∈ seen, CapturedBy os x

section Works
variable {start s s' : Scheduler} {os os' : List Origin} {seen : List Snapshot} {x : Snapshot} {a : Alert}
  {S S' : Snapshot → Prop} {P P' : Alert → Prop}

theorem Sees.mono (h : Sees S P start seen s) (hS : ∀ x, S x → S' x) (hP : ∀ a, P a → P' a) :
    Sees S' P' start seen s where
  journal := h.journal.mono fun _ he => he.mono hS hP
  detection x hx := hS x (h.detection x hx)
  history a ha := hP a (h.history a ha)

theorem Traced.more (h : Traced start os seen s) {o : Origin} {m : Metadata} (stamped : o.Stamped m) :
    Traced start (os ++ [o]) seen s where
  stamped := List.forall_mem_append.2 ⟨h.stamped, List.forall_mem_singleton.2 ⟨m, stamped⟩⟩
  spreads := h.spreads.mono (fun _ ⟨o, ho, same⟩ => ⟨o, List.mem_append_left _ ho, same⟩)
    (fun _ ⟨o, ho, raised⟩ => ⟨o, List.mem_append_left _ ho, raised⟩)
  detection x hx :=
    let ⟨o, ho, same⟩ := h.detection x hx
    ⟨o, List.mem_append_left _ ho, same⟩

/-- A step that spreads nothing but what goes back to the captures. -/
theorem Traced.step (h : Traced start os seen s)
    (step : Spreads (CapturedBy os) (RaisedFrom os start.pipeline.rules) s s') {more : List Snapshot}
    (known : ∀ x ∈ more, CapturedBy os x) : Traced start os (seen ++ more) s' where
  stamped := h.stamped
  spreads := h.spreads.trans step
  detection := List.forall_mem_append.2 ⟨h.detection, known⟩

theorem Traced.quiet (h : Traced start os seen s) (quiet : Spreads (fun _ => False) (fun _ => False) s s') :
    Traced start os seen s' where
  stamped := h.stamped
  spreads := h.spreads.trans (quiet.mono (fun _ => False.elim) fun _ => False.elim)
  detection := h.detection

theorem Traced.raisedFrom (h : Traced start os seen s) (hx : CapturedBy os x) :
    ∃ metadata, x.metadata = some metadata ∧ ∀ host, ∀ a ∈ s.pipeline.detects x metadata host,
      RaisedFrom os start.pipeline.rules a := by
  obtain ⟨o, ho, rfl⟩ := hx
  obtain ⟨m, stamped⟩ := h.stamped o ho
  refine ⟨m, stamped.metadata, fun host a ha => ⟨o, ho, ?_⟩⟩
  rw [← h.spreads.rules]
  exact stamped.raised ha

theorem Traced.queue (h : Traced start os seen s) (empty : start.queue = []) (hx : x ∈ s.queue) :
    CapturedBy os x := by
  rcases h.spreads.queue x hx with waiting | captured
  · rw [empty] at waiting
    cases waiting
  · exact captured

theorem takeSnapshot_some {i : Nat} {interval : Value} (given : s.takeSnapshot i interval = (s', .ok (some x))) :
    ∃ c c' raw, s.source? i = some c ∧ c.take s.host = (c', .ok raw) ∧ x = s.readied c' interval raw := by
  rcases source : s.source? i with _ | c
  · unfold source? at source
    rw [takeSnapshot, source] at given
    cases given
  · rw [takeSnapshot_eq source] at given
    rcases taken : c.take s.host with ⟨c', f | raw⟩
    · rw [taken] at given
      cases given
    · rw [taken] at given
      dsimp only at given
      refine ⟨c, c', raw, rfl, taken, ?_⟩
      by_cases asked : ∃ f, c'.isWarm? = some (.error f)
      · obtain ⟨f, asked⟩ := asked
        rw [prepare_of_warmth asked] at given
        cases given
      · rw [prepare_eq fun f hf => asked ⟨f, hf⟩] at given
        obtain ⟨-, same⟩ := Prod.mk.inj given
        exact (Option.some.inj (Except.ok.inj same)).symm

theorem Works.traced (empty : start.queue = []) (works : Works start os seen s) : Traced start os seen s := by
  induction works with
  | start => exact ⟨List.forall_mem_nil _, .refl, List.forall_mem_nil _⟩
  | @captured s s' os seen i interval c c' raw x _ source taken given ih =>
    obtain ⟨c₁, c₁', raw₁, source₁, taken₁, rfl⟩ := takeSnapshot_some given
    cases source.symm.trans source₁
    cases taken.symm.trans taken₁
    obtain ⟨m, stamped⟩ := Origin.stamped_readied s c' interval raw
    have captured := ih.more stamped
    have step (S : Snapshot → Prop) (P : Alert → Prop) : Spreads S P s s' := by
      have spreads : Spreads S P s (s.takeSnapshot i interval).1 := spreads_takeSnapshot s i interval
      rwa [given] at spreads
    exact captured.quiet (step _ _)
  | @processed s os seen o _ known ih =>
    have own : CapturedBy os o.snapshot := ⟨o, known, rfl⟩
    obtain ⟨metadata, named, raised⟩ := ih.raisedFrom own
    exact ih.step (spreads_process own named raised) (List.forall_mem_singleton.2 own)
  | @handedOff s os seen o _ known ih =>
    have own : CapturedBy os o.snapshot := ⟨o, known, rfl⟩
    obtain ⟨metadata, named, raised⟩ := ih.raisedFrom own
    refine ih.step (spreads_handOff own named raised) fun x hx => ?_
    split at hx
    · exact List.mem_singleton.1 hx ▸ own
    · cases hx
  | drained _ ih =>
    refine ih.step (spreads_drainOne fun x hx => ?_) fun x hx => ih.queue empty (List.mem_of_mem_take hx)
    have waiting := ih.queue empty hx
    obtain ⟨metadata, named, raised⟩ := ih.raisedFrom waiting
    exact ⟨waiting, metadata, named, raised⟩
  | meanwhile _ quiet ih =>
    exact ih.quiet quiet

theorem Traced.sees (h : Traced start os seen s) (empty : start.history.alerts = []) :
    Sees (CapturedBy os) (RaisedFrom os start.pipeline.rules) start seen s where
  journal := h.spreads.host
  detection := h.detection
  history a ha := by
    obtain ⟨b, alike, old | ⟨o, ho, rule, hrule, raw, own, m, raised⟩⟩ := h.spreads.history a ha
    · rw [empty] at old
      cases old
    · exact ⟨o, ho, rule, hrule, raw, own, m, raised.alike alike⟩

/-- Whatever a scheduler that starts with nothing at hand works on, everything that is seen of it goes back to its
captures; and if no source lacks a name, neither does anything that is seen. -/
theorem Works.provenance (queue : start.queue = []) (history : start.history.alerts = [])
    (works : Works start os seen s) : (∀ o ∈ os, ∃ m, o.Stamped m) ∧
    Sees (CapturedBy os) (RaisedFrom os start.pipeline.rules) start seen s ∧
    ((∀ o ∈ os, o.defaults.capturer ≠ "") →
      Sees (fun x => NamesSource x.metadata) (fun a => NamesSource a.metadata) start seen s) := by
  have traced := works.traced queue
  have sees := traced.sees history
  refine ⟨traced.stamped, sees, fun named => sees.mono ?_ ?_⟩
  · rintro _ ⟨o, ho, rfl⟩
    obtain ⟨m, stamped⟩ := traced.stamped o ho
    have last : o.defaults ∈ [o.given, o.defaults] := List.mem_cons_of_mem _ (List.mem_singleton_self _)
    exact ⟨m, stamped.metadata, stamped.fills.capturer_ne last (named o ho)⟩
  · rintro a ⟨o, ho, rule, -, raw, own, m, raised⟩
    have last : o.defaults ∈ [own, o.given, o.defaults] := by simp
    exact ⟨m, raised.metadata, raised.fills.capturer_ne last (named o ho)⟩

/-- A source that gives a host and a name of its own, and a rule restricted to this name that gives a session. -/
def layered : Scheduler where
  schedules := [{ capturer := some (.probe {
    name := "DISK"
    answer := fun _ => .snapshot { metadata := some { host := "own", capturer := "DISK2" } } }) }]
  pipeline := {
    detector := some {
      rules := [{
        id := .text "full"
        source := .text "disk2"
        evaluate := some fun _ => .ok [{ metadata := some { session := "ruled" } }] }]
      ids := .default fun _ => 7 } }
  listeners := [.history]
  history := { limit := 1, correlation := { defaultInterval := .ok 1 } }
  session := "session"
  host := { now := .ofMicros 0 }

/-- The alert in the history has its session from the rule, its host and its name from the source, and the rest from
the scheduler. -/
theorem Works.provenance_layered : ∃ os seen s, layered.queue = [] ∧ layered.history.alerts = [] ∧
    Works layered os seen s ∧ (s.history.alerts.filterMap Alert.metadata).map
      (fun m => (m.session, m.host, m.capturer, m.arch)) = [("ruled", "own", "DISK2", "x86_64")] ∧
    (∀ o ∈ os, o.defaults.capturer ≠ "") ∧
    Sees (fun x => NamesSource x.metadata) (fun a => NamesSource a.metadata) layered seen s := by
  have begun : Works layered [] [] layered := .start
  have source : layered.source? 0 = some _ := rfl
  have given : layered.takeSnapshot 0 (.int 7) = ((layered.takeSnapshot 0 (.int 7)).1, .ok (some _)) := rfl
  have captured := begun.captured source rfl given
  have works := captured.processed (List.mem_singleton_self _)
  obtain ⟨-, -, sees⟩ := works.provenance rfl rfl
  refine ⟨_, _, _, rfl, rfl, works, ?_, ?named, sees ?named⟩
  · decide +kernel
  · exact List.forall_mem_singleton.2 (by decide)

/-! ### The runs of the program -/

/-- That a scheduler can come to a state. -/
def WorksTo (start s : Scheduler) : Prop := ∃ os seen, Works start os seen s

theorem WorksTo.quiet (h : WorksTo start s) (quiet : Spreads (fun _ => False) (fun _ => False) s s') :
    WorksTo start s' :=
  let ⟨os, seen, works⟩ := h
  ⟨os, seen, works.meanwhile quiet⟩

theorem WorksTo.note (h : WorksTo start s) (n : Notice) : WorksTo start (s.note n) := h.quiet (spreads_note s n)

theorem WorksTo.takeSnapshot (h : WorksTo start s) {i : Nat} {interval : Value}
    {result : Except Fault (Option Snapshot)} (taking : s.takeSnapshot i interval = (s', result)) :
    WorksTo start s' ∧ ∀ x, result = .ok (some x) →
      WorksTo start (s'.process x).1 ∧ WorksTo start (s'.handOff x).1 := by
  have quiet : WorksTo start s' := by
    have spreads := spreads_takeSnapshot (S := fun _ => False) (P := fun _ => False) s i interval
    rw [taking] at spreads
    exact h.quiet spreads
  refine ⟨quiet, ?_⟩
  rintro x rfl
  obtain ⟨os, seen, works⟩ := h
  obtain ⟨c, c', raw, source, taken, -⟩ := takeSnapshot_some taking
  have captured := works.captured source taken taking
  have known : (⟨raw, s.defaults c'.name interval, x⟩ : Origin) ∈
      os ++ [⟨raw, s.defaults c'.name interval, x⟩] := List.mem_append_right _ (List.mem_singleton_self _)
  exact ⟨⟨_, _, captured.processed known⟩, ⟨_, _, captured.handedOff known⟩⟩

theorem WorksTo.captureEach (h : WorksTo start s) (schedules : List Nat) :
    WorksTo start (captureEach schedules s).1 := by
  induction schedules generalizing s with
  | nil => exact h
  | cons i rest ih =>
    unfold Scheduler.captureEach
    split
    · exact h
    · split
      all_goals rename_i heq; obtain ⟨taken, further⟩ := h.takeSnapshot heq
      · exact taken
      · exact ih taken
      · obtain ⟨processed, -⟩ := further _ rfl
        split
        all_goals rename_i heq; rw [heq] at processed
        · exact processed
        · exact ih processed

theorem WorksTo.runOnce (h : WorksTo start s) : WorksTo start s.runOnce.1 := by
  have each := h.captureEach (List.range s.schedules.length)
  unfold Scheduler.runOnce
  split
  · exact h
  · split
    all_goals rename_i heq; rw [heq] at each; exact each

theorem WorksTo.drain (h : WorksTo start s) (n : Nat) : WorksTo start (s.drain n).1 := by
  induction n generalizing s with
  | zero => exact h
  | succ n ih =>
    have one : WorksTo start s.drainOne.1 :=
      let ⟨os, seen, works⟩ := h
      ⟨os, _, works.drained⟩
    unfold Scheduler.drain
    split
    all_goals rename_i heq; rw [heq] at one
    · exact one
    · exact ih one

theorem WorksTo.captureOnto (h : WorksTo start s) (i : Nat) : WorksTo start (captureOnto i s).1 := by
  unfold Scheduler.captureOnto
  split
  · exact h
  · rename_i interval _
    have ticked (t : Scheduler) : (t.nextTick interval).1 = t := by
      unfold nextTick
      split <;> rfl
    split
    all_goals rename_i heq; obtain ⟨taken, further⟩ := h.takeSnapshot heq
    · exact taken
    · rw [ticked]
      exact taken
    · obtain ⟨-, handedOff⟩ := further _ rfl
      split
      all_goals rename_i heq; rw [heq] at handedOff
      · exact handedOff
      · rw [ticked]
        exact handedOff

theorem WorksTo.progress (h : WorksTo start s) (p : Progress) : WorksTo start (p.drain s).2 := by
  have drained : WorksTo start s.drainAll.1 := h.drain s.queue.length
  unfold Progress.drain
  split
  · split
    all_goals rename_i heq; rw [heq] at drained
    · exact drained.note _
    · exact drained
  · exact h

theorem WorksTo.follow (h : WorksTo start s) (order : List Nat) (p : Progress) :
    WorksTo start (follow order p s).1 := by
  induction order generalizing s p with
  | nil => exact h
  | cons i rest ih =>
    unfold Scheduler.follow
    split
    · exact ih h p
    · have captured := h.captureOnto i
      generalize Scheduler.captureOnto i s = result at captured ⊢
      obtain ⟨s₁, _ | f⟩ := result
      · exact ih (captured.progress p) _
      · have noted := captured.note (.threadFailed (s₁.captureThread i))
        exact ih (noted.progress { p with fatal := p.fatal <|> some f }) _

theorem WorksTo.run (h : WorksTo start s) (order : List Nat) : WorksTo start (s.run order).1 := by
  unfold Scheduler.run
  split
  · exact h
  · have begun := (h.note (.started s.schedules.length s.capacity)).progress {}
    have followed := begun.follow order (Progress.drain {} (s.note (.started s.schedules.length s.capacity))).1
    dsimp only
    split
    · exact followed.note _
    · exact followed.note _

end Works
end Scheduler

end HostWatch
