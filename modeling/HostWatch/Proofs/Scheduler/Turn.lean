import HostWatch.Proofs.Response.Settlement
import HostWatch.Proofs.Scheduler.Alike

/-!
# The turn of a schedule

When every source is captured once, each schedule has its turn. A source that fails leaves nothing behind but its
fault; else its snapshot is offered to the sinks and goes through the pipeline, and what fails of them is kept in
order (`Takes`). Nothing but a listener or the question for warmth stops a turn (`takes_or_interrupted`).
-/

namespace HostWatch

/-- One capture of a source: what it gives, or the fault of the capture or of the snapshot. -/
def Capturer.take (c : Capturer) (h : Host) : Capturer × Except Fault Snapshot :=
  let (c, failure) := c.capture h.machine h.files h.clock
  match failure with
  | some cause => (c, .error (.capture c.name .capture cause))
  | none =>
    match c.info with
    | .error cause => (c, .error (.capture c.name .info cause))
    | .ok x => (c, .ok x)

namespace Scheduler
open Host

/-- The source on a schedule. -/
def source? (s : Scheduler) (i : Nat) : Option Capturer := s.schedules[i]?.bind Schedule.capturer

/-- A snapshot of a source as it goes on to be processed: with its metadata, and marked if the source has nothing
to compare yet. -/
def readied (s : Scheduler) (c : Capturer) (interval : Value) (raw : Snapshot) : Snapshot :=
  match c.isWarm? with
  | some (.ok false) => markWarming (s.stamp c.name interval raw)
  | _ => s.stamp c.name interval raw

/-- The fault of what a source is to say in more words. -/
def verboseFault? (s : Scheduler) (c : Capturer) : Option Fault :=
  if s.verbose then
    match c.verbose? with
    | some (.error cause) => some (.capture c.name .verbose cause)
    | _ => none
  else none

/-- The scheduler when all is said of a snapshot that its source has to say, and the source is put back. -/
def ahead (s : Scheduler) (i : Nat) (c : Capturer) (x : Snapshot) : Scheduler :=
  (s.report c x).setCapturer i (some c)

/-- What comes of the turn of a schedule. -/
inductive Turn where
  /-- The source has failed. -/
  | failed (fault : Fault)
  /-- The snapshot was offered to the sinks and went through the pipeline. -/
  | processed (snapshot : Snapshot) (verbose : Option Fault) (attempts : List Attempt) (failures : List Fault)

namespace Turn

def snapshot? : Turn → Option Snapshot
  | failed _ => none
  | processed x .. => some x

def attempts : Turn → List Attempt
  | failed _ => []
  | processed _ _ attempts _ => attempts

/-- The faults of a turn in the order in which they are kept. -/
def faults : Turn → List Fault
  | failed f => [f]
  | processed _ verbose attempts failures => verbose.toList ++ attempts.filterMap Attempt.fault? ++ failures

end Turn

/-- The turn of a schedule. A source that fails leaves behind its fault, and else its snapshot is processed. -/
inductive Takes (i : Nat) (s : Scheduler) : Turn → Scheduler → Prop
  | failed {c c' : Capturer} {f : Fault} (source : s.source? i = some c) (taken : c.take s.host = (c', .error f)) :
      Takes i s (.failed f) ((s.captureFailed f).setCapturer i (some c'))
  | processed {c c' : Capturer} {interval : Value} {raw x : Snapshot} {metadata : Metadata} {attempts : List Attempt}
      {failures : List Fault} {s₁ s' : Scheduler} (source : s.source? i = some c)
      (taken : c.take s.host = (c', .ok raw)) (every : s.intervalAt i = .ok interval)
      (ready : s.readied c' interval raw = x) (named : x.metadata = some metadata)
      (ok : (s.ahead i c' x).process x = (s', none))
      (processing : Processing x metadata attempts failures (s.ahead i c' x) s₁ s')
      (responders : failures = (s.pipeline.process x metadata s₁.host).failures) :
      Takes i s (.processed x (s.verboseFault? c') attempts failures) s'

/-- What can stop a turn besides: the question for warmth, or a listener. -/
inductive Interrupted (i : Nat) (s : Scheduler) : Fault → Prop
  | warmth {c c' : Capturer} {raw : Snapshot} {f : Fault} (source : s.source? i = some c)
      (taken : c.take s.host = (c', .ok raw)) (asked : c'.isWarm? = some (.error f)) : Interrupted i s f
  | listener {c c' : Capturer} {interval : Value} {raw x : Snapshot} {l : Listener} {alerts : List Alert}
      {s₁ s' : Scheduler} {f : Fault} (source : s.source? i = some c) (taken : c.take s.host = (c', .ok raw))
      (every : s.intervalAt i = .ok interval) (ready : s.readied c' interval raw = x)
      (stopped : (s.ahead i c' x).process x = (s', some f)) (listens : l ∈ s.listeners)
      (told : tell alerts s₁ l = (s', some f)) : Interrupted i s f

/-- A scheduler of the declared types with a source on each of its schedules. -/
structure IsReady (s : Scheduler) : Prop where
  nonempty : s.schedules ≠ []
  sources : ∀ sc ∈ s.schedules, sc.capturer.isSome ∧ ∃ n, sc.interval = some (.number n)
  defaultInterval : ∃ n, s.defaultInterval = .number n
  pipeline : s.pipeline.IsTyped
  clock : s.host.clock.InRange
  room : s.errors.length ≤ maxErrors

section Turn
variable {s s' s₁ : Scheduler} {i : Nat} {t : Turn} {c c' : Capturer} {interval : Value} {raw x : Snapshot}
  {f : Fault}

/-! ### What a turn does -/

theorem takeSnapshot_eq (source : s.source? i = some c) (interval : Value) : s.takeSnapshot i interval =
    match c.take s.host with
    | (c', .error f) => ((s.captureFailed f).setCapturer i (some c'), .ok none)
    | (c', .ok raw) => ((s.prepare c' interval raw).1.setCapturer i (some c'), (s.prepare c' interval raw).2) := by
  unfold source? at source
  unfold takeSnapshot Capturer.take
  rw [source]
  dsimp only [captureOf]
  generalize c.capture s.host.machine s.host.files s.host.clock = captured
  obtain ⟨c', _ | cause⟩ := captured
  · dsimp only
    cases c'.info <;> rfl
  · rfl

theorem prepare_of_warmth (asked : c.isWarm? = some (.error f)) : s.prepare c interval raw = (s, .error f) := by
  unfold prepare
  rw [asked]

theorem prepare_eq (asked : ∀ f, c.isWarm? ≠ some (.error f)) : s.prepare c interval raw =
    (s.report c (s.readied c interval raw), .ok (some (s.readied c interval raw))) := by
  unfold prepare readied
  rcases warm : c.isWarm? with _ | f | warmed
  · rfl
  · exact absurd warm (asked f)
  · cases warmed <;> rfl

theorem readied_named : ∃ metadata, (s.readied c interval raw).metadata = some metadata := by
  unfold readied
  split
  · exact ⟨_, rfl⟩
  · exact ⟨_, rfl⟩

theorem effects_captureFailed (s : Scheduler) (f : Fault) : Effects [] [f] s (s.captureFailed f) :=
  (effects_note s (.captureFailed f)).trans (effects_keep _ f)

theorem effects_report (s : Scheduler) (c : Capturer) (x : Snapshot) :
    Effects [] (s.verboseFault? c).toList s (s.report c x) := by
  unfold report verboseFault?
  split
  · rcases c.verbose? with _ | cause | detail
    · exact effects_note s _
    · exact (effects_captureFailed s _).quiet (effects_note _ _)
    · exact effects_note s _
  · exact .refl

theorem alike_report (s : Scheduler) (c : Capturer) (x : Snapshot) : Alike s (s.report c x) := by
  unfold report
  split
  · split
    · exact alike_note s _
    · exact alike_note s _
    · exact ((alike_note s _).trans (alike_keep _ _)).trans (alike_note _ _)
  · exact .refl s

theorem apart_captureFailed (s : Scheduler) (f : Fault) : Apart s (s.captureFailed f) := (Apart.refl.note _).keep f

theorem apart_report (s : Scheduler) (c : Capturer) (x : Snapshot) : Apart s (s.report c x) := by
  unfold report
  split
  · split
    · exact Apart.refl.note _
    · exact Apart.refl.note _
    · exact (apart_captureFailed s _).note _
  · exact .refl

/-- A source is put back where one has been. -/
theorem effects_setCapturer (source : s.source? i = some c) (c' : Capturer) :
    Effects [] [] s (s.setCapturer i (some c')) := by
  obtain ⟨sc, scheduled, present⟩ := Option.bind_eq_some_iff.1 source
  have shape : (s.schedules.modify i fun sc => { sc with capturer := some c' }).map
      (fun sc => (sc.capturer.isSome, sc.interval)) = s.schedules.map fun sc => (sc.capturer.isSome, sc.interval) := by
    refine List.ext_getElem? fun j => ?_
    rw [List.getElem?_map, List.getElem?_map, List.getElem?_modify]
    by_cases h : i = j
    · subst h
      simp [scheduled, present]
    · simp [h]
  refine effects_of_eq ?_ rfl rfl .refl
  show ({ s.standing with shape := (s.schedules.modify i _).map _ } : Standing) = s.standing
  rw [shape]
  rfl

theorem source?_of_apart (h : Apart s s') (i : Nat) : s'.source? i = s.source? i := by
  unfold source?
  rw [h.schedules]

theorem effects_ahead (source : s.source? i = some c) (c' : Capturer) (x : Snapshot) :
    Effects [] (s.verboseFault? c').toList s (s.ahead i c' x) := by
  have kept := (source?_of_apart (apart_report s c' x) i).trans source
  exact (effects_report s c' x).quiet (effects_setCapturer kept c')

theorem alike_ahead (s : Scheduler) (i : Nat) (c : Capturer) (x : Snapshot) : Alike s (s.ahead i c x) :=
  (alike_report s c x).trans (alike_setCapturer _ i (some c))

theorem Alike.processed {t : Scheduler} (h : Alike s t) : t.processed = s.processed := by
  obtain ⟨_, _, _, rfl⟩ := h
  rfl

theorem Takes.effects (h : Takes i s t s') : Effects t.attempts t.faults s s' := by
  cases h with
  | @failed c c' f source taken =>
    have kept := (source?_of_apart (apart_captureFailed s f) i).trans source
    exact (effects_captureFailed s f).quiet (effects_setCapturer kept c')
  | @processed c c' interval raw x metadata attempts failures s₁ _ source taken every ready named ok processing =>
    have whole := (effects_ahead source c' x).trans processing.effects
    rwa [List.nil_append, ← List.append_assoc] at whole

theorem Takes.everySink (h : Takes i s t s') :
    t.attempts.map Attempt.offer = t.snapshot?.toList.flatMap fun x => s.sinks.map (·, x) := by
  cases h with
  | failed => rfl
  | @processed c c' interval raw x metadata attempts failures s₁ _ source taken every ready named ok processing =>
    have sinks := (effects_ahead source c' x).sinks
    show attempts.map Attempt.offer = [x].flatMap _
    rw [processing.everySink, sinks, List.flatMap_singleton]

theorem Takes.counted (h : Takes i s t s') : s'.processed = s.processed + t.snapshot?.toList.length := by
  cases h with
  | failed source taken => exact ((alike_note s _).trans (alike_keep _ _)).processed
  | @processed c c' interval raw x metadata attempts failures s₁ _ source taken every ready named ok =>
    have before := (alike_ahead s i c' x).processed
    exact (process_ok ok).processed.trans (congrArg (· + 1) before)

/-- But for schedules, faults and notices a turn does what processing its snapshot does, if there is one. -/
theorem Takes.alone (h : Takes i s t s') :
    Alike (t.snapshot?.toList.foldl (fun s x => (s.process x).1) s) s' := by
  cases h with
  | @failed c c' f => exact ((alike_note s _).trans (alike_keep _ f)).trans (alike_setCapturer _ i _)
  | @processed c c' interval raw x metadata attempts failures s₁ _ source taken every ready named ok =>
    obtain ⟨alone, -⟩ := (alike_ahead s i c' x).process x
    rw [ok] at alone
    exact alone

/-! ### What can stop a turn -/

theorem tellAll_stopped {alerts : List Alert} {listeners : List Listener}
    (h : tellAll alerts listeners s = (s', some f)) : ∃ l ∈ listeners, ∃ s₁, tell alerts s₁ l = (s', some f) := by
  induction listeners generalizing s with
  | nil => cases h
  | cons l rest ih =>
    rcases told : tell alerts s l with ⟨s₁, _ | g⟩
    · simp only [tellAll, told] at h
      obtain ⟨l', mem, told'⟩ := ih h
      exact ⟨l', List.mem_cons_of_mem _ mem, told'⟩
    · simp only [tellAll, told] at h
      exact ⟨l, List.mem_cons_self, s, told.trans h⟩

/-- Once the pipeline is of the declared types only a listener can stop the processing of a snapshot. -/
theorem process_stopped {metadata : Metadata} (typed : s.pipeline.IsTyped) (clock : s.host.clock.InRange)
    (named : x.metadata = some metadata) (stopped : s.process x = (s', some f)) :
    ∃ l ∈ s.listeners, ∃ alerts s₁, tell alerts s₁ l = (s', some f) := by
  obtain ⟨attempts, -, before⟩ := effects_foldl_offer x metadata.capturer s.sinks s
  rw [process_stages s named] at stopped
  generalize s.sinks.foldl (offer x metadata.capturer) s = s₁ at before stopped
  have same : s₁.host.clock = s.host.clock := congrArg Standing.clock before.standing
  have ok := (Pipeline.process_typed typed ⟨x, metadata, s₁.host⟩ (same ▸ clock)).1
  have kept := (before.quiet (effects_looked s₁ x metadata)).trans
    (effects_keepFailures metadata.capturer (s.pipeline.process x metadata s₁.host).failures _)
  dsimp only at ok stopped
  rw [ok] at stopped
  generalize keepFailures metadata.capturer (s₁.looked x metadata) _ = s₃ at kept stopped
  have listeners : s₃.listeners = s.listeners := congrArg Standing.listeners kept.standing
  dsimp only at stopped
  split at stopped
  · rename_i told
    cases stopped
    obtain ⟨l, mem, s₂, told⟩ := tellAll_stopped told
    have listens : l ∈ s₃.listeners := by
      split at mem
      · cases mem
      · exact mem
    exact ⟨l, listeners ▸ listens, _, s₂, told⟩
  · cases stopped

theorem IsReady.source (ready : s.IsReady) (h : i < s.schedules.length) : ∃ c, s.source? i = some c := by
  obtain ⟨present, -⟩ := ready.sources _ (List.getElem_mem h)
  obtain ⟨c, present⟩ := Option.isSome_iff_exists.1 present
  exact ⟨c, by rw [source?, List.getElem?_eq_getElem h]; exact present⟩

theorem isPositiveIfAny_number (n : Number) : ∃ b, (Value.number n).isPositiveIfAny = .ok b := by
  unfold Value.isPositiveIfAny
  split
  · exact ⟨_, rfl⟩
  · exact ⟨_, rfl⟩

theorem IsReady.every (ready : s.IsReady) (h : i < s.schedules.length) :
    ∃ interval, s.intervalAt i = .ok interval := by
  obtain ⟨-, n, given⟩ := ready.sources _ (List.getElem_mem h)
  obtain ⟨d, default⟩ := ready.defaultInterval
  obtain ⟨b, own⟩ := isPositiveIfAny_number n
  obtain ⟨b', common⟩ := isPositiveIfAny_number d
  have read : s.intervalAt i = s.intervalFor (.number n) := by
    rw [intervalAt, List.getElem?_eq_getElem h, Option.bind_some, given, Option.getD_some]
  rw [read, intervalFor, default, own, common]
  cases b <;> cases b' <;> exact ⟨_, rfl⟩

theorem captureEach_of_error (every : s.intervalAt i = .ok interval)
    (taking : s.takeSnapshot i interval = (s', .error f)) (rest : List Nat) :
    captureEach (i :: rest) s = (s', some f) := by
  simp only [captureEach, every, taking]

theorem captureEach_of_none (every : s.intervalAt i = .ok interval)
    (taking : s.takeSnapshot i interval = (s', .ok none)) (rest : List Nat) :
    captureEach (i :: rest) s = captureEach rest s' := by
  simp only [captureEach, every, taking]

theorem captureEach_of_some (every : s.intervalAt i = .ok interval)
    (taking : s.takeSnapshot i interval = (s₁, .ok (some x))) (processed : s₁.process x = (s', none))
    (rest : List Nat) : captureEach (i :: rest) s = captureEach rest s' := by
  simp only [captureEach, every, taking, processed]

theorem captureEach_of_stopped (every : s.intervalAt i = .ok interval)
    (taking : s.takeSnapshot i interval = (s₁, .ok (some x))) (stopped : s₁.process x = (s', some f))
    (rest : List Nat) : captureEach (i :: rest) s = (s', some f) := by
  simp only [captureEach, every, taking, stopped]

/-- The turn of a schedule is taken and the next ones follow, or it is stopped. -/
theorem takes_or_interrupted (ready : s.IsReady) (h : i < s.schedules.length) :
    (∃ t s', Takes i s t s' ∧ ∀ rest, captureEach (i :: rest) s = captureEach rest s') ∨
      ∃ f s', Interrupted i s f ∧ ∀ rest, captureEach (i :: rest) s = (s', some f) := by
  obtain ⟨c, source⟩ := ready.source h
  obtain ⟨interval, every⟩ := ready.every h
  have taking := takeSnapshot_eq source interval
  rcases taken : c.take s.host with ⟨c', f | raw⟩
  · rw [taken] at taking
    exact .inl ⟨_, _, .failed source taken, captureEach_of_none every taking⟩
  · rw [taken] at taking
    dsimp only at taking
    by_cases asked : ∃ f, c'.isWarm? = some (.error f)
    · obtain ⟨f, asked⟩ := asked
      rw [prepare_of_warmth asked] at taking
      exact .inr ⟨f, _, .warmth source taken asked, captureEach_of_error every taking⟩
    · rw [prepare_eq fun f warm => asked ⟨f, warm⟩] at taking
      obtain ⟨metadata, named⟩ : ∃ metadata, (s.readied c' interval raw).metadata = some metadata := readied_named
      generalize readied : s.readied c' interval raw = x at taking named
      have taking : s.takeSnapshot i interval = (s.ahead i c' x, .ok (some x)) := taking
      have pipeline : (s.ahead i c' x).pipeline = s.pipeline := (apart_report s c' x).pipeline
      -- The source is back on its schedule now, so whatever stops the processing, its capture counts.
      rcases processed : (s.ahead i c' x).process x with ⟨s', _ | f⟩
      · obtain ⟨attempts, failures, s₁, processing, responders⟩ := process_processing (s.ahead i c' x) named
        rw [processed, pipeline] at responders
        rw [processed] at processing
        exact .inl ⟨_, s', .processed source taken every readied named processed processing (responders rfl),
          captureEach_of_some every taking processed⟩
      · have standing := (effects_ahead source c' x).standing
        have clock : (s.ahead i c' x).host.clock = s.host.clock := congrArg Standing.clock standing
        have listeners : (s.ahead i c' x).listeners = s.listeners := congrArg Standing.listeners standing
        obtain ⟨l, listens, alerts, s₁, told⟩ :=
          process_stopped (pipeline ▸ ready.pipeline) (clock ▸ ready.clock) named processed
        exact .inr ⟨f, s', .listener source taken every readied processed (listeners ▸ listens) told,
          captureEach_of_stopped every taking processed⟩

/-! ### What a turn leaves as it was -/

theorem Takes.pipeline_typed (ready : s.IsReady) (h : Takes i s t s') : s'.pipeline.IsTyped := by
  cases h with
  | failed source taken => exact (apart_captureFailed s _).pipeline ▸ ready.pipeline
  | @processed c c' interval raw x metadata attempts failures s₁ _ source taken every readied named ok processing =>
    have pipeline : s₁.pipeline = s.pipeline :=
      processing.untouched.pipeline.trans (apart_report s c' x).pipeline
    have clock : s₁.host.clock = s.host.clock :=
      congrArg Standing.clock (processing.before.standing.trans (effects_ahead source c' x).standing)
    rw [processing.done.pipeline]
    have typed : s₁.pipeline.IsTyped := pipeline ▸ ready.pipeline
    exact (Pipeline.process_typed typed ⟨x, metadata, s₁.host⟩ (clock ▸ ready.clock)).2

theorem Takes.ready (ready : s.IsReady) (h : Takes i s t s') : s'.IsReady := by
  have effects := h.effects
  have shape : s'.schedules.map _ = s.schedules.map _ := congrArg Standing.shape effects.standing
  refine ⟨?_, ?_, ?_, h.pipeline_typed ready, ?_, ?_⟩
  · intro none
    rw [none] at shape
    exact ready.nonempty (List.map_eq_nil_iff.1 shape.symm)
  · intro sc mem
    have mem := List.mem_map_of_mem (f := fun sc => (sc.capturer.isSome, sc.interval)) mem
    rw [shape] at mem
    obtain ⟨sc₀, mem, same⟩ := List.mem_map.1 mem
    obtain ⟨present, interval⟩ := Prod.mk.inj same
    rw [← present, ← interval]
    exact ready.sources sc₀ mem
  · have default : s'.defaultInterval = s.defaultInterval := congrArg Standing.defaultInterval effects.standing
    exact default ▸ ready.defaultInterval
  · have clock : s'.host.clock = s.host.clock := congrArg Standing.clock effects.standing
    exact clock ▸ ready.clock
  · rw [effects.errors ready.room]
    exact List.length_take_le _ _

/-- The source has moved on by a capture. -/
theorem Takes.schedules (h : Takes i s t s') : ∃ c, s.source? i = some c ∧
    s'.schedules = s.schedules.modify i fun sc => { sc with capturer := some (c.take s.host).1 } := by
  cases h with
  | @failed c c' f source taken =>
    refine ⟨c, source, ?_⟩
    rw [taken]
    show ((s.captureFailed f).schedules.modify i _) = _
    rw [(apart_captureFailed s f).schedules]
  | @processed c c' interval raw x metadata attempts failures s₁ _ source taken every readied named ok processing =>
    refine ⟨c, source, ?_⟩
    have looked : (s₁.looked x metadata).schedules = s₁.schedules := rfl
    rw [taken, processing.done.schedules, looked, processing.untouched.schedules]
    show ((s.report c' x).schedules.modify i _) = _
    rw [(apart_report s c' x).schedules]

theorem Takes.schedules_length (h : Takes i s t s') : s'.schedules.length = s.schedules.length := by
  obtain ⟨c, -, schedules⟩ := h.schedules
  rw [schedules, List.length_modify]

end Turn
end Scheduler
end HostWatch
