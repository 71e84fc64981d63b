import HostWatch.Proofs.Scheduler.Turn

/-!
# Failures are kept apart and recorded in order

A run is made of rounds, in which each schedule has its turn, with interludes in which time goes on. After any
number of rounds in which no listener and no question for warmth raises a fault, the sinks and the pipeline have
had the snapshots of the captures that succeeded, as if there were no others, and the faults that are kept are the
first of all that there were (`runRounds_isolated`).
-/

namespace HostWatch

/-- Whether a source is warm is always answered. -/
def Capturer.IsSteady : Capturer → Prop
  | probe p => ∀ warm ∈ p.warm, ∀ n f, warm n ≠ .error f
  | _ => True

namespace Scheduler
open Host

/-- What happens to a host between rounds: time goes on, and the machine and its files change. None of it is
written into the journal or depends on it. -/
structure Interlude where
  change : Host → Host
  unread (h : Host) (j : Journal) : change (h.withJournal j) = (change h).withJournal j
  clock (h : Host) (inRange : h.clock.InRange) : (change h).clock.InRange

/-- Nothing happens. -/
def Interlude.none : Interlude := ⟨id, fun _ _ => rfl, fun _ inRange => inRange⟩

def after (s : Scheduler) (m : Interlude) : Scheduler := { s with host := m.change s.host }

/-- One round after each of the interludes, up to the first fault that stops one. -/
def runRounds : List Interlude → Scheduler → Scheduler × Except Fault (Option Fault)
  | [], s => (s, .ok none)
  | [m], s => (s.after m).runOnce
  | m :: rest, s =>
    match (s.after m).runOnce with
    | (s, .error f) => (s, .error f)
    | (s, .ok _) => runRounds rest s

/-- Rounds at once after each other. -/
theorem runTimes_eq_runRounds (n : Nat) (s : Scheduler) : runTimes n s = runRounds (List.replicate n .none) s := by
  induction n generalizing s with
  | zero => rfl
  | succ n ih =>
    cases n with
    | zero => rfl
    | succ n =>
      have more : runTimes (n + 2) s = match s.runOnce with
          | (s, .error f) => (s, .error f)
          | (s, .ok _) => runTimes (n + 1) s := rfl
      have more' : runRounds (List.replicate (n + 2) .none) s = match s.runOnce with
          | (s, .error f) => (s, .error f)
          | (s, .ok _) => runRounds (List.replicate (n + 1) .none) s := rfl
      rw [more, more']
      rcases s.runOnce with ⟨s', f | r⟩
      · rfl
      · exact ih s'

/-- What is next in a run. -/
inductive Cue where
  | interlude (m : Interlude)
  | turn (i : Nat)

/-- What has happened in a run. -/
inductive Occurrence where
  | interlude (m : Interlude)
  | turn (i : Nat) (t : Turn)

namespace Occurrence

def cue : Occurrence → Cue
  | interlude m => .interlude m
  | turn i _ => .turn i

def snapshot? : Occurrence → Option Snapshot
  | interlude _ => none
  | turn _ t => t.snapshot?

def attempts : Occurrence → List Attempt
  | interlude _ => []
  | turn _ t => t.attempts

def faults : Occurrence → List Fault
  | interlude _ => []
  | turn _ t => t.faults

end Occurrence

/-- The cues of a round: each schedule has its turn. -/
def round (s : Scheduler) (m : Interlude) : List Cue :=
  .interlude m :: (List.range s.schedules.length).map .turn

inductive Step (s : Scheduler) : Occurrence → Scheduler → Prop
  | interlude (m : Interlude) : Step s (.interlude m) (s.after m)
  | turn {i : Nat} {t : Turn} {s' : Scheduler} (taken : Takes i s t s') : Step s (.turn i t) s'

inductive Steps : Scheduler → List Occurrence → Scheduler → Prop
  | refl {s : Scheduler} : Steps s [] s
  | step {s s₁ s' : Scheduler} {o : Occurrence} {past : List Occurrence} (first : Step s o s₁)
      (others : Steps s₁ past s') : Steps s (o :: past) s'

/-- In whatever way the cues are followed, no turn is stopped. -/
def IsCalm (s : Scheduler) (cues : List Cue) : Prop :=
  ∀ past i rest s₁ f, cues = past.map Occurrence.cue ++ .turn i :: rest → Steps s past s₁ → ¬ Interrupted i s₁ f

/-- Neither a source nor a listener raises a fault that could stop a turn. -/
structure IsSteady (s : Scheduler) : Prop where
  sources : ∀ sc ∈ s.schedules, ∀ c ∈ sc.capturer, c.IsSteady
  listeners : ∀ l ∈ s.listeners, ∀ alerts s₁, (tell alerts s₁ l).2 = none

/-- What would have happened without the sources that failed. -/
def replay (s : Scheduler) : Occurrence → Scheduler
  | .interlude m => s.after m
  | .turn _ t => t.snapshot?.toList.foldl (fun s x => (s.process x).1) s

/-- The snapshots that were captured went to the sinks and through the pipeline as if no source had failed, and
the first of the faults are kept. -/
structure Isolated (s : Scheduler) (past : List Occurrence) (s' : Scheduler) : Prop where
  attempted : Emits Event.attempt? s.host s'.host (past.flatMap Occurrence.attempts)
  everySink : (past.flatMap Occurrence.attempts).map Attempt.offer =
    (past.filterMap Occurrence.snapshot?).flatMap fun x => s.sinks.map (·, x)
  processed : s'.processed = s.processed + (past.filterMap Occurrence.snapshot?).length
  alone : Alike (past.foldl replay s) s'
  errors : s'.errors = (s.errors ++ past.flatMap Occurrence.faults).take maxErrors
  firstError (f : Fault) (known : s.firstError? = some f) : s'.firstError? = some f

section Recording
variable {s s' s₁ : Scheduler} {o : Occurrence} {past later : List Occurrence} {cues others : List Cue}

/-! ### Steps of a run -/

theorem Interlude.journal (m : Interlude) (h : Host) : (m.change h).journal = h.journal := by
  have kept : m.change h = (m.change h).withJournal h.journal := m.unread h h.journal
  exact (congrArg Host.journal kept).trans rfl

theorem Alike.after {t : Scheduler} (h : Alike s t) (m : Interlude) : Alike (s.after m) (t.after m) := by
  obtain ⟨schedules, errors, j, rfl⟩ := h
  refine ⟨schedules, errors, j, ?_⟩
  unfold Scheduler.after beside
  rw [m.unread]

theorem Alike.replay {t : Scheduler} (h : Alike s t) (o : Occurrence) : Alike (s.replay o) (t.replay o) := by
  cases o with
  | interlude m => exact h.after m
  | turn i t => exact h.foldl_process _

theorem Alike.foldl_replay {t : Scheduler} (h : Alike s t) (past : List Occurrence) :
    Alike (past.foldl Scheduler.replay s) (past.foldl Scheduler.replay t) :=
  List.foldl_rel h fun o _ _ _ alike => alike.replay o

theorem Step.ready (ready : s.IsReady) (h : Step s o s') : s'.IsReady := by
  cases h with
  | interlude m =>
    exact ⟨ready.nonempty, ready.sources, ready.defaultInterval, ready.pipeline, m.clock _ ready.clock, ready.room⟩
  | turn taken => exact taken.ready ready

theorem Step.schedules_length (h : Step s o s') : s'.schedules.length = s.schedules.length := by
  cases h with
  | interlude m => rfl
  | turn taken => exact taken.schedules_length

theorem Step.sinks (h : Step s o s') : s'.sinks = s.sinks := by
  cases h with
  | interlude m => rfl
  | turn taken => exact taken.effects.sinks

theorem Step.alone (h : Step s o s') : Alike (s.replay o) s' := by
  cases h with
  | interlude m => exact .refl _
  | turn taken => exact taken.alone

theorem firstError_of_errors {faults : List Fault} (errors : s'.errors = (s.errors ++ faults).take maxErrors)
    (f : Fault) (known : s.firstError? = some f) : s'.firstError? = some f := by
  unfold firstError? at known ⊢
  rw [errors]
  rcases first : s.errors with _ | ⟨g, rest⟩
  · rw [first] at known
    cases known
  · rw [first] at known
    exact known

theorem Step.isolated (room : s.errors.length ≤ maxErrors) (h : Step s o s') : Isolated s [o] s' := by
  have errors : s'.errors = (s.errors ++ [o].flatMap Occurrence.faults).take maxErrors := by
    rw [List.flatMap_singleton]
    cases h with
    | interlude m =>
      show s.errors = (s.errors ++ []).take maxErrors
      rw [List.append_nil, List.take_of_length_le room]
    | turn taken => exact taken.effects.errors room
  refine ⟨?_, ?_, ?_, h.alone, errors, firstError_of_errors errors⟩
  · rw [List.flatMap_singleton]
    cases h with
    | interlude m => exact (Adds.of_journal_eq (m.journal s.host)).emits_none
    | turn taken => exact taken.effects.host
  · rw [List.flatMap_singleton]
    cases h with
    | interlude m => rfl
    | @turn i t _ taken =>
      show t.attempts.map Attempt.offer = _
      rw [taken.everySink]
      cases t <;> rfl
  · cases h with
    | interlude m => rfl
    | @turn i t _ taken =>
      rw [taken.counted]
      cases t <;> rfl

theorem Isolated.trans (h : Isolated s past s₁) (h' : Isolated s₁ later s') (sinks : s₁.sinks = s.sinks) :
    Isolated s (past ++ later) s' where
  attempted := by
    rw [List.flatMap_append]
    exact h.attempted.trans h'.attempted
  everySink := by
    rw [List.flatMap_append, List.map_append, h.everySink, h'.everySink, sinks, List.filterMap_append,
      List.flatMap_append]
  processed := by
    rw [h'.processed, h.processed, List.filterMap_append, List.length_append, Nat.add_assoc]
  alone := by
    rw [List.foldl_append]
    exact (h.alone.foldl_replay later).trans h'.alone
  errors := by
    rw [h'.errors, h.errors, take_take_append, List.flatMap_append, List.append_assoc]
  firstError f known := h'.firstError f (h.firstError f known)

namespace Steps

theorem trans (h : Steps s past s₁) (h' : Steps s₁ later s') : Steps s (past ++ later) s' := by
  induction h with
  | refl => exact h'
  | step first _ ih => exact .step first (ih h')

/-- The state in between. -/
theorem split (h : Steps s (past ++ later) s') : ∃ s₁, Steps s past s₁ ∧ Steps s₁ later s' := by
  induction past generalizing s with
  | nil => exact ⟨s, .refl, h⟩
  | cons o past ih =>
    cases h with
    | step first others =>
      obtain ⟨s₁, before, after⟩ := ih others
      exact ⟨s₁, .step first before, after⟩

theorem ready (ready : s.IsReady) (h : Steps s past s') : s'.IsReady := by
  induction h with
  | refl => exact ready
  | step first _ ih => exact ih (first.ready ready)

theorem schedules_length (h : Steps s past s') : s'.schedules.length = s.schedules.length := by
  induction h with
  | refl => rfl
  | step first _ ih => exact ih.trans first.schedules_length

theorem isolated (ready : s.IsReady) (h : Steps s past s') : Isolated s past s' := by
  induction h with
  | @refl s =>
    have errors : s.errors = (s.errors ++ []).take maxErrors := by
      rw [List.append_nil, List.take_of_length_le ready.room]
    exact ⟨.refl, rfl, rfl, .refl s, errors, fun _ known => known⟩
  | step first _ ih => exact (first.isolated ready.room).trans (ih (first.ready ready)) first.sinks

end Steps

/-! ### Calm runs -/

namespace IsCalm

theorem first (calm : s.IsCalm (cues ++ others)) : s.IsCalm cues := by
  intro past i rest s₁ f split steps
  exact calm past i (rest ++ others) s₁ f (by rw [split, List.append_assoc, List.cons_append]) steps

theorem remaining (past : List Occurrence) (calm : s.IsCalm (past.map Occurrence.cue ++ others))
    (steps : Steps s past s₁) : s₁.IsCalm others := by
  intro later i rest s₂ f split more
  refine calm (past ++ later) i rest s₂ f ?_ (steps.trans more)
  rw [split, List.map_append, List.append_assoc]

end IsCalm

theorem take_steady {c : Capturer} (steady : c.IsSteady) (h : Host) : (c.take h).1.IsSteady := by
  have captured : (c.take h).1 = (c.capture h.machine h.files h.clock).1 := by
    unfold Capturer.take
    rcases c.capture h.machine h.files h.clock with ⟨c', _ | cause⟩
    · dsimp only
      cases c'.info <;> rfl
    · rfl
  rw [captured]
  cases c with
  | probe p => exact steady
  | _ => trivial

theorem isWarm?_ne_error {c : Capturer} (steady : c.IsSteady) (f : Fault) : c.isWarm? ≠ some (.error f) := by
  intro asked
  cases c with
  | probe p =>
    obtain ⟨warm, mem, answer⟩ := Option.map_eq_some_iff.1 asked
    exact steady warm mem _ f answer
  | _ => cases asked

namespace IsSteady

theorem source (steady : s.IsSteady) {i : Nat} {c : Capturer} (source : s.source? i = some c) : c.IsSteady := by
  obtain ⟨sc, scheduled, present⟩ := Option.bind_eq_some_iff.1 source
  exact steady.sources sc (List.mem_of_getElem? scheduled) c present

theorem not_interrupted (steady : s.IsSteady) {i : Nat} {f : Fault} : ¬ Interrupted i s f := by
  intro interrupted
  cases interrupted with
  | @warmth c c' raw _ source taken asked =>
    have steady' := take_steady (steady.source source) s.host
    rw [taken] at steady'
    exact isWarm?_ne_error steady' f asked
  | @listener c c' interval raw x l alerts s₁ s' _ source taken every ready stopped listens told =>
    have silent := steady.listeners l listens alerts s₁
    rw [told] at silent
    cases silent

theorem step (steady : s.IsSteady) (h : Step s o s') : s'.IsSteady := by
  cases h with
  | interlude m => exact ⟨steady.sources, steady.listeners⟩
  | @turn i t _ taken =>
    have listeners : s'.listeners = s.listeners := congrArg Standing.listeners taken.effects.standing
    refine ⟨?_, listeners ▸ steady.listeners⟩
    obtain ⟨c, source, schedules⟩ := taken.schedules
    intro sc mem c' present
    rw [schedules, List.mem_iff_getElem?] at mem
    obtain ⟨j, mem⟩ := mem
    rw [List.getElem?_modify] at mem
    obtain ⟨sc₀, scheduled, rfl⟩ := Option.map_eq_some_iff.1 mem
    by_cases own : i = j
    · rw [if_pos own] at present
      cases present
      exact take_steady (steady.source source) s.host
    · rw [if_neg own] at present
      exact steady.sources sc₀ (List.mem_of_getElem? scheduled) c' present

theorem isCalm (steady : s.IsSteady) (cues : List Cue) : s.IsCalm cues := by
  intro past i rest s₁ f _ steps
  have steady' : s₁.IsSteady := by
    clear * - steady steps
    induction steps with
    | refl => exact steady
    | step first _ ih => exact ih (steady.step first)
  exact steady'.not_interrupted

end IsSteady

/-- The given schedules have their turns. -/
theorem captureEach_steps (ready : s.IsReady) {order : List Nat} (scheduled : ∀ i ∈ order, i < s.schedules.length)
    (calm : s.IsCalm (order.map .turn)) : ∃ s' past, captureEach order s = (s', none) ∧
    past.map Occurrence.cue = order.map .turn ∧ Steps s past s' := by
  induction order generalizing s with
  | nil => exact ⟨s, [], rfl, rfl, .refl⟩
  | cons i rest ih =>
    obtain ⟨t, s₁, taken, next⟩ | ⟨f, -, interrupted, -⟩ := takes_or_interrupted ready (scheduled i List.mem_cons_self)
    · have one : Steps s [.turn i t] s₁ := .step (.turn taken) .refl
      have calm' : s₁.IsCalm (rest.map .turn) := IsCalm.remaining [.turn i t] calm one
      have scheduled' : ∀ j ∈ rest, j < s₁.schedules.length := by
        intro j mem
        rw [taken.schedules_length]
        exact scheduled j (List.mem_cons_of_mem i mem)
      obtain ⟨s', past, captured, cues, steps⟩ := ih (taken.ready ready) scheduled' calm'
      exact ⟨s', .turn i t :: past, (next rest).trans captured, congrArg (Cue.turn i :: ·) cues, one.trans steps⟩
    · exact absurd interrupted (calm [] i _ s f rfl .refl)

theorem validate_of_isReady (ready : s.IsReady) : s.validate = .ok () := by
  have nonempty : s.schedules.isEmpty = false := by simpa using ready.nonempty
  have complete : (s.schedules.findIdx? fun sc => !sc.isComplete) = none := by
    refine List.findIdx?_eq_none_iff.2 fun sc mem => ?_
    obtain ⟨present, n, given⟩ := ready.sources sc mem
    simp [Schedule.isComplete, present, given]
  unfold validate
  simp [nonempty, complete]

theorem runOnce_steps (ready : s.IsReady) (calm : s.IsCalm ((List.range s.schedules.length).map .turn)) :
    ∃ s' past, s.runOnce = (s', .ok s'.firstError?) ∧
      past.map Occurrence.cue = (List.range s.schedules.length).map .turn ∧ Steps s past s' := by
  obtain ⟨s', past, captured, cues, steps⟩ := captureEach_steps ready (fun i mem => List.mem_range.1 mem) calm
  refine ⟨s', past, ?_, cues, steps⟩
  unfold runOnce
  rw [validate_of_isReady ready, captured]

theorem runRounds_steps (ready : s.IsReady) (interludes : List Interlude)
    (calm : s.IsCalm (interludes.flatMap s.round)) : ∃ s' past,
    runRounds interludes s = (s', .ok (if interludes.isEmpty then none else s'.firstError?)) ∧
    past.map Occurrence.cue = interludes.flatMap s.round ∧ Steps s past s' := by
  induction interludes generalizing s with
  | nil => exact ⟨s, [], rfl, rfl, .refl⟩
  | cons m rest ih =>
    have gone : Steps s [.interlude m] (s.after m) := .step (.interlude m) .refl
    have calm' : (s.after m).IsCalm ((List.range s.schedules.length).map .turn ++ rest.flatMap s.round) :=
      IsCalm.remaining [.interlude m] calm gone
    obtain ⟨s₁, past, ran, cues, steps⟩ := runOnce_steps (gone.ready ready) calm'.first
    have steps := gone.trans steps
    -- No schedule comes or goes, so the later rounds have the cues that they would have had at the start.
    have round : s₁.round = s.round := by
      unfold Scheduler.round
      rw [steps.schedules_length]
    have cues : ([Occurrence.interlude m] ++ past).map Occurrence.cue = s.round m :=
      congrArg (Cue.interlude m :: ·) cues
    rcases rest with _ | ⟨m', rest⟩
    · exact ⟨s₁, _, ran, by rw [cues]; simp, steps⟩
    · have calm : s.IsCalm (s.round m ++ (m' :: rest).flatMap s.round) := calm
      rw [← cues] at calm
      obtain ⟨s', later, ran', cues', steps'⟩ := ih (steps.ready ready) (round ▸ calm.remaining _ steps)
      refine ⟨s', _, ?_, ?_, steps.trans steps'⟩
      · have begins : runRounds (m :: m' :: rest) s = match (s.after m).runOnce with
            | (s, .error f) => (s, .error f)
            | (s, .ok _) => runRounds (m' :: rest) s := rfl
        rw [begins, ran]
        exact ran'
      · rw [List.map_append, cues, cues', round]
        rfl

/-- Rounds that nothing stops go on to the end, and each part of such a run is isolated. -/
theorem runRounds_isolated (ready : s.IsReady) (interludes : List Interlude)
    (calm : s.IsCalm (interludes.flatMap s.round)) : ∃ s' past,
    runRounds interludes s = (s', .ok (if interludes.isEmpty then none else s'.firstError?)) ∧
    past.map Occurrence.cue = interludes.flatMap s.round ∧ s'.IsReady ∧
    ∀ before later, past = before ++ later → ∃ s₁,
      Steps s before s₁ ∧ Isolated s before s₁ ∧ Steps s₁ later s' ∧ Isolated s₁ later s' := by
  obtain ⟨s', past, ran, cues, steps⟩ := runRounds_steps ready interludes calm
  refine ⟨s', past, ran, cues, steps.ready ready, ?_⟩
  rintro before later rfl
  obtain ⟨s₁, first, second⟩ := steps.split
  exact ⟨s₁, first, first.isolated ready, second, second.isolated (first.ready ready)⟩

end Recording

/-- A source that fails, at first to capture and then to tell, and one that only fails to say more of it; a sink that
fails once and a responder that always fails. -/
def flaky : Scheduler where
  schedules := [
    { capturer := some (.probe {
        name := "GPU"
        answer := fun n =>
          if n = 0 then .captureFault (.external .general "lost") else .infoFault (.external .general "empty") }) },
    { capturer := some (.probe {
        name := "FAN"
        answer := fun _ => .snapshot {}
        verbose := some (.error (.external .general "mute")) }) }]
  pipeline := .guarded
  verbose := true
  sinks := [.external {
    id := 1
    name := "sink"
    answer := fun n => if n = 0 then some (.external .general "full") else none }]
  listeners := [.audience]
  history := { limit := 1, correlation := { defaultInterval := .ok 1 } }
  session := "session"
  host := { now := .ofMicros 0 }

theorem flaky_ready : flaky.IsReady where
  nonempty := List.cons_ne_nil _ _
  sources := by
    intro sc mem
    simp only [flaky, List.mem_cons, List.not_mem_nil, or_false] at mem
    rcases mem with rfl | rfl
    · exact ⟨rfl, _, rfl⟩
    · exact ⟨rfl, _, rfl⟩
  defaultInterval := ⟨_, rfl⟩
  pipeline := Pipeline.guarded_typed
  clock := rfl
  room := Nat.zero_le _

theorem flaky_steady : flaky.IsSteady where
  sources := by
    intro sc mem c present
    simp only [flaky, List.mem_cons, List.not_mem_nil, or_false] at mem
    rcases mem with rfl | rfl
    · cases present
      intro warm none
      cases none
    · cases present
      intro warm none
      cases none
  listeners := by
    intro l mem alerts s₁
    obtain rfl := List.mem_singleton.1 mem
    rfl

/-- A few minutes. -/
def minutes : Interlude where
  change h := { h with clock := .double 400 }
  unread _ _ := rfl
  clock _ _ := rfl

/-- Of two rounds a few minutes apart. The second time the alerts are over the limit and not responded to. -/
theorem runRounds_isolated_flaky : ∃ past, past.length = 6 ∧
    Isolated flaky past (runRounds [.none, minutes] flaky).1 ∧ (runRounds [.none, minutes] flaky).1.processed = 2 ∧
    (runRounds [.none, minutes] flaky).1.errors = [
      .capture "GPU" .capture (.external .general "lost"), .capture "FAN" .verbose (.external .general "mute"),
      .sink "sink" (.external .general "full"), .responder "pager" (.external .general "busy"),
      .capture "GPU" .info (.external .general "empty"), .capture "FAN" .verbose (.external .general "mute")] := by
  obtain ⟨s', past, ran, cues, ready, parts⟩ :=
    runRounds_isolated flaky_ready [.none, minutes] (flaky_steady.isCalm _)
  obtain ⟨s₁, -, isolated, others, -⟩ := parts past [] (List.append_nil past).symm
  cases others
  have ends : (runRounds [.none, minutes] flaky).1 = s' := congrArg Prod.fst ran
  have length : past.length = 6 := (List.length_map Occurrence.cue).symm.trans (congrArg List.length cues)
  exact ⟨past, length, ends.symm ▸ isolated, by decide +kernel, by decide +kernel⟩

end Scheduler
end HostWatch
