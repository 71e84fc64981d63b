import HostWatch.Scheduler.Processing
import HostWatch.Proofs.Journal

/-!
# Nothing is lost on the way through the queue

Capturing threads hand snapshots off and one thread drains the queue; a `Run` is any order of such
moves. Its `Ledger` names the snapshots handed off and those processed at once, put into the queue and
taken out of it. `Run.exactly_once`: at every point of a run the books balance, and after the final drain
everything handed off has been processed exactly once.
-/

namespace HostWatch.Scheduler
open Host

/-! ### What processing leaves alone -/

/-- Sinks are offered to and failures kept one after the other, so what holds of one of them, composed along the
list, holds of all. -/
theorem foldl_related {α : Type} {R : List α → Scheduler → Scheduler → Prop} {step : Scheduler → α → Scheduler}
    (refl : ∀ s, R [] s s) (trans : ∀ {xs ys s s' s''}, R xs s s' → R ys s' s'' → R (xs ++ ys) s s'')
    (one : ∀ s a, R [a] s (step s a)) (xs : List α) (s : Scheduler) : R xs s (xs.foldl step s) := by
  induction xs generalizing s with
  | nil => exact refl s
  | cons a rest ih => exact trans (one s a) (ih _)

/-- Listeners are told in turn, up to the first that fails. -/
theorem tellAll_related {R : Scheduler → Scheduler → Prop} {alerts : List Alert} (refl : ∀ s, R s s)
    (trans : ∀ {s s' s''}, R s s' → R s' s'' → R s s'') (one : ∀ s l, R s (tell alerts s l).1)
    (listeners : List Listener) (s : Scheduler) : R s (tellAll alerts listeners s).1 := by
  induction listeners generalizing s with
  | nil => exact refl s
  | cons l rest ih =>
    have told := one s l
    unfold tellAll
    split
    all_goals rename_i heq; rw [heq] at told
    · exact told
    · exact trans told (ih _)

/-- From one state to the other the queue and its counters stay as they are, and the given offers are
made to sinks. -/
structure Offers (offers : List (Sink × Snapshot)) (s s' : Scheduler) : Prop where
  queue : s'.queue = s.queue
  capacity : s'.capacity = s.capacity
  drops : s'.drops = s.drops
  processed : s'.processed = s.processed
  sinks : s'.sinks = s.sinks
  host : Emits Event.offer? s.host s'.host offers

section Offers
variable {s s' s'' : Scheduler} {xs ys : List (Sink × Snapshot)}

theorem Offers.refl : Offers [] s s := ⟨rfl, rfl, rfl, rfl, rfl, .refl⟩

theorem Offers.trans (h : Offers xs s s') (h' : Offers ys s' s'') : Offers (xs ++ ys) s s'' :=
  ⟨h'.queue.trans h.queue, h'.capacity.trans h.capacity, h'.drops.trans h.drops,
    h'.processed.trans h.processed, h'.sinks.trans h.sinks, h.host.trans h'.host⟩

/-- A step that makes no offers. -/
theorem Offers.quiet (h : Offers xs s s') (h' : Offers [] s' s'') : Offers xs s s'' :=
  List.append_nil xs ▸ h.trans h'

theorem offers_host {h : Host} (hadd : Adds (Event.offer? · = none) s.host h) :
    Offers [] s { s with host := h } :=
  ⟨rfl, rfl, rfl, rfl, rfl, hadd.emits_none⟩

theorem offers_pipeline {p : Pipeline} {h : Host} (hadd : Adds (Event.offer? · = none) s.host h) :
    Offers [] s { s with pipeline := p, host := h } :=
  ⟨rfl, rfl, rfl, rfl, rfl, hadd.emits_none⟩

theorem offers_note {n : Notice} : Offers [] s (s.note n) := offers_host (adds_record rfl)

theorem offers_keep (s : Scheduler) (f : Fault) : Offers [] s (s.keep f) := by
  unfold keep
  split <;> exact ⟨rfl, rfl, rfl, rfl, rfl, .refl⟩

theorem offers_countAttempt (s : Scheduler) (name : String) (failure : Option Fault) :
    Offers [] s (s.countAttempt name failure) := ⟨rfl, rfl, rfl, rfl, rfl, .refl⟩

theorem offers_offer (s : Scheduler) (x : Snapshot) (capturer : String) (sink : Sink) :
    Offers [(sink, x)] s (offer x capturer s sink) := by
  have offered : Offers [(sink, x)] s { s with host := (sink.consume x s.host).1 } :=
    ⟨rfl, rfl, rfl, rfl, rfl, sink.consume_emits Event.offer?_of_isDeed (fun _ => rfl) s.host⟩
  simp only [offer]
  split
  · exact offered.quiet (offers_countAttempt _ _ _)
  · exact ((offered.quiet offers_note).quiet (offers_countAttempt _ _ _)).quiet (offers_keep _ _)

theorem offers_foldl_offer (x : Snapshot) (capturer : String) (sinks : List Sink) (s : Scheduler) :
    Offers (sinks.map (·, x)) s (sinks.foldl (offer x capturer) s) :=
  foldl_related (R := fun sinks => Offers (sinks.map (·, x))) (fun _ => .refl)
    (fun h h' => List.map_append ▸ h.trans h') (fun s sink => offers_offer s x capturer sink) sinks s

theorem offers_keepFailures (capturer : String) (failures : List Fault) (s : Scheduler) :
    Offers [] s (keepFailures capturer s failures) :=
  foldl_related (R := fun _ => Offers []) (fun _ => .refl) Offers.quiet
    (fun _ f => offers_note.quiet (offers_keep _ f)) failures s

theorem offers_tell (alerts : List Alert) (s : Scheduler) (l : Listener) :
    Offers [] s (tell alerts s l).1 := by
  cases l with
  | audience => exact offers_host (adds_record rfl)
  | failing fault => exact .refl
  | history => exact ⟨rfl, rfl, rfl, rfl, rfl, .refl⟩

theorem offers_tellAll {alerts : List Alert} {listeners : List Listener} {failure : Option Fault}
    (h : tellAll alerts listeners s = (s', failure)) : Offers [] s s' := by
  have told := tellAll_related (R := Offers []) (fun _ => .refl) Offers.quiet (offers_tell alerts) listeners s
  rwa [h] at told

/-- A snapshot is offered to every sink once and counted; the queue is left alone. -/
structure Processes (x : Snapshot) (s s' : Scheduler) : Prop where
  queue : s'.queue = s.queue
  capacity : s'.capacity = s.capacity
  drops : s'.drops = s.drops
  processed : s'.processed = s.processed + 1
  sinks : s'.sinks = s.sinks
  host : Emits Event.offer? s.host s'.host (s.sinks.map (·, x))

theorem process_ok {x : Snapshot} (h : s.process x = (s', none)) : Processes x s s' := by
  unfold process at h
  split at h
  · simp [processNameless] at h
  · rename_i metadata _
    have offered := offers_foldl_offer x metadata.capturer s.sinks s
    simp only at h
    generalize s.sinks.foldl (offer x metadata.capturer) s = s₁ at h offered
    have piped := offered.quiet (offers_pipeline
      (p := (s₁.pipeline.process x metadata s₁.host).pipeline) (s₁.pipeline.process_adds x metadata s₁.host))
    split at h
    · cases h
    · have kept := piped.quiet (offers_keepFailures metadata.capturer
        (s₁.pipeline.process x metadata s₁.host).failures _)
      split at h
      · cases h
      · rename_i heq
        have told := kept.quiet (offers_tellAll heq)
        obtain rfl := (Prod.mk.inj h).1
        have noted := told.quiet (offers_note (n := .snapshotProcessed metadata.capturer x.summary
          (s₁.pipeline.process x metadata s₁.host).alerts.length))
        exact ⟨noted.queue, noted.capacity, noted.drops, congrArg (· + 1) told.processed, noted.sinks,
          noted.host⟩

theorem handOff_full {x : Snapshot} (hfull : s.isFull) (h : s.handOff x = (s', none)) :
    Processes x { s with drops := s.drops + 1 } s' := by
  unfold handOff at h
  rw [if_pos hfull] at h
  simp only at h
  split at h
  · cases h
  · rename_i metadata _
    have processes := process_ok h
    have quiet : Emits Event.offer? s.host (s.host.note (.queueFull metadata.capturer)) [] :=
      emits_record_none rfl
    exact { processes with host := quiet.trans processes.host }

theorem handOff_room {x : Snapshot} (hroom : ¬ s.isFull) (h : s.handOff x = (s', none)) :
    s' = { s with queue := s.queue ++ [x] } := by
  unfold handOff at h
  rw [if_neg hroom] at h
  exact (Prod.mk.inj h).1.symm

theorem drainOne_cons {x : Snapshot} {rest : List Snapshot} (hqueue : s.queue = x :: rest)
    (h : s.drainOne = (s', none)) : Processes x { s with queue := rest } s' := by
  unfold drainOne at h
  rw [hqueue] at h
  exact process_ok h

theorem drainOne_nil (hqueue : s.queue = []) (h : s.drainOne = (s', none)) : s' = s := by
  unfold drainOne at h
  rw [hqueue] at h
  exact (Prod.mk.inj h).1.symm

end Offers

/-! ### Moves and their books -/

/-- What can happen to the queue: a capturing thread hands a snapshot off, or the oldest waiting one
is processed. -/
inductive Move where
  | handOff (snapshot : Snapshot)
  | drainOne

def Move.apply (s : Scheduler) : Move → Scheduler × Option Fault
  | handOff x => s.handOff x
  | drainOne => s.drainOne

/-- The snapshots that went each way, oldest first. -/
structure Ledger where
  handed : List Snapshot := []
  /-- Processed at once, since the queue was full. -/
  atOnce : List Snapshot := []
  queued : List Snapshot := []
  /-- Taken out of the queue and processed. -/
  drained : List Snapshot := []
  processed : List Snapshot := []

def Ledger.record (l : Ledger) (s : Scheduler) : Move → Ledger
  | .handOff x =>
    if s.isFull then
      { l with handed := l.handed ++ [x], atOnce := l.atOnce ++ [x], processed := l.processed ++ [x] }
    else { l with handed := l.handed ++ [x], queued := l.queued ++ [x] }
  | .drainOne =>
    match s.queue with
    | [] => l
    | x :: _ => { l with drained := l.drained ++ [x], processed := l.processed ++ [x] }

/-- The states that moves lead to, in any order, as long as nothing stops the processing. In between
anything may happen that leaves the queue, its counters and the sinks alone. -/
inductive Run (start : Scheduler) : Scheduler → Ledger → Prop
  | start : Run start start {}
  | move {s s' : Scheduler} {l : Ledger} (m : Move) (run : Run start s l)
      (ok : m.apply s = (s', none)) : Run start s' (l.record s m)
  | meanwhile {s s' : Scheduler} {l : Ledger} (run : Run start s l) (quiet : Offers [] s s') :
      Run start s' l

/-- How many snapshots may wait: as many as asked for, or the default. -/
def bound (capacity : Int) : Int := if 0 < capacity then capacity else 64

/-- A scheduler made for some capacity that has seen no snapshot yet. -/
structure IsNew (capacity : Int) (s : Scheduler) : Prop where
  capacity : capacityOf (.number (.int capacity)) = .ok s.capacity
  queue : s.queue = []
  drops : s.drops = 0
  processed : s.processed = 0

/-- The books balance. -/
structure Balanced (capacity : Int) (start s : Scheduler) (l : Ledger) : Prop where
  /-- Nothing is lost and nothing is there twice. -/
  kept : (l.processed ++ s.queue).Perm l.handed
  fits : s.queue.length ≤ bound capacity
  counted : s.processed + s.queue.length = l.handed.length
  drops : s.drops = l.atOnce.length
  /-- First in, first out. -/
  inOrder : l.drained ++ s.queue = l.queued
  drained : l.drained.Sublist l.processed
  queued : l.queued.Sublist l.handed
  twoWays : (l.atOnce ++ l.drained).Perm l.processed
  /-- Every sink was offered what was processed, in the order in which it was. -/
  offered : Emits Event.offer? start.host s.host (l.processed.flatMap fun x => start.sinks.map (·, x))
  sinks : s.sinks = start.sinks
  capacity : s.capacity = .int (bound capacity)

/-! ### The books stay balanced -/

section Balanced
variable {start s s' : Scheduler} {l : Ledger} {x : Snapshot} {capacity : Int}

theorem capacityOf_int : capacityOf (.number (.int capacity)) = .ok (.int (bound capacity)) := by
  have hpos : Number.isPositive (.int capacity) = decide (0 < capacity) :=
    decide_eq_decide.2 Number.int_lt_int
  show Except.ok (if Number.isPositive (.int capacity) then _ else _) = _
  rw [hpos, bound]
  by_cases h : 0 < capacity
  · rw [if_pos (decide_eq_true h), if_pos h]
  · rw [if_neg (by simpa using h), if_neg h]
    rfl

theorem bound_pos : 0 < bound capacity := by
  unfold bound
  split <;> omega

theorem IsNew.balanced (hnew : IsNew capacity start) : Balanced capacity start start {} where
  kept := by simp [hnew.queue]
  fits := by
    have : 0 < bound capacity := bound_pos
    rw [hnew.queue, List.length_nil]
    omega
  counted := by simp [hnew.queue, hnew.processed]
  drops := hnew.drops
  inOrder := hnew.queue
  drained := .refl _
  queued := .refl _
  twoWays := .refl _
  offered := .refl
  sinks := rfl
  capacity := Except.ok.inj (hnew.capacity.symm.trans capacityOf_int)

theorem perm_append_swap {α : Type} (xs ys : List α) (x : α) :
    (xs ++ [x] ++ ys).Perm (xs ++ ys ++ [x]) := by
  rw [List.append_assoc, List.append_assoc]
  exact List.perm_append_comm.append_left _

/-- Whichever way a snapshot is processed, the sinks see it next. -/
theorem Balanced.emits (h : Balanced capacity start s l)
    (hoff : Emits Event.offer? s.host s'.host (s.sinks.map (·, x))) :
    Emits Event.offer? start.host s'.host ((l.processed ++ [x]).flatMap fun x => start.sinks.map (·, x)) := by
  have := h.offered.trans (h.sinks ▸ hoff)
  simpa using this

theorem Balanced.atOnce (h : Balanced capacity start s l)
    (hproc : Processes x { s with drops := s.drops + 1 } s') :
    Balanced capacity start s' { l with
      handed := l.handed ++ [x], atOnce := l.atOnce ++ [x], processed := l.processed ++ [x] } where
  kept := by
    rw [hproc.queue]
    exact (perm_append_swap _ _ _).trans (h.kept.append_right _)
  fits := by
    rw [hproc.queue]
    exact h.fits
  counted := by
    have := h.counted
    rw [hproc.queue, hproc.processed]
    simp only [List.length_append, List.length_singleton]
    omega
  drops := by
    rw [hproc.drops]
    simpa using h.drops
  inOrder := by
    rw [hproc.queue]
    exact h.inOrder
  drained := h.drained.trans (List.sublist_append_left _ _)
  queued := h.queued.trans (List.sublist_append_left _ _)
  twoWays := (perm_append_swap _ _ _).trans (h.twoWays.append_right _)
  offered := h.emits hproc.host
  sinks := hproc.sinks.trans h.sinks
  capacity := hproc.capacity.trans h.capacity

theorem Balanced.enqueue (h : Balanced capacity start s l) (hroom : ¬ s.isFull) :
    Balanced capacity start { s with queue := s.queue ++ [x] }
      { l with handed := l.handed ++ [x], queued := l.queued ++ [x] } where
  kept := by
    rw [← List.append_assoc]
    exact h.kept.append_right _
  fits := by
    have free : ¬ s.capacity ≤ .int s.queue.length := fun hle => hroom (decide_eq_true hle)
    rw [h.capacity, Number.int_le_int] at free
    simp only [List.length_append, List.length_singleton]
    omega
  counted := by
    have := h.counted
    simp only [List.length_append, List.length_singleton]
    omega
  drops := h.drops
  inOrder := by rw [← List.append_assoc, h.inOrder]
  drained := h.drained
  queued := h.queued.append (.refl _)
  twoWays := h.twoWays
  offered := h.offered
  sinks := h.sinks
  capacity := h.capacity

theorem Balanced.dequeue {rest : List Snapshot} (h : Balanced capacity start s l)
    (hqueue : s.queue = x :: rest) (hproc : Processes x { s with queue := rest } s') :
    Balanced capacity start s' { l with drained := l.drained ++ [x], processed := l.processed ++ [x] } where
  kept := by
    have := h.kept
    rw [hqueue] at this
    simpa [hproc.queue] using this
  fits := by
    have := h.fits
    rw [hqueue, List.length_cons] at this
    rw [hproc.queue]
    simp only
    omega
  counted := by
    have := h.counted
    rw [hqueue, List.length_cons] at this
    rw [hproc.queue, hproc.processed]
    simp only
    omega
  drops := hproc.drops.trans h.drops
  inOrder := by
    have := h.inOrder
    rw [hqueue] at this
    simpa [hproc.queue] using this
  drained := h.drained.append (.refl _)
  queued := h.queued
  twoWays := by
    rw [← List.append_assoc]
    exact h.twoWays.append_right _
  offered := h.emits hproc.host
  sinks := hproc.sinks.trans h.sinks
  capacity := hproc.capacity.trans h.capacity

theorem Balanced.meanwhile (h : Balanced capacity start s l) (quiet : Offers [] s s') :
    Balanced capacity start s' l where
  kept := quiet.queue ▸ h.kept
  fits := quiet.queue ▸ h.fits
  counted := by
    rw [quiet.processed, quiet.queue]
    exact h.counted
  drops := quiet.drops.trans h.drops
  inOrder := quiet.queue ▸ h.inOrder
  drained := h.drained
  queued := h.queued
  twoWays := h.twoWays
  offered := by
    have := h.offered.trans quiet.host
    rwa [List.append_nil] at this
  sinks := quiet.sinks.trans h.sinks
  capacity := quiet.capacity.trans h.capacity

/-- One move, whatever it is. -/
theorem Balanced.move (h : Balanced capacity start s l) {m : Move} (ok : m.apply s = (s', none)) :
    Balanced capacity start s' (l.record s m) := by
  cases m with
  | handOff x =>
    simp only [Ledger.record]
    by_cases hfull : s.isFull
    · rw [if_pos hfull]
      exact h.atOnce (handOff_full hfull ok)
    · rw [if_neg hfull, handOff_room hfull ok]
      exact h.enqueue hfull
  | drainOne =>
    simp only [Ledger.record]
    rcases hqueue : s.queue with _ | ⟨x, rest⟩
    · rw [drainOne_nil hqueue ok]
      exact h
    · exact h.dequeue hqueue (drainOne_cons hqueue ok)

theorem Run.books (hnew : IsNew capacity start) (run : Run start s l) : Balanced capacity start s l := by
  induction run with
  | start => exact hnew.balanced
  | move m _ ok ih => exact ih.move ok
  | meanwhile _ quiet ih => exact ih.meanwhile quiet

/-! ### The final drain -/

/-- Draining is a run of its own that hands nothing off. -/
theorem Run.drain {n : Nat} (run : Run start s l) (ok : s.drain n = (s', none)) :
    ∃ l', Run start s' l' ∧ l'.handed = l.handed ∧ s'.queue = s.queue.drop n := by
  induction n generalizing s l with
  | zero => exact ⟨l, (Prod.mk.inj ok).1 ▸ run, rfl, by rw [← (Prod.mk.inj ok).1]; rfl⟩
  | succ n ih =>
    unfold Scheduler.drain at ok
    split at ok
    · cases ok
    · rename_i s₁ one
      obtain ⟨l', run', hhanded, hqueue'⟩ := ih (run.move .drainOne one) ok
      refine ⟨l', run', hhanded.trans ?_, hqueue'.trans ?_⟩
      all_goals rcases hqueue : s.queue with _ | ⟨x, rest⟩
      · simp [Ledger.record, hqueue]
      · simp [Ledger.record, hqueue]
      · rw [drainOne_nil hqueue one, hqueue, List.drop_nil, List.drop_nil]
      · rw [(drainOne_cons hqueue one).queue, List.drop_succ_cons]

/-- At every point of a run the books balance, and once all that waits is drained everything handed off
has been processed exactly once. -/
theorem Run.exactly_once (hnew : IsNew capacity start) (run : Run start s l) :
    Balanced capacity start s l ∧ ∀ s', s.drainAll = (s', none) → ∃ l', Run start s' l' ∧
      Balanced capacity start s' l' ∧ l'.handed = l.handed ∧ s'.queue = [] ∧
      l'.processed.Perm l.handed ∧ s'.processed = l.handed.length := by
  refine ⟨run.books hnew, fun s' ok => ?_⟩
  obtain ⟨l', run', hhanded, hqueue⟩ := run.drain ok
  rw [List.drop_length] at hqueue
  have balanced := run'.books hnew
  refine ⟨l', run', balanced, hhanded, hqueue, ?_, ?_⟩
  · have := balanced.kept
    rwa [hqueue, List.append_nil, hhanded] at this
  · have := balanced.counted
    rwa [hqueue, List.length_nil, Nat.add_zero, hhanded] at this

end Balanced

/-- A scheduler with one place in its queue and a sink that always answers. -/
def narrow : Scheduler where
  schedules := []
  capacity := 1
  sinks := [.external { id := 0, name := "sink", answer := fun _ => none }]
  history := { limit := 1, correlation := { defaultInterval := .ok 1 } }
  session := "session"
  host := { now := .ofMicros 0 }

/-- Two snapshots, the second of which finds the queue full and overtakes the first. -/
theorem Run.exactly_once_overtaking : ∃ s l s' l', IsNew 1 narrow ∧ Run narrow s l ∧
    l.queued = [{ summary := "first" }] ∧ l.atOnce = [{ summary := "second" }] ∧
    s.drainAll = (s', none) ∧ Run narrow s' l' ∧ l'.handed = l.handed ∧ s'.queue = [] ∧
    l'.processed.Perm l.handed ∧ s'.processed = 2 := by
  have isNew : IsNew 1 narrow := ⟨rfl, rfl, rfl, rfl⟩
  have first : Move.apply narrow (.handOff { summary := "first" }) =
      ((narrow.handOff { summary := "first" }).1, none) := rfl
  have second : Move.apply (narrow.handOff { summary := "first" }).1 (.handOff { summary := "second" }) =
      (((narrow.handOff { summary := "first" }).1.handOff { summary := "second" }).1, none) := rfl
  have run := (Run.start.move _ first).move _ second
  obtain ⟨-, drains⟩ := run.exactly_once isNew
  obtain ⟨l', run', -, hhanded, hqueue, hperm, hcount⟩ := drains _ rfl
  exact ⟨_, _, _, l', isNew, run, rfl, rfl, rfl, run', hhanded, hqueue, hperm, hcount⟩

end HostWatch.Scheduler
