import HostWatch.Proofs.Scheduler.Statistics
import HostWatch.Scheduler.Capturing

/-!
# What processing does not depend on

Snapshots are processed in the same way whatever is on the schedules, whatever faults were kept and whatever was
noted (`process_alike`). So nothing that only kept or noted a fault, or moved on a source, makes itself felt later.
-/

namespace HostWatch.Scheduler

/-- The scheduler with other schedules, faults and journal. -/
def beside (s : Scheduler) (schedules : List Schedule) (errors : List Fault) (j : Journal) : Scheduler :=
  { s with schedules, errors, host := s.host.withJournal j }

/-- The same but for the schedules, the faults that are kept, and the journal. -/
def Alike (s t : Scheduler) : Prop := ∃ schedules errors j, t = s.beside schedules errors j

section Alike
variable {s t u : Scheduler} {x : Snapshot}

theorem Alike.refl (s : Scheduler) : Alike s s := ⟨s.schedules, s.errors, s.host.journal, rfl⟩

theorem Alike.trans (h : Alike s t) (h' : Alike t u) : Alike s u := by
  obtain ⟨_, _, _, rfl⟩ := h
  obtain ⟨schedules, errors, j, rfl⟩ := h'
  exact ⟨schedules, errors, j, rfl⟩

theorem alike_note (s : Scheduler) (n : Notice) : Alike s (s.note n) :=
  ⟨s.schedules, s.errors, .noted n :: s.host.journal, rfl⟩

theorem alike_keep (s : Scheduler) (f : Fault) : Alike s (s.keep f) := by
  unfold keep
  split
  · exact ⟨s.schedules, s.errors ++ [f], s.host.journal, rfl⟩
  · exact .refl s

theorem alike_setCapturer (s : Scheduler) (i : Nat) (c : Option Capturer) : Alike s (s.setCapturer i c) :=
  ⟨_, s.errors, s.host.journal, rfl⟩

theorem Alike.symm (h : Alike s t) : Alike t s := by
  obtain ⟨schedules, errors, j, rfl⟩ := h
  exact ⟨s.schedules, s.errors, s.host.journal, rfl⟩

/-- Steps that only keep and note are taken from alike states to alike states. -/
theorem Alike.steps {s' t' : Scheduler} (h : Alike s t) (hs : Alike s s') (ht : Alike t t') : Alike s' t' :=
  (hs.symm.trans h).trans ht

theorem Alike.offer (h : Alike s t) (x : Snapshot) (capturer : String) (k : Sink) :
    Alike (offer x capturer s k) (Scheduler.offer x capturer t k) := by
  obtain ⟨schedules, errors, j, rfl⟩ := h
  obtain ⟨-, j', same⟩ := unread_consume k x s.host j
  have consumed : k.consume x (s.beside schedules errors j).host = _ := same
  unfold Scheduler.offer
  rw [consumed]
  rcases k.consume x s.host with ⟨h₁, _ | cause⟩
  · exact ⟨schedules, errors, j', rfl⟩
  · have counted : Alike (({ s with host := h₁ } : Scheduler).countAttempt k.name (some (.sink k.name cause)))
        (({ s.beside schedules errors j with host := h₁.withJournal j' } : Scheduler).countAttempt k.name
          (some (.sink k.name cause))) := ⟨schedules, errors, j', rfl⟩
    exact counted.steps ((alike_note _ _).trans (alike_keep _ _)) ((alike_note _ _).trans (alike_keep _ _))

theorem Alike.foldl_offer (h : Alike s t) (x : Snapshot) (capturer : String) (sinks : List Sink) :
    Alike (sinks.foldl (Scheduler.offer x capturer) s) (sinks.foldl (Scheduler.offer x capturer) t) :=
  List.foldl_rel h fun k _ _ _ alike => alike.offer x capturer k

theorem alike_keepFailures (capturer : String) (failures : List Fault) (s : Scheduler) :
    Alike s (keepFailures capturer s failures) :=
  foldl_related (R := fun _ => Alike) Alike.refl Alike.trans
    (fun s f => (alike_note s _).trans (alike_keep _ f)) failures s

theorem Alike.tell (h : Alike s t) (alerts : List Alert) (l : Listener) :
    Alike (tell alerts s l).1 (Scheduler.tell alerts t l).1 ∧
      (Scheduler.tell alerts t l).2 = (Scheduler.tell alerts s l).2 := by
  obtain ⟨schedules, errors, j, rfl⟩ := h
  cases l with
  | audience => exact ⟨⟨schedules, errors, _, rfl⟩, rfl⟩
  | failing fault => exact ⟨⟨schedules, errors, j, rfl⟩, rfl⟩
  | history => exact ⟨⟨schedules, errors, j, rfl⟩, rfl⟩

theorem Alike.tellAll (h : Alike s t) (alerts : List Alert) (listeners : List Listener) :
    Alike (tellAll alerts listeners s).1 (Scheduler.tellAll alerts listeners t).1 ∧
      (Scheduler.tellAll alerts listeners t).2 = (Scheduler.tellAll alerts listeners s).2 := by
  induction listeners generalizing s t with
  | nil => exact ⟨h, rfl⟩
  | cons l rest ih =>
    obtain ⟨told, same⟩ := h.tell alerts l
    unfold Scheduler.tellAll
    revert told same
    rcases Scheduler.tell alerts s l with ⟨s₁, _ | f⟩ <;> rcases Scheduler.tell alerts t l with ⟨t₁, _ | g⟩
    · intro told _
      exact ih told
    · intro _ same
      cases same
    · intro _ same
      cases same
    · intro told same
      exact ⟨told, same⟩

theorem Alike.nameless (h : Alike s t) :
    Alike s.processNameless.1 t.processNameless.1 ∧ t.processNameless.2 = s.processNameless.2 := by
  obtain ⟨schedules, errors, j, rfl⟩ := h
  have called (k : Sink) : callInVain (s.host.withJournal j) k = (callInVain s.host k).withJournal j := by
    cases k <;> rfl
  refine ⟨⟨schedules, errors, j, ?_⟩, rfl⟩
  unfold processNameless beside
  rcases s.sinks.head? with _ | k
  · rfl
  · simp only [Option.map_some, Option.getD_some, called]

/-- Alike states are still alike once a snapshot is processed, and the same stops it in both. -/
theorem Alike.process (h : Alike s t) (x : Snapshot) :
    Alike (s.process x).1 (t.process x).1 ∧ (t.process x).2 = (s.process x).2 := by
  rcases named : x.metadata with _ | metadata
  · have unnamed (s : Scheduler) : s.process x = s.processNameless := by
      unfold Scheduler.process
      rw [named]
    rw [unnamed, unnamed]
    exact h.nameless
  · have sinks : t.sinks = s.sinks := by
      obtain ⟨_, _, _, rfl⟩ := h
      rfl
    have pipeline : t.pipeline = s.pipeline := by
      obtain ⟨_, _, _, rfl⟩ := h
      rfl
    obtain ⟨schedules, errors, j, offered⟩ := h.foldl_offer x metadata.capturer s.sinks
    have detection := (apart_foldl_offer x metadata.capturer s.sinks s).pipeline
    rw [process_stages s named, process_stages t named, sinks, pipeline, offered, ← detection]
    -- After the sinks the two are alike again, so they detect and respond alike, and tell the same.
    generalize s.sinks.foldl (Scheduler.offer x metadata.capturer) s = s₁
    obtain ⟨-, j', outcome⟩ := process_unread s₁.host j s₁.pipeline x metadata
    have outcome' : s₁.pipeline.process x metadata (s₁.beside schedules errors j).host = _ := outcome
    have looked : Alike (s₁.looked x metadata) ((s₁.beside schedules errors j).looked x metadata) := by
      refine ⟨schedules, errors, j', ?_⟩
      have pipeline : (s₁.beside schedules errors j).pipeline = s₁.pipeline := rfl
      unfold Scheduler.looked
      rw [pipeline, outcome']
      rfl
    dsimp only
    rw [outcome']
    dsimp only
    generalize s₁.pipeline.process x metadata s₁.host = o
    rcases o.fault with _ | f
    · have kept := looked.steps (alike_keepFailures metadata.capturer o.failures _)
        (alike_keepFailures metadata.capturer o.failures _)
      dsimp only
      generalize keepFailures metadata.capturer (s₁.looked x metadata) o.failures = s₃ at kept ⊢
      generalize keepFailures metadata.capturer _ o.failures = t₃ at kept ⊢
      have listeners : t₃.listeners = s₃.listeners := by
        obtain ⟨_, _, _, rfl⟩ := kept
        rfl
      rw [listeners]
      obtain ⟨told, same⟩ := kept.tellAll o.alerts (if o.alerts.isEmpty then [] else s₃.listeners)
      revert told same
      generalize Scheduler.tellAll o.alerts _ s₃ = told
      generalize Scheduler.tellAll o.alerts _ t₃ = told'
      rcases told with ⟨s₄, _ | f⟩ <;> rcases told' with ⟨t₄, _ | g⟩
      · rintro ⟨_, _, _, rfl⟩ -
        exact ⟨⟨_, _, _, rfl⟩, rfl⟩
      · intro _ same
        cases same
      · intro _ same
        cases same
      · intro told same
        exact ⟨told, same⟩
    · exact ⟨looked, rfl⟩

/-- Snapshots that are processed one after the other. -/
theorem Alike.foldl_process (h : Alike s t) (xs : List Snapshot) :
    Alike (xs.foldl (fun s x => (s.process x).1) s) (xs.foldl (fun s x => (s.process x).1) t) :=
  List.foldl_rel h fun x _ _ _ alike => (alike.process x).1

end Alike
end HostWatch.Scheduler
