import HostWatch.Proofs.Correlation.Idempotence
import HostWatch.Proofs.Scheduler.Turn

/-!
# How far snapshots and alerts spread

The places that snapshots and alerts get to are the queue, the history, and the journal: what is offered to
sinks, handed to responders, or told to listeners. `Spreads S P` says of two states that on the way from one to
the other no snapshots but those with `S` have got anywhere, and no alerts but those with `P`. Processing spreads
its snapshot and what is detected in it (`spreads_process`); a capture by itself spreads nothing
(`spreads_takeSnapshot`).
-/

namespace HostWatch

/-- Whatever the history keeps was there before or is added now; at most its links are new. -/
theorem History.mem_extend {h : History Number} {added : List Alert} {a : Alert}
    (ha : a ∈ (h.extend added).1.alerts) : ∃ b, Correlation.Alike b a ∧ (b ∈ h.alerts ∨ b ∈ added) := by
  have kept {b : Alert} (hb : b ∈ lastOf h.limit (h.alerts ++ added)) : b ∈ h.alerts ∨ b ∈ added :=
    List.mem_append.1 (mem_of_mem_lastOf hb)
  unfold extend at ha
  dsimp only at ha
  split at ha
  · exact ⟨a, ⟨rfl⟩, .inl ha⟩
  · rw [Correlation.correlate_eq_linksAmong] at ha
    rcases linked : h.correlation.linksAmong (lastOf h.limit (h.alerts ++ added)) with f | links
    · rw [linked] at ha
      exact ⟨a, ⟨rfl⟩, kept ha⟩
    · rw [linked] at ha
      obtain ⟨b, hb, rfl⟩ := List.mem_map.1 ha
      exact ⟨b, Correlation.alike_relink links b, kept hb⟩

namespace Pipeline

/-- The rules that look at snapshots. -/
def rules (p : Pipeline) : List Rule := (p.detector.map Detector.rules).getD []

theorem respond_detector (p : Pipeline) (due : List Alert) (h : Host) :
    (p.respond due h).1.detector = p.detector := by
  unfold respond
  split
  · rfl
  · split <;> rfl

theorem process_rules (p : Pipeline) (x : Snapshot) (metadata : Metadata) (h : Host) :
    (p.process x metadata h).pipeline.rules = p.rules := by
  unfold process
  split
  · rfl
  · rename_i d hd
    have looked :
        ({ p with detector := some (d.evaluate h.clock h.now x metadata true).detector } : Pipeline).rules =
          p.rules := by
      unfold rules
      rw [hd]
      exact (d.evaluate_setup h.clock h.now x metadata true).rules
    have answered (due : List Alert) (h' : Host) :
        (({ p with detector := some (d.evaluate h.clock h.now x metadata true).detector } : Pipeline).respond
          due h').1.rules = p.rules := by
      rw [rules, respond_detector]
      exact looked
    dsimp only
    split
    · exact looked
    · split
      · exact looked
      · split
        all_goals
          rename_i heq
          have same := congrArg (fun answer => answer.1.rules) heq
          exact same.symm.trans (answered _ _)

end Pipeline

namespace Scheduler
open Host

structure Spreads (S : Snapshot → Prop) (P : Alert → Prop) (s s' : Scheduler) : Prop where
  queue : ∀ x ∈ s'.queue, x ∈ s.queue ∨ S x
  history : ∀ a ∈ s'.history.alerts, ∃ b, Correlation.Alike b a ∧ (b ∈ s.history.alerts ∨ P b)
  rules : s'.pipeline.rules = s.pipeline.rules
  host : Adds (Event.Shows S P) s.host s'.host

section Spreads
variable {S S' : Snapshot → Prop} {P P' : Alert → Prop} {s s' s'' : Scheduler} {x : Snapshot}
  {metadata : Metadata} {alerts : List Alert}

theorem Spreads.trans (h : Spreads S P s s') (h' : Spreads S P s' s'') : Spreads S P s s'' where
  queue x hx := (h'.queue x hx).elim (h.queue x) .inr
  history a ha := by
    obtain ⟨b, hab, hb | hb⟩ := h'.history a ha
    · obtain ⟨c, hbc, hc⟩ := h.history b hb
      exact ⟨c, hbc.trans hab, hc⟩
    · exact ⟨b, hab, .inr hb⟩
  rules := h'.rules.trans h.rules
  host := h.host.trans h'.host

theorem Spreads.mono (h : Spreads S P s s') (hS : ∀ x, S x → S' x) (hP : ∀ a, P a → P' a) :
    Spreads S' P' s s' where
  queue x hx := (h.queue x hx).imp_right (hS x)
  history a ha :=
    let ⟨b, hab, hb⟩ := h.history a ha
    ⟨b, hab, hb.imp_right (hP b)⟩
  rules := h.rules
  host := h.host.mono fun _ he => he.mono hS hP

theorem spreads_of_eq (queue : s'.queue = s.queue) (history : s'.history = s.history)
    (rules : s'.pipeline.rules = s.pipeline.rules) (host : Adds (Event.Shows S P) s.host s'.host) :
    Spreads S P s s' where
  queue _ hx := .inl (queue ▸ hx)
  history a ha := ⟨a, ⟨rfl⟩, .inl (history ▸ ha)⟩
  rules := rules
  host := host

theorem Spreads.refl : Spreads S P s s := spreads_of_eq rfl rfl rfl .refl

theorem spreads_note (s : Scheduler) (n : Notice) : Spreads S P s (s.note n) :=
  spreads_of_eq rfl rfl rfl (adds_record (Event.shows_noted n))

theorem spreads_keep (s : Scheduler) (f : Fault) : Spreads S P s (s.keep f) := by
  unfold keep
  split <;> exact spreads_of_eq rfl rfl rfl .refl

theorem spreads_countAttempt (s : Scheduler) (name : String) (failure : Option Fault) :
    Spreads S P s (s.countAttempt name failure) := spreads_of_eq rfl rfl rfl .refl

theorem spreads_offer (hx : S x) (capturer : String) (s : Scheduler) (k : Sink) :
    Spreads S P s (offer x capturer s k) := by
  have offered : Spreads S P s { s with host := (k.consume x s.host).1 } :=
    spreads_of_eq rfl rfl rfl (k.consume_shows hx s.host)
  unfold offer
  dsimp only
  split
  · exact offered.trans (spreads_countAttempt _ _ _)
  · rename_i cause _
    have noted := offered.trans (spreads_note _ (.sinkFailed capturer (.sink k.name cause)))
    exact (noted.trans (spreads_countAttempt _ _ _)).trans (spreads_keep _ _)

theorem spreads_foldl_offer (hx : S x) (capturer : String) (sinks : List Sink) (s : Scheduler) :
    Spreads S P s (sinks.foldl (offer x capturer) s) :=
  foldl_related (R := fun _ => Spreads S P) (fun _ => .refl) Spreads.trans (spreads_offer hx capturer) sinks s

theorem spreads_keepFailures (capturer : String) (failures : List Fault) (s : Scheduler) :
    Spreads S P s (keepFailures capturer s failures) :=
  foldl_related (R := fun _ => Spreads S P) (fun _ => .refl) Spreads.trans
    (fun s f => (spreads_note s _).trans (spreads_keep _ f)) failures s

theorem spreads_tell (hP : ∀ a ∈ alerts, P a) (s : Scheduler) (l : Listener) :
    Spreads S P s (tell alerts s l).1 := by
  cases l with
  | audience => exact spreads_of_eq rfl rfl rfl (adds_record (Event.shows_of_alerts rfl hP))
  | failing fault => exact .refl
  | history =>
    refine ⟨fun x hx => .inl hx, fun a ha => ?_, rfl, .refl⟩
    obtain ⟨b, alike, hb⟩ := History.mem_extend ha
    exact ⟨b, alike, hb.imp_right (hP b)⟩

theorem spreads_tellAll (hP : ∀ a ∈ alerts, P a) (listeners : List Listener) (s : Scheduler) :
    Spreads S P s (tellAll alerts listeners s).1 :=
  tellAll_related (R := Spreads S P) (fun _ => .refl) Spreads.trans (spreads_tell hP) listeners s

theorem spreads_looked (s : Scheduler) (hP : ∀ a ∈ s.pipeline.detects x metadata s.host, P a) :
    Spreads S P s (s.looked x metadata) :=
  spreads_of_eq rfl rfl (s.pipeline.process_rules x metadata s.host)
    (s.pipeline.process_shows x metadata s.host hP).1

/-- A snapshot is shown to sinks, and what is detected in it to others. -/
theorem spreads_process (hx : S x) (named : x.metadata = some metadata)
    (hP : ∀ h, ∀ a ∈ s.pipeline.detects x metadata h, P a) : Spreads S P s (s.process x).1 := by
  have offered : Spreads S P s _ := spreads_foldl_offer hx metadata.capturer s.sinks s
  have untouched := apart_foldl_offer x metadata.capturer s.sinks s
  rw [process_stages s named]
  -- The sinks are done; what is detected now does not depend on them but through the host.
  generalize s.sinks.foldl (offer x metadata.capturer) s = s₁ at offered untouched
  have looked : Spreads S P s (s₁.looked x metadata) := by
    refine offered.trans (spreads_looked s₁ ?_)
    rw [untouched.pipeline]
    exact hP s₁.host
  have found := (s.pipeline.process_shows (S := S) x metadata s₁.host (hP s₁.host)).2
  dsimp only
  split
  · exact looked
  · have kept := looked.trans (spreads_keepFailures metadata.capturer
      (s.pipeline.process x metadata s₁.host).failures (s₁.looked x metadata))
    generalize keepFailures metadata.capturer (s₁.looked x metadata) _ = s₃ at kept ⊢
    have told := kept.trans (spreads_tellAll found
      (if (s.pipeline.process x metadata s₁.host).alerts.isEmpty then [] else s₃.listeners) s₃)
    split
    · rename_i heq
      rwa [heq] at told
    · rename_i s₄ heq
      rw [heq] at told
      have counted : Spreads S P s₄ { s₄ with processed := s₄.processed + 1 } := spreads_of_eq rfl rfl rfl .refl
      exact (told.trans counted).trans (spreads_note _ _)

theorem spreads_handOff (hx : S x) (named : x.metadata = some metadata)
    (hP : ∀ h, ∀ a ∈ s.pipeline.detects x metadata h, P a) : Spreads S P s (s.handOff x).1 := by
  by_cases full : s.isFull
  · rw [handOff, if_pos full]
    simp only [named]
    have refused : Spreads S P s ({ s with drops := s.drops + 1 }.note (.queueFull metadata.capturer)) :=
      spreads_of_eq rfl rfl rfl (adds_record (Event.shows_noted _))
    exact refused.trans (spreads_process hx named hP)
  · rw [handOff, if_neg full]
    refine ⟨fun y hy => ?_, fun a ha => ⟨a, ⟨rfl⟩, .inl ha⟩, rfl, .refl⟩
    rcases List.mem_append.1 hy with waiting | last
    · exact .inl waiting
    · exact .inr (List.mem_singleton.1 last ▸ hx)

theorem spreads_drainOne (hS : ∀ x ∈ s.queue, S x ∧ ∃ metadata, x.metadata = some metadata ∧
    ∀ h, ∀ a ∈ s.pipeline.detects x metadata h, P a) : Spreads S P s s.drainOne.1 := by
  rcases queue : s.queue with _ | ⟨x, rest⟩
  · rw [drainOne, queue]
    exact .refl
  · obtain ⟨hx, metadata, named, hP⟩ := hS x (queue ▸ List.mem_cons_self ..)
    have taken : Spreads S P s { s with queue := rest } :=
      ⟨fun y hy => .inl (queue ▸ List.mem_cons_of_mem x hy), fun a ha => ⟨a, ⟨rfl⟩, .inl ha⟩, rfl, .refl⟩
    rw [drainOne, queue]
    exact taken.trans (spreads_process hx named hP)

/-! ### Captures -/

theorem spreads_captureFailed (s : Scheduler) (f : Fault) : Spreads S P s (s.captureFailed f) :=
  (spreads_note s _).trans (spreads_keep _ f)

theorem spreads_report (s : Scheduler) (c : Capturer) (x : Snapshot) : Spreads S P s (s.report c x) := by
  unfold report
  split
  · split
    · exact spreads_note s _
    · exact spreads_note s _
    · exact (spreads_captureFailed s _).trans (spreads_note _ _)
  · exact .refl

theorem spreads_setCapturer (s : Scheduler) (i : Nat) (c : Option Capturer) :
    Spreads S P s (s.setCapturer i c) :=
  spreads_of_eq rfl rfl rfl .refl

theorem spreads_takeSnapshot (s : Scheduler) (i : Nat) (interval : Value) :
    Spreads S P s (s.takeSnapshot i interval).1 := by
  rcases source : s.source? i with _ | c
  · unfold source? at source
    rw [takeSnapshot, source]
    exact (spreads_captureFailed s absent).trans (spreads_setCapturer _ i none)
  · rw [takeSnapshot_eq source]
    rcases c.take s.host with ⟨c', f | raw⟩
    · exact (spreads_captureFailed s f).trans (spreads_setCapturer _ i _)
    · refine Spreads.trans ?_ (spreads_setCapturer _ i _)
      by_cases asked : ∃ f, c'.isWarm? = some (.error f)
      · obtain ⟨f, asked⟩ := asked
        rw [prepare_of_warmth asked]
        exact .refl
      · rw [prepare_eq fun f hf => asked ⟨f, hf⟩]
        exact spreads_report s c' _

end Spreads
end Scheduler
end HostWatch
