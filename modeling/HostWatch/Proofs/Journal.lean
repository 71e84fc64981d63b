import HostWatch.Response.Pipeline

/-!
# What is added to the journal

The journal only grows. `Host.Adds` says of what kind the events are that an operation adds, and
`Host.Emits` what is read off them, in their order; the latter composes like lists. What responders and
sinks do of themselves are deeds (`Event.isDeed`): that they were called is recorded by the caller
(`Responder.handle_emits`, `Sink.consume_emits`). What the pipeline adds shows no alerts but those that it
detects (`Pipeline.process_shows`), and is no offer to a sink (`Pipeline.process_adds`).
-/

namespace HostWatch

/-- Events by which responders and sinks themselves can be noticed. -/
def Event.isDeed : Event → Bool
  | printed _ | signalled .. => true
  | noted (.rotated ..) | noted (.killed ..) | noted (.killSkipped ..) => true
  | _ => false

/-- The notices of record files. -/
def Event.isRotation : Event → Bool
  | noted (.rotated ..) => true
  | _ => false

theorem Event.isDeed_of_isRotation (e : Event) (h : e.isRotation) : e.isDeed := by
  unfold isRotation at h
  split at h
  · rfl
  · cases h

namespace Host
variable {α : Type} {f : Event → Option α} {Q R : Event → Prop} {h h' h'' : Host} {xs ys : List α}
  {e : Event}

/-- Only events with `Q` are added. -/
def Adds (Q : Event → Prop) (h h' : Host) : Prop :=
  ∃ new, h'.journal = new ++ h.journal ∧ ∀ e ∈ new, Q e

theorem Adds.of_journal_eq (heq : h'.journal = h.journal) : Adds Q h h' := ⟨[], heq, by simp⟩

theorem Adds.refl : Adds Q h h := .of_journal_eq rfl

theorem Adds.trans (hadd : Adds Q h h') (hadd' : Adds Q h' h'') : Adds Q h h'' := by
  obtain ⟨new, hnew, hQ⟩ := hadd
  obtain ⟨new', hnew', hQ'⟩ := hadd'
  refine ⟨new' ++ new, by rw [hnew', hnew, List.append_assoc], fun e he => ?_⟩
  exact (List.mem_append.1 he).elim (hQ' e) (hQ e)

theorem Adds.mono (hadd : Adds Q h h') (hQR : ∀ e, Q e → R e) : Adds R h h' :=
  let ⟨new, hnew, hQ⟩ := hadd
  ⟨new, hnew, fun e he => hQR e (hQ e he)⟩

theorem adds_record (he : Q e) : Adds Q h (h.record e) := ⟨[e], rfl, by simpa using he⟩

theorem adds_note (n : Notice) (hn : (Event.noted n).isDeed) : Adds (Event.isDeed ·) h (h.note n) :=
  adds_record hn

theorem adds_foldl_of_mem {g : Host → α → Host} {xs : List α} (hg : ∀ x ∈ xs, ∀ h, Adds Q h (g h x))
    (h : Host) : Adds Q h (xs.foldl g h) := by
  induction xs generalizing h with
  | nil => exact .refl
  | cons x xs ih =>
    obtain ⟨hx, hxs⟩ := List.forall_mem_cons.1 hg
    exact (hx h).trans (ih hxs _)

theorem adds_foldl {g : Host → α → Host} (hg : ∀ h x, Adds Q h (g h x)) (xs : List α) (h : Host) :
    Adds Q h (xs.foldl g h) := adds_foldl_of_mem (fun x _ h => hg h x) h

/-- What `f` reads off the added events is exactly `xs`. -/
def Emits (f : Event → Option α) (h h' : Host) (xs : List α) : Prop :=
  h'.journal.events.filterMap f = h.journal.events.filterMap f ++ xs

theorem Emits.refl : Emits f h h [] := by simp [Emits]

theorem Emits.trans (hxs : Emits f h h' xs) (hys : Emits f h' h'' ys) : Emits f h h'' (xs ++ ys) := by
  unfold Emits at *
  rw [hys, hxs, List.append_assoc]

theorem emits_record {x : α} (he : f e = some x) : Emits f h (h.record e) [x] := by
  simp [Emits, record, Journal.events, he]

theorem Adds.emits_nil (hadd : Adds Q h h') (hQ : ∀ e, Q e → f e = none) : Emits f h h' [] := by
  obtain ⟨new, hnew, hnewQ⟩ := hadd
  have none : new.reverse.filterMap f = [] := by
    rw [List.filterMap_eq_nil_iff]
    exact fun e he => hQ e (hnewQ e (List.mem_reverse.1 he))
  simp [Emits, Journal.events, hnew, none]

theorem Adds.emits_none (hadd : Adds (f · = none) h h') : Emits f h h' [] :=
  hadd.emits_nil fun _ he => he

theorem emits_record_none (he : f e = none) : Emits f h (h.record e) [] :=
  (adds_record (Q := (f · = none)) he).emits_none

end Host

/-! ### Record files -/

namespace RecordFile
open Host
variable {f : RecordFile} {h h' : Host}

theorem ensureOpen_journal (ok : f.ensureOpen h = .ok h') : h'.journal = h.journal := by
  unfold ensureOpen at ok
  split at ok
  · exact Except.ok.inj ok ▸ rfl
  · split at ok
    · cases ok
    · split at ok
      · cases ok
      · exact Except.ok.inj ok ▸ rfl

theorem wallClock_journal (h : Host) : h.wallClock.2.journal = h.journal := by
  unfold Host.wallClock
  split <;> rfl

theorem rotate_adds (f : RecordFile) (h : Host) : Adds (Event.isRotation ·) h (f.rotate h).1 := by
  have hclock := wallClock_journal { h with files := h.files.closeSlot f.slot }
  simp only [rotate]
  generalize ({ h with files := h.files.closeSlot f.slot } : Host).wallClock = reading at hclock ⊢
  obtain ⟨seconds, h₁⟩ := reading
  have read : Adds (Event.isRotation ·) h h₁ := .of_journal_eq hclock
  simp only
  split
  · exact read
  · split
    · exact read
    · rename_i files _
      have moved : Adds (Event.isRotation ·) h₁ { h₁ with files } := .of_journal_eq rfl
      have noted (h₂ : Host) (path aside : String) :
          Adds (Event.isRotation ·) h₂ (h₂.note (.rotated path aside)) := adds_record rfl
      split
      · exact (read.trans moved).trans (noted _ _ _)
      · rename_i ok
        have reopened := ensureOpen_journal ok
        exact (read.trans moved).trans ((noted _ _ _).trans (.of_journal_eq reopened))

theorem appendLine_adds (f : RecordFile) (s : String) (h : Host) :
    Adds (Event.isRotation ·) h (f.appendLine s h).1 := by
  simp only [appendLine]
  split
  · exact .refl
  · split
    · exact Adds.trans (.of_journal_eq rfl) (rotate_adds f _)
    · exact .of_journal_eq rfl

theorem write_adds (f : RecordFile) (record : Value) (h : Host) :
    Adds (Event.isRotation ·) h (f.write record h).1 := by
  unfold write
  split
  · exact .refl
  split
  · exact .refl
  · rename_i ok
    exact Adds.trans (.of_journal_eq (ensureOpen_journal ok)) (appendLine_adds f _ _)

end RecordFile

/-! ### Responders and sinks -/

open Host

theorem endProcesses_adds (a : Alert) (pids : List Int) (h : Host) :
    Adds (Event.isDeed ·) h (endProcesses a pids h).1 := by
  induction pids generalizing h with
  | nil => exact .refl
  | cons pid rest ih =>
    have signalled : Adds (Event.isDeed ·) h (h.signal pid).2 := adds_record rfl
    simp only [endProcesses]
    split
    · exact signalled.trans (Adds.trans (adds_record rfl) (ih _))
    all_goals exact signalled

theorem answerByKilling_adds (dryRun : Bool) (a : Alert) (h : Host) :
    Adds (Event.isDeed ·) h (answerByKilling dryRun a h).1 := by
  simp only [answerByKilling]
  split
  · exact .refl
  · split
    · exact adds_foldl (fun h pid => adds_note (.killSkipped ..) rfl) _ h
    · exact endProcesses_adds a _ h

theorem Responder.act_adds (r : Responder) (a : Alert) (h : Host) :
    Adds (Event.isDeed ·) h (r.act a h).1 := by
  induction r with
  | external party => exact .of_journal_eq rfl
  | log attached =>
    cases attached with
    | false => exact .refl
    | true =>
      simp only [act]
      split
      · exact .refl
      split
      · exact .refl
      · exact adds_record rfl
  | file f =>
    simp only [act]
    split
    · exact (f.write_adds _ h).mono Event.isDeed_of_isRotation
    · exact .refl
  | kill dryRun => exact answerByKilling_adds dryRun a h
  | restricted rules inner ih =>
    simp only [act]
    split
    · exact ih
    · split
      · exact .refl
      · split
        · exact ih
        · exact .refl
  | vacant => exact .refl

section Emits
variable {α : Type} {f : Event → Option α} {x : α}

theorem Responder.handle_emits (hf : ∀ e : Event, e.isDeed → f e = none) {r : Responder} {a : Alert}
    (hr : f (.handed r a) = some x) (h : Host) : Emits f h (r.handle a h).1 [x] := by
  have := (emits_record hr).trans ((r.act_adds a (h.record (.handed r a))).emits_nil hf)
  rwa [List.append_nil] at this

theorem Sink.consume_emits (hf : ∀ e : Event, e.isDeed → f e = none) {s : Sink} {snapshot : Snapshot}
    (hs : ∀ failure, f (.offered s snapshot failure) = some x) (h : Host) :
    Emits f h (s.consume snapshot h).1 [x] := by
  have consumed (h' : Host) (failure : Option Fault) (hadd : Adds (Event.isDeed ·) h h') :
      Emits f h (h'.record (.offered s snapshot failure)) [x] :=
    (hadd.emits_nil hf).trans (emits_record (hs failure))
  cases s with
  | external party => exact consumed _ _ (.of_journal_eq rfl)
  | file f =>
    simp only [consume]
    split
    · exact consumed _ _ ((f.write_adds _ h).mono Event.isDeed_of_isRotation)
    · exact consumed _ _ .refl

end Emits

/-! ### The pipeline -/

/-- The offer of a snapshot to a sink that an event records. -/
def Event.offer? : Event → Option (Sink × Snapshot)
  | offered sink snapshot _ => some (sink, snapshot)
  | _ => none

theorem Event.offer?_of_isDeed (e : Event) (he : e.isDeed) : e.offer? = none := by
  cases e <;> first | rfl | cases he

/-- The alerts that an event shows. -/
def Event.alerts : Event → List Alert
  | handed _ a | dropped a => [a]
  | announced alerts => alerts
  | _ => []

/-- The event shows no other snapshots than those with `S` and no other alerts than those with `P`. -/
structure Event.Shows (S : Snapshot → Prop) (P : Alert → Prop) (e : Event) : Prop where
  snapshots : ∀ sink x, e.offer? = some (sink, x) → S x
  alerts : ∀ a ∈ e.alerts, P a

section Shows
variable {S S' : Snapshot → Prop} {P P' : Alert → Prop} {e : Event} {a : Alert} {alerts : List Alert}

theorem Event.Shows.mono (h : e.Shows S P) (hS : ∀ x, S x → S' x) (hP : ∀ a, P a → P' a) : e.Shows S' P' :=
  ⟨fun sink x hx => hS x (h.snapshots sink x hx), fun a ha => hP a (h.alerts a ha)⟩

theorem Event.shows_of_alerts (offer : e.offer? = none) (hP : ∀ a ∈ e.alerts, P a) : e.Shows S P := by
  refine ⟨fun sink x hx => ?_, hP⟩
  rw [offer] at hx
  cases hx

theorem Event.shows_of_isDeed (e : Event) (he : e.isDeed) : e.Shows S P := by
  have alerts : e.alerts = [] := by cases e <;> first | rfl | cases he
  refine shows_of_alerts (e.offer?_of_isDeed he) ?_
  rw [alerts]
  exact List.forall_mem_nil _

theorem Event.shows_noted (n : Notice) : (Event.noted n).Shows S P := shows_of_alerts rfl (List.forall_mem_nil _)

theorem Event.shows_handed (r : Responder) (ha : P a) : (Event.handed r a).Shows S P :=
  shows_of_alerts rfl (List.forall_mem_singleton.2 ha)

theorem Event.Shows.offer?_eq (h : e.Shows (fun _ => False) P) : e.offer? = none := by
  rcases offer : e.offer? with _ | ⟨sink, x⟩
  · rfl
  · exact (h.snapshots sink x offer).elim

theorem Responder.handle_shows (r : Responder) (ha : P a) (h : Host) :
    Adds (Event.Shows S P) h (r.handle a h).1 :=
  Adds.trans (adds_record (Event.shows_handed r ha)) ((r.act_adds a _).mono Event.shows_of_isDeed)

theorem Sink.consume_shows (k : Sink) {x : Snapshot} (hx : S x) (h : Host) :
    Adds (Event.Shows S P) h (k.consume x h).1 := by
  have consumed (h' : Host) (failure : Option Fault) (hadd : Adds (Event.isDeed ·) h h') :
      Adds (Event.Shows S P) h (h'.record (.offered k x failure)) := by
    have shows : (Event.offered k x failure).Shows S P := by
      refine ⟨fun k' y hy => ?_, List.forall_mem_nil _⟩
      cases hy
      exact hx
    exact (hadd.mono Event.shows_of_isDeed).trans (adds_record shows)
  cases k with
  | external party => exact consumed _ _ (.of_journal_eq rfl)
  | file f =>
    simp only [consume]
    split
    · exact consumed _ _ ((f.write_adds _ h).mono Event.isDeed_of_isRotation)
    · exact consumed _ _ .refl

theorem deliverOne_shows (ha : P a) (responders : List Responder) (h : Host) :
    Adds (Event.Shows S P) h (deliverOne a responders h).1 := by
  induction responders generalizing h with
  | nil => exact .refl
  | cons r rest ih =>
    have handled : Adds (Event.Shows S P) h (r.handle a h).1 := r.handle_shows ha h
    unfold deliverOne
    split
    · rename_i heq
      rw [heq] at handled
      exact handled.trans (ih _)
    · rename_i heq
      rw [heq] at handled
      split
      · exact handled
      · exact handled.trans (ih _)

theorem deliver_shows (responders : List Responder) (hP : ∀ a ∈ alerts, P a) (h : Host) :
    Adds (Event.Shows S P) h (deliver responders alerts h).1 := by
  induction alerts generalizing h with
  | nil => exact .refl
  | cons a rest ih =>
    obtain ⟨ha, hrest⟩ := List.forall_mem_cons.1 hP
    have one : Adds (Event.Shows S P) h (deliverOne a responders h).1 := deliverOne_shows ha responders h
    unfold deliver
    split
    · rename_i heq
      rwa [heq] at one
    · rename_i heq
      rw [heq] at one
      exact one.trans (ih hrest _)

end Shows

/-- The reports of alerts that a policy holds back. -/
def Event.isReport : Event → Bool
  | dropped _ | noted (.policyDropped ..) => true
  | _ => false

theorem DropHook.run_adds (hook : DropHook) (a : Alert) (h : Host) :
    Adds (Event.isReport ·) h (hook.run a h) := by
  cases hook with
  | silent => exact .refl
  | reported => exact adds_record rfl
  | noted => exact adds_record rfl

theorem Router.screen_adds (r : Router) (alerts : List Alert) (h : Host) :
    Adds (Event.isReport ·) h (r.screen alerts h).2.2 := by
  unfold screen
  split
  · exact .refl
  · exact adds_foldl (fun h a => r.hook.run_adds a h) _ h

/-- Decisions are made on the alerts of the batch, up to the first that cannot be made. -/
theorem Policy.made_prefix (p : Policy Number) (now : Number) (alerts : List Alert) :
    (p.decideAll now alerts).made.map Prod.fst <+: alerts := by
  induction alerts generalizing p with
  | nil => exact List.prefix_rfl
  | cons a rest ih =>
    unfold decideAll
    split
    · exact List.nil_prefix
    · exact List.cons_prefix_cons.2 ⟨rfl, ih _⟩

section Shows
variable {S : Snapshot → Prop} {P : Alert → Prop} {alerts : List Alert}

theorem DropHook.run_shows (hook : DropHook) {a : Alert} (ha : P a) (h : Host) :
    Adds (Event.Shows S P) h (hook.run a h) := by
  cases hook with
  | silent => exact .refl
  | reported => exact adds_record (Event.shows_of_alerts rfl (List.forall_mem_singleton.2 ha))
  | noted => exact adds_record (Event.shows_noted _)

theorem Router.screen_shows (r : Router) (hP : ∀ a ∈ alerts, P a) (h : Host) :
    Adds (Event.Shows S P) h (r.screen alerts h).2.2 ∧
      ∀ accepted, (r.screen alerts h).1 = .ok accepted → ∀ a ∈ accepted, P a := by
  unfold screen
  split
  · exact ⟨.refl, fun accepted ok => Except.ok.inj ok ▸ hP⟩
  · rename_i p _
    have decided (q : Alert × Bool → Bool) :
        ∀ a ∈ ((p.decideAll h.clock alerts).made.filter q).map Prod.fst, P a := by
      intro a ha
      obtain ⟨d, hd, rfl⟩ := List.mem_map.1 ha
      exact hP _ ((p.made_prefix h.clock alerts).subset (List.mem_map_of_mem (List.mem_filter.1 hd).1))
    refine ⟨?_, fun accepted ok => ?_⟩
    · exact adds_foldl_of_mem (fun a ha h => r.hook.run_shows (decided _ a ha) h) h
    · rcases hfault : (p.decideAll h.clock alerts).fault with _ | f
      · simp only [hfault] at ok
        exact Except.ok.inj ok ▸ decided _
      · simp only [hfault] at ok
        cases ok

theorem Router.run_shows (r : Router) (shared : Option (List Responder)) (hP : ∀ a ∈ alerts, P a) (h : Host) :
    Adds (Event.Shows S P) h (r.run shared alerts h).2.1 := by
  obtain ⟨screened, passed⟩ := r.screen_shows (S := S) hP h
  unfold run
  split
  all_goals rename_i heq; rw [heq] at screened passed
  · exact screened
  · exact screened
  · split
    · exact screened
    · exact screened.trans (deliver_shows _ (passed _ rfl) _)

namespace Pipeline

theorem respond_shows (p : Pipeline) {due : List Alert} (hP : ∀ a ∈ due, P a) (h : Host) :
    Adds (Event.Shows S P) h (p.respond due h).2.1 := by
  unfold respond
  split
  · rename_i r _
    exact r.run_shows p.responders hP h
  · split
    · exact deliver_shows _ hP _
    · exact .refl

/-- What is detected in a snapshot. -/
def detects (p : Pipeline) (s : Snapshot) (metadata : Metadata) (h : Host) : List Alert :=
  match p.detector with
  | none => []
  | some d =>
    match (d.evaluate h.clock h.now s metadata true).alerts with
    | .error _ => []
    | .ok alerts => alerts

/-- The pipeline shows the alerts that it detects, and no others. -/
theorem process_shows (p : Pipeline) (s : Snapshot) (metadata : Metadata) (h : Host)
    (hP : ∀ a ∈ p.detects s metadata h, P a) : Adds (Event.Shows S P) h (p.process s metadata h).host ∧
      ∀ a ∈ (p.process s metadata h).alerts, P a := by
  unfold detects at hP
  unfold process
  split
  · exact ⟨.refl, List.forall_mem_nil _⟩
  · rename_i d hd
    simp only [hd] at hP
    have noticed : Adds (Event.Shows S P) h ((d.evaluate h.clock h.now s metadata true).notices.foldl note h) :=
      adds_foldl (fun h n => adds_record (Event.shows_noted n)) _ h
    simp only
    split
    · exact ⟨noticed, List.forall_mem_nil _⟩
    · rename_i alerts ok
      simp only [ok] at hP
      split
      · exact ⟨noticed, hP⟩
      · have responded := respond_shows (S := S) { p with
          detector := some (d.evaluate h.clock h.now s metadata true).detector }
          (fun a (ha : a ∈ alerts.filter fun a => !a.rateLimited) => hP a (List.mem_filter.1 ha).1)
          ((d.evaluate h.clock h.now s metadata true).notices.foldl note h)
        split
        all_goals rename_i heq; rw [heq] at responded
        · exact ⟨noticed.trans responded, hP⟩
        · exact ⟨noticed.trans responded, List.forall_mem_nil _⟩

theorem process_adds (p : Pipeline) (s : Snapshot) (metadata : Metadata) (h : Host) :
    Adds (Event.offer? · = none) h (p.process s metadata h).host := by
  have shows : Adds (Event.Shows (fun _ => False) fun _ => True) h (p.process s metadata h).host :=
    (process_shows p s metadata h fun _ _ => trivial).1
  exact shows.mono fun e he => he.offer?_eq

end Pipeline
end Shows

end HostWatch
