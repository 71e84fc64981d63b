import HostWatch.Proofs.Scheduler.HandOff
import HostWatch.Scheduler.Capturing
import Mathlib.Data.List.Nodup
import Mathlib.Data.List.Pairwise
import Mathlib.Logic.Relation

/-!
# In which order a schedule's snapshots are processed

Several threads capture, each on one schedule, and one thread drains the queue. `Step` is what one of
them does between two points at which another may come in: putting a snapshot into the queue or finding
no place for it, taking one out, processing the one at hand. A schedule makes no further capture before
the last one is in the queue or processed.

All snapshots that are not processed yet stand in a line: first the one taken out of the queue, then
those waiting in it, then those for which there was no place. In it the snapshots of a schedule stand in
the order of their capture (`Lined.line`). The draining thread always processes the first of the line, a
schedule the one that it holds, wherever that stands; so the latter leaves behind what its schedule has
in front of it (`Lined.pass`), and nothing else is ever out of order (`Threads.orderLaw`).
-/

namespace HostWatch.Scheduler
open Host

/-! ### Processing, also where it fails -/

section Processing
variable {s : Scheduler} {x : Snapshot} {m : Metadata}

/-- Whether or not it is stopped later on, processing begins with an offer to every sink and leaves the
queue alone. -/
structure Passes (x : Snapshot) (s s' : Scheduler) : Prop where
  queue : s'.queue = s.queue
  sinks : s'.sinks = s.sinks
  host : Emits Event.offer? s.host s'.host (s.sinks.map (·, x))

theorem Offers.passes {s' : Scheduler} (h : Offers (s.sinks.map (·, x)) s s') : Passes x s s' :=
  ⟨h.queue, h.sinks, h.host⟩

theorem process_passes (hm : x.metadata = some m) : Passes x s (s.process x).1 := by
  have offered := offers_foldl_offer x m.capturer s.sinks s
  unfold process
  rw [hm]
  simp only
  generalize s.sinks.foldl (offer x m.capturer) s = s₁ at offered ⊢
  have piped := offered.quiet (offers_pipeline
    (p := (s₁.pipeline.process x m s₁.host).pipeline) (s₁.pipeline.process_adds x m s₁.host))
  split
  · exact piped.passes
  · have kept := piped.quiet (offers_keepFailures m.capturer (s₁.pipeline.process x m s₁.host).failures _)
    split
    · rename_i heq
      exact (kept.quiet (offers_tellAll heq)).passes
    · rename_i heq
      have told := kept.quiet (offers_tellAll heq)
      have noted := told.quiet (offers_note (n := .snapshotProcessed m.capturer x.summary
        (s₁.pipeline.process x m s₁.host).alerts.length))
      exact ⟨noted.queue, noted.sinks, noted.host⟩

/-- A schedule finds no place in the queue. -/
def refuse (s : Scheduler) (capturer : String) : Scheduler :=
  { s with drops := s.drops + 1 }.note (.queueFull capturer)

theorem handOff_of_full (full : s.isFull) (hm : x.metadata = some m) :
    s.handOff x = (s.refuse m.capturer).process x := by
  unfold handOff
  rw [if_pos full]
  simp only [hm]
  rfl

theorem handOff_of_room (room : ¬ s.isFull) :
    s.handOff x = ({ s with queue := s.queue ++ [x] }, none) := by
  rw [handOff, if_neg room]

theorem drainOne_of_cons {rest : List Snapshot} (hq : s.queue = x :: rest) :
    s.drainOne = { s with queue := rest }.process x := by
  rw [drainOne, hq]

end Processing

/-! ### Tickets -/

/-- A snapshot with its schedule and its number among those of the schedule, in the order of capture. -/
structure Ticket where
  schedule : Nat
  number : Nat
  snapshot : Snapshot

/-- The tickets of a schedule. -/
def ofSchedule (i : Nat) (tickets : List Ticket) : List Ticket := tickets.filter (·.schedule == i)

/-- How a snapshot was processed. -/
structure Passage where
  ticket : Ticket
  /-- Whether its own schedule processed it, since the queue was full. -/
  atOnce : Bool
  /-- The snapshots of the same schedule that it left behind: they waited for the draining thread. -/
  left : List Ticket

/-- Of one schedule the first ticket comes first. -/
def Earlier (t u : Ticket) : Prop := t.schedule = u.schedule → t.number < u.number

/-- What is processed later is of an earlier capture exactly if it was left behind. -/
def Ahead (e : Passage) (t : Ticket) : Prop :=
  e.ticket.schedule = t.schedule → (t.number < e.ticket.number ↔ t ∈ e.left)

section Tickets
variable {i : Nat} {t u : Ticket} {l l₁ l₂ handed : List Ticket} {p : List Passage}

theorem mem_ofSchedule : t ∈ ofSchedule i l ↔ t ∈ l ∧ t.schedule = i := by
  simp [ofSchedule]

theorem ofSchedule_append : ofSchedule i (l₁ ++ l₂) = ofSchedule i l₁ ++ ofSchedule i l₂ :=
  List.filter_append ..

theorem ofSchedule_eq_nil (h : ∀ t ∈ l, t.schedule ≠ i) : ofSchedule i l = [] :=
  List.filter_eq_nil_iff.2 fun t ht => by simpa using h t ht

theorem ofSchedule_pairwise (h : l.Pairwise Earlier) :
    (ofSchedule i l).Pairwise fun t u => t.number < u.number := by
  refine (h.sublist List.filter_sublist).imp_of_mem fun ht hu htu => htu ?_
  rw [(mem_ofSchedule.1 ht).2, (mem_ofSchedule.1 hu).2]

/-! ### The line -/

/-- What is processed and what stands in line, of all that was handed off. -/
structure Lined (p : List Passage) (l handed : List Ticket) : Prop where
  kept : (p.map Passage.ticket ++ l).Perm handed
  captured : handed.Pairwise Earlier
  line : l.Pairwise Earlier
  passed : p.Pairwise fun e f => e.ticket ∉ f.left ∧ Ahead e f.ticket
  ahead : ∀ e ∈ p, ∀ t ∈ l, Ahead e t
  left : ∀ e ∈ p, ∀ t ∈ e.left,
    t ∈ handed ∧ t.schedule = e.ticket.schedule ∧ t.number < e.ticket.number

theorem Lined.mem_handed_of_passed (h : Lined p l handed) {e : Passage} (he : e ∈ p) : e.ticket ∈ handed :=
  h.kept.subset (List.mem_append_left _ (List.mem_map_of_mem he))

theorem Lined.mem_handed_of_line (h : Lined p l handed) (ht : t ∈ l) : t ∈ handed :=
  h.kept.subset (List.mem_append_right _ ht)

theorem Earlier.ne (h : Earlier t u) : t ≠ u := by
  rintro rfl
  exact absurd (h rfl) (Nat.lt_irrefl _)

theorem Lined.nodup (h : Lined p l handed) : (p.map Passage.ticket ++ l).Nodup :=
  h.kept.nodup_iff.2 (h.captured.imp Earlier.ne)

/-- A new snapshot takes its place behind all of its schedule. -/
theorem Lined.add (h : Lined p (l₁ ++ l₂) handed) (new : ∀ u ∈ handed, Earlier u t)
    (free : ∀ u ∈ l₂, u.schedule ≠ t.schedule) : Lined p (l₁ ++ t :: l₂) (handed ++ [t]) where
  kept := by
    have middle : (p.map Passage.ticket ++ (l₁ ++ t :: l₂)).Perm
        (p.map Passage.ticket ++ (l₁ ++ l₂) ++ [t]) := by
      rw [List.append_assoc]
      refine List.Perm.append_left _ (List.perm_middle.trans ?_)
      exact (List.perm_append_singleton t (l₁ ++ l₂)).symm
    exact middle.trans (h.kept.append_right _)
  captured := by
    refine List.pairwise_append.2 ⟨h.captured, List.pairwise_singleton _ _, fun u hu v hv => ?_⟩
    obtain rfl := List.mem_singleton.1 hv
    exact new u hu
  line := by
    obtain ⟨hl₁, hl₂, hl⟩ := List.pairwise_append.1 h.line
    refine List.pairwise_append.2 ⟨hl₁, List.pairwise_cons.2 ⟨?_, hl₂⟩, fun u hu v hv => ?_⟩
    · exact fun u hu same => absurd same.symm (free u hu)
    · rcases List.mem_cons.1 hv with rfl | hv
      · exact new u (h.mem_handed_of_line (List.mem_append_left _ hu))
      · exact hl u hu v hv
  passed := h.passed
  ahead e he u hu := by
    rcases List.mem_append.1 hu with hu | hu
    · exact h.ahead e he u (List.mem_append_left _ hu)
    rcases List.mem_cons.1 hu with rfl | hu
    · intro same
      have later := new e.ticket (h.mem_handed_of_passed he) same
      constructor
      · intro hlt
        omega
      · exact fun hleft => (h.left e he _ hleft).2.2
    · exact h.ahead e he u (List.mem_append_right _ hu)
  left e he u hu :=
    let ⟨handed, rest⟩ := h.left e he u hu
    ⟨List.mem_append_left _ handed, rest⟩

/-- A snapshot is processed from anywhere in the line. It leaves behind those of its schedule in front
of it. -/
theorem Lined.pass (h : Lined p (l₁ ++ t :: l₂) handed) (atOnce : Bool) :
    Lined (p ++ [⟨t, atOnce, ofSchedule t.schedule l₁⟩]) (l₁ ++ l₂) handed where
  kept := by
    refine List.Perm.trans ?_ h.kept
    rw [List.map_append, List.append_assoc]
    have front : (t :: (l₁ ++ l₂)).Perm (l₁ ++ t :: l₂) := List.perm_middle.symm
    exact front.append_left _
  captured := h.captured
  line := h.line.sublist ((List.sublist_cons_self t l₂).append_left l₁)
  passed := by
    refine List.pairwise_append.2 ⟨h.passed, List.pairwise_singleton _ _, fun e he f hf => ?_⟩
    obtain rfl := List.mem_singleton.1 hf
    refine ⟨fun hleft => ?_, h.ahead e he t (by simp)⟩
    have apart := List.disjoint_of_nodup_append h.nodup (List.mem_map_of_mem he)
    exact apart (List.mem_append_left _ (mem_ofSchedule.1 hleft).1)
  ahead e he u hu := by
    obtain ⟨-, hl₂, front⟩ := List.pairwise_append.1 h.line
    have behind := (List.pairwise_cons.1 hl₂).1
    rcases List.mem_append.1 he with he | he
    · refine h.ahead e he u ?_
      rcases List.mem_append.1 hu with hu | hu
      · exact List.mem_append_left _ hu
      · exact List.mem_append_right _ (List.mem_cons_of_mem _ hu)
    obtain rfl := List.mem_singleton.1 he
    intro same
    simp only [mem_ofSchedule]
    constructor
    · intro hlt
      rcases List.mem_append.1 hu with hu | hu
      · exact ⟨hu, same.symm⟩
      · exact absurd (behind u hu same) (Nat.lt_asymm hlt)
    · exact fun ⟨hu, _⟩ => front u hu t (List.mem_cons_self ..) same.symm
  left e he u hu := by
    rcases List.mem_append.1 he with he | he
    · exact h.left e he u hu
    obtain rfl := List.mem_singleton.1 he
    obtain ⟨hu, same⟩ := mem_ofSchedule.1 hu
    obtain ⟨-, -, front⟩ := List.pairwise_append.1 h.line
    exact ⟨h.mem_handed_of_line (List.mem_append_left _ hu), same,
      front u hu t (List.mem_cons_self ..) same⟩

theorem rel_or_rel_of_pairwise {α : Type} {R : α → α → Prop} {l : List α} {a b : α} (h : l.Pairwise R)
    (ha : a ∈ l) (hb : b ∈ l) (hne : a ≠ b) : R a b ∨ R b a := by
  have : Std.Symm (fun a b : α => R a b ∨ R b a) := ⟨fun _ _ => Or.symm⟩
  have either : l.Pairwise fun a b => R a b ∨ R b a := h.imp Or.inl
  exact either.forall ha hb hne

theorem eq_of_number_eq (h : l.Pairwise Earlier) (ht : t ∈ l) (hu : u ∈ l)
    (same : t.schedule = u.schedule) (number : t.number = u.number) : t = u := by
  by_contra hne
  rcases rel_or_rel_of_pairwise h ht hu hne with hlt | hlt
  · have := hlt same
    omega
  · have := hlt same.symm
    omega

/-- The snapshots of a schedule are processed in the order of their capture exactly if none of them
leaves another one behind. -/
theorem Lined.prefix_iff (h : Lined p l handed) (i : Nat) :
    ofSchedule i (p.map Passage.ticket) <+: ofSchedule i handed ↔
      ∀ e ∈ p, e.ticket.schedule = i → e.left = [] := by
  constructor
  · rintro ⟨rest, hrest⟩ e he rfl
    rw [List.eq_nil_iff_forall_not_mem]
    intro t ht
    obtain ⟨hhanded, same, hlt⟩ := h.left e he t ht
    have order := ofSchedule_pairwise (i := e.ticket.schedule) h.captured
    rw [← hrest] at order
    obtain ⟨sorted, -, across⟩ := List.pairwise_append.1 order
    have mine : e.ticket ∈ ofSchedule e.ticket.schedule (p.map Passage.ticket) :=
      mem_ofSchedule.2 ⟨List.mem_map_of_mem he, rfl⟩
    have both : t ∈ ofSchedule e.ticket.schedule (p.map Passage.ticket) ++ rest := by
      rw [hrest]
      exact mem_ofSchedule.2 ⟨hhanded, same⟩
    rcases List.mem_append.1 both with hp | hr
    · -- what is left behind would have to come first, but then it was not left behind
      obtain ⟨f, hf, rfl⟩ := List.mem_map.1 (mem_ofSchedule.1 hp).1
      rw [ofSchedule, List.pairwise_filter, List.pairwise_map] at sorted
      have hne : e ≠ f := by
        rintro rfl
        exact absurd hlt (Nat.lt_irrefl _)
      rcases rel_or_rel_of_pairwise (sorted.and h.passed) he hf hne with ⟨hef, -⟩ | ⟨-, hfe, -⟩
      · have := hef (by simp) (by simpa using same)
        omega
      · exact hfe ht
    · have := across _ mine t hr
      omega
  · -- nothing is left behind, so what is processed, with the line behind it, is sorted; and it is
    -- what was handed off in another order, which is sorted too
    intro none
    have behind {e : Passage} {t : Ticket} (he : e ∈ p) (ahead : Ahead e t)
        (hi : (e.ticket.schedule == i) = true) (ht : (t.schedule == i) = true) :
        e.ticket.number ≤ t.number := by
      rw [beq_iff_eq] at hi ht
      by_contra hlt
      have hleft := (ahead (hi.trans ht.symm)).1 (by omega)
      rw [none e he hi] at hleft
      cases hleft
    have sorted : (ofSchedule i (p.map Passage.ticket ++ l)).Pairwise fun t u => t.number ≤ u.number := by
      rw [ofSchedule, List.pairwise_filter, List.pairwise_append, List.pairwise_map]
      refine ⟨?_, ?_, ?_⟩
      · exact h.passed.imp_of_mem fun he _ hef hi ht => behind he hef.2 hi ht
      · refine h.line.imp fun htu hi hu => ?_
        rw [beq_iff_eq] at hi hu
        exact Nat.le_of_lt (htu (hi.trans hu.symm))
      · intro t ht u hu hi hui
        obtain ⟨e, he, rfl⟩ := List.mem_map.1 ht
        exact behind he (h.ahead e he u hu) hi hui
    have whole : ofSchedule i (p.map Passage.ticket ++ l) = ofSchedule i handed := by
      refine List.Perm.eq_of_pairwise ?_ sorted ((ofSchedule_pairwise h.captured).imp Nat.le_of_lt)
        (h.kept.filter _)
      intro t u ht hu htu hut
      obtain ⟨ht, hi⟩ := mem_ofSchedule.1 ht
      obtain ⟨hu, hui⟩ := mem_ofSchedule.1 hu
      exact eq_of_number_eq h.captured (h.kept.subset ht) hu (hi.trans hui.symm) (Nat.le_antisymm htu hut)
    exact ⟨ofSchedule i l, by rw [← ofSchedule_append, whole]⟩

end Tickets

/-! ### The threads -/

/-- What the threads work on, and the books of a run. -/
structure Threads where
  scheduler : Scheduler
  /-- All that was handed off. -/
  handed : List Ticket := []
  /-- What waits in the queue. -/
  waiting : List Ticket := []
  /-- What the draining thread has taken out of the queue. -/
  taken : Option Ticket := none
  /-- What schedules found no place for and have still to process. -/
  refused : List Ticket := []
  processed : List Passage := []

namespace Threads

/-- The next snapshot of a schedule. -/
def next (σ : Threads) (i : Nat) (x : Snapshot) : Ticket := ⟨i, (ofSchedule i σ.handed).length, x⟩

/-- Whether a schedule has nothing left to process and can capture again. -/
def IsFree (σ : Threads) (i : Nat) : Prop := ∀ t ∈ σ.refused, t.schedule ≠ i

/-- What the draining thread has still to process, first what it will process first. -/
def due (σ : Threads) : List Ticket := σ.taken.toList ++ σ.waiting

/-- All that has still to be processed. -/
def line (σ : Threads) : List Ticket := σ.due ++ σ.refused

/-- What one thread does before another may come in. A fault of the processing ends a thread; the others
may go on. -/
inductive Step : Threads → Threads → Prop
  | enqueue {σ : Threads} {i : Nat} {x : Snapshot} (free : σ.IsFree i) (named : x.metadata.isSome)
      (room : ¬ σ.scheduler.isFull) :
      Step σ { σ with
        scheduler := { σ.scheduler with queue := σ.scheduler.queue ++ [x] }
        handed := σ.handed ++ [σ.next i x]
        waiting := σ.waiting ++ [σ.next i x] }
  | refuse {σ : Threads} {i : Nat} {x : Snapshot} {m : Metadata} (free : σ.IsFree i)
      (hm : x.metadata = some m) (full : σ.scheduler.isFull) :
      Step σ { σ with
        scheduler := σ.scheduler.refuse m.capturer
        handed := σ.handed ++ [σ.next i x]
        refused := σ.refused ++ [σ.next i x] }
  | processRefused {σ : Threads} {t : Ticket} {before after : List Ticket}
      (held : σ.refused = before ++ t :: after) :
      Step σ { σ with
        scheduler := (σ.scheduler.process t.snapshot).1
        refused := before ++ after
        processed := σ.processed ++ [⟨t, true, ofSchedule t.schedule σ.due⟩] }
  | take {σ : Threads} {t : Ticket} {rest : List Ticket} (idle : σ.taken = none)
      (first : σ.waiting = t :: rest) :
      Step σ { σ with
        scheduler := { σ.scheduler with queue := σ.scheduler.queue.tail }
        waiting := rest
        taken := some t }
  | processTaken {σ : Threads} {t : Ticket} (held : σ.taken = some t) :
      Step σ { σ with
        scheduler := (σ.scheduler.process t.snapshot).1
        taken := none
        processed := σ.processed ++ [⟨t, false, []⟩] }
  /-- Anything that leaves the queue and the sinks alone, a capture for instance. -/
  | meanwhile {σ : Threads} {s : Scheduler} (quiet : Offers [] σ.scheduler s) :
      Step σ { σ with scheduler := s }

/-- The states that any order of steps leads to. -/
def Reaches (start : Scheduler) (σ : Threads) : Prop :=
  Relation.ReflTransGen Step { scheduler := start } σ

/-- The processed snapshots of a schedule are its first captures, in their order. -/
def InCaptureOrder (σ : Threads) (i : Nat) : Prop :=
  ofSchedule i (σ.processed.map Passage.ticket) <+: ofSchedule i σ.handed

/-! ### The invariant -/

/-- What every step keeps up. -/
structure Valid (start : Scheduler) (σ : Threads) : Prop where
  lined : Lined σ.processed σ.line σ.handed
  numbers : ∀ i, (ofSchedule i σ.handed).map Ticket.number = List.range (ofSchedule i σ.handed).length
  named : ∀ t ∈ σ.handed, t.snapshot.metadata.isSome
  /-- A schedule holds one snapshot at most. -/
  alone : σ.refused.Pairwise fun t u => t.schedule ≠ u.schedule
  drained : ∀ e ∈ σ.processed, e.atOnce = false → e.left = []
  queue : σ.scheduler.queue = σ.waiting.map Ticket.snapshot
  sinks : σ.scheduler.sinks = start.sinks
  offered : Emits Event.offer? start.host σ.scheduler.host
    (σ.processed.flatMap fun e => start.sinks.map (·, e.ticket.snapshot))

variable {start s : Scheduler} {σ σ' : Threads} {i : Nat} {x : Snapshot} {t : Ticket}

theorem Valid.initial (empty : start.queue = []) : Valid start { scheduler := start } where
  lined := ⟨.refl _, .nil, .nil, .nil, by simp, by simp⟩
  numbers i := rfl
  named := by simp
  alone := .nil
  drained := by simp
  queue := empty
  sinks := rfl
  offered := .refl

theorem Valid.earlier_next (h : σ.Valid start) : ∀ u ∈ σ.handed, Earlier u (σ.next i x) := by
  intro u hu same
  have mine : u.number ∈ (ofSchedule i σ.handed).map Ticket.number :=
    List.mem_map_of_mem (mem_ofSchedule.2 ⟨hu, same⟩)
  rw [h.numbers i] at mine
  exact List.mem_range.1 mine

theorem Valid.numbers_next (h : σ.Valid start) (j : Nat) :
    (ofSchedule j (σ.handed ++ [σ.next i x])).map Ticket.number =
      List.range (ofSchedule j (σ.handed ++ [σ.next i x])).length := by
  rw [ofSchedule_append]
  by_cases hj : i = j
  · subst hj
    have own : ofSchedule i [σ.next i x] = [σ.next i x] := by simp [ofSchedule, next]
    rw [own, List.map_append, List.length_append, h.numbers, List.length_singleton, List.range_succ]
    rfl
  · have other : ofSchedule j [σ.next i x] = [] := by simp [ofSchedule, next, hj]
    rw [other, List.append_nil, h.numbers]

theorem Valid.named_next (h : σ.Valid start) (named : x.metadata.isSome) :
    ∀ t ∈ σ.handed ++ [σ.next i x], t.snapshot.metadata.isSome := by
  intro t ht
  rcases List.mem_append.1 ht with ht | ht
  · exact h.named t ht
  · rw [List.mem_singleton.1 ht]
    exact named

theorem Valid.enqueue (h : σ.Valid start) (free : σ.IsFree i) (named : x.metadata.isSome) :
    Valid start { σ with
      scheduler := { σ.scheduler with queue := σ.scheduler.queue ++ [x] }
      handed := σ.handed ++ [σ.next i x]
      waiting := σ.waiting ++ [σ.next i x] } where
  lined := by
    have added := h.lined.add (t := σ.next i x) h.earlier_next free
    have line : σ.due ++ σ.next i x :: σ.refused =
        σ.taken.toList ++ (σ.waiting ++ [σ.next i x]) ++ σ.refused := by simp [due]
    rwa [line] at added
  numbers := h.numbers_next
  named := h.named_next named
  alone := h.alone
  drained := h.drained
  queue := by
    rw [h.queue, List.map_append]
    rfl
  sinks := h.sinks
  offered := h.offered

theorem Valid.refuse {m : Metadata} (h : σ.Valid start) (free : σ.IsFree i) (hm : x.metadata = some m) :
    Valid start { σ with
      scheduler := σ.scheduler.refuse m.capturer
      handed := σ.handed ++ [σ.next i x]
      refused := σ.refused ++ [σ.next i x] } where
  lined := by
    have lined := h.lined
    rw [← List.append_nil σ.line] at lined
    have added := lined.add (t := σ.next i x) h.earlier_next (by simp)
    rwa [line, List.append_assoc] at added
  numbers := h.numbers_next
  named := h.named_next (by simp [hm])
  alone := by
    refine List.pairwise_append.2 ⟨h.alone, List.pairwise_singleton _ _, fun t ht u hu => ?_⟩
    rw [List.mem_singleton.1 hu]
    exact free t ht
  drained := h.drained
  queue := h.queue
  sinks := h.sinks
  offered := by
    have noted : Emits Event.offer? σ.scheduler.host (σ.scheduler.refuse m.capturer).host [] :=
      emits_record_none rfl
    have := h.offered.trans noted
    rwa [List.append_nil] at this

theorem Valid.emits {e : Passage} (h : σ.Valid start) (passes : Passes e.ticket.snapshot σ.scheduler s) :
    Emits Event.offer? start.host s.host
      ((σ.processed ++ [e]).flatMap fun e => start.sinks.map (·, e.ticket.snapshot)) := by
  have := h.offered.trans (h.sinks ▸ passes.host)
  simpa using this

theorem Valid.passes (h : σ.Valid start) (ht : t ∈ σ.line) :
    Passes t.snapshot σ.scheduler (σ.scheduler.process t.snapshot).1 := by
  obtain ⟨m, hm⟩ := Option.isSome_iff_exists.1 (h.named t (h.lined.mem_handed_of_line ht))
  exact process_passes hm

theorem Valid.drained_concat {e : Passage} (h : σ.Valid start) (he : e.atOnce = false → e.left = []) :
    ∀ f ∈ σ.processed ++ [e], f.atOnce = false → f.left = [] := by
  intro f hf
  rcases List.mem_append.1 hf with hf | hf
  · exact h.drained f hf
  · rw [List.mem_singleton.1 hf]
    exact he

theorem Valid.processRefused {before after : List Ticket} (h : σ.Valid start)
    (held : σ.refused = before ++ t :: after) :
    Valid start { σ with
      scheduler := (σ.scheduler.process t.snapshot).1
      refused := before ++ after
      processed := σ.processed ++ [⟨t, true, ofSchedule t.schedule σ.due⟩] } := by
  have passes := h.passes (t := t) (by simp [line, held])
  have alone := h.alone
  rw [held] at alone
  refine ⟨?_, h.numbers, h.named, ?_, h.drained_concat (by simp), ?_, ?_, h.emits passes⟩
  · have lined := h.lined
    rw [line, held, ← List.append_assoc] at lined
    have passed := lined.pass true
    -- of its schedule only what the draining thread holds or has in the queue is in front
    have others : ofSchedule t.schedule before = [] :=
      ofSchedule_eq_nil fun u hu => (List.pairwise_append.1 alone).2.2 u hu t (List.mem_cons_self ..)
    rw [ofSchedule_append, others, List.append_nil, List.append_assoc] at passed
    exact passed
  · exact alone.sublist ((List.sublist_cons_self t after).append_left before)
  · exact passes.queue.trans h.queue
  · exact passes.sinks.trans h.sinks

theorem Valid.take {rest : List Ticket} (h : σ.Valid start) (idle : σ.taken = none)
    (first : σ.waiting = t :: rest) :
    Valid start { σ with
      scheduler := { σ.scheduler with queue := σ.scheduler.queue.tail }
      waiting := rest
      taken := some t } where
  lined := by
    have lined := h.lined
    rw [line, due, idle, first] at lined
    exact lined
  numbers := h.numbers
  named := h.named
  alone := h.alone
  drained := h.drained
  queue := by
    rw [h.queue, first]
    rfl
  sinks := h.sinks
  offered := h.offered

theorem Valid.processTaken (h : σ.Valid start) (held : σ.taken = some t) :
    Valid start { σ with
      scheduler := (σ.scheduler.process t.snapshot).1
      taken := none
      processed := σ.processed ++ [⟨t, false, []⟩] } := by
  have passes := h.passes (t := t) (by simp [line, due, held])
  refine ⟨?_, h.numbers, h.named, h.alone, h.drained_concat fun _ => rfl, ?_, ?_, h.emits passes⟩
  · have lined := h.lined
    rw [line, due, held] at lined
    have atFront : Lined σ.processed ([] ++ t :: _) _ := lined
    exact atFront.pass false
  · exact passes.queue.trans h.queue
  · exact passes.sinks.trans h.sinks

theorem Valid.meanwhile (h : σ.Valid start) (quiet : Offers [] σ.scheduler s) :
    Valid start { σ with scheduler := s } where
  lined := h.lined
  numbers := h.numbers
  named := h.named
  alone := h.alone
  drained := h.drained
  queue := quiet.queue.trans h.queue
  sinks := quiet.sinks.trans h.sinks
  offered := by
    have := h.offered.trans quiet.host
    rwa [List.append_nil] at this

theorem Valid.step (h : σ.Valid start) (step : Step σ σ') : σ'.Valid start := by
  cases step with
  | enqueue free named _ => exact h.enqueue free named
  | refuse free hm _ => exact h.refuse free hm
  | processRefused held => exact h.processRefused held
  | take idle first => exact h.take idle first
  | processTaken held => exact h.processTaken held
  | meanwhile quiet => exact h.meanwhile quiet

theorem Reaches.valid (empty : start.queue = []) (reaches : Reaches start σ) : σ.Valid start := by
  induction reaches with
  | refl => exact .initial empty
  | tail _ step ih => exact ih.step step

/-! ### Steps and moves -/

theorem Reaches.handOff {m : Metadata} (reaches : Reaches start σ) (free : σ.IsFree i)
    (hm : x.metadata = some m) : ∃ σ', Reaches start σ' ∧
      σ'.scheduler = (σ.scheduler.handOff x).1 ∧ σ'.handed = σ.handed ++ [σ.next i x] := by
  by_cases full : σ.scheduler.isFull
  · have refused := reaches.tail (.refuse free hm full)
    refine ⟨_, refused.tail (.processRefused rfl), ?_, rfl⟩
    rw [handOff_of_full full hm]
    rfl
  · refine ⟨_, reaches.tail (.enqueue free (by simp [hm]) full), ?_, rfl⟩
    rw [handOff_of_room full]

theorem Reaches.drainOne (empty : start.queue = []) (reaches : Reaches start σ) (idle : σ.taken = none) :
    ∃ σ', Reaches start σ' ∧ σ'.scheduler = σ.scheduler.drainOne.1 ∧ σ'.taken = none ∧
      σ'.waiting = σ.waiting.tail := by
  have queue := (reaches.valid empty).queue
  rcases first : σ.waiting with _ | ⟨t, rest⟩
  · rw [first] at queue
    refine ⟨σ, reaches, ?_, idle, first⟩
    rw [Scheduler.drainOne, queue]
    rfl
  · rw [first] at queue
    have taken := reaches.tail (.take idle first)
    refine ⟨_, taken.tail (.processTaken rfl), ?_, rfl, rfl⟩
    rw [drainOne_of_cons queue, queue]
    rfl

/-! ### The order -/

/-- The order in which snapshots are processed, on the way from a new scheduler. -/
structure OrderLaw (start : Scheduler) (σ : Threads) : Prop where
  queue : σ.scheduler.queue = σ.waiting.map Ticket.snapshot
  offered : Emits Event.offer? start.host σ.scheduler.host
    (σ.processed.flatMap fun e => start.sinks.map (·, e.ticket.snapshot))
  kept : (σ.processed.map Passage.ticket ++ σ.line).Perm σ.handed
  numbers : ∀ i, (ofSchedule i σ.handed).map Ticket.number = List.range (ofSchedule i σ.handed).length
  /-- The draining thread leaves nothing behind. -/
  drained : ∀ e ∈ σ.processed, e.atOnce = false → e.left = []
  /-- Of a schedule, what is processed later is of an earlier capture only if it was left behind. -/
  overtaken : σ.processed.Pairwise fun e f => Ahead e f.ticket
  /-- The same holds of what has still to be processed. -/
  due : ∀ e ∈ σ.processed, ∀ t ∈ σ.line, Ahead e t
  inOrder_iff : ∀ i, σ.InCaptureOrder i ↔ ∀ e ∈ σ.processed, e.ticket.schedule = i → e.left = []

/-- However the threads take turns, the snapshots of a schedule are processed in the order of their
capture, but for those for which the queue had no place: they overtake what then waits of their
schedule. -/
theorem Reaches.orderLaw {capacity : Int} (isNew : IsNew capacity start) (reaches : Reaches start σ) :
    OrderLaw start σ := by
  have valid := reaches.valid isNew.queue
  exact ⟨valid.queue, valid.offered, valid.lined.kept, valid.numbers, valid.drained,
    valid.lined.passed.imp And.right, valid.lined.ahead, valid.lined.prefix_iff⟩

/-- Two captures of one schedule, and the one place of the queue is taken by the first. -/
theorem reaches_overtaking : ∃ σ, Reaches narrow σ ∧ σ.line = [] ∧
    σ.handed = [⟨0, 0, { summary := "first" }⟩, ⟨0, 1, { summary := "second" }⟩] ∧
    σ.processed = [⟨⟨0, 1, { summary := "second" }⟩, true, [⟨0, 0, { summary := "first" }⟩]⟩,
      ⟨⟨0, 0, { summary := "first" }⟩, false, []⟩] := by
  have first := Relation.ReflTransGen.refl.tail
    (Step.enqueue (σ := { scheduler := narrow }) (i := 0) (x := { summary := "first" }) (by simp [IsFree])
      rfl (by decide))
  have second := first.tail (.refuse (i := 0) (x := { summary := "second" }) (by simp [IsFree]) rfl rfl)
  have done := ((second.tail (.processRefused rfl)).tail (.take rfl rfl)).tail (.processTaken rfl)
  exact ⟨_, done, rfl, rfl, rfl⟩

/-- The second snapshot overtakes the first; of other schedules nothing is out of order. -/
theorem Reaches.orderLaw_overtaking : ∃ σ, IsNew 1 narrow ∧ Reaches narrow σ ∧ σ.line = [] ∧
    ¬ σ.InCaptureOrder 0 ∧ σ.InCaptureOrder 1 := by
  obtain ⟨σ, reaches, done, -, processed⟩ := reaches_overtaking
  have isNew : IsNew 1 narrow := ⟨rfl, rfl, rfl, rfl⟩
  have law := reaches.orderLaw isNew
  refine ⟨σ, isNew, reaches, done, ?_, ?_⟩
  · rw [law.inOrder_iff, processed]
    simp
  · rw [law.inOrder_iff, processed]
    simp

/-- So it is not true that every schedule's snapshots are processed in the order of their capture. -/
theorem not_forall_inCaptureOrder : ¬ ∀ (capacity : Int) (start : Scheduler) (σ : Threads),
    IsNew capacity start → Reaches start σ → ∀ i, σ.InCaptureOrder i := by
  intro always
  obtain ⟨σ, reaches, -, handed, processed⟩ := reaches_overtaking
  have order := always 1 narrow σ ⟨rfl, rfl, rfl, rfl⟩ reaches 0
  rw [InCaptureOrder, handed, processed] at order
  have numbers := order.map Ticket.number
  exact absurd numbers (by decide)

end Threads

end HostWatch.Scheduler
