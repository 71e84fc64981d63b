import HostWatch.Proofs.Scheduler.Wiring
import HostWatch.Scheduler.Capturing

/-!
# Closing

To close a scheduler is to close its sinks and then its responders, one call after the other
(`Scheduler.Closes`). Every registration brings what it registers to the things that are to be closed
(`Scheduler.targets_register`), wherever the responders are kept: the plain ones and those of a router are
gone through apart from each other, and a router that took over the plain ones has none of its own. Only a
second router in front of the first would leave some behind. So whatever is registered is closed once
(`Scheduler.close_closingLaw`).
-/

namespace HostWatch

namespace Pipeline
variable {p : Pipeline} {r : Router}

theorem allResponders_eq (p : Pipeline) :
    p.allResponders = p.responders.getD [] ++ (p.router.map Router.own).getD [] := by
  unfold allResponders
  rcases p.router with _ | ⟨policy, _ | responders | _, hook⟩ <;> rfl

theorem allResponders_addResponder (p : Pipeline) (x : Responder) :
    (p.addResponder x).allResponders = p.allResponders ++ [x] := by
  rw [allResponders_eq, allResponders_eq]
  rcases router : p.router with _ | r
  · obtain ⟨none, plain⟩ := addResponder_of_no_router (x := x) router
    rw [none, plain]
    simp
  · obtain ⟨r', router', own, plain⟩ := addResponder_of_router (x := x) router
    rw [router', plain]
    cases shared : r.isShared with
    | false => simp [own, shared]
    | true =>
      have empty : r.own = [] := by
        cases target : r.target <;> simp_all [Router.own, Router.isShared]
      simp [own, shared, empty]

theorem allResponders_setRouter (bare : p.router = none) (r : Router) :
    (p.setRouter r).allResponders = p.allResponders ++ r.own := by
  obtain ⟨r', router, own, plain⟩ := setRouter_router p r
  rw [allResponders_eq, allResponders_eq, router, plain, bare]
  simp [own]

end Pipeline

/-- What can be registered and may hold something open. -/
inductive Holder
  | sink (k : Sink)
  | responder (r : Responder)

namespace Holder

def name : Holder → String
  | sink k => k.name
  | responder r => r.name?.getD ""

/-- The call that closes a holder. -/
def close : Holder → Host → Host × Option Fault
  | sink k => k.close
  | responder r => r.close

def isSink : Holder → Bool
  | sink _ => true
  | responder _ => false

/-- The part of the surrounding program that a holder is. -/
def party? : Holder → Option Party
  | sink (.external p) | responder (.external p) => some p
  | _ => none

/-- The record file that a holder writes. -/
def file? : Holder → Option RecordFile
  | sink (.file f) | responder (.file f) => some f
  | _ => none

/-- What the surrounding program answers to being closed, if it can be closed. -/
def closing? (x : Holder) : Option (Option Fault) := x.party?.bind Party.closing

/-- Record files can be closed, and those parts of the surrounding program that say so. -/
def isClosable (x : Holder) : Bool := x.file?.isSome || x.closing?.isSome

/-- Closing returns or fails with a fault of the system. -/
def IsForgiving (x : Holder) : Prop := ∀ f, x.closing? = some (some f) → f.isSystem

/-- What is seen of the call that closes a holder, and of its failure. -/
def traces (x : Holder) : List Event :=
  match x.party?, x.closing? with
  | some p, some answer => .closed p :: (answer.map fun f => .noted (.closeFailed x.name f)).toList
  | _, _ => []

end Holder

/-- A host after some holders have been closed. -/
def Host.withClosed (h : Host) (closed : List Holder) : Host :=
  { h with
    files := { h.files with
      handles := h.files.handles.filter fun e => !((closed.filterMap Holder.file?).map RecordFile.slot).contains e.1 }
    journal := (closed.flatMap Holder.traces).reverse ++ h.journal }

namespace Scheduler

/-- Holders are closed one after the other, each by one call. What goes wrong is noted. -/
inductive Closes : List Holder → Scheduler → Scheduler → Prop
  | nil {s : Scheduler} : Closes [] s s
  | closed {x : Holder} {rest : List Holder} {s s' : Scheduler} {h : Host} (call : x.close s.host = (h, none))
      (later : Closes rest { s with host := h } s') : Closes (x :: rest) s s'
  | failed {x : Holder} {rest : List Holder} {s s' : Scheduler} {h : Host} {f : Fault}
      (call : x.close s.host = (h, some f)) (system : f.isSystem)
      (later : Closes rest ({ s with host := h }.note (.closeFailed x.name f)) s') : Closes (x :: rest) s s'

/-- A call that makes something known to a scheduler. -/
inductive Registration
  | sink (k : Sink)
  | responder (r : Responder)
  | router (r : Router)

namespace Registration

/-- What a call registers; a router comes with the responders it has. -/
def holders : Registration → List Holder
  | sink k => [.sink k]
  | responder r => [.responder r]
  | router r => r.own.map .responder

def isRouter : Registration → Bool
  | router _ => true
  | _ => false

end Registration

def register (s : Scheduler) : Registration → Scheduler
  | .sink k => s.addSink k
  | .responder r => s.addResponder r
  | .router r => s.setRouter r

/-- What a scheduler without a router knows from the start. -/
def held (s : Scheduler) : List Holder :=
  s.sinks.map .sink ++ (s.pipeline.responders.getD []).map .responder

/-- What closing goes through. -/
def targets (s : Scheduler) : List Holder :=
  s.sinks.map .sink ++ s.pipeline.allResponders.map .responder

/-- What closing a scheduler does that knows the registered holders. -/
structure ClosingLaw (s : Scheduler) (registered called : List Holder) : Prop where
  returns : s.close.2 = none
  calls : Closes called s s.close.1
  /-- For each registration of something that can be closed there is one call. -/
  each : called.Perm (registered.filter Holder.isClosable)
  once : registered.Nodup → called.Nodup ∧ ∀ x, x ∈ called ↔ x ∈ registered ∧ x.isClosable
  sinksFirst : ∃ sinks responders, called = sinks ++ responders ∧ (∀ x ∈ sinks, x.isSink) ∧
    ∀ x ∈ responders, x.isSink = false
  /-- Nothing else is changed than that record files are no longer open and calls and failures are seen. -/
  leaves : s.close.1 = { s with host := s.host.withClosed called }

/-! ### One call -/

section Call
variable {x : Holder} {p : Party} {f : RecordFile} {s s' : Scheduler} {h h' : Host} {fault : Fault}

theorem close_of_party (is : x.party? = some p) (h : Host) : x.file? = none ∧ x.closing? = p.closing ∧
    x.close h = match p.closing with
      | some answer => (h.record (.closed p), answer)
      | none => (h, none) := by
  rcases x with (q | q) | (q | _ | q | _ | _ | _) <;> cases is <;> exact ⟨rfl, rfl, rfl⟩

theorem close_of_file (is : x.file? = some f) (h : Host) : x.party? = none ∧ x.close h = (f.close h, none) := by
  rcases x with (q | q) | (q | _ | q | _ | _ | _) <;> cases is <;> exact ⟨rfl, rfl⟩

theorem close_of_neither (noParty : x.party? = none) (noFile : x.file? = none) (h : Host) :
    x.close h = (h, none) := by
  rcases x with (q | q) | (q | _ | q | _ | _ | _)
  · cases noParty
  · cases noFile
  · cases noParty
  · rfl
  · cases noFile
  · rfl
  · rfl
  · rfl

theorem close_of_not_isClosable (not : x.isClosable = false) (h : Host) : x.close h = (h, none) := by
  simp only [Holder.isClosable, Bool.or_eq_false_iff, Option.isSome_eq_false_iff, Option.isNone_iff_eq_none] at not
  obtain ⟨noFile, unclosed⟩ := not
  rcases party : x.party? with _ | p
  · exact close_of_neither party noFile h
  · obtain ⟨-, closing, call⟩ := close_of_party party h
    rw [call, ← closing, unclosed]

theorem withClosed_nil (h : Host) : h.withClosed [] = h := by
  simp [Host.withClosed]

theorem withClosed_append (h : Host) (xs ys : List Holder) :
    (h.withClosed xs).withClosed ys = h.withClosed (xs ++ ys) := by
  simp only [Host.withClosed, List.filter_filter, List.filterMap_append, List.map_append, List.flatMap_append,
    List.reverse_append, List.append_assoc, List.contains_append, Bool.not_or, Bool.and_comm]

theorem withClosed_of_party (is : x.party? = some p) :
    h.withClosed [x] = { h with journal := x.traces.reverse ++ h.journal } := by
  obtain ⟨noFile, -⟩ := close_of_party is h
  simp [Host.withClosed, noFile]

theorem withClosed_of_file (is : x.file? = some f) : h.withClosed [x] = f.close h := by
  obtain ⟨noParty, -⟩ := close_of_file is h
  have silent : x.traces = [] := by rw [Holder.traces, noParty]
  simp [Host.withClosed, is, silent, RecordFile.close, Files.closeSlot, bne]
  rfl

/-- A call is seen and may close a record file, and its failure is noted. -/
theorem withClosed_of_close {answer : Option Fault} (call : x.close h = (h', answer)) :
    h.withClosed [x] = (answer.map fun f => h'.note (.closeFailed x.name f)).getD h' := by
  rcases file : x.file? with _ | f
  · rcases party : x.party? with _ | p
    · obtain ⟨rfl, rfl⟩ := Prod.mk.inj ((close_of_neither party file h).symm.trans call)
      simp [Host.withClosed, file, Holder.traces, party]
    · obtain ⟨-, closing, called⟩ := close_of_party party h
      rw [withClosed_of_party party, Holder.traces, party, closing]
      rw [called] at call
      rcases own : p.closing with _ | _ | f <;> rw [own] at call <;> cases call <;> rfl
  · obtain ⟨-, called⟩ := close_of_file file h
    obtain ⟨rfl, rfl⟩ := Prod.mk.inj (called.symm.trans call)
    exact withClosed_of_file file

theorem IsForgiving.close (forgiving : x.IsForgiving) (call : x.close h = (h', some f')) : f'.isSystem := by
  rcases file : x.file? with _ | f
  · rcases party : x.party? with _ | p
    · rw [close_of_neither party file h] at call
      cases call
    · obtain ⟨-, closing, called⟩ := close_of_party party h
      rw [called] at call
      rcases own : p.closing with _ | answer
      · rw [own] at call
        cases call
      · rw [own] at call
        cases call
        exact forgiving _ (closing.trans own)
  · rw [(close_of_file file h).2] at call
    cases call

end Call

/-! ### All calls -/

theorem Closes.leaves {called : List Holder} {s s' : Scheduler} (h : Closes called s s') :
    s' = { s with host := s.host.withClosed called } := by
  induction h with
  | @nil s => rw [withClosed_nil]
  | @closed x rest s s' h call _ ih =>
    have one := withClosed_of_close call
    rw [ih, ← List.singleton_append, ← withClosed_append, one]
    rfl
  | @failed x rest s s' h f call _ _ ih =>
    have one := withClosed_of_close call
    rw [ih, ← List.singleton_append, ← withClosed_append, one]
    rfl

/-- Holders that cannot be closed are passed over. -/
theorem closeEach_closes (holders : List Holder) (forgiving : ∀ x ∈ holders, x.IsForgiving) (s : Scheduler) :
    ∃ s', closeEach (holders.map fun x => (x.name, x.close)) s = (s', none) ∧
      Closes (holders.filter Holder.isClosable) s s' := by
  induction holders generalizing s with
  | nil => exact ⟨s, rfl, .nil⟩
  | cons x rest ih =>
    obtain ⟨first, forgiving⟩ := List.forall_mem_cons.1 forgiving
    rcases call : x.close s.host with ⟨h, _ | f⟩
    · obtain ⟨s', closed, closes⟩ := ih forgiving { s with host := h }
      refine ⟨s', by simpa only [List.map_cons, closeEach, call] using closed, ?_⟩
      cases closable : x.isClosable with
      | false =>
        obtain ⟨rfl, -⟩ := Prod.mk.inj ((close_of_not_isClosable closable s.host).symm.trans call)
        rwa [List.filter_cons_of_neg (by simp [closable])]
      | true =>
        rw [List.filter_cons_of_pos closable]
        exact .closed call closes
    · have system := IsForgiving.close first call
      obtain ⟨s', closed, closes⟩ := ih forgiving ({ s with host := h }.note (.closeFailed x.name f))
      refine ⟨s', by simpa only [List.map_cons, closeEach, call, system, if_true] using closed, ?_⟩
      have closable : x.isClosable := by
        by_contra not
        rw [close_of_not_isClosable (by simpa using not)] at call
        cases call
      rw [List.filter_cons_of_pos closable]
      exact .failed call system closes

theorem close_eq (s : Scheduler) : s.close = closeEach (s.targets.map fun x => (x.name, x.close)) s := by
  unfold close targets
  rw [List.map_append, List.map_map, List.map_map]
  rfl

/-! ### Registration -/

section Registration
variable {s : Scheduler} {calls : List Registration}

theorem targets_of_no_router (bare : s.pipeline.router = none) : s.targets = s.held := by
  rw [targets, held, Pipeline.allResponders_eq, bare]
  simp

theorem targets_register (c : Registration) (free : c.isRouter → s.pipeline.router = none) :
    (s.register c).targets.Perm (s.targets ++ c.holders) := by
  cases c with
  | sink k =>
    show ((s.sinks ++ [k]).map Holder.sink ++ s.pipeline.allResponders.map Holder.responder).Perm _
    rw [List.map_append, List.append_assoc, targets, List.append_assoc, List.perm_append_left_iff]
    exact List.perm_append_comm
  | responder r =>
    show (s.sinks.map Holder.sink ++ (s.pipeline.addResponder r).allResponders.map Holder.responder).Perm _
    rw [Pipeline.allResponders_addResponder, List.map_append, ← List.append_assoc]
    exact .refl _
  | router r =>
    show (s.sinks.map Holder.sink ++ (s.pipeline.setRouter r).allResponders.map Holder.responder).Perm _
    rw [Pipeline.allResponders_setRouter (free rfl), List.map_append, ← List.append_assoc]
    exact .refl _

theorem register_router (c : Registration) (other : c.isRouter = false) (bare : s.pipeline.router = none) :
    (s.register c).pipeline.router = none := by
  cases c with
  | sink k => exact bare
  | responder r => exact (Pipeline.addResponder_of_no_router bare).1
  | router r => cases other

/-- Nothing is left behind as long as no router comes in front of another one. -/
theorem targets_foldl_register (single : calls.countP Registration.isRouter ≤ 1)
    (free : calls.countP Registration.isRouter = 0 ∨ s.pipeline.router = none) :
    (calls.foldl register s).targets.Perm (s.targets ++ calls.flatMap Registration.holders) := by
  induction calls generalizing s with
  | nil => simp
  | cons c rest ih =>
    rw [List.foldl_cons, List.flatMap_cons, ← List.append_assoc]
    rw [List.countP_cons] at single free
    cases router : c.isRouter with
    | false =>
      simp only [router, Bool.false_eq_true, if_false, Nat.add_zero] at single free
      have one := targets_register (s := s) c (by simp [router])
      have later := ih single (free.imp_right (register_router c router))
      exact later.trans (one.append_right _)
    | true =>
      simp only [router, if_true] at single free
      have bare : s.pipeline.router = none := free.resolve_left (Nat.succ_ne_zero _)
      have last : rest.countP Registration.isRouter = 0 := by omega
      exact (ih (by omega) (.inl last)).trans ((targets_register c fun _ => bare).append_right _)

end Registration

/-- Closing a scheduler closes everything that was registered with it, each thing once, sinks before
responders, and raises nothing. -/
theorem close_closingLaw {s : Scheduler} (bare : s.pipeline.router = none) (calls : List Registration)
    (single : calls.countP Registration.isRouter ≤ 1)
    (forgiving : ∀ x ∈ s.held ++ calls.flatMap Registration.holders, x.IsForgiving) :
    ∃ called, ClosingLaw (calls.foldl register s) (s.held ++ calls.flatMap Registration.holders) called := by
  have all := targets_foldl_register single (.inr bare)
  rw [targets_of_no_router bare] at all
  generalize calls.foldl register s = wired at all
  obtain ⟨s', closed, closes⟩ :=
    closeEach_closes wired.targets (fun x hx => forgiving x (all.mem_iff.1 hx)) wired
  rw [← close_eq] at closed
  refine ⟨wired.targets.filter Holder.isClosable, ?_, ?_, all.filter _, fun distinct => ⟨?_, ?_⟩, ?_, ?_⟩
  · rw [closed]
  · rw [closed]
    exact closes
  · exact (all.nodup_iff.2 distinct).filter _
  · intro x
    rw [List.mem_filter, all.mem_iff]
  · refine ⟨(wired.sinks.map .sink).filter Holder.isClosable,
      (wired.pipeline.allResponders.map .responder).filter Holder.isClosable, List.filter_append _ _, ?_, ?_⟩
    · simp +contextual [Holder.isSink]
    · simp +contextual [Holder.isSink]
  · rw [closed]
    exact closes.leaves

/-- A scheduler that has nothing to close. -/
def resting : Scheduler where
  schedules := []
  history := { limit := 500, correlation := { defaultInterval := .ok (.double 5) } }
  session := ""
  host := { now := .ofMicros 0 }

/-- A responder before a router that takes it over and one behind it, a sink that fails when it is closed, and one
that cannot be closed. -/
def registrations : List Registration := [
  .responder (.external { id := 0, name := "pager", answer := fun _ => none, closing := some none }),
  .router {},
  .sink (.external {
    id := 1, name := "archive", answer := fun _ => none
    closing := some (some (.external (.system .other) "disk full")) }),
  .responder (.file { location := Location.parse "alerts.jsonl", maxBytes := 1000, slot := 0 }),
  .sink (.external { id := 2, name := "screen", answer := fun _ => none })]

theorem close_closingLaw_registrations :
    let wired := registrations.foldl register resting
    let registered := resting.held ++ registrations.flatMap Registration.holders
    (resting.pipeline.router = none ∧ registrations.countP Registration.isRouter ≤ 1 ∧
      ∀ x ∈ registered, x.IsForgiving) ∧
    (∃ called, ClosingLaw wired registered called) ∧
    (wired.close.1.host.journal.events.filterMap fun
      | .closed p => some p.name
      | _ => none) = ["archive", "pager"] := by
  intro wired registered
  have forgiving : ∀ x ∈ registered, x.IsForgiving := by
    simp only [registered, resting, registrations, held, Registration.holders, List.map_nil, List.nil_append,
      List.flatMap_cons, List.flatMap_nil, Option.getD_none, Router.own, List.singleton_append, List.forall_mem_cons]
    refine ⟨?_, ?_, ?_, ?_, by simp⟩
    · rintro f ⟨⟩
    · rintro f ⟨⟩
      rfl
    · rintro f ⟨⟩
    · rintro f ⟨⟩
  have single : registrations.countP Registration.isRouter ≤ 1 := by decide
  exact ⟨⟨rfl, single, forgiving⟩, close_closingLaw rfl registrations single forgiving, by decide⟩

end Scheduler
end HostWatch
