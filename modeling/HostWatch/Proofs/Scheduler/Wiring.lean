import HostWatch.Proofs.Response.Kills
import HostWatch.Scheduler.Basic

/-!
# Where responders end up

Responders are added where alerts go at that time: to the plain ones, or behind the router in front.
Each of these places keeps what it gets (`Workbench.contents_wire`). A router without responders takes over
the plain ones (`Workbench.TakesOver`); once one is put in front that has its own, or finds no plain ones,
alerts go to another place. So a responder is told of alerts exactly if it was added to the place where they
go in the end (`Workbench.wire_wiringLaw`).
-/

namespace HostWatch

/-- The responders of the router itself. -/
def Router.own (r : Router) : List Responder :=
  match r.target with
  | .own responders => responders
  | _ => []

/-- Whether the router sends alerts to the plain responders. -/
def Router.isShared (r : Router) : Bool :=
  match r.target with
  | .shared => true
  | _ => false

namespace Pipeline
variable {p : Pipeline} {r : Router} {x : Responder}

theorem addResponder_of_router (h : p.router = some r) : ∃ r', (p.addResponder x).router = some r' ∧
    r'.own = r.own ++ (if r.isShared then [] else [x]) ∧
    (p.addResponder x).responders.getD [] = p.responders.getD [] ++ if r.isShared then [x] else [] := by
  unfold addResponder
  rw [h]
  cases target : r.target <;> simp [Router.own, Router.isShared, target]

theorem addResponder_of_no_router (h : p.router = none) : (p.addResponder x).router = none ∧
    (p.addResponder x).responders.getD [] = p.responders.getD [] ++ [x] := by
  unfold addResponder
  rw [h]
  exact ⟨rfl, rfl⟩

theorem setRouter_router (p : Pipeline) (r : Router) : ∃ r', (p.setRouter r).router = some r' ∧
    r'.own = r.own ∧ (p.setRouter r).responders = p.responders := by
  unfold setRouter
  split
  · rename_i none _
    exact ⟨_, rfl, by simp [Router.own, none], rfl⟩
  · exact ⟨_, rfl, rfl, rfl⟩

theorem addResponder_of_shared (h : p.router = some r) (shared : r.isShared) :
    p.addResponder x = { p with responders := some (p.responders.getD [] ++ [x]) } := by
  unfold addResponder
  rw [h]
  cases target : r.target <;> simp [Router.isShared, target] at shared ⊢

theorem addResponder_isSome (plain : p.responders.isSome) : (p.addResponder x).responders.isSome := by
  unfold addResponder
  split
  · rfl
  · split
    · exact plain
    · exact plain
    · rfl

theorem setRouter_isShared (plain : p.responders.isSome) (unowned : ∀ l, r.target ≠ .own l) :
    ∃ r', (p.setRouter r).router = some r' ∧ r'.isShared := by
  obtain ⟨responders, plain⟩ := Option.isSome_iff_exists.1 plain
  unfold setRouter
  rw [plain]
  cases target : r.target with
  | none => exact ⟨_, rfl, rfl⟩
  | own l => exact absurd target (unowned l)
  | shared => exact ⟨r, rfl, by rw [Router.isShared, target]⟩

end Pipeline

namespace Scheduler

/-- A call that wires a scheduler. Routers are told apart by numbers: one that was in front before can be
put there again, with what was added behind it. -/
inductive Wire
  | addResponder (r : Responder)
  | setRouter (n : Nat)

/-- A scheduler that is being wired, with the routers at hand. -/
structure Workbench where
  scheduler : Scheduler
  /-- The routers as they were before they came in front. -/
  routers : Nat → Router
  /-- The router in front. -/
  front : Option Nat
  fronted : front.isSome = scheduler.pipeline.router.isSome

/-- Where responders can be added. -/
inductive Place
  | plain
  | behind (router : Nat)
  deriving DecidableEq, Repr

/-- The responders that a sequence of calls adds. -/
def added (calls : List Wire) : List Responder :=
  calls.filterMap fun
    | .addResponder r => some r
    | .setRouter _ => none

namespace Workbench

/-- A router as it stands now. -/
def atHand (b : Workbench) (n : Nat) : Router :=
  if b.front = some n then b.scheduler.pipeline.router.getD (b.routers n) else b.routers n

def connect (b : Workbench) : Wire → Workbench
  | .addResponder r =>
    { b with
      scheduler := b.scheduler.addResponder r
      fronted := by
        rw [b.fronted]
        cases router : b.scheduler.pipeline.router with
        | none => simp [addResponder, (Pipeline.addResponder_of_no_router router).1]
        | some r' =>
          obtain ⟨r'', same, -⟩ := Pipeline.addResponder_of_router (x := r) router
          simp [addResponder, same] }
  | .setRouter n =>
    { scheduler := b.scheduler.setRouter (b.atHand n)
      routers := b.atHand
      front := some n
      fronted := by
        obtain ⟨r', router, -⟩ := Pipeline.setRouter_router b.scheduler.pipeline (b.atHand n)
        simp [setRouter, router] }

def wire (b : Workbench) (calls : List Wire) : Workbench := calls.foldl connect b

/-- Where alerts go, and responders are added. -/
def place (b : Workbench) : Place :=
  match b.front with
  | none => .plain
  | some n => if (b.atHand n).isShared then .plain else .behind n

/-- The responders in a place. -/
def contents (b : Workbench) : Place → List Responder
  | .plain => b.scheduler.pipeline.responders.getD []
  | .behind n => (b.atHand n).own

/-- What a sequence of calls adds, with the places where it is added. -/
def additions (b : Workbench) : List Wire → List (Place × Responder)
  | [] => []
  | .addResponder r :: rest => (b.place, r) :: (b.connect (.addResponder r)).additions rest
  | .setRouter n :: rest => (b.connect (.setRouter n)).additions rest

def addedTo (x : Place) (additions : List (Place × Responder)) : List Responder :=
  (additions.filter fun e => e.1 = x).map Prod.snd

/-- What stood in the place where alerts go after a sequence of calls. -/
def held (b : Workbench) (calls : List Wire) : List Responder := b.contents (b.wire calls).place

/-- What stands there after the calls. -/
def reached (b : Workbench) (calls : List Wire) : List Responder :=
  b.held calls ++ addedTo (b.wire calls).place (b.additions calls)

/-! ### One call -/

section Call
variable {b : Workbench} {n m : Nat} {r : Responder} {x : Place}

theorem router_eq (h : b.front = some n) : b.scheduler.pipeline.router = some (b.atHand n) := by
  obtain ⟨r, hr⟩ : ∃ r, b.scheduler.pipeline.router = some r := by
    rw [← Option.isSome_iff_exists, ← b.fronted, h]
    rfl
  rw [atHand, if_pos h, hr]
  rfl

theorem router_eq_none (h : b.front = none) : b.scheduler.pipeline.router = none := by
  rw [← Option.not_isSome_iff_eq_none, ← b.fronted, h]
  exact Bool.false_ne_true

theorem atHand_of_router {r : Router} (front : b.front = some n) (h : b.scheduler.pipeline.router = some r) :
    b.atHand n = r := Option.some.inj ((router_eq front).symm.trans h)

/-- Alerts go to what the place holds. -/
theorem active_eq (b : Workbench) : b.scheduler.pipeline.active?.getD [] = b.contents b.place := by
  unfold Pipeline.active? place
  cases h : b.front with
  | none =>
    rw [router_eq_none h]
    rfl
  | some n =>
    rw [router_eq h]
    cases target : (b.atHand n).target <;>
      simp [Router.responders?, contents, Router.own, Router.isShared, target]

theorem atHand_addResponder (h : b.front ≠ some n) : (b.connect (.addResponder r)).atHand n = b.atHand n := by
  show (if b.front = some n then _ else b.routers n) = _
  rw [if_neg h, atHand, if_neg h]

theorem atHand_setRouter (h : n ≠ m) : (b.connect (.setRouter n)).atHand m = b.atHand m := by
  show (if some n = some m then _ else b.atHand m) = _
  rw [if_neg (by simpa using h)]

theorem place_eq (h : b.front = some n) :
    b.place = if (b.atHand n).isShared then .plain else .behind n := by
  rw [place, h]

theorem contents_addResponder :
    (b.connect (.addResponder r)).contents x = b.contents x ++ if b.place = x then [r] else [] := by
  cases h : b.front with
  | none =>
    obtain ⟨-, plain⟩ := Pipeline.addResponder_of_no_router (x := r) (router_eq_none h)
    have here : b.place = .plain := by rw [place, h]
    rw [here]
    cases x with
    | plain => exact plain
    | behind m => simp [contents, atHand_addResponder, h]
  | some n =>
    obtain ⟨r', router, own, plain⟩ := Pipeline.addResponder_of_router (x := r) (router_eq h)
    rw [place_eq h]
    cases x with
    | plain =>
      refine plain.trans ?_
      cases (b.atHand n).isShared <;> rfl
    | behind m =>
      by_cases same : n = m
      · subst same
        have now : (b.connect (.addResponder r)).atHand n = r' := atHand_of_router h router
        show ((b.connect (.addResponder r)).atHand n).own = (b.atHand n).own ++ _
        rw [now, own]
        cases (b.atHand n).isShared <;> simp
      · have other : b.front ≠ some m := by simp [h, same]
        show ((b.connect (.addResponder r)).atHand m).own = (b.atHand m).own ++ _
        rw [atHand_addResponder other]
        cases (b.atHand n).isShared <;> simp [same]

theorem contents_setRouter : (b.connect (.setRouter n)).contents x = b.contents x := by
  obtain ⟨r', router, own, plain⟩ := Pipeline.setRouter_router b.scheduler.pipeline (b.atHand n)
  cases x with
  | plain =>
    show (b.scheduler.pipeline.setRouter (b.atHand n)).responders.getD [] = _
    rw [plain]
    rfl
  | behind m =>
    show ((b.connect (.setRouter n)).atHand m).own = (b.atHand m).own
    by_cases same : n = m
    · subst same
      rw [atHand_of_router rfl router, own]
    · rw [atHand_setRouter same]

end Call

/-! ### Sequences of calls -/

/-- Each place keeps what it holds and gets what is added to it. -/
theorem contents_wire (b : Workbench) (calls : List Wire) (x : Place) :
    (b.wire calls).contents x = b.contents x ++ addedTo x (b.additions calls) := by
  induction calls generalizing b with
  | nil => simp [wire, additions, addedTo]
  | cons w calls ih =>
    have := ih (b.connect w)
    cases w with
    | addResponder r =>
      rw [contents_addResponder, List.append_assoc] at this
      refine this.trans ?_
      by_cases h : b.place = x <;> simp [additions, addedTo, h]
    | setRouter n =>
      rw [contents_setRouter] at this
      exact this

theorem map_snd_additions (b : Workbench) (calls : List Wire) :
    (b.additions calls).map Prod.snd = added calls := by
  induction calls generalizing b with
  | nil => rfl
  | cons w calls ih =>
    cases w with
    | addResponder r =>
      rw [additions, List.map_cons, ih]
      rfl
    | setRouter n => exact ih _

theorem active_wire (b : Workbench) (calls : List Wire) :
    (b.wire calls).scheduler.pipeline.active?.getD [] = b.reached calls := by
  rw [active_eq, contents_wire]
  rfl

theorem addedTo_length_eq_iff {x : Place} {additions : List (Place × Responder)} :
    (addedTo x additions).length = additions.length ↔ ∀ e ∈ additions, e.1 = x := by
  simp [addedTo, List.length_filter_eq_length_iff]

/-- What is added reaches the place where alerts go exactly if all of it was added there. -/
theorem reached_perm_iff (b : Workbench) (calls : List Wire) :
    (b.reached calls).Perm (b.held calls ++ added calls) ↔
      ∀ e ∈ b.additions calls, e.1 = (b.wire calls).place := by
  rw [reached, List.perm_append_left_iff, ← addedTo_length_eq_iff, ← map_snd_additions b]
  constructor
  · intro same
    rw [same.length_eq, List.length_map]
  · intro all
    rw [addedTo, List.filter_eq_self.2]
    simpa [addedTo_length_eq_iff] using all

/-! ### Routers that take over -/

/-- The plain responders stand, and every router sends alerts to them once it is in front. -/
structure TakesOver (b : Workbench) : Prop where
  plain : b.scheduler.pipeline.responders.isSome
  unowned : ∀ n l, (b.atHand n).target ≠ .own l
  shared : ∀ n, b.front = some n → (b.atHand n).isShared

section TakesOver
variable {b : Workbench} {r : Responder} {n : Nat} {calls : List Wire}

theorem TakesOver.place_eq (h : b.TakesOver) : b.place = .plain := by
  cases front : b.front with
  | none => rw [place, front]
  | some n => rw [Workbench.place_eq front, if_pos (h.shared n front)]

theorem TakesOver.addResponder (h : b.TakesOver) : (b.connect (.addResponder r)).TakesOver := by
  have same (n : Nat) : (b.connect (.addResponder r)).atHand n = b.atHand n := by
    by_cases front : b.front = some n
    · refine atHand_of_router front ?_
      show (b.scheduler.pipeline.addResponder r).router = _
      rw [Pipeline.addResponder_of_shared (router_eq front) (h.shared n front)]
      exact router_eq front
    · exact atHand_addResponder front
  refine ⟨Pipeline.addResponder_isSome h.plain, ?_, ?_⟩
  · intro n l
    rw [same]
    exact h.unowned n l
  · intro n front
    rw [same]
    exact h.shared n front

theorem TakesOver.setRouter (h : b.TakesOver) : (b.connect (.setRouter n)).TakesOver := by
  obtain ⟨r', router, shared⟩ := Pipeline.setRouter_isShared h.plain (h.unowned n)
  have now : (b.connect (.setRouter n)).atHand n = r' := atHand_of_router rfl router
  refine ⟨?_, ?_, ?_⟩
  · obtain ⟨-, -, -, plain⟩ := Pipeline.setRouter_router b.scheduler.pipeline (b.atHand n)
    show (b.scheduler.pipeline.setRouter (b.atHand n)).responders.isSome = true
    rw [plain]
    exact h.plain
  · intro m l
    by_cases same : n = m
    · subst same
      rw [now]
      intro target
      rw [Router.isShared, target] at shared
      cases shared
    · rw [atHand_setRouter same]
      exact h.unowned m l
  · intro m front'
    obtain rfl := Option.some.inj front'
    rw [now]
    exact shared

theorem TakesOver.connect (h : b.TakesOver) (w : Wire) : (b.connect w).TakesOver := by
  cases w with
  | addResponder r => exact h.addResponder
  | setRouter n => exact h.setRouter

theorem TakesOver.additions (h : b.TakesOver) (calls : List Wire) :
    (b.wire calls).place = .plain ∧ ∀ e ∈ b.additions calls, e.1 = .plain := by
  induction calls generalizing b with
  | nil => exact ⟨h.place_eq, by simp [Workbench.additions]⟩
  | cons w calls ih =>
    obtain ⟨place, all⟩ := ih (h.connect w)
    refine ⟨place, ?_⟩
    cases w with
    | addResponder r => exact List.forall_mem_cons.2 ⟨h.place_eq, all⟩
    | setRouter n => exact all

end TakesOver

end Workbench

end Scheduler

/-! ### Alerts that come later -/

/-- The alert that an event hands to a responder. -/
def Event.handed? : Event → Option (Alert × Responder)
  | handed r a => some (a, r)
  | _ => none

namespace Pipeline

/-- Every alert of the turn that is accepted is handed to each of the responders once, and no other is. -/
def Turn.HandsTo (t : Turn) (responders : List Responder) : Prop :=
  ∃ fates policy, fates.map Prod.fst = t.outcome.alerts ∧
    Judged t.call.host.clock t.pipeline.policy? fates policy ∧
    Host.Emits Event.handed? t.call.host t.outcome.host (withFate .delivered fates ×ˢ responders)

theorem Answered.handed {p : Pipeline} {fates : List (Alert × Fate)} {h h' : Host} {failures : List Fault}
    (answered : p.Answered fates h failures h') :
    Host.Emits Event.handed? h h' (withFate .delivered fates ×ˢ p.active?.getD []) := by
  have read (h : Host) : h.journal.events.filterMap Event.handed? =
      (h.journal.events.filterMap Event.answer?).filterMap Event.handed? := by
    rw [List.filterMap_filterMap]
    refine List.filterMap_congr fun e _ => ?_
    cases e with
    | noted n => cases n <;> rfl
    | _ => rfl
  have reports : ((withFate .rejected fates).flatMap p.reports).filterMap Event.handed? = [] := by
    rw [List.filterMap_eq_nil_iff]
    intro e he
    obtain ⟨a, -, he⟩ := List.mem_flatMap.1 he
    unfold Pipeline.reports DropHook.events at he
    split at he
    · split at he
      · cases he
      · obtain rfl := List.mem_singleton.1 he
        rfl
      · obtain rfl := List.mem_singleton.1 he
        rfl
    · cases he
  show h'.journal.events.filterMap Event.handed? = h.journal.events.filterMap Event.handed? ++ _
  rw [read h', read h, answered.events, List.filterMap_append, List.filterMap_append, reports,
    List.filterMap_map, List.nil_append]
  congr 1
  exact List.filterMap_some

theorem process_handsTo (p : Pipeline) (c : Call)
    (ok : (p.process c.snapshot c.metadata c.host).fault = none) :
    Turn.HandsTo ⟨p, c, p.process c.snapshot c.metadata c.host⟩ (p.active?.getD []) := by
  have settled := process_settled p c ok
  unfold Turn.Settled at settled
  rcases hd : p.detector with _ | d
  · simp only [hd] at settled
    obtain ⟨alerts, -, host⟩ := settled
    refine ⟨[], p.policy?, alerts.symm, .nil, ?_⟩
    simp only [host]
    exact .refl
  · simp only [hd] at settled
    obtain ⟨batch, unique, fates, -, same, judged, answered⟩ := settled
    exact ⟨fates, _, same, judged, answered.handed⟩

theorem trace_handsTo (p : Pipeline) (calls : List Call) : ∀ t ∈ p.trace calls,
    t.outcome.fault = none → t.HandsTo (p.active?.getD []) :=
  forall_mem_trace (I := fun q => q.active? = p.active?) (C := fun _ => True)
    (fun q c same _ => ⟨same ▸ process_handsTo q c, (process_active q c).trans same⟩) rfl fun _ _ => trivial

end Pipeline

namespace Scheduler.Workbench

/-- What a sequence of calls does to a scheduler, and to the alerts that come after it. -/
structure WiringLaw (b : Workbench) (calls : List Wire) : Prop where
  /-- Nothing is lost exactly if all was added where alerts go in the end. -/
  complete : (b.reached calls).Perm (b.held calls ++ added calls) ↔
    ∀ e ∈ b.additions calls, e.1 = (b.wire calls).place
  /-- Routers without responders of their own take over those that were added before the first of them. -/
  takesOver : b.front = none → (∀ n l, (b.routers n).target ≠ .own l) →
    (b.scheduler.pipeline.responders.isSome ∨ ∃ r rest, calls = .addResponder r :: rest) →
    ∀ e ∈ b.additions calls, e.1 = (b.wire calls).place
  /-- Accepted alerts are handed to what was reached. -/
  handed : ∀ later, ∀ t ∈ (b.wire calls).scheduler.pipeline.trace later,
    t.outcome.fault = none → t.HandsTo (b.reached calls)
  /-- A scheduler of the declared types is never ended by a fault. -/
  ends : (b.wire calls).scheduler.pipeline.IsTyped → ∀ later, (∀ c ∈ later, c.host.clock.InRange) →
    ∀ t ∈ (b.wire calls).scheduler.pipeline.trace later, t.outcome.fault = none

theorem takesOver_of_front {b : Workbench} (front : b.front = none)
    (unowned : ∀ n l, (b.routers n).target ≠ .own l) (plain : b.scheduler.pipeline.responders.isSome) :
    b.TakesOver := by
  refine ⟨plain, ?_, ?_⟩
  · intro n l
    rw [atHand, if_neg (by simp [front])]
    exact unowned n l
  · intro n other
    rw [front] at other
    cases other

theorem additions_of_plain {b : Workbench} {calls : List Wire} (front : b.front = none)
    (unowned : ∀ n l, (b.routers n).target ≠ .own l)
    (plain : b.scheduler.pipeline.responders.isSome ∨ ∃ r rest, calls = .addResponder r :: rest) :
    ∀ e ∈ b.additions calls, e.1 = (b.wire calls).place := by
  rcases plain with plain | ⟨r, rest, rfl⟩
  · obtain ⟨place, all⟩ := (takesOver_of_front front unowned plain).additions calls
    rw [place]
    exact all
  · -- the first responder makes the list that the routers take over
    have first : (b.connect (.addResponder r)).scheduler.pipeline.responders.isSome := by
      show (b.scheduler.pipeline.addResponder r).responders.isSome = true
      rw [Pipeline.addResponder, router_eq_none front]
      rfl
    obtain ⟨place, all⟩ := (takesOver_of_front (b := b.connect (.addResponder r)) front unowned first).additions rest
    have start : b.place = .plain := by rw [Workbench.place, front]
    show ∀ e ∈ (b.place, r) :: (b.connect (.addResponder r)).additions rest,
      e.1 = ((b.connect (.addResponder r)).wire rest).place
    rw [place, start]
    exact List.forall_mem_cons.2 ⟨rfl, all⟩

/-- The law of wiring, for every sequence of calls on every scheduler. -/
theorem wire_wiringLaw (b : Workbench) (calls : List Wire) : WiringLaw b calls where
  complete := reached_perm_iff b calls
  takesOver := additions_of_plain
  handed := by
    intro later t ht ok
    rw [← active_wire]
    exact Pipeline.trace_handsTo _ later t ht ok
  ends typed _ clocks := Pipeline.trace_typed typed clocks

/-- A new scheduler with one rule that always raises an alert, and routers that have nothing. -/
def alarmed : Workbench where
  scheduler := {
    schedules := []
    pipeline.detector := some {
      rules := [{ id := .text "always", evaluate := some fun _ => .ok [{ dedupKey := "k" }] }]
      ids := .default fun _ => 0 }
    history := { limit := 500, correlation := { defaultInterval := .ok (.double 5) } }
    session := ""
    host := { now := .ofMicros 0 } }
  routers := fun _ => {}
  front := none
  fronted := rfl

/-- A responder between two routers, of which the first makes a place for it. -/
def lost : List Wire := [.setRouter 0,
  .addResponder (.external { id := 0, name := "pager", answer := fun _ => none }), .setRouter 1]

theorem withFate_of_no_policy {clock : Number} {fates : List (Alert × Fate)} {policy : Option (Policy Number)}
    (judged : Judged clock none fates policy) (unflagged : ∀ a ∈ fates.map Prod.fst, a.rateLimited = false) :
    withFate .delivered fates = fates.map Prod.fst := by
  generalize start : (none : Option (Policy Number)) = policy' at judged
  induction judged with
  | nil => rfl
  | limited flagged =>
    rw [unflagged _ List.mem_cons_self] at flagged
    cases flagged
  | unconditional _ _ ih =>
    have later := ih (fun a ha => unflagged a (List.mem_cons_of_mem _ ha)) rfl
    simpa [withFate] using later
  | rejected => cases start
  | accepted => cases start

/-- What is added behind a router stays there when another one comes in front. -/
theorem not_forall_handed : ¬ ∀ (b : Workbench) (calls : List Wire) (later : List Pipeline.Call),
    ∀ t ∈ (b.wire calls).scheduler.pipeline.trace later, t.outcome.fault = none →
      t.HandsTo (b.held calls ++ added calls) := by
  intro handed
  let c : Pipeline.Call := ⟨{}, {}, { now := .ofMicros 0 }⟩
  let p := (alarmed.wire lost).scheduler.pipeline
  let o := p.process c.snapshot c.metadata c.host
  obtain ⟨fates, policy, same, judged, emits⟩ :=
    handed alarmed lost [c] ⟨p, c, o⟩ (List.mem_singleton.2 rfl) (by decide +kernel)
  have alerts : o.alerts.map Alert.rateLimited = [false] := by decide +kernel
  have quiet : (o.host.journal.events.filterMap Event.handed?).length = 0 := by decide +kernel
  have unflagged : ∀ a ∈ fates.map Prod.fst, a.rateLimited = false := by
    intro a ha
    rw [same] at ha
    have := List.mem_map_of_mem (f := Alert.rateLimited) ha
    rw [alerts] at this
    exact List.mem_singleton.1 this
  have delivered := withFate_of_no_policy judged unflagged
  have counted := congrArg List.length emits
  rw [quiet, List.length_append, List.length_product, delivered, same] at counted
  have one : o.alerts.length = 1 := by simpa using congrArg List.length alerts
  have responders : (alarmed.held lost ++ added lost).length = 1 := rfl
  rw [responders, one] at counted
  omega

end Scheduler.Workbench

end HostWatch
