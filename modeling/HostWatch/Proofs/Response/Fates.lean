import HostWatch.Proofs.Journal
import Mathlib.Data.List.ProdSigma

/-!
# The fates of alerts

Every alert that detection returns meets one `Fate`. `Judged` says which, alert by alert: one that is
flagged stays away from the policy, the others are decided on in turn. `Answered` says what is seen of
it: the rejected alerts are reported, each delivered alert is handed to every responder, and the
failures of these are returned. The response is of this kind whenever it returns (`respond_answered`).
-/

namespace HostWatch

/-- What becomes of an alert. -/
inductive Fate where
  /-- Flagged by the rate limiter. -/
  | limited
  /-- Held back by the policy. -/
  | rejected
  | delivered
  deriving DecidableEq, Repr

/-- The alerts with a fate, in their order. -/
def withFate (fate : Fate) (fates : List (Alert × Fate)) : List Alert :=
  (fates.filter fun x => x.2 = fate).map Prod.fst

/-- The fates of alerts at a time, and the policy before and afterwards. -/
inductive Judged (clock : Number) :
    Option (Policy Number) → List (Alert × Fate) → Option (Policy Number) → Prop
  | nil {policy : Option (Policy Number)} : Judged clock policy [] policy
  | limited {a : Alert} {policy policy' : Option (Policy Number)} {fates : List (Alert × Fate)}
      (ha : a.rateLimited) (rest : Judged clock policy fates policy') :
      Judged clock policy ((a, .limited) :: fates) policy'
  | unconditional {a : Alert} {fates : List (Alert × Fate)} (ha : ¬ a.rateLimited)
      (rest : Judged clock none fates none) : Judged clock none ((a, .delivered) :: fates) none
  | rejected {a : Alert} {p p' : Policy Number} {policy : Option (Policy Number)}
      {fates : List (Alert × Fate)} (ha : ¬ a.rateLimited) (hd : p.decision clock a = .ok (false, p'))
      (rest : Judged clock (some p') fates policy) :
      Judged clock (some p) ((a, .rejected) :: fates) policy
  | accepted {a : Alert} {p p' : Policy Number} {policy : Option (Policy Number)}
      {fates : List (Alert × Fate)} (ha : ¬ a.rateLimited) (hd : p.decision clock a = .ok (true, p'))
      (rest : Judged clock (some p') fates policy) :
      Judged clock (some p) ((a, .delivered) :: fates) policy

/-! ### Handing over -/

/-- Hands each alert to its responder in turn, whatever the earlier ones answered. -/
def handleEach : List (Alert × Responder) → Host → Host × List ((Alert × Responder) × Option Fault)
  | [], h => (h, [])
  | (a, r) :: rest, h =>
    let (h, answer) := r.handle a h
    let (h, answers) := handleEach rest h
    (h, ((a, r), answer) :: answers)

/-- The failure that is kept of an answer. -/
def failure? (x : (Alert × Responder) × Option Fault) : Option Fault :=
  x.2.map (.responder (x.1.2.name?.getD ""))

/-- The events by which alerts are answered: they are handed to a responder, or reported as dropped. -/
def Event.answer? (e : Event) : Option Event :=
  match e with
  | handed .. | dropped _ | noted (.policyDropped ..) => some e
  | _ => none

/-- How an alert is reported that the policy holds back. -/
def DropHook.events (hook : DropHook) (a : Alert) : List Event :=
  match hook with
  | silent => []
  | reported => [.dropped a]
  | noted => [.noted (.policyDropped a.id a.ruleId.display)]

namespace Pipeline

def policy? (p : Pipeline) : Option (Policy Number) := p.router.bind Router.policy

/-- The responders that alerts are sent to, if there is any place to send them. -/
def active? (p : Pipeline) : Option (List Responder) :=
  match p.router with
  | some r => r.responders? p.responders
  | none => p.responders

def reports (p : Pipeline) (a : Alert) : List Event :=
  match p.router with
  | some r => r.hook.events a
  | none => []

/-- Whether a router has no responders to send alerts to. -/
def isUnconnected (p : Pipeline) : Bool := p.router.isSome && p.active?.isNone

/-- How alerts with their fates are answered: what is seen of it, and the failures. -/
structure Answered (p : Pipeline) (fates : List (Alert × Fate)) (h : Host) (failures : List Fault)
    (h' : Host) : Prop where
  events : Host.Emits Event.answer? h h' ((withFate .rejected fates).flatMap p.reports ++
    (withFate .delivered fates ×ˢ p.active?.getD []).map fun (a, r) => .handed r a)
  failures : ∃ h₁ answers, Host.Emits Event.answer? h h₁ ((withFate .rejected fates).flatMap p.reports) ∧
    handleEach (withFate .delivered fates ×ˢ p.active?.getD []) h₁ = (h', answers) ∧
    failures = if p.isUnconnected ∧ withFate .delivered fates ≠ [] then
      [.configuration (.undelivered (withFate .delivered fates).length)] else answers.filterMap failure?

end Pipeline

/-! ### Fates and the policy -/

section Judged
variable {clock : Number} {alerts : List Alert}

theorem judged_unconditional (clock : Number) (alerts : List Alert) :
    ∃ fates, fates.map Prod.fst = alerts ∧ Judged clock none fates none ∧ withFate .rejected fates = [] ∧
      withFate .delivered fates = alerts.filter fun a => !a.rateLimited := by
  induction alerts with
  | nil => exact ⟨[], rfl, .nil, rfl, rfl⟩
  | cons a rest ih =>
    obtain ⟨fates, hfst, judged, hrejected, hdelivered⟩ := ih
    by_cases ha : a.rateLimited
    · refine ⟨(a, .limited) :: fates, by simp [hfst], .limited ha judged, ?_, ?_⟩
      · simpa [withFate] using hrejected
      · simpa [withFate, ha] using hdelivered
    · refine ⟨(a, .delivered) :: fates, by simp [hfst], .unconditional ha judged, ?_, ?_⟩
      · simpa [withFate] using hrejected
      · simpa [withFate, ha] using hdelivered

theorem judged_of_decideAll {p : Policy Number} {d : Policy.Decisions Number}
    (hall : p.decideAll clock (alerts.filter fun a => !a.rateLimited) = d) (ok : d.fault = none) :
    ∃ fates, fates.map Prod.fst = alerts ∧ Judged clock (some p) fates (some d.policy) ∧
      withFate .rejected fates = (d.made.filter fun (_, accepted) => !accepted).map Prod.fst ∧
      withFate .delivered fates = (d.made.filter Prod.snd).map Prod.fst := by
  subst hall
  induction alerts generalizing p with
  | nil => exact ⟨[], rfl, .nil, rfl, rfl⟩
  | cons a rest ih =>
    by_cases ha : a.rateLimited
    · rw [List.filter_cons_of_neg (by simp [ha])] at ok ⊢
      obtain ⟨fates, hfst, judged, hrejected, hdelivered⟩ := ih ok
      refine ⟨(a, .limited) :: fates, by simp [hfst], .limited ha judged, ?_, ?_⟩
      · simpa [withFate] using hrejected
      · simpa [withFate] using hdelivered
    · rw [List.filter_cons_of_pos (by simp [ha])] at ok ⊢
      unfold Policy.decideAll at ok ⊢
      rcases hd : p.decision clock a with f | ⟨accepted, p'⟩
      · simp [hd] at ok
      · simp only [hd] at ok ⊢
        obtain ⟨fates, hfst, judged, hrejected, hdelivered⟩ := ih ok
        cases accepted with
        | false =>
          refine ⟨(a, .rejected) :: fates, by simp [hfst], .rejected ha hd judged, ?_, ?_⟩
          · simpa [withFate] using hrejected
          · simpa [withFate] using hdelivered
        | true =>
          refine ⟨(a, .delivered) :: fates, by simp [hfst], .accepted ha hd judged, ?_, ?_⟩
          · simpa [withFate] using hrejected
          · simpa [withFate] using hdelivered

end Judged

/-! ### What the responders get -/

section Delivery
variable {xs ys : List (Alert × Responder)} {a : Alert} {responders : List Responder} {h h' : Host}
  {failures : List Fault}

theorem handleEach_append (xs ys : List (Alert × Responder)) (h : Host) : handleEach (xs ++ ys) h =
    ((handleEach ys (handleEach xs h).1).1, (handleEach xs h).2 ++ (handleEach ys (handleEach xs h).1).2) := by
  induction xs generalizing h with
  | nil => rfl
  | cons x rest ih =>
    simp only [List.cons_append, handleEach]
    rw [ih]

theorem deliverOne_ok (ok : deliverOne a responders h = (h', .ok failures)) :
    ∃ answers, handleEach (responders.map (a, ·)) h = (h', answers) ∧
      failures = answers.filterMap failure? := by
  induction responders generalizing h failures with
  | nil =>
    obtain ⟨rfl, hfailures⟩ := Prod.mk.inj ok
    exact ⟨[], rfl, (Except.ok.inj hfailures).symm⟩
  | cons r rest ih =>
    unfold deliverOne at ok
    simp only [List.map_cons, handleEach]
    split at ok
    · rename_i h₁ hone
      obtain ⟨answers, hrest, rfl⟩ := ih ok
      exact ⟨((a, r), none) :: answers, by rw [hone]; simp only [hrest], rfl⟩
    · rename_i h₁ failure hone
      split at ok
      · cases ok
      · rename_i name hname
        rcases hlater : deliverOne a rest h₁ with ⟨h₂, _ | later⟩
        · simp [hlater, Except.map] at ok
        · simp only [hlater, Except.map, Prod.mk.injEq, Except.ok.injEq] at ok
          obtain ⟨rfl, rfl⟩ := ok
          obtain ⟨answers, hrest, rfl⟩ := ih hlater
          refine ⟨((a, r), some failure) :: answers, by rw [hone]; simp only [hrest], ?_⟩
          have named : r.name? = some name := by
            unfold Responder.name at hname
            rcases hn : r.name? with _ | n
            · simp [hn, Fault.ofOption] at hname
            · rw [hn] at hname
              exact congrArg some (Except.ok.inj hname)
          simp [failure?, named]

theorem deliver_ok {alerts : List Alert} (ok : deliver responders alerts h = (h', .ok failures)) :
    ∃ answers, handleEach (alerts ×ˢ responders) h = (h', answers) ∧
      failures = answers.filterMap failure? := by
  induction alerts generalizing h failures with
  | nil =>
    obtain ⟨rfl, hfailures⟩ := Prod.mk.inj ok
    exact ⟨[], rfl, (Except.ok.inj hfailures).symm⟩
  | cons a rest ih =>
    unfold deliver at ok
    split at ok
    · cases ok
    · rename_i h₁ first hone
      rcases hlater : deliver responders rest h₁ with ⟨h₂, _ | later⟩
      · simp [hlater, Except.map] at ok
      · simp only [hlater, Except.map, Prod.mk.injEq, Except.ok.injEq] at ok
        obtain ⟨rfl, rfl⟩ := ok
        obtain ⟨answers, hanswers, rfl⟩ := deliverOne_ok hone
        obtain ⟨more, hmore, rfl⟩ := ih hlater
        refine ⟨answers ++ more, ?_, by rw [List.filterMap_append]⟩
        rw [List.product_cons, handleEach_append, hanswers, hmore]

theorem handleEach_emits (xs : List (Alert × Responder)) (h : Host) :
    Host.Emits Event.answer? h (handleEach xs h).1 (xs.map fun (a, r) => .handed r a) := by
  have deed (e : Event) (he : e.isDeed) : e.answer? = none := by
    rcases e with _ | _ | _ | _ | _ | _ | _ | n
    case noted => cases n <;> first | rfl | cases he
    all_goals first | rfl | cases he
  induction xs generalizing h with
  | nil => exact .refl
  | cons x rest ih =>
    obtain ⟨a, r⟩ := x
    have handled : Host.Emits Event.answer? h (r.handle a h).1 [.handed r a] :=
      r.handle_emits deed rfl h
    exact handled.trans (ih _)

theorem hook_emits (hook : DropHook) (alerts : List Alert) (h : Host) :
    Host.Emits Event.answer? h (alerts.foldl (fun h a => hook.run a h) h) (alerts.flatMap hook.events) := by
  induction alerts generalizing h with
  | nil => exact .refl
  | cons a rest ih =>
    have one : Host.Emits Event.answer? h (hook.run a h) (hook.events a) := by
      cases hook with
      | silent => exact .refl
      | reported => exact Host.emits_record rfl
      | noted => exact Host.emits_record rfl
    exact one.trans (ih _)

end Delivery

/-! ### The response -/

/-- A router changes in nothing but what its policy remembers. -/
theorem Router.run_fst (r : Router) (shared : Option (List Responder)) (alerts : List Alert) (h : Host) :
    (r.run shared alerts h).1 = { r with policy := r.policy.map fun p => (p.decideAll h.clock alerts).policy } := by
  have screened : (r.screen alerts h).2.1 =
      { r with policy := r.policy.map fun p => (p.decideAll h.clock alerts).policy } := by
    obtain ⟨policy, target, hook⟩ := r
    cases policy <;> rfl
  unfold run
  split
  all_goals rename_i heq; rw [heq] at screened
  · exact screened
  · exact screened
  · split <;> exact screened

theorem Router.screen_judged {r r' : Router} {alerts accepted : List Alert} {h h' : Host}
    (ok : r.screen (alerts.filter fun a => !a.rateLimited) h = (.ok accepted, r', h')) :
    ∃ fates, fates.map Prod.fst = alerts ∧ Judged h.clock r.policy fates r'.policy ∧
      withFate .delivered fates = accepted ∧
      Host.Emits Event.answer? h h' ((withFate .rejected fates).flatMap r.hook.events) ∧
      r'.target = r.target := by
  unfold screen at ok
  split at ok
  · rename_i hpolicy
    obtain ⟨fates, hfst, judged, hrejected, hdelivered⟩ := judged_unconditional h.clock alerts
    obtain ⟨haccepted, hrest⟩ := Prod.mk.inj ok
    obtain ⟨rfl, rfl⟩ := Prod.mk.inj hrest
    refine ⟨fates, hfst, by rwa [hpolicy], hdelivered.trans (Except.ok.inj haccepted), ?_, rfl⟩
    rw [hrejected]
    exact .refl
  · rename_i p hpolicy
    simp only at ok
    generalize hall : p.decideAll h.clock (alerts.filter fun a => !a.rateLimited) = d at ok
    rcases hfault : d.fault with _ | fault
    · obtain ⟨fates, hfst, judged, hrejected, hdelivered⟩ := judged_of_decideAll hall hfault
      rw [hfault] at ok
      obtain ⟨haccepted, hrest⟩ := Prod.mk.inj ok
      obtain ⟨rfl, rfl⟩ := Prod.mk.inj hrest
      refine ⟨fates, hfst, by rwa [hpolicy], hdelivered.trans (Except.ok.inj haccepted), ?_, rfl⟩
      rw [hrejected]
      exact hook_emits _ _ _
    · rw [hfault] at ok
      cases (Prod.mk.inj ok).1

theorem Router.run_judged {r r' : Router} {shared : Option (List Responder)} {alerts : List Alert}
    {h h' : Host} {failures : List Fault}
    (ok : r.run shared (alerts.filter fun a => !a.rateLimited) h = (r', h', .ok failures)) :
    ∃ fates, fates.map Prod.fst = alerts ∧ Judged h.clock r.policy fates r'.policy ∧ ∃ h₁ answers,
      Host.Emits Event.answer? h h₁ ((withFate .rejected fates).flatMap r.hook.events) ∧
      handleEach (withFate .delivered fates ×ˢ (r.responders? shared).getD []) h₁ = (h', answers) ∧
      failures = if (r.responders? shared).isNone ∧ withFate .delivered fates ≠ [] then
        [.configuration (.undelivered (withFate .delivered fates).length)] else answers.filterMap failure? := by
  unfold run at ok
  rcases hscreen : r.screen (alerts.filter fun a => !a.rateLimited) h with ⟨_ | accepted, r₁, h₁⟩
  · rw [hscreen] at ok
    cases ok
  · obtain ⟨fates, hfst, judged, rfl, reported, htarget⟩ := screen_judged hscreen
    have same : r₁.responders? shared = r.responders? shared := by simp [responders?, htarget]
    rw [hscreen] at ok
    rcases hdelivered : withFate .delivered fates with _ | ⟨a, rest⟩
    · simp only [hdelivered] at ok
      obtain ⟨rfl, hrest⟩ := Prod.mk.inj ok
      obtain ⟨rfl, hfailures⟩ := Prod.mk.inj hrest
      refine ⟨fates, hfst, judged, h₁, [], reported, ?_, ?_⟩
      · rw [hdelivered, List.nil_product]
        rfl
      · simpa [hdelivered] using (Except.ok.inj hfailures).symm
    · simp only [hdelivered] at ok
      rw [← hdelivered, same] at ok
      rcases hresponders : r.responders? shared with _ | responders
      · rw [hresponders] at ok
        obtain ⟨rfl, hrest⟩ := Prod.mk.inj ok
        obtain ⟨rfl, hfailures⟩ := Prod.mk.inj hrest
        refine ⟨fates, hfst, judged, h₁, [], reported, ?_, ?_⟩
        · rw [Option.getD_none, List.product_nil]
          rfl
        · simpa [hdelivered] using (Except.ok.inj hfailures).symm
      · rw [hresponders] at ok
        obtain ⟨rfl, hdeliver⟩ := Prod.mk.inj ok
        obtain ⟨answers, handled, hfailures⟩ := deliver_ok hdeliver
        exact ⟨fates, hfst, judged, h₁, answers, reported, handled, by simpa using hfailures⟩

namespace Pipeline
variable {p p' : Pipeline} {alerts : List Alert} {fates : List (Alert × Fate)} {h h₁ h' : Host}
  {failures : List Fault} {answers : List ((Alert × Responder) × Option Fault)}

theorem Answered.of_handleEach
    (reported : Host.Emits Event.answer? h h₁ ((withFate .rejected fates).flatMap p.reports))
    (handled : handleEach (withFate .delivered fates ×ˢ p.active?.getD []) h₁ = (h', answers))
    (hfailures : failures = if p.isUnconnected ∧ withFate .delivered fates ≠ [] then
      [.configuration (.undelivered (withFate .delivered fates).length)] else answers.filterMap failure?) :
    p.Answered fates h failures h' where
  events := by
    have handed := handleEach_emits (withFate .delivered fates ×ˢ p.active?.getD []) h₁
    rw [handled] at handed
    exact reported.trans handed
  failures := ⟨h₁, answers, reported, handled, hfailures⟩

/-- Without a router every alert that is not flagged is delivered. -/
theorem respond_answered_of_no_router (hrouter : p.router = none)
    (ok : p.respond (alerts.filter fun a => !a.rateLimited) h = (p', h', .ok failures)) :
    ∃ fates, fates.map Prod.fst = alerts ∧ Judged h.clock p.policy? fates p'.policy? ∧
      p.Answered fates h failures h' := by
  obtain ⟨fates, hfst, judged, hrejected, hdelivered⟩ := judged_unconditional h.clock alerts
  have reported : Host.Emits Event.answer? h h ((withFate .rejected fates).flatMap p.reports) := by
    rw [hrejected]
    exact .refl
  have connected : p.isUnconnected = false := by simp [isUnconnected, hrouter]
  have hactive : p.active? = p.responders := by simp [active?, hrouter]
  have hpolicy : p.policy? = none := by simp [policy?, hrouter]
  unfold respond at ok
  rw [hrouter] at ok
  simp only at ok
  split at ok
  · rename_i responders hresponders
    obtain ⟨rfl, hdeliver⟩ := Prod.mk.inj ok
    obtain ⟨answers, handled, hfailures⟩ := deliver_ok hdeliver
    have handled : handleEach (withFate .delivered fates ×ˢ p.active?.getD []) h = (h', answers) := by
      rwa [hactive, hresponders, hdelivered]
    refine ⟨fates, hfst, by rwa [hpolicy], .of_handleEach reported handled ?_⟩
    simpa [connected] using hfailures
  · rename_i hresponders
    obtain ⟨rfl, hrest⟩ := Prod.mk.inj ok
    obtain ⟨rfl, hfailures⟩ := Prod.mk.inj hrest
    have handled : handleEach (withFate .delivered fates ×ˢ p.active?.getD []) h = (h, []) := by
      rw [hactive, hresponders, Option.getD_none, List.product_nil]
      rfl
    refine ⟨fates, hfst, by rwa [hpolicy], .of_handleEach reported handled ?_⟩
    simpa [connected] using (Except.ok.inj hfailures).symm

theorem respond_answered
    (ok : p.respond (alerts.filter fun a => !a.rateLimited) h = (p', h', .ok failures)) :
    ∃ fates, fates.map Prod.fst = alerts ∧ Judged h.clock p.policy? fates p'.policy? ∧
      p.Answered fates h failures h' := by
  rcases hrouter : p.router with _ | r
  · exact respond_answered_of_no_router hrouter ok
  · unfold respond at ok
    rw [hrouter] at ok
    rcases hrun : r.run p.responders (alerts.filter fun a => !a.rateLimited) h with ⟨r', h₂, result⟩
    simp only [hrun] at ok
    obtain ⟨rfl, hrest⟩ := Prod.mk.inj ok
    obtain ⟨rfl, rfl⟩ := Prod.mk.inj hrest
    obtain ⟨fates, hfst, judged, h₁, answers, reported, handled, hfailures⟩ := Router.run_judged hrun
    have hactive : p.active? = r.responders? p.responders := by simp [active?, hrouter]
    have hreports : p.reports = r.hook.events := by
      funext a
      simp [reports, hrouter]
    rw [← hreports] at reported
    rw [← hactive] at handled hfailures
    refine ⟨fates, hfst, by simpa [policy?, hrouter] using judged, .of_handleEach reported handled ?_⟩
    simpa [isUnconnected, hrouter] using hfailures

end Pipeline

end HostWatch
