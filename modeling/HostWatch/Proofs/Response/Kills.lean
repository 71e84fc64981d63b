import HostWatch.Proofs.Detection.Arrival
import HostWatch.Proofs.Response.Settlement

/-!
# Only authorised attempts on processes

Processes are ended by one responder only, which is restricted to certain rules. `Kills` says of a turn
of the pipeline which attempts there were: for each delivered alert in turn its `Attempts`, of which
there are none outside the scope and none in a dry run, and which go through the processes that the
alert names up to the first that cannot be ended. It holds of every turn of every run
(`Pipeline.trace_kills`), also of those that a fault ends.
-/

namespace HostWatch

/-- The attempt on a process that an event records. -/
def Event.signal? : Event → Option (Int × KillOutcome)
  | signalled pid outcome => some (pid, outcome)
  | _ => none

/-- Whether a responder ends processes. -/
def Responder.kills : Responder → Bool
  | kill _ => true
  | restricted _ inner => inner.kills
  | external _ | log _ | file _ | vacant => false

/-- Responders of which one ends processes, for alerts of certain rules only, or for a dry run says so. -/
inductive KillerAmong (rules : List Key) (dryRun : Bool) : List Responder → Prop
  | here {after : List Responder} (h : ∀ r ∈ after, r.kills = false) :
      KillerAmong rules dryRun (.restricted rules (.kill dryRun) :: after)
  | there {r : Responder} {rest : List Responder} (hr : r.kills = false) (h : KillerAmong rules dryRun rest) :
      KillerAmong rules dryRun (r :: rest)

/-- Attempts on processes in turn, up to the first that cannot be ended. -/
inductive UpToFailure : List Int → List (Int × KillOutcome) → Prop
  | nil : UpToFailure [] []
  | killed {pid : Int} {rest : List Int} {signals : List (Int × KillOutcome)} (h : UpToFailure rest signals) :
      UpToFailure (pid :: rest) ((pid, .killed) :: signals)
  | failed {pid : Int} {rest : List Int} {outcome : KillOutcome} (h : outcome ≠ .killed) :
      UpToFailure (pid :: rest) [(pid, outcome)]

/-- Whether an alert is of one of the rules, of which none stands for all. -/
def InScope (rules : List Key) (a : Alert) : Prop :=
  rules = [] ∨ ∃ k, a.ruleId.toKey = .ok k ∧ rules.contains k = true

/-- An alert with the attempts that it led to. -/
abbrev Attempts := Alert × List (Int × KillOutcome)

section Attempts
variable (rules : List Key) (dryRun : Bool)

/-- There are no attempts, unless those that an alert in scope asks for. -/
def Guarded (x : Attempts) : Prop :=
  x.2 = [] ∨ dryRun = false ∧ InScope rules x.1 ∧ UpToFailure (pidsIn x.1.evidence) x.2

/-- The attempts that an alert in scope asks for were made; one that names no process is a failure. -/
structure Served (failures : List Fault) (x : Attempts) : Prop where
  attempted : InScope rules x.1 → dryRun = false → UpToFailure (pidsIn x.1.evidence) x.2
  missing : InScope rules x.1 → pidsIn x.1.evidence = [] →
    x.2 = [] ∧ Fault.responder "process_kill" (.noPid x.1.ruleId.display) ∈ failures

variable {rules : List Key} {dryRun : Bool} {failures failures' : List Fault} {x : Attempts}

theorem Served.mono (h : Served rules dryRun failures x) (hsub : ∀ f ∈ failures, f ∈ failures') :
    Served rules dryRun failures' x :=
  ⟨h.attempted, fun hin hnil => (h.missing hin hnil).imp_right (hsub _)⟩

theorem UpToFailure.mem {pids : List Int} {signals : List (Int × KillOutcome)} (h : UpToFailure pids signals) :
    ∀ s ∈ signals, s.1 ∈ pids := by
  induction h with
  | nil => simp
  | killed _ ih => exact List.forall_mem_cons.2 ⟨List.mem_cons_self .., fun s hs => List.mem_cons_of_mem _ (ih s hs)⟩
  | failed => simp

theorem Guarded.authorised (h : Guarded rules dryRun x) : ∀ s ∈ x.2,
    dryRun = false ∧ InScope rules x.1 ∧ s.1 ∈ pidsIn x.1.evidence := by
  intro s hs
  rcases h with hnil | ⟨hlive, hscope, hup⟩
  · rw [hnil] at hs
    cases hs
  · exact ⟨hlive, hscope, hup.mem s hs⟩

end Attempts

/-! ### Responders that leave processes alone -/

section Quiet
variable {a : Alert} {h : Host} {r : Responder} {responders : List Responder}

open Host

theorem signal?_of_isRotation (e : Event) (he : e.isRotation) : e.signal? = none := by
  cases e <;> first | rfl | cases he

theorem Responder.act_quiet (hr : r.kills = false) (a : Alert) (h : Host) :
    Emits Event.signal? h (r.act a h).1 [] := by
  induction r with
  | external party => exact (Adds.of_journal_eq (Q := (Event.signal? · = none)) rfl).emits_none
  | log attached =>
    cases attached with
    | false => exact .refl
    | true =>
      simp only [act]
      split
      · exact .refl
      split
      · exact .refl
      · exact emits_record_none rfl
  | file f =>
    simp only [act]
    split
    · exact (f.write_adds _ h).emits_nil signal?_of_isRotation
    · exact .refl
  | kill dryRun => cases hr
  | restricted rules inner ih =>
    simp only [act]
    split
    · exact ih hr
    · split
      · exact .refl
      · split
        · exact ih hr
        · exact .refl
  | vacant => exact .refl

theorem Responder.handle_quiet (hr : r.kills = false) (a : Alert) (h : Host) :
    Emits Event.signal? h (r.handle a h).1 [] :=
  (emits_record_none (e := .handed r a) rfl).trans (Responder.act_quiet hr a _)

theorem deliverOne_quiet (hquiet : ∀ r ∈ responders, r.kills = false) (a : Alert) (h : Host) :
    Emits Event.signal? h (deliverOne a responders h).1 [] := by
  induction responders generalizing h with
  | nil => exact .refl
  | cons r rest ih =>
    obtain ⟨hr, hrest⟩ := List.forall_mem_cons.1 hquiet
    have handled := Responder.handle_quiet hr a h
    unfold deliverOne
    split
    · rename_i heq
      rw [heq] at handled
      exact handled.trans (ih hrest _)
    · rename_i heq
      rw [heq] at handled
      split
      · exact handled
      · exact handled.trans (ih hrest _)

end Quiet

/-! ### The responder that ends processes -/

section Killer
variable {rules : List Key} {dryRun : Bool} {a : Alert} {h : Host} {responders : List Responder}

open Host

theorem endProcesses_upToFailure (a : Alert) (pids : List Int) (h : Host) : ∃ signals,
    Emits Event.signal? h (endProcesses a pids h).1 signals ∧ UpToFailure pids signals := by
  induction pids generalizing h with
  | nil => exact ⟨[], .refl, .nil⟩
  | cons pid rest ih =>
    have signalled : Emits Event.signal? h (h.signal pid).2 [(pid, (h.signal pid).1)] := by
      simp [Emits, signal, record, Journal.events, Event.signal?]
    unfold endProcesses
    generalize h.signal pid = attempt at signalled
    obtain ⟨outcome, h₁⟩ := attempt
    cases outcome with
    | killed =>
      obtain ⟨signals, hsignals, hup⟩ := ih (h₁.note (.killed pid a.id a.ruleId.display))
      have noted : Emits Event.signal? h₁ (h₁.note (.killed pid a.id a.ruleId.display)) [] :=
        emits_record_none rfl
      exact ⟨(pid, .killed) :: signals, signalled.trans (noted.trans hsignals), .killed hup⟩
    | gone => exact ⟨_, signalled, .failed (by simp)⟩
    | denied => exact ⟨_, signalled, .failed (by simp)⟩
    | failed fault => exact ⟨_, signalled, .failed (by simp)⟩

theorem dryRun_quiet (a : Alert) (pids : List Int) (h : Host) : Emits Event.signal? h
    (pids.foldl (fun h pid => h.note (.killSkipped pid a.id a.ruleId.display)) h) [] := by
  have noted (h : Host) (pid : Int) :
      Adds (Event.signal? · = none) h (h.note (.killSkipped pid a.id a.ruleId.display)) := adds_record rfl
  exact (adds_foldl noted pids h).emits_none

/-- What the responder does with an alert in its scope. -/
theorem answerByKilling_served (dryRun : Bool) (a : Alert) (h : Host) : ∃ signals,
    Emits Event.signal? h (answerByKilling dryRun a h).1 signals ∧
    (dryRun = false → UpToFailure (pidsIn a.evidence) signals) ∧ (dryRun = true → signals = []) ∧
    (pidsIn a.evidence = [] →
      signals = [] ∧ (answerByKilling dryRun a h).2 = some (.noPid a.ruleId.display)) := by
  unfold answerByKilling
  by_cases hpids : (pidsIn a.evidence).isEmpty
  · have none : pidsIn a.evidence = [] := List.isEmpty_iff.1 hpids
    simp only [hpids, if_true]
    exact ⟨[], .refl, fun _ => by rw [none]; exact .nil, fun _ => rfl, fun _ => ⟨rfl, trivial⟩⟩
  · have some : pidsIn a.evidence ≠ [] := fun hnil => hpids (List.isEmpty_iff.2 hnil)
    simp only [hpids]
    cases dryRun with
    | true => exact ⟨[], dryRun_quiet a _ h, by simp, fun _ => rfl, fun hnil => absurd hnil some⟩
    | false =>
      obtain ⟨signals, hsignals, hup⟩ := endProcesses_upToFailure a (pidsIn a.evidence) h
      exact ⟨signals, hsignals, fun _ => hup, by simp, fun hnil => absurd hnil some⟩

theorem restricted_served (rules : List Key) (dryRun : Bool) (a : Alert) (h : Host) : ∃ signals,
    Emits Event.signal? h ((Responder.restricted rules (.kill dryRun)).handle a h).1 signals ∧
    Guarded rules dryRun (a, signals) ∧
    (InScope rules a → dryRun = false → UpToFailure (pidsIn a.evidence) signals) ∧
    (InScope rules a → pidsIn a.evidence = [] → signals = [] ∧
      ((Responder.restricted rules (.kill dryRun)).handle a h).2 = some (.noPid a.ruleId.display)) := by
  have handed : Emits Event.signal? h (h.record (.handed (.restricted rules (.kill dryRun)) a)) [] :=
    emits_record_none rfl
  obtain ⟨signals, hsignals, hup, hdry, hmissing⟩ :=
    answerByKilling_served dryRun a (h.record (.handed (.restricted rules (.kill dryRun)) a))
  have guarded (hscope : InScope rules a) : Guarded rules dryRun (a, signals) := by
    cases dryRun with
    | true => exact .inl (hdry rfl)
    | false => exact .inr ⟨rfl, hscope, hup rfl⟩
  unfold Responder.handle Responder.act
  by_cases hall : rules.isEmpty
  · have all : InScope rules a := .inl (List.isEmpty_iff.1 hall)
    simp only [hall, if_true]
    exact ⟨signals, handed.trans hsignals, guarded all, fun _ => hup, fun _ => hmissing⟩
  · have some : rules ≠ [] := fun hnil => hall (List.isEmpty_iff.2 hnil)
    simp only [hall]
    rcases hk : a.ruleId.toKey with f | k
    · have out : ¬ InScope rules a := by simp [InScope, some, hk]
      exact ⟨[], handed, .inl rfl, fun hin => absurd hin out, fun hin => absurd hin out⟩
    · by_cases hc : rules.contains k
      · have inside : InScope rules a := .inr ⟨k, hk, hc⟩
        simp only [hc, if_true]
        exact ⟨signals, handed.trans hsignals, guarded inside, fun _ => hup, fun _ => hmissing⟩
      · have out : ¬ InScope rules a := by simp [InScope, some, hk, hc]
        simp only [hc]
        exact ⟨[], handed, .inl rfl, fun hin => absurd hin out, fun hin => absurd hin out⟩

theorem deliverOne_served (hk : KillerAmong rules dryRun responders) (a : Alert) (h : Host) : ∃ signals,
    Emits Event.signal? h (deliverOne a responders h).1 signals ∧ Guarded rules dryRun (a, signals) ∧
    ∀ failures, (deliverOne a responders h).2 = .ok failures → Served rules dryRun failures (a, signals) := by
  induction hk generalizing h with
  | @here after hafter =>
    obtain ⟨signals, hsignals, hguarded, hup, hmissing⟩ := restricted_served rules dryRun a h
    have name : (Responder.restricted rules (.kill dryRun)).name = .ok "process_kill" := rfl
    have emitted (h₁ : Host) (hs : Emits Event.signal? h h₁ signals) :
        Emits Event.signal? h (deliverOne a after h₁).1 signals := by
      have := hs.trans (deliverOne_quiet hafter a h₁)
      rwa [List.append_nil] at this
    unfold deliverOne
    generalize (Responder.restricted rules (.kill dryRun)).handle a h = handled at hsignals hmissing
    obtain ⟨h₁, _ | failure⟩ := handled
    · refine ⟨signals, emitted h₁ hsignals, hguarded, fun failures _ => ⟨hup, fun hin hnil => ?_⟩⟩
      cases (hmissing hin hnil).2
    · simp only [name]
      refine ⟨signals, emitted h₁ hsignals, hguarded, fun failures ok => ⟨hup, fun hin hnil => ?_⟩⟩
      obtain ⟨none, hfailure⟩ := hmissing hin hnil
      obtain rfl := Option.some.inj hfailure
      rcases hrest : (deliverOne a after h₁).2 with f | more
      · rw [hrest] at ok
        cases ok
      · rw [hrest] at ok
        obtain rfl := Except.ok.inj ok
        exact ⟨none, List.mem_cons_self ..⟩
  | @there r rest hr _ ih =>
    have quiet := Responder.handle_quiet hr a h
    unfold deliverOne
    generalize r.handle a h = handled at quiet
    obtain ⟨h₁, _ | failure⟩ := handled
    · obtain ⟨signals, hsignals, hguarded, hserved⟩ := ih h₁
      exact ⟨signals, quiet.trans hsignals, hguarded, hserved⟩
    · rcases hname : r.name with f | name
      · -- a place without a responder ends the delivery before any attempt
        exact ⟨[], quiet, .inl rfl, fun failures ok => by cases ok⟩
      · obtain ⟨signals, hsignals, hguarded, hserved⟩ := ih h₁
        refine ⟨signals, quiet.trans hsignals, hguarded, fun failures ok => ?_⟩
        rcases hmore : (deliverOne a rest h₁).2 with f | more
        · simp [hmore, Except.map] at ok
        · simp only [hmore, Except.map] at ok
          obtain rfl := Except.ok.inj ok
          exact (hserved more hmore).mono fun f => List.mem_cons_of_mem _

/-- The attempts that a delivery leads to, alert by alert. -/
theorem deliver_served (hk : KillerAmong rules dryRun responders) (alerts : List Alert) (h : Host) :
    ∃ attempts : List Attempts,
      Emits Event.signal? h (deliver responders alerts h).1 (attempts.flatMap Prod.snd) ∧
      attempts.map Prod.fst <+: alerts ∧ (∀ x ∈ attempts, Guarded rules dryRun x) ∧
      ∀ failures, (deliver responders alerts h).2 = .ok failures →
        attempts.map Prod.fst = alerts ∧ ∀ x ∈ attempts, Served rules dryRun failures x := by
  induction alerts generalizing h with
  | nil => exact ⟨[], .refl, List.prefix_rfl, by simp, by simp⟩
  | cons a rest ih =>
    obtain ⟨signals, hsignals, hguarded, hserved⟩ := deliverOne_served hk a h
    unfold deliver
    generalize deliverOne a responders h = one at hsignals hserved
    obtain ⟨h₁, f | first⟩ := one
    · refine ⟨[(a, signals)], by simpa using hsignals, by simp, by simpa using hguarded, fun failures ok => ?_⟩
      cases ok
    · obtain ⟨attempts, hemits, hfst, hall, hcomplete⟩ := ih h₁
      refine ⟨(a, signals) :: attempts, by simpa using hsignals.trans hemits, ?_, ?_, fun failures ok => ?_⟩
      · exact List.cons_prefix_cons.2 ⟨rfl, hfst⟩
      · exact List.forall_mem_cons.2 ⟨hguarded, hall⟩
      · rcases hmore : (deliver responders rest h₁).2 with f | more
        · simp [hmore, Except.map] at ok
        · simp only [hmore, Except.map] at ok
          obtain rfl := Except.ok.inj ok
          obtain ⟨hsame, hlater⟩ := hcomplete more hmore
          refine ⟨by rw [List.map_cons, hsame], List.forall_mem_cons.2 ⟨?_, fun x hx => ?_⟩⟩
          · exact (hserved first rfl).mono fun f => List.mem_append_left _
          · exact (hlater x hx).mono fun f => List.mem_append_right _

end Killer

/-! ### Alerts that are delivered -/

/-- What is returned without a flag was left by the deduper. -/
theorem Detector.Detected.mem_unique {d : Detector Number} {clock : Number} {now : Timestamp} {s : Snapshot}
    {metadata : Metadata} {batch unique alerts : List Alert} {a : Alert}
    (hd : d.Detected clock now s metadata batch unique alerts) (ha : a ∈ alerts) (hflag : a.rateLimited = false) :
    a ∈ unique := by
  obtain ⟨metered, -, hmetered, rfl⟩ := hd.limited
  obtain ⟨m, hm, rfl⟩ := List.mem_map.1 ha
  obtain ⟨b, hb, one⟩ := exists_left_of_forall₂ hmetered hm
  unfold Detector.Metered at one
  split at one
  · rw [one]
    exact hb
  · rw [one] at hflag
    cases hflag

theorem Judged.unflagged {clock : Number} {policy policy' : Option (Policy Number)} {a : Alert}
    {fates : List (Alert × Fate)} (h : Judged clock policy fates policy') (ha : a ∈ withFate .delivered fates) :
    a.rateLimited = false := by
  induction h with
  | nil => cases ha
  | limited _ _ ih => exact ih (by simpa [withFate] using ha)
  | rejected _ _ _ ih => exact ih (by simpa [withFate] using ha)
  | @unconditional b fates hflag _ ih | @accepted b _ _ _ fates hflag _ _ ih =>
    have either : a ∈ b :: withFate .delivered fates := by simpa [withFate] using ha
    rcases List.mem_cons.1 either with rfl | ha
    · simpa using hflag
    · exact ih ha

/-! ### The pipeline -/

namespace Pipeline
variable {rules : List Key} {dryRun : Bool} {p : Pipeline} {d : Detector Number} {c : Call} {h : Host}
  {alerts : List Alert} {responders : List Responder} {fates : List (Alert × Fate)}

open Host

theorem signal?_of_isReport (e : Event) (he : e.isReport) : e.signal? = none := by
  cases e <;> first | rfl | cases he

/-- The fates that alerts get from a response, and the attempts on processes that it leads to. -/
structure Response (rules : List Key) (dryRun : Bool) (p : Pipeline) (alerts : List Alert) (h : Host)
    (result : Host × Except Fault (List Fault)) (fates : List (Alert × Fate)) (attempts : List Attempts) :
    Prop where
  judged : ∃ policy, Judged h.clock p.policy? fates policy
  known : fates ≠ [] → fates.map Prod.fst = alerts
  signals : Emits Event.signal? h result.1 (attempts.flatMap Prod.snd)
  delivered : attempts.map Prod.fst <+: withFate .delivered fates
  guarded : ∀ x ∈ attempts, Guarded rules dryRun x
  complete : ∀ failures, result.2 = .ok failures → fates.map Prod.fst = alerts ∧
    attempts.map Prod.fst = withFate .delivered fates ∧ ∀ x ∈ attempts, Served rules dryRun failures x

theorem Response.of_deliver (hk : KillerAmong rules dryRun responders) {policy : Option (Policy Number)} {h₁ : Host}
    (judged : Judged h.clock p.policy? fates policy) (known : fates.map Prod.fst = alerts)
    (quiet : Emits Event.signal? h h₁ []) : ∃ attempts,
      Response rules dryRun p alerts h (deliver responders (withFate .delivered fates) h₁) fates attempts := by
  obtain ⟨attempts, hemits, hfst, hguarded, hcomplete⟩ := deliver_served hk (withFate .delivered fates) h₁
  exact ⟨attempts, ⟨_, judged⟩, fun _ => known, quiet.trans hemits, hfst, hguarded,
    fun failures ok => ⟨known, hcomplete failures ok⟩⟩

theorem run_response {r : Router} {shared : Option (List Responder)} (hpolicy : p.policy? = r.policy)
    (hresponders : r.responders? shared = some responders) (hk : KillerAmong rules dryRun responders)
    (alerts : List Alert) (h : Host) : ∃ fates attempts, Response rules dryRun p alerts h
      (r.run shared (alerts.filter fun a => !a.rateLimited) h).2 fates attempts := by
  have quiet := (r.screen_adds (alerts.filter fun a => !a.rateLimited) h).emits_nil signal?_of_isReport
  unfold Router.run
  rcases hscreen : r.screen (alerts.filter fun a => !a.rateLimited) h with ⟨f | accepted, r', h₁⟩
  all_goals rw [hscreen] at quiet
  · -- nothing is delivered once the policy fails
    exact ⟨[], [], ⟨_, .nil⟩, by simp, quiet, List.prefix_rfl, by simp, fun failures ok => by cases ok⟩
  · obtain ⟨fates, hfst, judged, rfl, -, htarget⟩ := Router.screen_judged hscreen
    have same : r'.responders? shared = some responders := by
      rw [← hresponders]
      simp [Router.responders?, htarget]
    rw [← hpolicy] at judged
    obtain ⟨attempts, hresponse⟩ := Response.of_deliver hk judged hfst quiet
    refine ⟨fates, attempts, ?_⟩
    rcases hdelivered : withFate .delivered fates with _ | ⟨a, rest⟩
    · rw [hdelivered] at hresponse
      exact hresponse
    · rw [hdelivered] at hresponse
      simp only [same]
      exact hresponse

theorem respond_response (hactive : p.active? = some responders) (hk : KillerAmong rules dryRun responders)
    (alerts : List Alert) (h : Host) : ∃ fates attempts, Response rules dryRun p alerts h
      (p.respond (alerts.filter fun a => !a.rateLimited) h).2 fates attempts := by
  unfold respond
  rcases hrouter : p.router with _ | r
  · have hresponders : p.responders = some responders := by simpa [active?, hrouter] using hactive
    have hpolicy : p.policy? = none := by simp [policy?, hrouter]
    obtain ⟨fates, hfst, judged, -, hdelivered⟩ := judged_unconditional h.clock alerts
    rw [← hpolicy] at judged
    obtain ⟨attempts, hresponse⟩ := Response.of_deliver hk judged hfst .refl
    rw [hdelivered] at hresponse
    simp only [hresponders]
    exact ⟨fates, attempts, hresponse⟩
  · have hresponders : r.responders? p.responders = some responders := by simpa [active?, hrouter] using hactive
    have hpolicy : p.policy? = r.policy := by simp [policy?, hrouter]
    exact run_response hpolicy hresponders hk alerts h

/-! ### Every turn -/

theorem respond_active (p : Pipeline) (due : List Alert) (h : Host) : (p.respond due h).1.active? = p.active? := by
  unfold respond
  rcases hrouter : p.router with _ | r
  · rcases hresponders : p.responders with _ | responders <;> simp [active?, hrouter, hresponders]
  · have target : (r.run p.responders due h).1.target = r.target := by rw [r.run_fst]
    simp [active?, hrouter, Router.responders?, target]

theorem process_active (p : Pipeline) (c : Call) :
    (p.process c.snapshot c.metadata c.host).pipeline.active? = p.active? := by
  rcases hd : p.detector with _ | d
  · simp [process, hd]
  · rcases hv : (d.evaluate c.host.clock c.host.now c.snapshot c.metadata true).alerts with f | alerts
    · simp only [process, hd, hv]
      rfl
    · rw [process_of_detector hd hv]
      have responded := respond_active (p.looked d c) (alerts.filter fun a => !a.rateLimited) (noted d c)
      generalize (p.looked d c).respond (alerts.filter fun a => !a.rateLimited) (noted d c) = answered at responded
      obtain ⟨p', h', f | failures⟩ := answered
      · exact responded
      · exact responded

/-- A turn with what came of it: what the deduper left, the fates of what detection returned, and the
attempts on processes for what was delivered. -/
structure Turn.Kills (rules : List Key) (dryRun : Bool) (t : Turn) (unique : List Alert)
    (fates : List (Alert × Fate)) (attempts : List Attempts) : Prop where
  detected : fates ≠ [] → ∃ d batch, t.pipeline.detector = some d ∧ d.Detected t.call.host.clock t.call.host.now
    t.call.snapshot t.call.metadata batch unique (fates.map Prod.fst)
  judged : ∃ policy, Judged t.call.host.clock t.pipeline.policy? fates policy
  /-- What was delivered has passed the deduper and was not held back by the limiter. -/
  admitted : ∀ a ∈ withFate .delivered fates, a ∈ unique ∧ a.rateLimited = false
  signals : Emits Event.signal? t.call.host t.outcome.host (attempts.flatMap Prod.snd)
  delivered : attempts.map Prod.fst <+: withFate .delivered fates
  guarded : ∀ x ∈ attempts, Guarded rules dryRun x
  /-- If no fault ended the turn every delivered alert in scope was served. -/
  complete : t.outcome.fault = none → fates.map Prod.fst = t.outcome.alerts ∧
    attempts.map Prod.fst = withFate .delivered fates ∧ ∀ x ∈ attempts, Served rules dryRun t.outcome.failures x

theorem noted_quiet (d : Detector Number) (c : Call) : Emits Event.signal? c.host (noted d c) [] := by
  have notices (h : Host) (n : Notice) : Adds (Event.signal? · = none) h (h.note n) := adds_record rfl
  exact (adds_foldl notices _ c.host).emits_none

theorem process_kills (hactive : p.active? = some responders) (hk : KillerAmong rules dryRun responders)
    (c : Call) : ∃ unique fates attempts,
      Turn.Kills rules dryRun ⟨p, c, p.process c.snapshot c.metadata c.host⟩ unique fates attempts := by
  rcases hd : p.detector with _ | d
  · refine ⟨[], [], [], by simp, ⟨_, .nil⟩, by simp [withFate], ?_, List.prefix_rfl, by simp, ?_⟩
    · simp only [process, hd]
      exact .refl
    · simp [process, hd, withFate]
  · rcases hv : (d.evaluate c.host.clock c.host.now c.snapshot c.metadata true).alerts with f | alerts
    · -- a fault in detection leaves its notices and nothing else
      refine ⟨[], [], [], by simp, ⟨_, .nil⟩, by simp [withFate], ?_, List.prefix_rfl, by simp, ?_⟩
      · simp only [process, hd, hv]
        exact noted_quiet d c
      · simp [process, hd, hv]
    · obtain ⟨batch, unique, detected⟩ := Detector.evaluate_detected hv
      obtain ⟨fates, attempts, response⟩ := respond_response (p := p.looked d c) hactive hk alerts (noted d c)
      obtain ⟨policy, judged⟩ := response.judged
      rw [noted_clock] at judged
      have known (hne : fates ≠ []) : fates.map Prod.fst = alerts := response.known hne
      rw [process_of_detector hd hv]
      refine ⟨unique, fates, attempts, fun hne => ⟨d, batch, hd, (known hne).symm ▸ detected⟩, ⟨policy, judged⟩,
        fun a ha => ?_, ?_, response.delivered, response.guarded, ?_⟩
      · have unflagged := judged.unflagged ha
        have ne : fates ≠ [] := by
          rintro rfl
          cases ha
        have returned : a ∈ alerts := by
          obtain ⟨x, hx, rfl⟩ := List.mem_map.1 ha
          exact known ne ▸ List.mem_map_of_mem (List.mem_of_mem_filter hx)
        exact ⟨detected.mem_unique returned unflagged, unflagged⟩
      · have emitted := (noted_quiet d c).trans response.signals
        split <;> rename_i heq <;> rw [heq] at emitted <;> exact emitted
      · have complete := response.complete
        split
        · rename_i heq
          rw [heq] at complete
          exact fun _ => complete _ rfl
        · intro ok
          cases ok

/-- In every turn of every run, whatever the rules raise and however attempts on processes fail: each
attempt is on a process that an alert names which was delivered and is in scope, and there are none in a
dry run. -/
theorem trace_kills {p : Pipeline} (hactive : p.active? = some responders)
    (hk : KillerAmong rules dryRun responders) (calls : List Call) : ∀ t ∈ p.trace calls,
    ∃ unique fates attempts, t.Kills rules dryRun unique fates attempts ∧
      ∀ s ∈ attempts.flatMap Prod.snd, ∃ a ∈ withFate .delivered fates,
        dryRun = false ∧ InScope rules a ∧ s.1 ∈ pidsIn a.evidence := by
  refine forall_mem_trace (I := fun p => p.active? = some responders) (C := fun _ => True)
    (fun p c hactive _ => ⟨?_, (process_active p c).trans hactive⟩) hactive fun _ _ => trivial
  obtain ⟨unique, fates, attempts, kills⟩ := process_kills hactive hk c
  refine ⟨unique, fates, attempts, kills, fun s hs => ?_⟩
  obtain ⟨x, hx, hs⟩ := List.mem_flatMap.1 hs
  exact ⟨x.1, kills.delivered.subset (List.mem_map_of_mem hx), (kills.guarded x hx).authorised s hs⟩

/-- A pipeline that ends processes for one rule only. -/
def armed : Pipeline where
  detector := some {
    rules := [{ id := .text "miner", evaluate := some fun _ => .ok [
      { ruleId := .text "miner", evidence := [("pids", .list [.int 1, .int 2, .int 3])] },
      { ruleId := .text "other", evidence := [("pid", .int 4)] },
      { ruleId := .text "miner", dedupKey := "k" }] }]
    ids := .default fun _ => 0 }
  responders := some [.log true, .restricted [.ofText "miner"] (.kill false)]

/-- The second attempt fails, so there is none on the third process; an alert of another rule leads to
no attempt, and one that names no process to a failure. -/
theorem trace_kills_armed : ∃ c : Call,
    (armed.trace [c]).map (fun t => t.outcome.host.journal.events.filterMap Event.signal?) =
      [[(1, .killed), (2, .gone)]] ∧
    (armed.trace [c]).map (fun t => t.outcome.failures) =
      [[.responder "process_kill" (.processGone 2), .responder "process_kill" (.noPid "miner")]] ∧
    ∀ t ∈ armed.trace [c], ∃ unique fates attempts, t.Kills [.ofText "miner"] false unique fates attempts := by
  refine ⟨⟨{}, {}, {
    now := .ofMicros 0
    killOutcomes := { outcome := fun n _ => if n = 1 then .gone else .killed } }⟩, by decide +kernel,
    by decide +kernel, fun t ht => ?_⟩
  have among : KillerAmong [.ofText "miner"] false [.log true, .restricted [.ofText "miner"] (.kill false)] :=
    .there rfl (.here (by simp))
  obtain ⟨unique, fates, attempts, kills, -⟩ := trace_kills rfl among _ t ht
  exact ⟨unique, fates, attempts, kills⟩

end Pipeline

end HostWatch
