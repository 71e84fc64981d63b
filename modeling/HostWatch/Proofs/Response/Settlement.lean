import HostWatch.Proofs.Detection.Typed
import HostWatch.Proofs.Response.Fates

/-!
# No alert is lost or delivered twice

A `Turn` is one snapshot on its way through the pipeline. It is `Settled` if what the rules raised is
returned but for what the deduper held back, and every returned alert met one fate and was answered
accordingly. `Pipeline.trace_settled`: every turn of every run is settled that was not ended by a fault,
and with settings and rules of the declared types no turn is.
-/

namespace HostWatch

/-! ### Responses of declared types -/

/-- A policy of the declared types. -/
structure Policy.IsTyped (p : Policy Number) : Prop where
  minSeverity : p.minSeverity.IsText
  cooldown : ∃ t, p.cooldown = .ok t ∧ t.InRange

namespace Policy
variable {p : Policy Number} {a : Alert} {clock : Number}

theorem rankOf_typed {v : Value} (h : v.IsText) : ∃ n, Severity.rankOf v = .ok n := by
  obtain ⟨s, hs⟩ := h.textFor "lower"
  unfold Severity.rankOf
  split
  · exact ⟨0, rfl⟩
  · exact ⟨_, by rw [hs]; rfl⟩

theorem admits_typed (hp : p.IsTyped) (ha : a.IsTyped) : ∃ b, p.admits a = .ok b := by
  obtain ⟨k, hk⟩ := ha.ruleId.toKey
  obtain ⟨m, hm⟩ := rankOf_typed ha.severity
  obtain ⟨n, hn⟩ := rankOf_typed hp.minSeverity
  have severe : ∃ b, p.isSevere a = .ok b := by
    unfold isSevere
    by_cases h : p.minSeverity.isEmpty
    · exact ⟨true, by simp [h]; rfl⟩
    · exact ⟨decide (n ≤ m), by simp [h, hm, hn]; rfl⟩
  obtain ⟨b, hb⟩ := severe
  unfold admits
  rw [hk]
  by_cases hdeny : p.deny.contains k
  · exact ⟨false, by simp [bind, Except.bind, hdeny]; rfl⟩
  · by_cases hallow : !p.allow.isEmpty && !p.allow.contains k
    · exact ⟨false, by simp [bind, Except.bind, hdeny, hallow]; rfl⟩
    · exact ⟨b, by simp [bind, Except.bind, hdeny, hallow, hb]⟩

theorem decision_typed (hp : p.IsTyped) (ha : a.IsTyped) (hclock : clock.InRange) :
    ∃ accepted p', p.decision clock a = .ok (accepted, p') ∧ p'.IsTyped := by
  obtain ⟨admitted, hadmits⟩ := admits_typed hp ha
  obtain ⟨cooldown, hcooldown, hrange⟩ := hp.cooldown
  obtain ⟨k, hk⟩ := ha.key
  obtain ⟨t, ht⟩ := hclock.after hrange
  unfold decision
  rw [hadmits, hcooldown]
  cases admitted with
  | false => exact ⟨false, p, rfl, hp⟩
  | true =>
    by_cases hpos : 0 < cooldown
    · by_cases hcooling : p.cooling clock k
      · exact ⟨false, p, by simp [bind, Except.bind, hpos, hk, hcooling]; rfl, hp⟩
      · refine ⟨true, { p with eligible := OrderedMap.set p.eligible k t }, ?_, hp.1, hp.2⟩
        simp [bind, Except.bind, hpos, hk, hcooling, ht, hcooldown]
        rfl
    · exact ⟨true, p, by simp [bind, Except.bind, hpos]; rfl, hp⟩

theorem decideAll_typed {alerts : List Alert} (hp : p.IsTyped) (halerts : ∀ a ∈ alerts, a.IsTyped)
    (hclock : clock.InRange) :
    (p.decideAll clock alerts).fault = none ∧ (p.decideAll clock alerts).policy.IsTyped := by
  induction alerts generalizing p with
  | nil => exact ⟨rfl, hp⟩
  | cons a rest ih =>
    obtain ⟨accepted, p', hdecision, hp'⟩ := decision_typed hp (halerts a (by simp)) hclock
    unfold decideAll
    rw [hdecision]
    exact ih hp' fun a ha => halerts a (by simp [ha])

end Policy

theorem deliverOne_named {responders : List Responder} (hnamed : ∀ r ∈ responders, r.name?.isSome)
    (a : Alert) (h : Host) : ∃ failures, (deliverOne a responders h).2 = .ok failures := by
  induction responders generalizing h with
  | nil => exact ⟨[], rfl⟩
  | cons r rest ih =>
    have later := ih fun r hr => hnamed r (by simp [hr])
    obtain ⟨name, hname⟩ := Option.isSome_iff_exists.1 (hnamed r (by simp))
    have named : r.name = .ok name := by rw [Responder.name, hname, Fault.ofOption]
    unfold deliverOne
    split
    · exact later _
    · rename_i h₁ failure _
      obtain ⟨failures, hfailures⟩ := later h₁
      rw [named]
      simp only [hfailures]
      exact ⟨_, rfl⟩

theorem deliver_named {responders : List Responder} (hnamed : ∀ r ∈ responders, r.name?.isSome)
    (alerts : List Alert) (h : Host) : ∃ failures, (deliver responders alerts h).2 = .ok failures := by
  induction alerts generalizing h with
  | nil => exact ⟨[], rfl⟩
  | cons a rest ih =>
    obtain ⟨first, hfirst⟩ := deliverOne_named hnamed a h
    unfold deliver
    split
    · rename_i heq
      rw [heq] at hfirst
      cases hfirst
    · rename_i h₁ _ _
      obtain ⟨more, hmore⟩ := ih h₁
      simp only [hmore]
      exact ⟨_, rfl⟩

namespace Pipeline

/-- A pipeline set up with the declared types. -/
structure IsTyped (p : Pipeline) : Prop where
  detector : ∀ d ∈ p.detector, d.IsTyped
  policy : ∀ policy ∈ p.policy?, policy.IsTyped
  responders : ∀ responders ∈ p.active?, ∀ r ∈ responders, r.name?.isSome

section Typed
variable {p : Pipeline} {alerts : List Alert} {h : Host}

theorem screen_typed {r : Router} (hpolicy : ∀ policy ∈ r.policy, policy.IsTyped)
    (halerts : ∀ a ∈ alerts, a.IsTyped) (hclock : h.clock.InRange) :
    ∃ accepted r' h', r.screen alerts h = (.ok accepted, r', h') ∧ r'.target = r.target ∧
      ∀ policy ∈ r'.policy, policy.IsTyped := by
  unfold Router.screen
  split
  · exact ⟨alerts, r, h, rfl, rfl, hpolicy⟩
  · rename_i policy hsome
    obtain ⟨ok, typed⟩ := Policy.decideAll_typed (hpolicy policy hsome) halerts hclock
    simp only [ok]
    refine ⟨_, _, _, rfl, rfl, fun policy' hpolicy' => ?_⟩
    exact Option.mem_some_iff.1 hpolicy' ▸ typed

theorem run_typed {r : Router} {shared : Option (List Responder)}
    (hpolicy : ∀ policy ∈ r.policy, policy.IsTyped)
    (hresponders : ∀ responders ∈ r.responders? shared, ∀ r ∈ responders, r.name?.isSome)
    (halerts : ∀ a ∈ alerts, a.IsTyped) (hclock : h.clock.InRange) :
    ∃ r' h' failures, r.run shared alerts h = (r', h', .ok failures) ∧ r'.target = r.target ∧
      ∀ policy ∈ r'.policy, policy.IsTyped := by
  obtain ⟨accepted, r', h₁, hscreen, htarget, typed⟩ := screen_typed hpolicy halerts hclock
  have same : r'.responders? shared = r.responders? shared := by simp [Router.responders?, htarget]
  unfold Router.run
  rw [hscreen]
  cases accepted with
  | nil => exact ⟨r', h₁, [], rfl, htarget, typed⟩
  | cons a rest =>
    simp only [same]
    rcases hsome : r.responders? shared with _ | responders
    · exact ⟨r', h₁, _, rfl, htarget, typed⟩
    · obtain ⟨failures, hfailures⟩ := deliver_named (hresponders responders hsome) (a :: rest) h₁
      exact ⟨r', _, failures, by rw [← hfailures], htarget, typed⟩

theorem respond_typed (hp : p.IsTyped) (halerts : ∀ a ∈ alerts, a.IsTyped) (hclock : h.clock.InRange) :
    ∃ p' h' failures, p.respond alerts h = (p', h', .ok failures) ∧ p'.IsTyped := by
  unfold respond
  rcases hrouter : p.router with _ | r
  · rcases hresponders : p.responders with _ | responders
    · exact ⟨p, h, [], rfl, hp⟩
    · have named := hp.responders responders (by simp [active?, hrouter, hresponders])
      obtain ⟨failures, hfailures⟩ := deliver_named named alerts h
      exact ⟨p, _, failures, by rw [← hfailures], hp⟩
  · have hactive : p.active? = r.responders? p.responders := by simp [active?, hrouter]
    have hpolicy : p.policy? = r.policy := by simp [policy?, hrouter]
    obtain ⟨r', h', failures, hrun, htarget, typed⟩ := run_typed (hpolicy ▸ hp.policy)
      (hactive ▸ hp.responders) halerts hclock
    have same : r'.responders? p.responders = r.responders? p.responders := by
      simp [Router.responders?, htarget]
    simp only [hrun]
    refine ⟨_, _, _, rfl, hp.detector, by simpa [policy?] using typed, ?_⟩
    have kept : ({ p with router := some r' } : Pipeline).active? = p.active? := same.trans hactive.symm
    exact kept ▸ hp.responders

end Typed

/-! ### One turn -/

/-- A snapshot that comes to a pipeline. -/
structure Call where
  snapshot : Snapshot
  metadata : Metadata
  /-- The host at that time; between two calls it may change in any way. -/
  host : Host

/-- A call with the pipeline that it meets, and what comes of it. -/
structure Turn where
  pipeline : Pipeline
  call : Call
  outcome : Outcome

/-- The turns of calls that come to a pipeline one after the other. -/
def trace (p : Pipeline) : List Call → List Turn
  | [] => []
  | c :: rest =>
    let o := p.process c.snapshot c.metadata c.host
    ⟨p, c, o⟩ :: o.pipeline.trace rest

/-- If every call keeps `I` of the pipeline, and with `I` gives a turn with `P`, all turns of a run have `P`. -/
theorem forall_mem_trace {I : Pipeline → Prop} {C : Call → Prop} {P : Turn → Prop} {p : Pipeline}
    {calls : List Call} (step : ∀ p c, I p → C c → P ⟨p, c, p.process c.snapshot c.metadata c.host⟩ ∧
      I (p.process c.snapshot c.metadata c.host).pipeline)
    (start : I p) (all : ∀ c ∈ calls, C c) : ∀ t ∈ p.trace calls, P t := by
  induction calls generalizing p with
  | nil => exact fun t ht => absurd ht List.not_mem_nil
  | cons c rest ih =>
    obtain ⟨first, others⟩ := List.forall_mem_cons.1 all
    obtain ⟨turn, kept⟩ := step p c start first
    exact List.forall_mem_cons.2 ⟨turn, ih kept others⟩

/-- The returned alerts are what detection returns, and each has met its fate. -/
def Turn.Settled (t : Turn) : Prop :=
  match t.pipeline.detector with
  | none => t.outcome.alerts = [] ∧ t.outcome.failures = [] ∧ t.outcome.host = t.call.host
  | some d => ∃ batch unique fates,
    d.Detected t.call.host.clock t.call.host.now t.call.snapshot t.call.metadata batch unique
      t.outcome.alerts ∧
    fates.map Prod.fst = t.outcome.alerts ∧
    Judged t.call.host.clock t.pipeline.policy? fates t.outcome.pipeline.policy? ∧
    t.pipeline.Answered fates t.call.host t.outcome.failures t.outcome.host

section Turn
variable {p : Pipeline} {d : Detector Number} {s : Snapshot} {metadata : Metadata} {h : Host}
  {alerts : List Alert}

theorem respond_nil (p : Pipeline) (h : Host) : p.respond [] h = (p, h, .ok []) := by
  rcases p with ⟨detector, _ | ⟨_ | policy, target, hook⟩, _ | responders⟩ <;> rfl

/-- The pipeline once detection has looked at the snapshot. -/
def looked (p : Pipeline) (d : Detector Number) (c : Call) : Pipeline :=
  let verdict := d.evaluate c.host.clock c.host.now c.snapshot c.metadata true
  { p with detector := some verdict.detector }

/-- The host once the rules that failed are noted. -/
def noted (d : Detector Number) (c : Call) : Host :=
  (d.evaluate c.host.clock c.host.now c.snapshot c.metadata true).notices.foldl Host.note c.host

theorem noted_clock (d : Detector Number) (c : Call) : (noted d c).clock = c.host.clock := by
  have all (notices : List Notice) (h : Host) : (notices.foldl Host.note h).clock = h.clock := by
    induction notices generalizing h with
    | nil => rfl
    | cons n rest ih => exact ih (h.note n)
  exact all _ _

theorem noted_emits (d : Detector Number) (c : Call) :
    Host.Emits Event.answer? c.host (noted d c) [] := by
  have notices : (d.evaluate c.host.clock c.host.now c.snapshot c.metadata true).notices =
      (Detector.gather d.rules c.snapshot c.metadata c.host.now d.ids).failed.map
        fun r => .ruleFailed r.id.display c.metadata.capturer := by
    unfold Detector.evaluate
    simp only
    split
    · rfl
    · split
      · rfl
      · split <;> rfl
  have all (rules : List Rule) (h : Host) : Host.Emits Event.answer? h
      ((rules.map fun r => Notice.ruleFailed r.id.display c.metadata.capturer).foldl Host.note h) [] := by
    induction rules generalizing h with
    | nil => exact .refl
    | cons r rest ih =>
      have one : Host.Emits Event.answer? h (h.note (.ruleFailed r.id.display c.metadata.capturer)) [] :=
        Host.emits_record_none rfl
      exact one.trans (ih _)
  unfold noted
  rw [notices]
  exact all _ _

/-- Whatever detection returns goes through the response, even if nothing is due. -/
theorem process_of_detector {p : Pipeline} {d : Detector Number} {c : Call} {alerts : List Alert}
    (hd : p.detector = some d)
    (hv : (d.evaluate c.host.clock c.host.now c.snapshot c.metadata true).alerts = .ok alerts) :
    p.process c.snapshot c.metadata c.host =
      match (p.looked d c).respond (alerts.filter fun a => !a.rateLimited) (noted d c) with
      | (p, h, .ok failures) => { alerts, failures, pipeline := p, host := h }
      | (p, h, .error f) => { fault := some f, pipeline := p, host := h } := by
  unfold process
  rw [hd]
  simp only [hv]
  split
  · rename_i hnil
    rw [List.isEmpty_iff.1 hnil, respond_nil]
    rfl
  · rfl

theorem Answered.after_note {p : Pipeline} {fates : List (Alert × Fate)} {h h₀ h' : Host} {failures : List Fault}
    (answered : p.Answered fates h₀ failures h') (hnote : Host.Emits Event.answer? h h₀ []) :
    p.Answered fates h failures h' := by
  obtain ⟨h₁, answers, reported, handled, hfailures⟩ := answered.failures
  exact .of_handleEach (hnote.trans reported) handled hfailures

theorem process_settled (p : Pipeline) (c : Call)
    (ok : (p.process c.snapshot c.metadata c.host).fault = none) :
    Turn.Settled ⟨p, c, p.process c.snapshot c.metadata c.host⟩ := by
  unfold Turn.Settled
  rcases hd : p.detector with _ | d
  · simp [hd, process]
  · rcases hv : (d.evaluate c.host.clock c.host.now c.snapshot c.metadata true).alerts with f | alerts
    · simp [process, hd, hv] at ok
    · obtain ⟨batch, unique, detected⟩ := Detector.evaluate_detected hv
      rw [process_of_detector hd hv] at ok ⊢
      split at ok
      · rename_i p' h' failures hrespond
        obtain ⟨fates, hfst, judged, answered⟩ := respond_answered hrespond
        rw [noted_clock] at judged
        have noted : (p.looked d c).Answered fates c.host failures h' := answered.after_note (noted_emits d c)
        exact ⟨batch, unique, fates, detected, hfst, judged, ⟨noted.events, noted.failures⟩⟩
      · cases ok

theorem process_typed {p : Pipeline} (hp : p.IsTyped) (c : Call) (hclock : c.host.clock.InRange) :
    (p.process c.snapshot c.metadata c.host).fault = none ∧
      (p.process c.snapshot c.metadata c.host).pipeline.IsTyped := by
  rcases hd : p.detector with _ | d
  · simpa [process, hd] using hp
  · have typed := hp.detector d hd
    obtain ⟨alerts, hv, halerts⟩ := Detector.evaluate_typed typed hclock c.host.now c.snapshot c.metadata
    have setup := Detector.evaluate_setup d c.host.clock c.host.now c.snapshot c.metadata true
    have hp₁ : (p.looked d c).IsTyped :=
      ⟨fun d' hd' => Option.mem_some_iff.1 hd' ▸ setup.isTyped typed, hp.policy, hp.responders⟩
    have hdue : ∀ a ∈ alerts.filter fun a => !a.rateLimited, a.IsTyped :=
      fun a ha => halerts a (List.mem_of_mem_filter ha)
    have hclock₁ : (noted d c).clock.InRange := noted_clock d c ▸ hclock
    obtain ⟨p', h', failures, hrespond, hp'⟩ := respond_typed hp₁ hdue hclock₁
    rw [process_of_detector hd hv, hrespond]
    exact ⟨rfl, hp'⟩

end Turn

/-- Of the declared types no turn of a run is ended by a fault. -/
theorem trace_typed {p : Pipeline} {calls : List Call} (hp : p.IsTyped)
    (hclocks : ∀ c ∈ calls, c.host.clock.InRange) : ∀ t ∈ p.trace calls, t.outcome.fault = none :=
  forall_mem_trace (fun _ c hp hclock => process_typed hp c hclock) hp hclocks

/-- In every run each turn is settled unless a fault ended it, and of the declared types none is
ended. -/
theorem trace_settled (p : Pipeline) (calls : List Call) : ∀ t ∈ p.trace calls,
    (t.outcome.fault = none → t.Settled) ∧
    (p.IsTyped → (∀ c ∈ calls, c.host.clock.InRange) → t.outcome.fault = none) := by
  have settled : ∀ t ∈ p.trace calls, t.outcome.fault = none → t.Settled :=
    forall_mem_trace (I := fun _ => True) (C := fun _ => True)
      (fun p c _ _ => ⟨process_settled p c, trivial⟩) trivial fun _ _ => trivial
  exact fun t ht => ⟨settled t ht, fun hp hclocks => trace_typed hp hclocks t ht⟩

/-- A pipeline with all its parts: two rules of which one fails, a deduper, a limiter, and a router with
a policy in front of a responder that always fails. Only one of the two alerts is severe enough. -/
def guarded : Pipeline where
  detector := some {
    rules := [
      { id := .text "fails", evaluate := some fun _ => .error (.external .general "broken") },
      { id := .text "raises", evaluate := some fun _ => .ok [
        { dedupKey := "k", severity := .text "high" }, { dedupKey := "l", severity := .text "info" }] }]
    deduper := some { window := .double 300 }
    limiter := some { window := .double 900, burst := 1 }
    ids := .default fun _ => 0 }
  router := some {
    policy := some { minSeverity := .text "low", cooldown := .ok (.double 120) }
    target := .own [.external { id := 0, name := "pager", answer := fun _ => some (.external .general "busy") }]
    hook := .reported }

theorem guarded_typed : guarded.IsTyped where
  detector := by
    intro d hd
    obtain rfl := Option.some.inj hd
    refine ⟨fun r hr => ?_, fun w hw => ?_, fun w hw => ?_⟩
    · simp only [List.mem_cons, List.not_mem_nil, or_false] at hr
      rcases hr with rfl | rfl
      · refine ⟨⟨_, rfl⟩, ⟨_, rfl⟩, ⟨_, rfl⟩, fun evaluate hev s raw hraw => ?_⟩
        obtain rfl := Option.some.inj hev
        cases hraw
      · refine ⟨⟨_, rfl⟩, ⟨_, rfl⟩, ⟨_, rfl⟩, fun evaluate hev s raw hraw a ha => ?_⟩
        obtain rfl := Option.some.inj hev
        obtain rfl := Except.ok.inj hraw
        simp only [List.mem_cons, List.not_mem_nil, or_false] at ha
        rcases ha with rfl | rfl <;> exact ⟨⟨_, rfl⟩, ⟨_, rfl⟩, rfl⟩
    · obtain rfl := Option.some.inj hw
      rfl
    · obtain rfl := Option.some.inj hw
      rfl
  policy := by
    intro policy hpolicy
    obtain rfl := Option.some.inj hpolicy
    exact ⟨⟨_, rfl⟩, _, rfl, rfl⟩
  responders := by
    intro responders hresponders r hr
    obtain rfl := Option.some.inj hresponders
    obtain rfl := List.mem_singleton.1 hr
    rfl

/-- At first one alert is delivered and one rejected; when the deduper lets them through again both are
over the limit. -/
theorem trace_settled_guarded : ∃ c c' : Call,
    (guarded.trace [c, c']).map (fun t => (t.outcome.alerts.map Alert.rateLimited, t.outcome.failures.length)) =
      [([false, false], 1), ([true, true], 0)] ∧
    ∀ t ∈ guarded.trace [c, c'], t.outcome.fault = none ∧ t.Settled := by
  refine ⟨⟨{}, {}, { now := .ofMicros 0 }⟩, ⟨{}, {}, { now := .ofMicros 0, clock := .double 400 }⟩,
    by decide +kernel, fun t ht => ?_⟩
  obtain ⟨settled, ends⟩ := trace_settled guarded _ t ht
  have ok := ends guarded_typed fun c hc => by
    simp only [List.mem_cons, List.not_mem_nil, or_false] at hc
    rcases hc with rfl | rfl <;> rfl
  exact ⟨ok, settled ok⟩

end Pipeline

end HostWatch
