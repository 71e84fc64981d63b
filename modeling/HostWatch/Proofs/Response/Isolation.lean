import HostWatch.Proofs.Detection.Apart
import HostWatch.Proofs.Response.Settlement

/-!
# No key is heard through another

The `Gates` of a pipeline are its deduper, its limiter and its policy, which all alerts pass in this
order. A `Course` names the `Passage` of every alert of every call. Whatever other alerts two runs
contain, and however these are mixed in, the alerts of a key meet the same passage in both
(`Gates.keys_isolated`): the gates taken together keep keys apart (`Gates.keepsApart`). What a pipeline does
with the batches that its rules find is such a course (`Pipeline.process_passes`).
-/

namespace HostWatch

/-! ### Policies -/

namespace Policy
variable {now : Number} {policy policy' : Option (Policy Number)} {p p' : Policy Number} {a : Alert} {k : Key}
  {accepted : Bool} {marks : List (Alert × Bool)}

/-- What a policy does with one alert, if there is one. -/
inductive Step (now : Number) : Option (Policy Number) → Alert → Bool → Option (Policy Number) → Prop
  | absent {a : Alert} : Step now none a true none
  | decides {p p' : Policy Number} {a : Alert} {accepted : Bool} (h : p.decision now a = .ok (accepted, p')) :
      Step now (some p) a accepted (some p')

/-- What a policy goes by for a key: how it is set up, and from when the key is accepted again. -/
abbrev Held := Option (Policy Number × Option Number)

def heldFor (policy : Option (Policy Number)) (k : Key) : Held :=
  policy.map fun p => ({ p with eligible := [] }, OrderedMap.get? p.eligible k)

/-- What becomes of an alert, going by what is held for its key. -/
def answer (now : Number) : Held → Alert → Except Fault (Bool × Held)
  | none, _ => .ok (true, none)
  | some (p, next?), a => do
    if !(← p.admits a) then return (false, some (p, next?))
    let cooldown ← p.cooldown
    if !decide (0 < cooldown) then return (true, some (p, next?))
    if next?.any fun t => decide (now < t) then return (false, some (p, next?))
    let t ← Clock.after now cooldown
    return (true, some (p, some t))

/-- All ways a policy can decide on an alert. -/
inductive Decided (p : Policy Number) (now : Number) (a : Alert) : Bool → Policy Number → Prop
  | unsuitable (ha : p.admits a = .ok false) : Decided p now a false p
  | unlimited {cooldown : Number} (ha : p.admits a = .ok true) (hc : p.cooldown = .ok cooldown)
      (hpos : ¬ 0 < cooldown) : Decided p now a true p
  | cooling {cooldown : Number} {l : Key} (ha : p.admits a = .ok true) (hc : p.cooldown = .ok cooldown)
      (hpos : 0 < cooldown) (hl : a.key.toKey = .ok l) (hcooling : p.cooling now l = true) :
      Decided p now a false p
  | starting {cooldown t : Number} {l : Key} (ha : p.admits a = .ok true) (hc : p.cooldown = .ok cooldown)
      (hpos : 0 < cooldown) (hl : a.key.toKey = .ok l) (hcooling : p.cooling now l = false)
      (ht : Clock.after now cooldown = .ok t) :
      Decided p now a true { p with eligible := OrderedMap.set p.eligible l t }

theorem decided_of_decision (h : p.decision now a = .ok (accepted, p')) : p.Decided now a accepted p' := by
  unfold decision at h
  rcases ha : p.admits a with f | _ | _
  · rw [ha] at h
    cases h
  · rw [ha] at h
    cases h
    exact .unsuitable ha
  · rcases hc : p.cooldown with f | cooldown
    · rw [ha, hc] at h
      cases h
    · simp only [ha, hc, bind, Except.bind] at h
      by_cases hpos : 0 < cooldown
      · rcases hl : a.key.toKey with f | l
        · simp [hpos, hl] at h
        · rcases hcooling : p.cooling now l with _ | _
          · rcases ht : Clock.after now cooldown with f | t
            · simp [hpos, hl, hcooling, ht] at h
            · simp only [hpos, hl, hcooling, ht] at h
              cases h
              rw [← hc]
              exact .starting ha hc hpos hl hcooling ht
          · simp only [hpos, hl, hcooling] at h
            cases h
            exact .cooling ha hc hpos hl hcooling
      · simp only [hpos] at h
        cases h
        exact .unlimited ha hc hpos

theorem cooling_eq_any {l : Key} (h : l == k) :
    p.cooling now l = (OrderedMap.get? p.eligible k).any fun t => decide (now < t) := by
  unfold cooling
  rw [OrderedMap.get?_congr _ h]
  cases OrderedMap.get? p.eligible k <;> rfl

theorem keepsApart (now : Number) : KeepsApart heldFor (answer now) (Step now) where
  other := by
    intro s a b s' k hstep hk
    cases hstep with
    | absent => rfl
    | decides h =>
      cases decided_of_decision h with
      | unsuitable => rfl
      | unlimited => rfl
      | cooling => rfl
      | starting _ _ _ hl =>
        rw [Alert.hasKey_eq hl] at hk
        simp [heldFor, OrderedMap.get?_set, hk]
  own := by
    intro s a b s' k hstep hk
    cases hstep with
    | absent => rfl
    | @decides p _ _ _ h =>
      -- how rule and severity are judged does not depend on what is remembered
      have setup : Policy.admits { p with eligible := [] } a = p.admits a := rfl
      simp only [heldFor, Option.map_some, answer, setup]
      cases decided_of_decision h with
      | unsuitable ha => simp [ha, bind, Except.bind, pure, Except.pure]
      | unlimited ha hc hpos => simp [ha, hc, hpos, bind, Except.bind, pure, Except.pure]
      | cooling ha hc hpos hl hcooling =>
        rw [Alert.hasKey_eq hl] at hk
        rw [cooling_eq_any hk] at hcooling
        simp [ha, hc, hpos, hcooling, bind, Except.bind, pure, Except.pure]
      | starting ha hc hpos hl hcooling ht =>
        rw [Alert.hasKey_eq hl] at hk
        rw [cooling_eq_any hk] at hcooling
        simp [ha, hc, hpos, hcooling, ht, OrderedMap.get?_set, hk, bind, Except.bind, pure,
          Except.pure]

/-- What a policy decides about a batch. -/
theorem decideAll_of_steps (h : Steps (Step now) (some p) marks policy') :
    ∃ p', policy' = some p' ∧ p.decideAll now (marks.map Prod.fst) = { made := marks, policy := p' } := by
  generalize hs : some p = s at h
  induction h generalizing p with
  | nil => exact ⟨p, hs.symm, rfl⟩
  | cons one _ ih =>
    subst hs
    cases one with
    | decides h =>
      obtain ⟨p', hp', hall⟩ := ih rfl
      refine ⟨p', hp', ?_⟩
      rw [List.map_cons, decideAll, h]
      simp [hall]

theorem steps_absent (h : Steps (Step now) none marks policy') :
    policy' = none ∧ ∀ m ∈ marks, m.2 = true := by
  generalize hs : (none : Option (Policy Number)) = s at h
  induction h with
  | nil => exact ⟨rfl, by simp⟩
  | cons one _ ih =>
    subst hs
    cases one with
    | absent =>
      obtain ⟨hend, hall⟩ := ih rfl
      exact ⟨hend, by simpa using hall⟩

end Policy

/-! ### All gates together -/

/-- What alerts pass on their way to the responders. -/
structure Gates where
  deduper : Option (Deduper Number) := none
  limiter : Option (RateLimiter Number) := none
  policy : Option (Policy Number) := none

/-- How an alert fares at the gates. -/
inductive Passage where
  | duplicate
  | limited
  | rejected
  | accepted
  deriving DecidableEq, Repr

namespace Gates

/-- One alert passes the gates. An alert that comes flagged stays away from the policy. -/
inductive Step (clock : Number) : Gates → Alert → Passage → Gates → Prop
  | duplicate {g : Gates} {a : Alert} {u : Option (Deduper Number)}
      (hd : Deduper.Step clock g.deduper a false u) : Step clock g a .duplicate { g with deduper := u }
  | limited {g : Gates} {a : Alert} {u : Option (Deduper Number)} {l : Option (RateLimiter Number)}
      {free : Bool} (hd : Deduper.Step clock g.deduper a true u) (hl : RateLimiter.Step clock g.limiter a free l)
      (hf : free = false ∨ a.rateLimited = true) : Step clock g a .limited { g with deduper := u, limiter := l }
  | rejected {g : Gates} {a : Alert} {u : Option (Deduper Number)} {l : Option (RateLimiter Number)}
      {p : Option (Policy Number)} (hd : Deduper.Step clock g.deduper a true u)
      (hl : RateLimiter.Step clock g.limiter a true l) (ha : a.rateLimited = false)
      (hp : Policy.Step clock g.policy a false p) : Step clock g a .rejected ⟨u, l, p⟩
  | accepted {g : Gates} {a : Alert} {u : Option (Deduper Number)} {l : Option (RateLimiter Number)}
      {p : Option (Policy Number)} (hd : Deduper.Step clock g.deduper a true u)
      (hl : RateLimiter.Step clock g.limiter a true l) (ha : a.rateLimited = false)
      (hp : Policy.Step clock g.policy a true p) : Step clock g a .accepted ⟨u, l, p⟩

/-- The gates at the end of a batch. -/
def forget (clock : Number) (g : Gates) : Gates := { g with deduper := g.deduper.map (Deduper.forget clock) }

/-- The alerts that are no duplicates. -/
def unique (fates : List (Alert × Passage)) : List Alert :=
  (fates.filter fun x => x.2 ≠ .duplicate).map Prod.fst

/-- An alert as detection returns it. -/
def returned? : Alert × Passage → Option Alert
  | (_, .duplicate) => none
  | (a, .limited) => some { a with rateLimited := true }
  | (a, .rejected) | (a, .accepted) => some a

/-- What the policy decides about an alert that it gets. -/
def verdict? : Alert × Passage → Option (Alert × Bool)
  | (a, .rejected) => some (a, false)
  | (a, .accepted) => some (a, true)
  | (_, .duplicate) | (_, .limited) => none

/-- How the alerts of a batch fare at the gates, and what the gates are afterwards. -/
structure Passes (g : Gates) (clock : Number) (fates : List (Alert × Passage)) (g' : Gates) : Prop where
  alertwise : ∃ g₁, Steps (Step clock) g fates g₁ ∧ g' = g₁.forget clock
  /-- Detection with this deduper and this limiter returns what is no duplicate, flagged where limited. -/
  detected : ∀ d : Detector Number, d.deduper = g.deduper → d.limiter = g.limiter → ∃ metered,
    d.dedupe clock (fates.map Prod.fst) = (.ok (unique fates), { d with deduper := g'.deduper }) ∧
    Detector.limit { d with deduper := g'.deduper } clock (unique fates) =
      (.ok metered, { d with deduper := g'.deduper, limiter := g'.limiter }) ∧
    metered.map Prod.fst = fates.filterMap returned?
  /-- The policy decides on what is left without a flag; without a policy all of it is accepted. -/
  decided : match g.policy with
    | some p => ∃ p', g'.policy = some p' ∧
      p.decideAll clock ((fates.filterMap returned?).filter fun a => !a.rateLimited) =
        { made := fates.filterMap verdict?, policy := p' }
    | none => g'.policy = none ∧
      fates.filterMap verdict? = ((fates.filterMap returned?).filter fun a => !a.rateLimited).map fun a => (a, true)

/-- Alerts that come to the gates at the same time. -/
structure Call where
  clock : Number
  alerts : List Alert

/-- How the alerts of each call fare, call by call. -/
inductive Course : Gates → List Call → List (List (Alert × Passage)) → Prop
  | nil {g : Gates} : Course g [] []
  | cons {g g' : Gates} {c : Call} {calls : List Call} {fates : List (Alert × Passage)}
      {history : List (List (Alert × Passage))} (one : g.Passes c.clock fates g')
      (hfst : fates.map Prod.fst = c.alerts) (rest : Course g' calls history) :
      Course g (c :: calls) (fates :: history)

/-- Two calls at the same time with the same alerts of a key. -/
structure Call.Alike (k : Key) (c c' : Call) : Prop where
  clock : c.clock = c'.clock
  alerts : c.alerts.filter (·.hasKey k) = c'.alerts.filter (·.hasKey k)

/-- A call of the declared types. -/
structure Call.IsTyped (c : Call) : Prop where
  clock : c.clock.InRange
  alerts : ∀ a ∈ c.alerts, a.IsTyped

/-- What the gates go by for a key. -/
def heldFor (g : Gates) (k : Key) : Deduper.Held × RateLimiter.Held × Policy.Held :=
  (Deduper.heldFor g.deduper k, RateLimiter.heldFor g.limiter k, Policy.heldFor g.policy k)

/-- What becomes of an alert, going by what is held for its key. -/
def answer (clock : Number) (held : Deduper.Held × RateLimiter.Held × Policy.Held) (a : Alert) :
    Except Fault (Passage × Deduper.Held × RateLimiter.Held × Policy.Held) := do
  let (deduper, limiter, policy) := held
  let (new, deduper) ← Deduper.answer clock deduper a
  if !new then return (.duplicate, deduper, limiter, policy)
  let (free, limiter) ← RateLimiter.answer clock limiter a
  if !free || a.rateLimited then return (.limited, deduper, limiter, policy)
  let (accepted, policy) ← Policy.answer clock policy a
  return (if accepted then .accepted else .rejected, deduper, limiter, policy)

section Steps
variable {clock : Number} {g g' : Gates} {fates : List (Alert × Passage)}

theorem keepsApart (clock : Number) : KeepsApart heldFor (answer clock) (Step clock) where
  other := by
    intro s a b s' k hstep hk
    cases hstep with
    | duplicate hd =>
      have dedupers := (Deduper.keepsApart clock).other hd hk
      simp [heldFor, dedupers]
    | limited hd hl =>
      have dedupers := (Deduper.keepsApart clock).other hd hk
      have limiters := (RateLimiter.keepsApart clock).other hl hk
      simp [heldFor, dedupers, limiters]
    | rejected hd hl _ hp | accepted hd hl _ hp =>
      have dedupers := (Deduper.keepsApart clock).other hd hk
      have limiters := (RateLimiter.keepsApart clock).other hl hk
      have policies := (Policy.keepsApart clock).other hp hk
      simp [heldFor, dedupers, limiters, policies]
  own := by
    intro s a b s' k hstep hk
    cases hstep with
    | duplicate hd =>
      have dedupers := (Deduper.keepsApart clock).own hd hk
      simp [heldFor, answer, dedupers, bind, Except.bind, pure, Except.pure]
    | limited hd hl hf =>
      have dedupers := (Deduper.keepsApart clock).own hd hk
      have limiters := (RateLimiter.keepsApart clock).own hl hk
      simp [heldFor, answer, dedupers, limiters, hf, bind, Except.bind, pure, Except.pure]
    | rejected hd hl ha hp | accepted hd hl ha hp =>
      have dedupers := (Deduper.keepsApart clock).own hd hk
      have limiters := (RateLimiter.keepsApart clock).own hl hk
      have policies := (Policy.keepsApart clock).own hp hk
      simp [heldFor, answer, dedupers, limiters, policies, ha, bind, Except.bind, pure, Except.pure]

/-! ### What the gates return for a batch -/

theorem steps_deduper (h : Steps (Step clock) g fates g') : ∃ marks,
    Steps (Deduper.Step clock) g.deduper marks g'.deduper ∧ marks.map Prod.fst = fates.map Prod.fst ∧
      passedOf marks = unique fates := by
  induction h with
  | nil => exact ⟨[], .nil, rfl, rfl⟩
  | cons one _ ih =>
    obtain ⟨marks, hsteps, hfst, hpassed⟩ := ih
    cases one with
    | duplicate hd =>
      refine ⟨_, .cons hd hsteps, by simp [hfst], ?_⟩
      simpa [passedOf, unique] using hpassed
    | limited hd | rejected hd | accepted hd =>
      refine ⟨_, .cons hd hsteps, by simp [hfst], ?_⟩
      simpa [passedOf, unique] using hpassed

theorem steps_limiter (h : Steps (Step clock) g fates g') : ∃ marks,
    Steps (RateLimiter.Step clock) g.limiter marks g'.limiter ∧ marks.map Prod.fst = unique fates ∧
      (RateLimiter.flagged marks).map Prod.fst = fates.filterMap returned? := by
  induction h with
  | nil => exact ⟨[], .nil, rfl, rfl⟩
  | @cons _ _ _ a _ _ one _ ih =>
    obtain ⟨marks, hsteps, hfst, hflagged⟩ := ih
    cases one with
    | duplicate =>
      refine ⟨marks, hsteps, by simpa [unique] using hfst, ?_⟩
      simpa [List.filterMap_cons, returned?] using hflagged
    | @limited _ _ free _ hl hf =>
      refine ⟨_, .cons hl hsteps, by simpa [unique] using hfst, ?_⟩
      have flag : (if free then a else { a with rateLimited := true }) = { a with rateLimited := true } := by
        rcases hf with rfl | ha
        · rfl
        · split
          · rw [← ha]
          · rfl
      simpa [RateLimiter.flagged, List.filterMap_cons, returned?, flag] using hflagged
    | rejected _ hl | accepted _ hl =>
      refine ⟨_, .cons hl hsteps, by simpa [unique] using hfst, ?_⟩
      simpa [RateLimiter.flagged, List.filterMap_cons, returned?] using hflagged

theorem steps_policy (h : Steps (Step clock) g fates g') :
    Steps (Policy.Step clock) g.policy (fates.filterMap verdict?) g'.policy ∧
      (fates.filterMap verdict?).map Prod.fst = (fates.filterMap returned?).filter fun a => !a.rateLimited := by
  induction h with
  | nil => exact ⟨.nil, rfl⟩
  | cons one _ ih =>
    obtain ⟨hsteps, hfst⟩ := ih
    cases one with
    | duplicate | limited =>
      simp only [List.filterMap_cons, verdict?, returned?, Bool.not_true, Bool.false_eq_true, not_false_eq_true,
        List.filter_cons_of_neg]
      exact ⟨hsteps, hfst⟩
    | rejected _ _ ha hp | accepted _ _ ha hp =>
      refine ⟨.cons hp hsteps, ?_⟩
      simpa [List.filterMap_cons, verdict?, returned?, ha] using hfst

theorem passes_of_steps (h : Steps (Step clock) g fates g') : g.Passes clock fates (g'.forget clock) where
  alertwise := ⟨g', h, rfl⟩
  detected := by
    intro d hdeduper hlimiter
    obtain ⟨sifted, hsifted, hfst, hunique⟩ := steps_deduper h
    obtain ⟨metered, hmetered, hfst', hreturned⟩ := steps_limiter h
    rw [← hdeduper] at hsifted
    have deduped := Deduper.dedupe_of_steps hsifted
    rw [hfst, hunique] at deduped
    have same : Detector.limiter { d with deduper := (g'.forget clock).deduper } = g.limiter := hlimiter
    rw [← same] at hmetered
    have limited := RateLimiter.limit_of_steps hmetered
    rw [hfst'] at limited
    exact ⟨_, deduped, limited, hreturned⟩
  decided := by
    obtain ⟨hsteps, hfst⟩ := steps_policy h
    rcases hp : g.policy with _ | p
    · rw [hp] at hsteps
      obtain ⟨hend, hall⟩ := Policy.steps_absent hsteps
      refine ⟨hend, ?_⟩
      rw [← hfst, List.map_map]
      refine (List.map_id _).symm.trans (List.map_congr_left fun m hm => ?_)
      exact Prod.ext rfl (hall m hm)
    · rw [hp] at hsteps
      obtain ⟨p', hp', hall⟩ := Policy.decideAll_of_steps hsteps
      rw [hfst] at hall
      exact ⟨p', hp', hall⟩

end Steps

/-! ### Keys at the gates -/

section Keys
variable {clock : Number} {g g' h h' : Gates} {k : Key} {fates fates' : List (Alert × Passage)}
  {calls calls' : List Call} {history history' : List (List (Alert × Passage))}

/-- No key stands twice in what the deduper remembers. -/
def Distinct (g : Gates) : Prop := ∀ d ∈ g.deduper, OrderedMap.Distinct d.suppressed

theorem Distinct.steps (hg : g.Distinct) (hs : Steps (Step clock) g fates g') : g'.Distinct := by
  induction hs with
  | nil => exact hg
  | cons one _ ih =>
    refine ih ?_
    cases one with
    | duplicate hd | limited hd | rejected hd | accepted hd => exact hd.distinct hg

theorem Distinct.forget (hg : g.Distinct) (clock : Number) : (g.forget clock).Distinct := by
  intro d hd
  obtain ⟨d, hold, rfl⟩ := Option.map_eq_some_iff.1 hd
  unfold Deduper.forget
  split
  · exact hg d hold
  · exact (hg d hold).filter _

theorem Distinct.passes (hg : g.Distinct) (hp : g.Passes clock fates g') : g'.Distinct := by
  obtain ⟨g₁, hs, rfl⟩ := hp.alertwise
  exact (hg.steps hs).forget clock

/-- What the gates forget at the end of a batch they forget key by key. -/
theorem heldFor_forget (hg : g.Distinct) (hh : h.Distinct) (agree : g.heldFor k = h.heldFor k) :
    (g.forget clock).heldFor k = (h.forget clock).heldFor k := by
  have dedupers : Deduper.heldFor g.deduper k = Deduper.heldFor h.deduper k := congrArg Prod.fst agree
  have others : (g.heldFor k).2 = (h.heldFor k).2 := congrArg Prod.snd agree
  refine Prod.ext ?_ others
  show Deduper.heldFor (g.deduper.map (Deduper.forget clock)) k =
    Deduper.heldFor (h.deduper.map (Deduper.forget clock)) k
  rcases hd : g.deduper with _ | d <;> rcases he : h.deduper with _ | e
  · rfl
  · rw [hd, he] at dedupers
    cases dedupers
  · rw [hd, he] at dedupers
    cases dedupers
  · rw [hd, he] at dedupers
    have left := Deduper.heldFor_forget clock (hg d hd) k
    have right := Deduper.heldFor_forget clock (hh e he) k
    rw [Option.map_some, Option.map_some, left, right, dedupers]

/-- Gates that agree on a key treat the same alerts of it alike, and agree on it afterwards. -/
theorem Passes.isolated (hg : g.Distinct) (hh : h.Distinct) (hp : g.Passes clock fates g')
    (hp' : h.Passes clock fates' h') (agree : g.heldFor k = h.heldFor k)
    (same : (fates.map Prod.fst).filter (·.hasKey k) = (fates'.map Prod.fst).filter (·.hasKey k)) :
    withKey k fates = withKey k fates' ∧ g'.heldFor k = h'.heldFor k := by
  obtain ⟨g₁, hs, rfl⟩ := hp.alertwise
  obtain ⟨h₁, hs', rfl⟩ := hp'.alertwise
  have alone := (keepsApart clock).answersTo hs k
  have alone' := (keepsApart clock).answersTo hs' k
  rw [same, agree, alone'] at alone
  obtain ⟨hfates, hheld⟩ := Prod.mk.inj (Except.ok.inj alone)
  exact ⟨hfates.symm, heldFor_forget (hg.steps hs) (hh.steps hs') hheld.symm⟩

theorem Course.isolated (hc : g.Course calls history) (hc' : h.Course calls' history') (hg : g.Distinct)
    (hh : h.Distinct) (agree : g.heldFor k = h.heldFor k) (alike : List.Forall₂ (Call.Alike k) calls calls') :
    history.map (withKey k) = history'.map (withKey k) := by
  induction hc generalizing h calls' history' with
  | nil =>
    cases alike
    cases hc'
    rfl
  | cons one hfst _ ih =>
    cases alike with
    | cons first alike =>
      cases hc' with
      | cons one' hfst' rest' =>
        rw [← first.clock] at one'
        have same := first.alerts
        rw [← hfst, ← hfst'] at same
        obtain ⟨hfates, hheld⟩ := one.isolated hg hh one' agree same
        rw [List.map_cons, List.map_cons, hfates, ih rest' (hg.passes one) (hh.passes one') hheld alike]

end Keys

/-! ### Gates of declared types -/

section Typed
variable {clock : Number} {g : Gates} {a : Alert} {alerts : List Alert} {calls : List Call}

theorem deduper_step_typed {deduper : Option (Deduper Number)} (hd : ∀ d ∈ deduper, d.window.InRange)
    (hclock : clock.InRange) (ha : a.IsTyped) : ∃ new deduper', Deduper.Step clock deduper a new deduper' ∧
      ∀ d ∈ deduper', d.window.InRange := by
  rcases deduper with _ | d
  · exact ⟨true, none, .idle (by simp), hd⟩
  · by_cases hw : d.window ≤ 0
    · exact ⟨true, some d, .idle (by simpa using hw), hd⟩
    · obtain ⟨l, hl⟩ := ha.key
      obtain ⟨t, ht⟩ := hclock.after (hd d rfl)
      rcases hs : Deduper.suppresses d.suppressed clock l with _ | _
      · refine ⟨true, _, .passes (m := OrderedMap.set d.suppressed l t) hw ?_, by simpa using hd⟩
        simp [Deduper.pass, hl, hs, ht, bind, Except.bind]
        rfl
      · refine ⟨false, _, .holds hw ?_, hd⟩
        simp [Deduper.pass, hl, hs, bind, Except.bind]
        rfl

theorem limiter_step_typed {limiter : Option (RateLimiter Number)} (hl : ∀ l ∈ limiter, l.window.InRange)
    (hclock : clock.InRange) (ha : a.IsTyped) : ∃ free limiter', RateLimiter.Step clock limiter a free limiter' ∧
      ∀ l ∈ limiter', l.window.InRange := by
  rcases limiter with _ | l
  · exact ⟨true, none, .idle (by simp), hl⟩
  · by_cases hidle : l.IsIdle
    · exact ⟨true, some l, .idle (by simpa using hidle), hl⟩
    · obtain ⟨key, hkey⟩ := ha.key
      obtain ⟨t, ht⟩ := hclock.after (hl l rfl)
      have opens : ∃ w, RateLimiter.windowAt l.window clock l.windows key = .ok w := by
        unfold RateLimiter.windowAt
        split
        · exact ⟨_, rfl⟩
        · exact ⟨_, by rw [ht]; rfl⟩
      obtain ⟨w, hw⟩ := opens
      by_cases hb : l.burst ≤ .int w.passed
      · exact ⟨false, _, .holds hidle hkey hw hb, by simpa using hl⟩
      · exact ⟨true, _, .passes hidle hkey hw hb, by simpa using hl⟩

theorem policy_step_typed {policy : Option (Policy Number)} (hp : ∀ p ∈ policy, p.IsTyped)
    (hclock : clock.InRange) (ha : a.IsTyped) : ∃ accepted policy', Policy.Step clock policy a accepted policy' ∧
      ∀ p ∈ policy', p.IsTyped := by
  rcases policy with _ | p
  · exact ⟨true, none, .absent, hp⟩
  · obtain ⟨accepted, p', hdecision, hp'⟩ := Policy.decision_typed (hp p rfl) ha hclock
    exact ⟨accepted, some p', .decides hdecision, by simpa using hp'⟩

/-- Gates of the declared types. -/
structure IsTyped (g : Gates) : Prop where
  deduper : ∀ d ∈ g.deduper, d.window.InRange
  limiter : ∀ l ∈ g.limiter, l.window.InRange
  policy : ∀ p ∈ g.policy, p.IsTyped

theorem step_typed (hg : g.IsTyped) (hclock : clock.InRange) (ha : a.IsTyped) :
    ∃ passage g', Step clock g a passage g' ∧ g'.IsTyped := by
  obtain ⟨new, u, hd, hu⟩ := deduper_step_typed hg.deduper hclock ha
  obtain ⟨free, l, hl, hl'⟩ := limiter_step_typed hg.limiter hclock ha
  obtain ⟨accepted, p, hp, hp'⟩ := policy_step_typed hg.policy hclock ha
  rcases new with _ | _
  · exact ⟨_, _, .duplicate hd, hu, hg.limiter, hg.policy⟩
  · by_cases hf : free = false ∨ a.rateLimited = true
    · exact ⟨_, _, .limited hd hl hf, hu, hl', hg.policy⟩
    · obtain ⟨hfree, hflag⟩ := not_or.1 hf
      obtain rfl : free = true := by simpa using hfree
      have hflag : a.rateLimited = false := by simpa using hflag
      rcases accepted with _ | _
      · exact ⟨_, _, .rejected hd hl hflag hp, hu, hl', hp'⟩
      · exact ⟨_, _, .accepted hd hl hflag hp, hu, hl', hp'⟩

theorem steps_typed (hg : g.IsTyped) (hclock : clock.InRange) (halerts : ∀ a ∈ alerts, a.IsTyped) :
    ∃ fates g', Steps (Step clock) g fates g' ∧ fates.map Prod.fst = alerts ∧ g'.IsTyped := by
  induction alerts generalizing g with
  | nil => exact ⟨[], g, .nil, rfl, hg⟩
  | cons a rest ih =>
    obtain ⟨halert, hrest⟩ := List.forall_mem_cons.1 halerts
    obtain ⟨passage, g₁, one, hg₁⟩ := step_typed hg hclock halert
    obtain ⟨fates, g', later, hfst, hg'⟩ := ih hg₁ hrest
    exact ⟨(a, passage) :: fates, g', .cons one later, by simp [hfst], hg'⟩

theorem IsTyped.forget (hg : g.IsTyped) (clock : Number) : (g.forget clock).IsTyped := by
  refine ⟨fun d hd => ?_, hg.limiter, hg.policy⟩
  obtain ⟨d, hold, rfl⟩ := Option.map_eq_some_iff.1 hd
  unfold Deduper.forget
  split <;> exact hg.deduper d hold

theorem course_typed (hg : g.IsTyped) (hcalls : ∀ c ∈ calls, c.IsTyped) :
    ∃ history, g.Course calls history := by
  induction calls generalizing g with
  | nil => exact ⟨[], .nil⟩
  | cons c rest ih =>
    obtain ⟨hc, hrest⟩ := List.forall_mem_cons.1 hcalls
    obtain ⟨fates, g', hs, hfst, hg'⟩ := steps_typed hg hc.clock hc.alerts
    obtain ⟨history, later⟩ := ih (hg'.forget c.clock) hrest
    exact ⟨fates :: history, .cons (passes_of_steps hs) hfst later⟩

end Typed

/-- Of two runs with the same alerts of a key in every call each treats these alerts alike, whatever
other alerts come in between. Of the declared types both runs have a course. -/
theorem keys_isolated {g : Gates} (hg : g.IsTyped) (distinct : g.Distinct) (k : Key) {calls calls' : List Call}
    (hcalls : ∀ c ∈ calls, c.IsTyped) (hcalls' : ∀ c ∈ calls', c.IsTyped)
    (alike : List.Forall₂ (Call.Alike k) calls calls') :
    (∃ history, g.Course calls history) ∧ (∃ history', g.Course calls' history') ∧
      ∀ history history', g.Course calls history → g.Course calls' history' →
        history.map (withKey k) = history'.map (withKey k) :=
  ⟨course_typed hg hcalls, course_typed hg hcalls',
    fun _ _ hc hc' => hc.isolated hc' distinct distinct rfl alike⟩

/-- Gates that hold back a repeated alert, a second one of a key, and a key that cools down. -/
def narrow : Gates where
  deduper := some { window := .double 10 }
  limiter := some { window := .double 60, burst := 2 }
  policy := some { cooldown := .ok (.double 30) }

theorem narrow_typed : narrow.IsTyped where
  deduper := by
    intro d hd
    obtain rfl := Option.some.inj hd
    rfl
  limiter := by
    intro l hl
    obtain rfl := Option.some.inj hl
    rfl
  policy := by
    intro p hp
    obtain rfl := Option.some.inj hp
    exact ⟨⟨_, rfl⟩, _, rfl, rfl⟩

theorem narrow_distinct : narrow.Distinct := by
  intro d hd
  obtain rfl := Option.some.inj hd
  exact OrderedMap.distinct_nil

/-- Among the noise of another key, which is always over its limits, an alert is accepted and its
repetition a duplicate, as they are on their own. -/
theorem keys_isolated_noise : ∃ quiet noise : Alert, quiet.hasKey (.ofText "k") = true ∧
    noise.hasKey (.ofText "k") = false ∧ ∃ history,
      narrow.Course [⟨.double 0, [noise, quiet, noise]⟩, ⟨.double 5, [noise, noise, quiet]⟩] history ∧
      history.map (withKey (.ofText "k")) = [[(quiet, .accepted)], [(quiet, .duplicate)]] := by
  have typed (x : Float) (keys : List String) :
      Call.IsTyped ⟨.double x, keys.map fun k => { dedupKey := k }⟩ := by
    refine ⟨rfl, fun a ha => ?_⟩
    obtain ⟨k, -, rfl⟩ := List.mem_map.1 ha
    exact ⟨⟨_, rfl⟩, ⟨_, rfl⟩, rfl⟩
  refine ⟨{ dedupKey := "k" }, { dedupKey := "n" }, by decide, by decide, ?_⟩
  have first : Step (.double 0) narrow { dedupKey := "k" } .accepted _ :=
    .accepted (.passes (by decide +kernel) rfl)
      (.passes (by unfold RateLimiter.IsIdle; decide +kernel) rfl rfl (by decide +kernel)) rfl (.decides rfl)
  have alone : narrow.Course [⟨.double 0, [{ dedupKey := "k" }]⟩, ⟨.double 5, [{ dedupKey := "k" }]⟩]
      [[({ dedupKey := "k" }, .accepted)], [({ dedupKey := "k" }, .duplicate)]] := by
    refine .cons (passes_of_steps (.cons first .nil)) rfl ?_
    exact .cons (passes_of_steps (.cons (.duplicate (.holds (by decide +kernel) rfl)) .nil)) rfl .nil
  have quiet := List.forall_mem_cons.2 ⟨typed 0 ["k"], List.forall_mem_singleton.2 (typed 5 ["k"])⟩
  have noisy := List.forall_mem_cons.2
    ⟨typed 0 ["n", "k", "n"], List.forall_mem_singleton.2 (typed 5 ["n", "n", "k"])⟩
  obtain ⟨⟨history, hc⟩, -, same⟩ := keys_isolated narrow_typed narrow_distinct (.ofText "k") noisy quiet
    (.cons ⟨rfl, rfl⟩ (.cons ⟨rfl, rfl⟩ .nil))
  exact ⟨history, hc, (same _ _ hc alone).trans rfl⟩

end Gates

/-! ### The gates of a pipeline -/

namespace Pipeline
variable {p : Pipeline} {d : Detector Number} {c : Call} {due : List Alert} {h : Host}

/-- What alerts pass in a pipeline. -/
def gates (p : Pipeline) : Gates :=
  ⟨p.detector.bind Detector.deduper, p.detector.bind Detector.limiter, p.policy?⟩

theorem respond_gates (p : Pipeline) (due : List Alert) (h : Host) : (p.respond due h).1.gates =
    { p.gates with policy := p.policy?.map fun policy => (policy.decideAll h.clock due).policy } := by
  unfold respond
  rcases hrouter : p.router with _ | r
  · have none : p.policy? = none := by simp [policy?, hrouter]
    rcases hresponders : p.responders with _ | responders <;> simp [gates, none]
  · have policy : p.policy? = r.policy := by simp [policy?, hrouter]
    simp only [gates, policy?, Option.bind_some, r.run_fst p.responders due h]
    simp [hrouter]

theorem gates_typed (hp : p.IsTyped) : p.gates.IsTyped where
  deduper := by
    intro u hu
    obtain ⟨d, hd, hu⟩ := Option.bind_eq_some_iff.1 hu
    exact (hp.detector d hd).deduper _ (by rw [hu]; rfl)
  limiter := by
    intro l hl
    obtain ⟨d, hd, hl⟩ := Option.bind_eq_some_iff.1 hl
    exact (hp.detector d hd).limiter _ (by rw [hl]; rfl)
  policy := hp.policy

theorem evaluate_passes {g g' : Gates} {fates : List (Alert × Passage)} {d : Detector Number} {clock : Number}
    {now : Timestamp} {s : Snapshot} {metadata : Metadata} (h : g.Passes clock fates g')
    (hdeduper : d.deduper = g.deduper) (hlimiter : d.limiter = g.limiter)
    (ok : (Detector.gather d.rules s metadata now d.ids).fault = none)
    (hfst : fates.map Prod.fst = (Detector.gather d.rules s metadata now d.ids).alerts) :
    (d.evaluate clock now s metadata true).alerts = .ok (fates.filterMap Gates.returned?) ∧
      (d.evaluate clock now s metadata true).detector.deduper = g'.deduper ∧
      (d.evaluate clock now s metadata true).detector.limiter = g'.limiter := by
  obtain ⟨metered, hdedupe, hlimit, hreturned⟩ := h.detected
    { d with ids := (Detector.gather d.rules s metadata now d.ids).ids } hdeduper hlimiter
  rw [hfst] at hdedupe
  simp only [Detector.evaluate, ok, hdedupe, hlimit, if_true, hreturned]
  trivial

theorem policy_passes {g g' : Gates} {fates : List (Alert × Passage)} {clock : Number}
    (h : g.Passes clock fates g') : g'.policy = g.policy.map fun p =>
      (p.decideAll clock ((fates.filterMap Gates.returned?).filter fun a => !a.rateLimited)).policy := by
  have decided := h.decided
  rcases hpolicy : g.policy with _ | p
  · rw [hpolicy] at decided
    exact decided.1
  · rw [hpolicy] at decided
    obtain ⟨p', hp', hall⟩ := decided
    rw [hp', Option.map_some, hall]

/-- Whatever the rules find passes the gates, and what is no duplicate of it is returned. -/
theorem process_passes (hp : p.IsTyped) (hd : p.detector = some d) (hclock : c.host.clock.InRange) : ∃ fates,
    fates.map Prod.fst = (Detector.gather d.rules c.snapshot c.metadata c.host.now d.ids).alerts ∧
    p.gates.Passes c.host.clock fates (p.process c.snapshot c.metadata c.host).pipeline.gates ∧
    (p.process c.snapshot c.metadata c.host).alerts = fates.filterMap Gates.returned? := by
  have found : (Detector.gather d.rules c.snapshot c.metadata c.host.now d.ids).IsTyped :=
    Detector.gather_typed (hp.detector d hd).rules
  obtain ⟨fates, g, hs, hfst, -⟩ := Gates.steps_typed (gates_typed hp) hclock found.2
  have passes := Gates.passes_of_steps hs
  generalize g.forget c.host.clock = g' at passes
  obtain ⟨alerts, hdeduper, hlimiter⟩ :=
    evaluate_passes passes (by simp [gates, hd]) (by simp [gates, hd]) found.1 hfst
  have looked : (p.looked d c).gates = ⟨g'.deduper, g'.limiter, p.policy?⟩ := by
    simp [gates, Pipeline.looked, hdeduper, hlimiter, policy?]
  have after := respond_gates (p.looked d c) ((fates.filterMap Gates.returned?).filter fun a => !a.rateLimited)
    (noted d c)
  have policy : (p.looked d c).policy? = p.gates.policy := rfl
  rw [noted_clock, looked, policy, ← policy_passes passes] at after
  have ok := (process_typed hp c hclock).1
  rw [process_of_detector hd alerts] at ok ⊢
  rcases hrespond : (p.looked d c).respond ((fates.filterMap Gates.returned?).filter fun a => !a.rateLimited)
    (noted d c) with ⟨p', h', f | failures⟩
  · rw [hrespond] at ok
    cases ok
  · rw [hrespond] at after
    refine ⟨fates, hfst, ?_, rfl⟩
    show p.gates.Passes c.host.clock fates p'.gates
    rw [show p'.gates = g' from after]
    exact passes

end Pipeline

end HostWatch
