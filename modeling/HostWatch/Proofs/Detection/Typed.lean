import HostWatch.Proofs.Detection.Findings

/-!
# Detection of declared types

The settings, rules and alerts that a user supplies may be of any shape. Where they are of the types
that are declared for them (`Detector.IsTyped`) and the clock is a double, detection always returns
(`Detector.evaluate_typed`), however the rules themselves fail.
-/

namespace HostWatch

/-- A number within the range of doubles, as every double is. -/
def Number.InRange (n : Number) : Prop := n.toFloat?.isSome

theorem Number.InRange.after {t d : Number} (ht : t.InRange) (hd : d.InRange) :
    ∃ u, Clock.after t d = .ok u := by
  obtain ⟨x, hx⟩ := Option.isSome_iff_exists.1 ht
  obtain ⟨y, hy⟩ := Option.isSome_iff_exists.1 hd
  show ∃ u, Fault.integerTooLarge.ofOption (t.add? d) = .ok u
  unfold Number.add?
  split
  · exact ⟨_, rfl⟩
  · exact ⟨.double (x + y), by simp [Number.onDoubles?, hx, hy, Fault.ofOption]⟩

namespace Value
variable {v w : Value}

def IsText (v : Value) : Prop := ∃ s, v = .text s

theorem isText_text (s : String) : (text s).IsText := ⟨s, rfl⟩

theorem IsText.orElse (hv : v.IsText) (hw : w.IsText) : (v.orElse w).IsText := by
  unfold Value.orElse
  split
  · exact hw
  · exact hv

theorem IsText.toKey (hv : v.IsText) : ∃ k, v.toKey = .ok k := by
  obtain ⟨s, rfl⟩ := hv
  exact ⟨_, rfl⟩

theorem IsText.textFor (hv : v.IsText) (part : String) : ∃ s, v.textFor part = .ok s := by
  obtain ⟨s, rfl⟩ := hv
  exact ⟨s, rfl⟩

end Value

/-- An alert of the declared types, as far as they are relied on. -/
structure Alert.IsTyped (a : Alert) : Prop where
  ruleId : a.ruleId.IsText
  severity : a.severity.IsText
  metadata : a.metadata.isSome

theorem Alert.IsTyped.key {a : Alert} (h : a.IsTyped) : ∃ k, a.key.toKey = .ok k :=
  ((Value.isText_text a.dedupKey).orElse h.ruleId).toKey

/-- A rule of the declared types; it may fail. -/
structure Rule.IsTyped (r : Rule) : Prop where
  id : r.id.IsText
  severity : r.severity.IsText
  source : r.source.IsText
  raises : ∀ evaluate, r.evaluate = some evaluate → ∀ s raw, evaluate s = .ok raw → ∀ a ∈ raw, a.IsTyped

namespace Detector

/-- Detection set up with the declared types. -/
structure IsTyped (d : Detector Number) : Prop where
  rules : ∀ r ∈ d.rules, r.IsTyped
  deduper : ∀ w ∈ d.deduper.map Deduper.window, w.InRange
  limiter : ∀ w ∈ d.limiter.map RateLimiter.window, w.InRange

theorem SameSetup.isTyped {d d' : Detector Number} (h : SameSetup d d') (hd : d.IsTyped) : d'.IsTyped :=
  ⟨h.rules ▸ hd.rules, h.deduper ▸ hd.deduper, h.limiter ▸ hd.limiter⟩

section Batch
variable {rule : Rule} {metadata : Metadata} {now : Timestamp} {ids : Ids} {s : Snapshot} {a : Alert}

theorem identify_typed (hr : rule.IsTyped) (ids : Ids) (ha : a.IsTyped) : (a.identify rule ids).1.IsTyped := by
  have ruleId := ha.ruleId.orElse (hr.id.orElse (Value.isText_text "unknown_rule"))
  unfold Alert.identify
  simp only
  split <;> exact ⟨ruleId, ha.severity, ha.metadata⟩

theorem complete_typed (hr : rule.IsTyped) (metadata : Metadata) (now : Timestamp) (ha : a.IsTyped) :
    ∃ b, a.complete rule (some metadata) now = .ok b ∧ b.IsTyped := by
  obtain ⟨own, hown⟩ := Option.isSome_iff_exists.1 ha.metadata
  have raisedAt : ∃ t, a.raisedAt? (some metadata) now = .ok t := by
    unfold Alert.raisedAt?
    split
    · exact ⟨_, rfl⟩
    · exact ⟨_, rfl⟩
    · contradiction
  obtain ⟨t, ht⟩ := raisedAt
  have merged : a.mergedMetadata (some metadata) = .ok (own.merge metadata) := by
    unfold Alert.mergedMetadata
    rw [hown]
  refine ⟨a.completeWith rule t (own.merge metadata), ?_, ha.ruleId, ?_, rfl⟩
  · unfold Alert.complete
    rw [ht, merged]
    rfl
  · exact ha.severity.orElse (hr.severity.orElse (Value.isText_text _))

theorem enrichAll_typed {raw : List Alert} (hr : rule.IsTyped) (metadata : Metadata) (now : Timestamp)
    (ids : Ids) (hraw : ∀ a ∈ raw, a.IsTyped) :
    ∃ alerts, (enrichAll rule metadata now ids raw).1 = .ok alerts ∧ ∀ a ∈ alerts, a.IsTyped := by
  induction raw generalizing ids with
  | nil => exact ⟨[], rfl, by simp⟩
  | cons a rest ih =>
    obtain ⟨b, hb, typed⟩ := complete_typed hr metadata now (identify_typed hr ids (hraw a (by simp)))
    obtain ⟨later, hlater, typedLater⟩ := ih (a.identify rule ids).2 fun a ha => hraw a (by simp [ha])
    refine ⟨b :: later, ?_, ?_⟩
    · unfold enrichAll Alert.enrich
      simp only [hb, hlater]
      rfl
    · intro a ha
      rcases List.mem_cons.1 ha with rfl | ha
      · exact typed
      · exact typedLater a ha

/-- Nothing has ended the look so far, and what is found is of the declared types. -/
def Findings.IsTyped (f : Findings) : Prop := f.fault = none ∧ ∀ a ∈ f.alerts, a.IsTyped

theorem appliesTo_typed (hr : rule.IsTyped) (capturer : String) : ∃ b, rule.appliesTo capturer = .ok b := by
  obtain ⟨source, hsource⟩ := hr.source.textFor "lower"
  unfold Rule.appliesTo
  split
  · exact ⟨true, rfl⟩
  · exact ⟨_, by rw [hsource]; rfl⟩

theorem add_typed {f : Findings} {raw : List Alert} (hr : rule.IsTyped) (hf : f.IsTyped)
    (hraw : ∀ a ∈ raw, a.IsTyped) : (f.add rule metadata now raw).IsTyped := by
  obtain ⟨alerts, halerts, typed⟩ := enrichAll_typed hr metadata now f.ids hraw
  unfold Findings.add
  split
  · rename_i heq
    rw [heq] at halerts
    cases halerts
  · rename_i heq
    rw [heq] at halerts
    obtain rfl := Except.ok.inj halerts
    exact ⟨hf.1, fun a ha => (List.mem_append.1 ha).elim (hf.2 a) (typed a)⟩

theorem consult_typed {f : Findings} (hr : rule.IsTyped) (hf : f.IsTyped) :
    (consult s metadata now f rule).IsTyped := by
  obtain ⟨applies, happlies⟩ := appliesTo_typed hr metadata.capturer
  unfold consult
  rw [hf.1, happlies]
  rcases hev : rule.evaluate with _ | evaluate
  · exact hf
  · cases applies with
    | false => exact hf
    | true =>
      simp only
      rcases hraw : evaluate s with _ | raw
      · exact ⟨rfl, hf.2⟩
      · exact add_typed hr hf (hr.raises evaluate hev s raw hraw)

theorem gather_typed {rules : List Rule} (hrules : ∀ r ∈ rules, r.IsTyped) :
    (gather rules s metadata now ids).IsTyped := by
  have all (f : Findings) (hf : f.IsTyped) : (rules.foldl (consult s metadata now) f).IsTyped := by
    induction rules generalizing f with
    | nil => exact hf
    | cons rule rest ih =>
      exact ih (fun r hr => hrules r (by simp [hr])) _ (consult_typed (hrules rule (by simp)) hf)
  exact all _ ⟨rfl, by simp⟩

end Batch

section Filters
variable {d : Detector Number} {clock window : Number} {alerts : List Alert}

theorem sift_typed (hclock : clock.InRange) (hw : window.InRange) (halerts : ∀ a ∈ alerts, a.IsTyped)
    (m : OrderedMap Key Number) : (Deduper.sift window clock m alerts).fault = none := by
  obtain ⟨u, hu⟩ := hclock.after hw
  induction alerts generalizing m with
  | nil => rfl
  | cons a rest ih =>
    have later := ih fun a ha => halerts a (by simp [ha])
    obtain ⟨k, hk⟩ := (halerts a (by simp)).key
    have passes : ∃ after, Deduper.pass window clock m a = .ok after := by
      unfold Deduper.pass
      rw [hk, hu]
      by_cases hs : Deduper.suppresses m clock k
      · exact ⟨none, by simp [bind, Except.bind, hs]; rfl⟩
      · exact ⟨some _, by simp [bind, Except.bind, hs]; rfl⟩
    obtain ⟨after, hafter⟩ := passes
    unfold Deduper.sift
    rw [hafter]
    cases after with
    | none => exact later m
    | some after => exact later after

theorem dedupe_typed (hd : d.IsTyped) (hclock : clock.InRange) (halerts : ∀ a ∈ alerts, a.IsTyped) :
    ∃ unique, (d.dedupe clock alerts).1 = .ok unique := by
  unfold dedupe
  split
  · exact ⟨alerts, rfl⟩
  · rename_i deduper hdeduper
    have hw : deduper.window.InRange := hd.deduper _ (by simp [hdeduper])
    simp only [Deduper.filter]
    split
    · exact ⟨alerts, rfl⟩
    · rw [sift_typed hclock hw halerts]
      exact ⟨_, rfl⟩

theorem meter_typed {burst : Number} (hclock : clock.InRange) (hw : window.InRange)
    (halerts : ∀ a ∈ alerts, a.IsTyped) (m : OrderedMap Key (RateWindow Number)) :
    (RateLimiter.meter window burst clock m alerts).fault = none := by
  obtain ⟨u, hu⟩ := hclock.after hw
  induction alerts generalizing m with
  | nil => rfl
  | cons a rest ih =>
    have later := ih fun a ha => halerts a (by simp [ha])
    obtain ⟨k, hk⟩ := (halerts a (by simp)).key
    have opens : ∃ w, RateLimiter.windowAt window clock m k = .ok w := by
      unfold RateLimiter.windowAt
      split
      · exact ⟨_, rfl⟩
      · exact ⟨_, by rw [hu]; rfl⟩
    obtain ⟨w, hopen⟩ := opens
    unfold RateLimiter.meter
    rw [hk]
    simp only [hopen]
    split <;> exact later _

theorem limit_typed (hd : d.IsTyped) (hclock : clock.InRange) (halerts : ∀ a ∈ alerts, a.IsTyped) :
    ∃ metered, (d.limit clock alerts).1 = .ok metered := by
  unfold limit
  split
  · exact ⟨_, rfl⟩
  · rename_i limiter hlimiter
    have hw : limiter.window.InRange := hd.limiter _ (by simp [hlimiter])
    simp only [RateLimiter.filter]
    split
    · exact ⟨_, rfl⟩
    · rw [meter_typed hclock hw halerts]
      exact ⟨_, rfl⟩

theorem metered_typed {metered : List (Alert × Bool)} (h : List.Forall₂ Metered alerts metered)
    (halerts : ∀ a ∈ alerts, a.IsTyped) : ∀ a ∈ metered.map Prod.fst, a.IsTyped := by
  induction h with
  | nil => simp
  | @cons a m _ _ one _ ih =>
    have typed := halerts a (by simp)
    intro b hb
    rcases List.mem_cons.1 hb with rfl | hb
    · rw [one]
      split
      · exact typed
      · exact ⟨typed.ruleId, typed.severity, typed.metadata⟩
    · exact ih (fun a ha => halerts a (by simp [ha])) b hb

theorem evaluate_typed (hd : d.IsTyped) (hclock : clock.InRange) (now : Timestamp) (s : Snapshot)
    (metadata : Metadata) : ∃ alerts, (d.evaluate clock now s metadata true).alerts = .ok alerts ∧
      ∀ a ∈ alerts, a.IsTyped := by
  have found : (gather d.rules s metadata now d.ids).IsTyped := gather_typed hd.rules
  have hd₁ : IsTyped { d with ids := (gather d.rules s metadata now d.ids).ids } := ⟨hd.1, hd.2, hd.3⟩
  obtain ⟨unique, hunique⟩ := dedupe_typed hd₁ hclock found.2
  have setup := dedupe_setup { d with ids := (gather d.rules s metadata now d.ids).ids } clock
    (gather d.rules s metadata now d.ids).alerts
  have typedUnique : ∀ a ∈ unique, a.IsTyped := fun a ha => found.2 a ((dedupe_sublist hunique).subset ha)
  simp only [evaluate, found.1]
  generalize dedupe _ clock _ = deduped at hunique setup ⊢
  obtain ⟨result, d₂⟩ := deduped
  obtain rfl : result = .ok unique := hunique
  obtain ⟨metered, hmetered⟩ := limit_typed (setup.1.isTyped hd₁) hclock typedUnique
  simp only
  generalize hlimit : limit d₂ clock unique = limited at hmetered ⊢
  obtain ⟨result, d₃⟩ := limited
  obtain rfl : result = .ok metered := hmetered
  have typed := metered_typed (limit_metered (congrArg Prod.fst hlimit)) typedUnique
  exact ⟨_, rfl, typed⟩

end Filters

end Detector

end HostWatch
