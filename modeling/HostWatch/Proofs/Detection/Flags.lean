import HostWatch.Indicator.Rule
import HostWatch.Proofs.Detection.Findings
import HostWatch.Rule.Definition

/-!
# The flag of the limiter

No rule of the library sets the flag (`Rule.IsStandard.leavesUnflagged`), and neither does enrichment.
So after detection the flag says exactly what the limiter held back: with `includeLimited` or without
it detection returns the same alerts but for the flagged ones (`Detector.evaluate_unflagged`).
-/

namespace HostWatch

/-- Where there are alerts, none of them is flagged. -/
def RaisesUnflagged (result : Except Fault (List Alert)) : Prop :=
  ∀ raised, result = .ok raised → ∀ a ∈ raised, a.rateLimited = false

section Raises
variable {α : Type} {a b : Alert} {raised : List Alert} {f : Fault} {e : Except Fault α}
  {next : α → Except Fault (List Alert)}

theorem raisesUnflagged_ok (h : ∀ a ∈ raised, a.rateLimited = false) : RaisesUnflagged (.ok raised) := by
  intro raised' hok
  rw [← Except.ok.inj hok]
  exact h

theorem raisesUnflagged_nil : RaisesUnflagged (.ok []) := raisesUnflagged_ok (by simp)

theorem raisesUnflagged_one (h : a.rateLimited = false) : RaisesUnflagged (.ok [a]) :=
  raisesUnflagged_ok (by simpa using h)

theorem raisesUnflagged_error : RaisesUnflagged (.error f) := by
  intro raised hok
  cases hok

theorem RaisesUnflagged.bind (h : ∀ x, RaisesUnflagged (next x)) : RaisesUnflagged (e >>= next) := by
  cases e with
  | error f => exact raisesUnflagged_error
  | ok x => exact h x

theorem RaisesUnflagged.append {first second : Except Fault (List Alert)} (hfirst : RaisesUnflagged first)
    (hsecond : RaisesUnflagged second) : RaisesUnflagged (do .ok ((← first) ++ (← second))) := by
  rcases first with f | as
  · exact raisesUnflagged_error
  · rcases second with f | bs
    · exact raisesUnflagged_error
    · refine raisesUnflagged_ok fun a ha => ?_
      rcases List.mem_append.1 ha with ha | ha
      · exact hfirst as rfl a ha
      · exact hsecond bs rfl a ha

end Raises

/-! ### Rules -/

namespace Rule

/-- A rule never sets the flag on what it raises. -/
def LeavesUnflagged (r : Rule) : Prop :=
  ∀ evaluate, r.evaluate = some evaluate → ∀ s, RaisesUnflagged (evaluate s)

/-- The rules of the library: built in, defined by a file, or looking for indicators. -/
inductive IsStandard : Rule → Prop
  | cpuHigh (limit : Value) : IsStandard (cpuHigh limit)
  | memoryPressure (ram swap : Value) : IsStandard (memoryPressure ram swap)
  | processBurst (limit : Value) : IsStandard (processBurst limit)
  | networkSpike (limit : Value) : IsStandard (networkSpike limit)
  | fileEventBurst (limit : Value) : IsStandard (fileEventBurst limit)
  | persistenceChange (least : Value) : IsStandard (persistenceChange least)
  | defined {d : RuleDefinition} {r : Rule} (ok : d.compile = .ok r) : IsStandard r
  | indicators (i : Indicators) : IsStandard i.rule

theorem leavesUnflagged_of_evaluate {r : Rule} {evaluate : Evaluation} (hr : r.evaluate = some evaluate)
    (h : ∀ s, RaisesUnflagged (evaluate s)) : r.LeavesUnflagged := by
  intro evaluate' hr'
  rw [hr] at hr'
  rw [← Option.some.inj hr']
  exact h

theorem raise_unflagged (a : PercentAlert) (limit : Value) (x : Float) : RaisesUnflagged (a.raise limit x) :=
  .bind fun _ => raisesUnflagged_one rfl

theorem usedShare_unflagged (a : PercentAlert) (limit : Value) (s : Snapshot) :
    RaisesUnflagged (usedShare a limit s) := by
  unfold usedShare
  split
  · exact raisesUnflagged_nil
  · refine .bind fun _ => ?_
    split
    · exact raise_unflagged _ _ _
    · exact raisesUnflagged_nil

theorem cpuHigh_unflagged (limit : Value) : (cpuHigh limit).LeavesUnflagged := by
  refine leavesUnflagged_of_evaluate rfl fun s => ?_
  split
  · exact raisesUnflagged_nil
  · refine .bind fun below => ?_
    split
    · exact raisesUnflagged_nil
    · exact raise_unflagged _ _ _

theorem memoryPressure_unflagged (ram swap : Value) : (memoryPressure ram swap).LeavesUnflagged :=
  leavesUnflagged_of_evaluate rfl fun s =>
    (usedShare_unflagged _ ram s).append (usedShare_unflagged _ swap s)

theorem processBurst_unflagged (limit : Value) : (processBurst limit).LeavesUnflagged := by
  refine leavesUnflagged_of_evaluate rfl fun s => ?_
  split
  · exact raisesUnflagged_nil
  · split
    · exact raisesUnflagged_nil
    · refine .bind fun n => .bind fun fewer => ?_
      split
      · exact raisesUnflagged_nil
      · split
        · exact raisesUnflagged_error
        · exact .bind fun _ => raisesUnflagged_one rfl

theorem networkSpike_unflagged (limit : Value) : (networkSpike limit).LeavesUnflagged := by
  refine leavesUnflagged_of_evaluate rfl fun s => ?_
  split
  · exact raisesUnflagged_nil
  · simp only
    split
    · exact raisesUnflagged_nil
    · refine .bind fun below => ?_
      split
      · exact raisesUnflagged_nil
      · exact .bind fun _ => raisesUnflagged_one rfl

theorem fileEventBurst_unflagged (limit : Value) : (fileEventBurst limit).LeavesUnflagged := by
  refine leavesUnflagged_of_evaluate rfl fun s => ?_
  split
  · exact raisesUnflagged_nil
  · split
    · exact raisesUnflagged_nil
    · refine .bind fun n => .bind fun fewer => ?_
      split
      · exact raisesUnflagged_nil
      · exact raisesUnflagged_one rfl

theorem persistenceChange_unflagged (least : Value) : (persistenceChange least).LeavesUnflagged := by
  refine leavesUnflagged_of_evaluate rfl fun s => ?_
  simp only
  split
  · exact raisesUnflagged_nil
  · refine .bind fun added => .bind fun changed => .bind fun removed => .bind fun fewer => ?_
    split
    · exact raisesUnflagged_nil
    · exact raisesUnflagged_one rfl

theorem evaluation_unflagged (id metric : Value) (c : Comparison) (threshold : Float) (s : Snapshot) :
    RaisesUnflagged (RuleDefinition.evaluation id metric c threshold s) := by
  refine .bind fun measured => ?_
  split
  · exact raisesUnflagged_nil
  · split
    · exact raisesUnflagged_one rfl
    · exact raisesUnflagged_nil

theorem compile_unflagged {d : RuleDefinition} {r : Rule} (ok : d.compile = .ok r) : r.LeavesUnflagged := by
  have evaluates : ∃ c threshold, r.evaluate = some (RuleDefinition.evaluation d.id d.metric c threshold) := by
    unfold RuleDefinition.compile at ok
    by_cases hid : d.id.isEmpty
    · rw [if_pos hid] at ok
      cases ok
    · rw [if_neg hid] at ok
      by_cases hmetric : d.metric.isEmpty
      · simp only [if_pos hmetric] at ok
        cases ok
      · simp only [if_neg hmetric] at ok
        obtain ⟨c, -, ok⟩ := ok_of_bind ok
        obtain ⟨severity, -, ok⟩ := ok_of_bind ok
        obtain ⟨threshold, -, ok⟩ := ok_of_bind ok
        obtain ⟨tags, -, ok⟩ := ok_of_bind ok
        exact ⟨c, threshold, by rw [← Except.ok.inj ok]⟩
  obtain ⟨c, threshold, hr⟩ := evaluates
  exact leavesUnflagged_of_evaluate hr (evaluation_unflagged _ _ _ _)

section Indicators
variable {i : Indicators} {record : Value} {a : Alert}

theorem processAlert_unflagged (h : i.processAlert? record = some a) : a.rateLimited = false := by
  simp only [Indicators.processAlert?, Option.map_eq_some_iff] at h
  obtain ⟨found, -, rfl⟩ := h
  rfl

theorem fileAlert_unflagged (h : i.fileAlert? record = some a) : a.rateLimited = false := by
  simp only [Indicators.fileAlert?, Option.map_eq_some_iff] at h
  obtain ⟨found, -, rfl⟩ := h
  rfl

theorem connectionAlert_unflagged (h : i.connectionAlert? record = some a) : a.rateLimited = false := by
  simp only [Indicators.connectionAlert?, Option.map_eq_some_iff] at h
  obtain ⟨found, -, rfl⟩ := h
  rfl

end Indicators

theorem sources_unflagged (i : Indicators) :
    ∀ source ∈ i.sources, ∀ record a, source.2 record = some a → a.rateLimited = false := by
  intro source hsource
  simp only [Indicators.sources, List.mem_cons, List.not_mem_nil, or_false] at hsource
  intro record a h
  rcases hsource with rfl | rfl | rfl <;> dsimp only at h
  · exact processAlert_unflagged h
  · exact fileAlert_unflagged h
  · exact connectionAlert_unflagged h

theorem collect_unflagged (fields : List (String × Value)) {sources : List (String × (Value → Option Alert))}
    (h : ∀ source ∈ sources, ∀ record a, source.2 record = some a → a.rateLimited = false) (room : Nat) :
    RaisesUnflagged (Indicators.collect fields room sources) := by
  intro raised hraised a ha
  obtain ⟨source, hsource, -, -, record, -, hrecord⟩ := Indicators.exists_record_of_mem_collect hraised ha
  exact h source hsource record a hrecord

theorem indicators_unflagged (i : Indicators) : i.rule.LeavesUnflagged := by
  refine leavesUnflagged_of_evaluate rfl fun s => ?_
  split
  · exact raisesUnflagged_nil
  · split
    · exact raisesUnflagged_nil
    · exact collect_unflagged _ (sources_unflagged i) _

theorem IsStandard.leavesUnflagged {r : Rule} (h : r.IsStandard) : r.LeavesUnflagged := by
  cases h with
  | cpuHigh limit => exact cpuHigh_unflagged limit
  | memoryPressure ram swap => exact memoryPressure_unflagged ram swap
  | processBurst limit => exact processBurst_unflagged limit
  | networkSpike limit => exact networkSpike_unflagged limit
  | fileEventBurst limit => exact fileEventBurst_unflagged limit
  | persistenceChange least => exact persistenceChange_unflagged least
  | defined ok => exact compile_unflagged ok
  | indicators i => exact indicators_unflagged i

end Rule

/-! ### Detection -/

namespace Detector

section Batch
variable {metadata : Metadata} {now : Timestamp} {ids ids' : Ids} {s : Snapshot} {rule : Rule}
  {raised : List (Rule × Alert)} {batch : List Alert} {a b : Alert}

theorem enrich_rateLimited (h : a.enrich rule (some metadata) now ids = (.ok b, ids')) :
    b.rateLimited = a.rateLimited := by
  have identified : (a.identify rule ids).1.rateLimited = a.rateLimited := by
    unfold Alert.identify
    simp only
    split <;> rfl
  unfold Alert.enrich at h
  generalize a.identify rule ids = identity at h identified
  obtain ⟨named, ids₁⟩ := identity
  have completed : named.complete rule (some metadata) now = .ok b := (Prod.mk.inj h).1
  obtain ⟨t, -, completed⟩ := ok_of_bind completed
  obtain ⟨merged, -, completed⟩ := ok_of_bind completed
  rw [← Except.ok.inj completed, ← identified]
  rfl

theorem Enriched.unflagged (h : Enriched metadata now ids raised batch ids')
    (hraised : ∀ r ∈ raised, r.2.rateLimited = false) : ∀ a ∈ batch, a.rateLimited = false := by
  induction h with
  | nil => simp
  | cons one _ ih =>
    obtain ⟨hfirst, hrest⟩ := List.forall_mem_cons.1 hraised
    rw [List.forall_mem_cons]
    exact ⟨(enrich_rateLimited one).trans hfirst, ih hrest⟩

theorem raises_unflagged {capturer : String} (hrule : rule.LeavesUnflagged) :
    ∀ r ∈ rule.raises s capturer, r.2.rateLimited = false := by
  intro r hr
  obtain ⟨-, evaluate, raw, hevaluate, hraw, ha⟩ := Rule.of_mem_raises hr
  exact hrule evaluate hevaluate s raw hraw r.2 ha

theorem gather_unflagged {rules : List Rule} (hrules : ∀ r ∈ rules, r.LeavesUnflagged)
    (ok : (gather rules s metadata now ids).fault = none) :
    ∀ a ∈ (gather rules s metadata now ids).alerts, a.rateLimited = false := by
  refine (gather_enriched ok).unflagged fun r hr => ?_
  obtain ⟨rule, hrule, hr⟩ := List.mem_flatMap.1 hr
  exact raises_unflagged (hrules rule hrule) r hr

/-- Of alerts that come unflagged those pass that are not flagged. -/
theorem passedOf_eq_filter {alerts : List Alert} {metered : List (Alert × Bool)}
    (h : List.Forall₂ Metered alerts metered) (unflagged : ∀ a ∈ alerts, a.rateLimited = false) :
    passedOf metered = (metered.map Prod.fst).filter fun a => !a.rateLimited := by
  induction h with
  | nil => rfl
  | @cons a m _ metered one _ ih =>
    obtain ⟨ha, hrest⟩ := List.forall_mem_cons.1 unflagged
    have same : (!m.1.rateLimited) = m.2 := by
      rw [one]
      cases m.2 <;> simp [ha]
    rw [List.map_cons, List.filter_cons, same, ← ih hrest]
    unfold passedOf
    cases hm : m.2 <;> simp [hm]

end Batch

/-- Whether the flagged alerts are asked for or not changes nothing but whether they are returned. -/
theorem evaluate_unflagged {τ : Type} [Clock τ] [LT τ] [LE τ] [DecidableLT τ] [DecidableLE τ] [OfNat τ 0]
    {d : Detector τ} (hrules : ∀ r ∈ d.rules, r.LeavesUnflagged) (clock : τ) (now : Timestamp) (s : Snapshot)
    (metadata : Metadata) :
    (d.evaluate clock now s metadata false).alerts =
        ((d.evaluate clock now s metadata true).alerts.map fun alerts => alerts.filter fun a => !a.rateLimited) ∧
      (d.evaluate clock now s metadata false).detector = (d.evaluate clock now s metadata true).detector := by
  simp only [evaluate]
  split
  · exact ⟨rfl, rfl⟩
  · rename_i hfault
    split
    · exact ⟨rfl, rfl⟩
    · rename_i unique d₁ hdedupe
      split
      · exact ⟨rfl, rfl⟩
      · rename_i metered d₂ hlimit
        have kept : unique.Sublist (gather d.rules s metadata now d.ids).alerts :=
          dedupe_sublist (congrArg Prod.fst hdedupe)
        have unflagged : ∀ a ∈ unique, a.rateLimited = false :=
          fun a ha => gather_unflagged hrules hfault a (kept.subset ha)
        have metered_unique : List.Forall₂ Metered unique metered :=
          limit_metered (congrArg Prod.fst hlimit)
        have passed := passedOf_eq_filter metered_unique unflagged
        exact ⟨congrArg Except.ok passed, rfl⟩

end Detector

end HostWatch
