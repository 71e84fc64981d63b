import HostWatch.Proofs.Numeric.Order
import HostWatch.Proofs.Rule.Silence
import HostWatch.Rule.Definition

/-!
# Built-in rules and definitions of the same rule

A definition compares with the double nearest to its threshold, the built-in rules with the threshold
itself; and of the built-in rules on percentages the one on processor load asks for what is *not below* its
threshold, the ones on memory for what is at least that. `Rule.agreementLaw` tells on which snapshots a
built-in rule and the definition with `>=` agree: on all of them as far as memory and doubles are concerned,
but not where processor load or its threshold is NaN.
-/

namespace HostWatch

namespace Number
variable {t : Number} {x y : Float}

/-- The measurement `x` tells the threshold `t` and the double `y` nearest to it apart. -/
def Separates (x : Float) (t : Number) (y : Float) : Prop :=
  (Number.double y ≤ .double x ∧ .double x < t) ∨ (t ≤ .double x ∧ Number.double x < .double y)

theorem not_separates (same : t.sameValue (.double y)) : ¬ Separates x t y := by
  have alike : (Number.double x < t ↔ Number.double x < .double y) := by
    rw [lt_iff, lt_iff, order_swap t, order_congr same, ← order_swap]
  rintro (⟨reached, below⟩ | ⟨reached, below⟩)
  · exact not_lt_iff.2 (.inl reached) (alike.1 below)
  · exact not_lt_iff.2 (.inl reached) (alike.2 below)

theorem order_eq_none_iff_isNaN (range : t.toFloat? = some y) :
    order (.double x) t = none ↔ x.isNaN ∨ y.isNaN := by
  rw [order_eq_none_iff, point?_double_eq_none_iff, point?_eq_none_iff range]

theorem le_iff_double_le (range : t.toFloat? = some y) :
    (t ≤ .double x ↔ Number.double y ≤ .double x) ↔ ¬ Separates x t y := by
  have unordered : order (.double x) t = none ↔ order (.double x) (.double y) = none := by
    rw [order_eq_none_iff_isNaN range, order_eq_none_iff_isNaN rfl]
  unfold Separates
  rw [lt_iff, lt_iff, le_iff, le_iff, order_swap (.double x) t, order_swap (.double x) (.double y)]
  generalize order (.double x) t = exact at unordered ⊢
  generalize order (.double x) (.double y) = nearest at unordered ⊢
  rcases exact with _ | _ | _ | _ <;> rcases nearest with _ | _ | _ | _ <;> simp at unordered ⊢

theorem not_lt_iff_double_le (range : t.toFloat? = some y) :
    (¬ .double x < t ↔ Number.double y ≤ .double x) ↔ ¬ (x.isNaN ∨ y.isNaN ∨ Separates x t y) := by
  by_cases unordered : x.isNaN ∨ y.isNaN
  · have missed : ¬ Number.double x < t := by
      rw [lt_iff, (order_eq_none_iff_isNaN range).2 unordered]
      nofun
    have failed : ¬ Number.double y ≤ .double x := by
      rw [le_iff, order_swap (.double x), (order_eq_none_iff_isNaN rfl).2 unordered]
      nofun
    rw [← or_assoc]
    exact iff_of_false (fun agree => failed (agree.1 missed)) fun none => none (.inl unordered)
  · have ordered : order (.double x) t ≠ none := fun none => unordered ((order_eq_none_iff_isNaN range).1 none)
    rw [not_lt_iff, or_iff_left ordered, le_iff_double_le range, ← or_assoc, or_iff_right unordered]

end Number

namespace Rule
variable {r r' : Rule} {id id' : Value} {metric : String} {p q : Float → Prop} {s : Snapshot}

/-- The rule answers, with an alert of the given id. -/
def Raises (r : Rule) (id : Value) (s : Snapshot) : Prop :=
  ∃ raised, r.findings s = .ok raised ∧ ∃ a ∈ raised, a.ruleId = id

/-- A rule that always answers, with an alert of the given id where one measurement is there and is such. -/
structure Watches (r : Rule) (id : Value) (metric : String) (p : Float → Prop) : Prop where
  answers : ∀ s, ∃ raised, r.findings s = .ok raised
  raises : ∀ s, r.Raises id s ↔ ∃ x, s.metric? metric = some x ∧ p x

theorem watches_of_findings (outcome : ∀ s, ∃ raised, r.findings s = .ok raised ∧
    ((∃ a ∈ raised, a.ruleId = id) ↔ ∃ x, s.metric? metric = some x ∧ p x)) : r.Watches id metric p where
  answers s := (outcome s).imp fun _ h => h.1
  raises := by
    intro s
    obtain ⟨raised, answer, found⟩ := outcome s
    rw [← found]
    constructor
    · rintro ⟨raised', answer', alert⟩
      rw [answer] at answer'
      cases answer'
      exact alert
    · intro alert
      exact ⟨raised, answer, alert⟩

theorem Watches.agree_iff (first : r.Watches id metric p) (second : r'.Watches id' metric q) :
    (r.Raises id s ↔ r'.Raises id' s) ↔ ∀ x, s.metric? metric = some x → (p x ↔ q x) := by
  rw [first.raises, second.raises]
  rcases s.metric? metric with _ | x
  · simp
  · simp

section Builtin
variable {t other : Number} {y z : Float}

theorem raise_eq (a : PercentAlert) (range : t.toFloat? = some y) (x : Float) :
    ∃ alert : Alert, alert.ruleId = .text a.ruleId ∧ a.raise (.number t) x = .ok [alert] := by
  have shown : Value.toFixed 0 (.number t) = .ok (Binary64.displayFixed 0 y) := by
    simp only [Value.toFixed, Number.fixed?, range]
    rfl
  unfold PercentAlert.raise
  rw [shown]
  exact ⟨_, rfl, rfl⟩

theorem cpuHigh_watches (range : t.toFloat? = some y) :
    (cpuHigh (.number t)).Watches "cpu.high_usage" "cpu.total_pct" fun x => ¬ .double x < t := by
  refine watches_of_findings fun s => ?_
  simp only [findings, cpuHigh]
  rcases s.metric? "cpu.total_pct" with _ | x
  · exact ⟨[], rfl, by simp⟩
  change ∃ raised, (if decide (Number.double x < t) = true then (Except.ok [] : Except Fault _) else _) = _ ∧ _
  by_cases below : Number.double x < t
  · rw [if_pos (decide_eq_true below)]
    exact ⟨[], rfl, by simp [below]⟩
  · rw [if_neg (by simpa using below)]
    obtain ⟨alert, named, raised⟩ := raise_eq ⟨"cpu.total_pct", "cpu.high_usage", "High CPU usage",
      Severity.medium, "CPU usage", "exceeds threshold"⟩ range x
    exact ⟨[alert], raised, by simp [below, named]⟩

theorem usedShare_eq (a : PercentAlert) (range : t.toFloat? = some y) (s : Snapshot) :
    ∃ raised, usedShare a (.number t) s = .ok raised ∧ (∀ alert ∈ raised, alert.ruleId = .text a.ruleId) ∧
      (raised ≠ [] ↔ ∃ x, s.metric? a.metric = some x ∧ t ≤ .double x) := by
  unfold usedShare
  rcases s.metric? a.metric with _ | x
  · exact ⟨[], rfl, by simp⟩
  change ∃ raised, (if t ≤ Number.double x then _ else (Except.ok [] : Except Fault _)) = _ ∧ _
  by_cases reached : t ≤ Number.double x
  · rw [if_pos reached]
    obtain ⟨alert, named, raised⟩ := raise_eq a range x
    exact ⟨[alert], raised, by simpa using named, by simp [reached]⟩
  · rw [if_neg reached]
    exact ⟨[], rfl, by simp [reached]⟩

theorem memoryPressure_watches (range : t.toFloat? = some y) (range' : other.toFloat? = some z) :
    (memoryPressure (.number t) (.number other)).Watches "mem.high_usage" "mem.ram.used_pct"
        (fun x => t ≤ .double x) ∧
      (memoryPressure (.number t) (.number other)).Watches "mem.swap_pressure" "mem.swap.used_pct"
        (fun x => other ≤ .double x) := by
  have halves (s : Snapshot) : ∃ first second, (memoryPressure (.number t) (.number other)).findings s =
        .ok (first ++ second) ∧
      (∀ alert ∈ first, alert.ruleId = .text "mem.high_usage") ∧
      (∀ alert ∈ second, alert.ruleId = .text "mem.swap_pressure") ∧
      (first ≠ [] ↔ ∃ x, s.metric? "mem.ram.used_pct" = some x ∧ t ≤ .double x) ∧
      (second ≠ [] ↔ ∃ x, s.metric? "mem.swap.used_pct" = some x ∧ other ≤ .double x) := by
    obtain ⟨first, hfirst, ids, some⟩ := usedShare_eq ⟨"mem.ram.used_pct", "mem.high_usage",
      "High RAM usage", Severity.medium, "RAM usage", "exceeds"⟩ range s
    obtain ⟨second, hsecond, ids', some'⟩ := usedShare_eq ⟨"mem.swap.used_pct", "mem.swap_pressure",
      "Swap pressure", Severity.low, "Swap usage", "exceeds"⟩ range' s
    refine ⟨first, second, ?_, ids, ids', some, some'⟩
    simp only [findings, memoryPressure]
    rw [hfirst, hsecond]
    rfl
  have apart : Value.text "mem.high_usage" ≠ .text "mem.swap_pressure" := by simp
  constructor
  · refine watches_of_findings fun s => ?_
    obtain ⟨first, second, answer, ids, ids', some, -⟩ := halves s
    refine ⟨_, answer, ?_⟩
    rw [← some]
    constructor
    · rintro ⟨a, ha, named⟩ rfl
      exact apart (named.symm.trans (ids' a ha))
    · intro nonempty
      obtain ⟨a, ha⟩ := List.exists_mem_of_ne_nil first nonempty
      exact ⟨a, List.mem_append_left _ ha, ids a ha⟩
  · refine watches_of_findings fun s => ?_
    obtain ⟨first, second, answer, ids, ids', -, some⟩ := halves s
    refine ⟨_, answer, ?_⟩
    rw [← some]
    constructor
    · rintro ⟨a, ha, named⟩ rfl
      rw [List.append_nil] at ha
      exact apart ((ids a ha).symm.trans named)
    · intro nonempty
      obtain ⟨a, ha⟩ := List.exists_mem_of_ne_nil second nonempty
      exact ⟨a, List.mem_append_right _ ha, ids' a ha⟩

end Builtin

section Definition
variable {d : RuleDefinition} {t : Number} {y : Float}

theorem evaluate_of_compile (op : d.op = .text ">=") (threshold : d.threshold = .number t)
    (compiled : d.compile = .ok r) :
    ∃ y, t.toFloat? = some y ∧ r.evaluate = some (RuleDefinition.evaluation d.id d.metric .ge y) := by
  unfold RuleDefinition.compile at compiled
  by_cases noId : d.id.isEmpty
  · rw [if_pos noId] at compiled
    cases compiled
  by_cases noMetric : d.metric.isEmpty
  · simp only [if_neg noId, if_pos noMetric] at compiled
    cases compiled
  simp only [if_neg noId, if_neg noMetric, op, threshold] at compiled
  obtain ⟨c, hc, compiled⟩ := ok_of_bind compiled
  obtain ⟨severity, -, compiled⟩ := ok_of_bind compiled
  obtain ⟨y, hy, compiled⟩ := ok_of_bind compiled
  obtain ⟨tags, -, compiled⟩ := ok_of_bind compiled
  have atLeast : c = .ge := (Except.ok.inj hc).symm
  have range : t.toFloat? = some y := by
    simp only [Value.toDouble] at hy
    rcases h : t.toFloat? with _ | z
    · rw [h] at hy
      cases hy
    · rw [h] at hy
      exact congrArg some (Except.ok.inj hy)
  exact ⟨y, range, by rw [← Except.ok.inj compiled, atLeast]⟩

/-- With a name and a measurement, a definition compiles as long as its threshold has a double. -/
theorem compile_iff {name : String} (named : name ≠ "") (measures : metric ≠ "") :
    (∃ r, RuleDefinition.compile { id := .text name, metric := .text metric, threshold := .number t } = .ok r) ↔
      ∃ y, t.toFloat? = some y := by
  constructor
  · rintro ⟨r, compiled⟩
    obtain ⟨y, range, -⟩ := evaluate_of_compile rfl rfl compiled
    exact ⟨y, range⟩
  · rintro ⟨y, range⟩
    have threshold : Value.toDouble (.number t) = .ok y := by
      simp only [Value.toDouble, range]
      rfl
    have severity : RuleDefinition.severityName name Severity.medium = .ok Severity.medium := rfl
    unfold RuleDefinition.compile
    simp only [Value.isEmpty, String.isEmpty_iff, named, measures, Value.display]
    rw [threshold, severity]
    exact ⟨_, rfl⟩

theorem watches_of_evaluate (hmetric : d.metric = .text metric)
    (evaluates : r.evaluate = some (RuleDefinition.evaluation d.id d.metric .ge y)) :
    r.Watches d.id metric fun x => Number.double y ≤ .double x := by
  refine watches_of_findings fun s => ?_
  have measured : RuleDefinition.measured? s (.text metric) = .ok (s.metric? metric) := by
    unfold RuleDefinition.measured? Snapshot.metric?
    rcases s.metrics with _ | _ <;> rfl
  simp only [findings, evaluates, hmetric, RuleDefinition.evaluation]
  rw [measured]
  rcases s.metric? metric with _ | x
  · exact ⟨[], rfl, by simp⟩
  · refine ⟨_, rfl, ?_⟩
    have holds : Comparison.ge.holds x y = true ↔ Number.double y ≤ .double x := by
      rw [Number.double_le_double]
      exact decide_eq_true_iff
    by_cases reached : Number.double y ≤ .double x
    · rw [if_pos (holds.2 reached)]
      simp [reached, RuleDefinition.alertOn]
    · rw [if_neg (mt holds.1 reached)]
      simp [reached]

end Definition

/-- The snapshots on which the built-in rules with the limit `t` and the definition `d` with `>=` and the same
threshold, compiled to the rule `r`, agree; `y` is the double nearest to the threshold. -/
structure AgreementLaw (t : Number) (y : Float) (d : RuleDefinition) (r : Rule) : Prop where
  cpu : d.metric = .text "cpu.total_pct" → ∀ s : Snapshot,
    ((cpuHigh (.number t)).Raises "cpu.high_usage" s ↔ r.Raises d.id s) ↔
      ∀ x, s.metric? "cpu.total_pct" = some x → ¬ (x.isNaN ∨ y.isNaN ∨ Number.Separates x t y)
  ram : d.metric = .text "mem.ram.used_pct" → ∀ other z, other.toFloat? = some z → ∀ s : Snapshot,
    ((memoryPressure (.number t) (.number other)).Raises "mem.high_usage" s ↔ r.Raises d.id s) ↔
      ∀ x, s.metric? "mem.ram.used_pct" = some x → ¬ Number.Separates x t y
  swap : d.metric = .text "mem.swap.used_pct" → ∀ other z, other.toFloat? = some z → ∀ s : Snapshot,
    ((memoryPressure (.number other) (.number t)).Raises "mem.swap_pressure" s ↔ r.Raises d.id s) ↔
      ∀ x, s.metric? "mem.swap.used_pct" = some x → ¬ Number.Separates x t y
  exact : t = .double y ∨ t.sameValue (.double y) → ∀ x, ¬ Number.Separates x t y

theorem agreementLaw {t : Number} {d : RuleDefinition} (op : d.op = .text ">=")
    (threshold : d.threshold = .number t) (compiled : d.compile = .ok r) :
    ∃ y, t.toFloat? = some y ∧ AgreementLaw t y d r := by
  obtain ⟨y, range, evaluates⟩ := evaluate_of_compile op threshold compiled
  refine ⟨y, range, ?_, ?_, ?_, ?_⟩
  · intro hmetric s
    rw [(cpuHigh_watches range).agree_iff (watches_of_evaluate hmetric evaluates)]
    simp only [Number.not_lt_iff_double_le range]
  · intro hmetric other z range' s
    rw [(memoryPressure_watches range range').1.agree_iff (watches_of_evaluate hmetric evaluates)]
    simp only [Number.le_iff_double_le range]
  · intro hmetric other z range' s
    rw [(memoryPressure_watches range' range).2.agree_iff (watches_of_evaluate hmetric evaluates)]
    simp only [Number.le_iff_double_le range]
  · rintro (rfl | same) x
    · exact (Number.le_iff_double_le rfl).1 Iff.rfl
    · exact Number.not_separates same

/-- At least ninety per cent of the processor. -/
def busyProcessor : RuleDefinition := { id := "busy", metric := "cpu.total_pct", threshold := .number 90 }

theorem agreementLaw_busyProcessor : ∃ r, busyProcessor.compile = .ok r ∧
    ∃ y, Number.toFloat? 90 = some y ∧ AgreementLaw 90 y busyProcessor r := by
  have compiled : ∃ r, busyProcessor.compile = .ok r := (compile_iff (by decide) (by decide)).2 ⟨_, rfl⟩
  obtain ⟨r, compiled⟩ := compiled
  exact ⟨r, compiled, agreementLaw rfl rfl compiled⟩

/-- The load of a processor that is not a number. -/
def unknownLoad : Snapshot := { metrics := [("cpu.total_pct", Float.ofBits 0x7ff8000000000000)] }

/-- Processor load that is not a number raises the built-in alert alone. -/
theorem not_forall_agree : ¬ ∀ (t : Number) (d : RuleDefinition) (r : Rule), d.metric = .text "cpu.total_pct" →
    d.op = .text ">=" → d.threshold = .number t → d.compile = .ok r →
    ∀ s : Snapshot, (cpuHigh (.number t)).Raises "cpu.high_usage" s ↔ r.Raises d.id s := by
  intro agree
  have compiled : ∃ r, busyProcessor.compile = .ok r := (compile_iff (by decide) (by decide)).2 ⟨_, rfl⟩
  obtain ⟨r, compiled⟩ := compiled
  obtain ⟨y, range, evaluates⟩ := evaluate_of_compile rfl rfl compiled
  have same := agree 90 busyProcessor r rfl rfl rfl compiled unknownLoad
  rw [(cpuHigh_watches range).agree_iff (watches_of_evaluate rfl evaluates)] at same
  have number := (Number.not_lt_iff_double_le range).1 (same _ rfl)
  exact number (.inl (by decide))

end Rule

end HostWatch
