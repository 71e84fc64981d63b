import HostWatch.Proofs.Numeric.Encoding
import HostWatch.Rule.Builtin

/-!
# Count rules where nothing was counted

Limits that are not positive fall back to their defaults, and only then are the limits on counts cut to
integers. So a limit between zero and one (`Value.IsFraction`) is kept and becomes zero, which no count is
below. `Rule.builtin_countLaw`: with any other limit a count rule is silent where nothing was counted; with
such a limit it raises an alert there.
-/

namespace HostWatch

/-! ### Cutting to integers -/

namespace Binary64

/-- Zero, of either sign, has no mantissa. -/
theorem parts_of_zero {x : Float} (h : (x == 0) = true) : ∃ negative, parts x = .finite negative 0 (-1074) := by
  obtain ⟨-, -, rfl | ⟨rfl, -⟩ | ⟨rfl, -⟩⟩ := Float.beq_iff_ne_nan_and_eq.1 h
  · exact ⟨false, by decide⟩
  · exact ⟨false, by decide⟩
  · exact ⟨true, by decide⟩

theorem ratio_zero (negative : Bool) : (ratio negative 0 (-1074)).1 = 0 := by
  cases negative <;> rfl

theorem truncate?_of_zero {x : Float} (h : (x == 0) = true) : truncate? x = .ok 0 := by
  obtain ⟨negative, hparts⟩ := parts_of_zero h
  show toInt? (fun n d => Int.tdiv n d) x = _
  unfold toInt?
  rw [hparts]
  show Except.ok ((ratio negative 0 (-1074)).1.tdiv _) = _
  rw [ratio_zero, Int.zero_tdiv]

end Binary64

namespace Number
variable {n : Number} {k m : Int} {x : Float}

/-- A number between zero and one. -/
def IsFraction (n : Number) : Prop := 0 < n ∧ n < 1

theorem int_lt_double : (Number.int m < .double x) ↔ orderIntDouble m x = some .lt := by
  show (order (.int m) (.double x) == some .lt) = true ↔ _
  simp [order, worth]

theorem double_lt_int : (Number.double x < .int m) ↔ orderIntDouble m x = some .gt := by
  show (order (.double x) (.int m) == some .lt) = true ↔ _
  rcases h : orderIntDouble m x with _ | _ | _ | _ <;> simp [order, worth, h]

theorem truncate?_double (hpos : 0 < Number.double x) (ok : Binary64.truncate? x = .ok k) :
    0 ≤ k ∧ (k = 0 ↔ Number.double x < 1) := by
  have hpos : orderIntDouble 0 x = some .lt := int_lt_double.1 hpos
  have hone : (Number.double x < 1) ↔ orderIntDouble 1 x = some .gt := double_lt_int
  change Binary64.toInt? (fun n d => Int.tdiv n d) x = .ok k at ok
  rw [hone]
  unfold orderIntDouble at hpos ⊢
  unfold Binary64.toInt? at ok
  rcases hparts : Binary64.parts x with _ | negative | ⟨negative, mantissa, exponent⟩
  · rw [hparts] at ok
    cases ok
  · rw [hparts] at ok
    cases ok
  · rw [hparts] at hpos ok
    dsimp only at hpos ok ⊢
    have hd := Binary64.ratio_pos negative mantissa exponent
    generalize Binary64.ratio negative mantissa exponent = r at hpos ok hd ⊢
    obtain ⟨a, d⟩ := r
    obtain rfl := Except.ok.inj ok
    rw [Option.some.injEq, Int.compare_eq_lt] at hpos
    rw [Option.some.injEq, Int.compare_eq_gt]
    have nonneg : 0 ≤ a := by simp at hpos; omega
    have below : a / (d : Int) < 1 ↔ a < 1 * d := Int.ediv_lt_iff_lt_mul (by exact_mod_cast hd)
    have quotient : 0 ≤ a / (d : Int) := Int.ediv_nonneg nonneg (Int.natCast_nonneg d)
    show 0 ≤ a.tdiv d ∧ (a.tdiv d = 0 ↔ _)
    rw [Int.tdiv_eq_ediv_of_nonneg nonneg, ← below]
    omega

/-- A positive number is cut to zero exactly if it is below one. -/
theorem truncate?_of_pos (hpos : 0 < n) (ok : n.truncate? = .ok k) : 0 ≤ k ∧ (k = 0 ↔ n < 1) := by
  rcases n with m | x | b
  · have hpos : 0 < m := int_lt_int.1 hpos
    have hone : (Number.int m < 1) ↔ m < 1 := int_lt_int
    obtain rfl : m = k := Except.ok.inj ok
    rw [hone]
    omega
  · exact truncate?_double hpos ok
  · cases b
    · cases hpos
    · obtain rfl : (1 : Int) = k := Except.ok.inj ok
      exact ⟨by decide, by decide, fun h => by cases h⟩

theorem not_pos_of_isZero (h : n.isZero) : ¬ 0 < n := by
  rcases n with m | x | b
  · obtain rfl : m = 0 := by simpa [isZero, worth] using h
    exact fun hpos => absurd (int_lt_int.1 hpos) (Int.lt_irrefl 0)
  · obtain ⟨negative, hparts⟩ := Binary64.parts_of_zero h
    intro hpos
    have above := int_lt_double.1 hpos
    unfold orderIntDouble at above
    rw [hparts] at above
    dsimp only at above
    have zero := Binary64.ratio_zero negative
    generalize Binary64.ratio negative 0 (-1074) = r at above zero
    rw [zero] at above
    simp at above
  · cases b
    · decide
    · cases h

end Number

/-! ### Limits -/

/-- A number between zero and one, in the place of a limit. -/
def Value.IsFraction (v : Value) : Prop := ∃ n, v = .number n ∧ n.IsFraction

theorem Value.isFraction_number {n : Number} : (Value.number n).IsFraction ↔ n.IsFraction := by
  constructor
  · rintro ⟨m, heq, h⟩
    cases heq
    exact h
  · exact fun h => ⟨n, rfl, h⟩

namespace Thresholds
variable {limit kept : Value} {default k : Int}

/-- What becomes of a limit on a count. -/
theorem cut_positiveOr (hdefault : 0 < default) (hkept : positiveOr (.int default) limit = .ok kept)
    (hcut : kept.toInteger = .ok k) : 0 ≤ k ∧ (k = 0 ↔ limit.IsFraction) := by
  have fallback (h : kept = .int default) (none : ¬ limit.IsFraction) :
      0 ≤ k ∧ (k = 0 ↔ limit.IsFraction) := by
    subst h
    obtain rfl : default = k := Except.ok.inj hcut
    exact ⟨by omega, by omega, fun h => absurd h none⟩
  unfold positiveOr Value.isPositiveIfAny at hkept
  by_cases hempty : limit.isEmpty
  · rw [if_pos hempty] at hkept
    refine fallback (Except.ok.inj hkept).symm ?_
    rintro ⟨n, rfl, hpos, -⟩
    exact Number.not_pos_of_isZero hempty hpos
  · rw [if_neg hempty] at hkept
    rcases limit with _ | n | _ | _ | _ | _ | _
    case number =>
      by_cases hpos : 0 < n
      · have same : n.isPositive = true := decide_eq_true hpos
        obtain rfl : Value.number n = kept := by
          simpa [Value.isPositive, Value.comparable, same, bind, Except.bind, pure, Except.pure] using hkept
        have ok : n.truncate? = .ok k := by
          rcases h : n.truncate? with e | j
          · simp [Value.toInteger, Fault.ofUnbounded, h] at hcut
          · simpa [Value.toInteger, Fault.ofUnbounded, h] using hcut
        obtain ⟨nonneg, zero⟩ := Number.truncate?_of_pos hpos ok
        rw [Value.isFraction_number]
        exact ⟨nonneg, zero.trans ⟨fun h => ⟨hpos, h⟩, And.right⟩⟩
      · have other : n.isPositive = false := decide_eq_false hpos
        refine fallback ?_ ?_
        · simpa [Value.isPositive, Value.comparable, other, bind, Except.bind, pure, Except.pure] using
            hkept.symm
        · rw [Value.isFraction_number]
          exact fun h => hpos h.1
    all_goals cases hkept

end Thresholds

/-! ### The rules -/

/-- The measurements that the count rules look at. -/
def countMetrics : List String :=
  ["proc.new", "file.events", "persist.added", "persist.changed", "persist.removed"]

/-- Nothing was counted: each of these measurements is absent or zero. -/
def Snapshot.IsQuiet (s : Snapshot) : Prop :=
  ∀ name ∈ countMetrics, ∀ x, s.metric? name = some x → (x == 0) = true

namespace Rule

/-- What a rule makes of a snapshot; a rule without evaluation makes nothing of it. -/
def findings (r : Rule) (s : Snapshot) : Except Fault (List Alert) :=
  match r.evaluate with
  | some evaluate => evaluate s
  | none => .ok []

/-- What a rule on counts makes of snapshots on which nothing was counted: nothing, unless its limit lies
between zero and one. Then it raises an alert if only one of its measurements is there. -/
structure CountLaw (id : String) (metrics : List String) (limit : Value) (r : Rule) : Prop where
  named : r.id = .text id
  silent : ¬ limit.IsFraction → ∀ s : Snapshot, s.IsQuiet → r.findings s = .ok []
  raises : limit.IsFraction → ∀ s : Snapshot, s.IsQuiet → s.fields = some [] →
    (∃ name ∈ metrics, (s.metric? name).isSome) → ∃ a, r.findings s = .ok [a] ∧ a.ruleId = .text id

section CountLaw
variable {s : Snapshot} {name : String} {x : Float} {k : Int}

theorem count_of_quiet (quiet : s.IsQuiet) (hname : name ∈ countMetrics) (hx : s.metric? name = some x) :
    count x = .ok 0 := by
  unfold count
  rw [Binary64.truncate?_of_zero (quiet name hname x hx)]
  rfl

theorem countOrZero_of_quiet (quiet : s.IsQuiet) (hname : name ∈ countMetrics) :
    countOrZero (s.metric? name) = .ok 0 := by
  rcases hx : s.metric? name with _ | x
  · rfl
  · exact count_of_quiet quiet hname hx

theorem isFewer_int (n k : Int) : isFewer n (.int k) = .ok (decide (n < k)) :=
  congrArg Except.ok (decide_eq_decide.2 Number.int_lt_int)

theorem isFewer_zero (k : Int) : isFewer 0 (.int k) = .ok (decide (0 < k)) := isFewer_int 0 k

theorem not_isWarming_of_fields (h : s.fields = some []) : s.isWarming = false := by
  unfold Snapshot.isWarming Snapshot.field?
  rw [h]
  rfl

/-- A rule that keeps silent while a source is warming up and compares one count with its limit. -/
theorem countLaw_of_isFewer {r : Rule} {id metric : String} {limit : Value}
    {alert : Snapshot → Int → Except Fault (List Alert)} (named : r.id = .text id) (hmetric : metric ∈ countMetrics)
    (evaluates : r.evaluate = some fun s =>
      if s.isWarming then .ok []
      else
        match s.metric? metric with
        | none => .ok []
        | some x => do
          let n ← count x
          if ← isFewer n (.int k) then .ok [] else alert s n)
    (alerts : ∀ s : Snapshot, s.fields = some [] → ∃ a, alert s 0 = .ok [a] ∧ a.ruleId = .text id)
    (nonneg : 0 ≤ k) (zero : k = 0 ↔ limit.IsFraction) : CountLaw id [metric] limit r where
  named := named
  silent := by
    intro sound s quiet
    have positive : 0 < k := by
      have := mt zero.1 sound
      omega
    simp only [findings, evaluates]
    split
    · rfl
    · split
      · rfl
      · rename_i x hx
        rw [count_of_quiet quiet hmetric hx]
        show (do if ← isFewer 0 (.int k) then _ else _) = _
        rw [isFewer_zero, decide_eq_true positive]
        rfl
  raises := by
    rintro fraction s quiet hfields ⟨name, hname, hsome⟩
    obtain rfl := List.mem_singleton.1 hname
    obtain ⟨x, hx⟩ := Option.isSome_iff_exists.1 hsome
    obtain rfl := zero.2 fraction
    simp only [findings, evaluates, not_isWarming_of_fields hfields, hx]
    rw [count_of_quiet quiet hmetric hx]
    exact alerts s hfields

theorem processBurst_countLaw {limit : Value} (nonneg : 0 ≤ k) (zero : k = 0 ↔ limit.IsFraction) :
    CountLaw "proc.burst" ["proc.new"] limit (processBurst (.int k)) := by
  refine countLaw_of_isFewer rfl (by decide) rfl ?_ nonneg zero
  intro s hfields
  rw [hfields]
  exact ⟨_, rfl, rfl⟩

theorem fileEventBurst_countLaw {limit : Value} (nonneg : 0 ≤ k) (zero : k = 0 ↔ limit.IsFraction) :
    CountLaw "file.events_burst" ["file.events"] limit (fileEventBurst (.int k)) :=
  countLaw_of_isFewer rfl (by decide) rfl (fun _ _ => ⟨_, rfl, rfl⟩) nonneg zero

theorem persistenceChange_countLaw {limit : Value} (nonneg : 0 ≤ k) (zero : k = 0 ↔ limit.IsFraction) :
    CountLaw "persist.change" ["persist.added", "persist.changed", "persist.removed"] limit
      (persistenceChange (.int k)) where
  named := rfl
  silent := by
    intro sound s quiet
    have positive : 0 < k := by
      have := mt zero.1 sound
      omega
    simp only [findings, persistenceChange]
    split
    · rfl
    · rw [countOrZero_of_quiet quiet (by decide), countOrZero_of_quiet quiet (by decide),
        countOrZero_of_quiet quiet (by decide)]
      show (do if ← isFewer 0 (.int k) then _ else _) = _
      rw [isFewer_zero, decide_eq_true positive]
      rfl
  raises := by
    rintro fraction s quiet - ⟨name, hname, hsome⟩
    obtain rfl := zero.2 fraction
    have present : ((s.metric? "persist.added").isNone && (s.metric? "persist.changed").isNone &&
        (s.metric? "persist.removed").isNone) = false := by
      obtain ⟨x, hx⟩ := Option.isSome_iff_exists.1 hsome
      simp only [List.mem_cons, List.not_mem_nil, or_false] at hname
      rcases hname with rfl | rfl | rfl <;> simp [hx]
    simp only [findings, persistenceChange, present]
    rw [countOrZero_of_quiet quiet (by decide), countOrZero_of_quiet quiet (by decide),
      countOrZero_of_quiet quiet (by decide)]
    exact ⟨_, rfl, rfl⟩

end CountLaw

/-- The built-in rules, and what those on counts make of snapshots on which nothing was counted. -/
theorem builtin_countLaw {t : Thresholds} {rules : List Rule} (ok : builtin t = .ok rules) :
    ∃ cpu memory processes network files persistence,
      rules = [cpu, memory, processes, network, files, persistence] ∧
      CountLaw "proc.burst" ["proc.new"] t.newProcesses processes ∧
      CountLaw "file.events_burst" ["file.events"] t.fileEvents files ∧
      CountLaw "persist.change" ["persist.added", "persist.changed", "persist.removed"]
        t.persistenceChanges persistence := by
  obtain ⟨kept, hkept, ok⟩ := ok_of_bind ok
  obtain ⟨newProcesses, hprocesses, ok⟩ := ok_of_bind ok
  obtain ⟨fileEvents, hfiles, ok⟩ := ok_of_bind ok
  obtain ⟨changes, hchanges, ok⟩ := ok_of_bind ok
  obtain ⟨_, -, hkept⟩ := ok_of_bind hkept
  obtain ⟨_, -, hkept⟩ := ok_of_bind hkept
  obtain ⟨_, -, hkept⟩ := ok_of_bind hkept
  obtain ⟨processes, keptProcesses, hkept⟩ := ok_of_bind hkept
  obtain ⟨_, -, hkept⟩ := ok_of_bind hkept
  obtain ⟨files, keptFiles, hkept⟩ := ok_of_bind hkept
  obtain ⟨persistence, keptPersistence, hkept⟩ := ok_of_bind hkept
  obtain rfl := Except.ok.inj hkept
  obtain rfl := Except.ok.inj ok
  obtain ⟨nonneg, zero⟩ := Thresholds.cut_positiveOr (by decide) keptProcesses hprocesses
  obtain ⟨nonneg', zero'⟩ := Thresholds.cut_positiveOr (by decide) keptFiles hfiles
  obtain ⟨nonneg'', zero''⟩ := Thresholds.cut_positiveOr (by decide) keptPersistence hchanges
  exact ⟨_, _, _, _, _, _, rfl, processBurst_countLaw nonneg zero, fileEventBurst_countLaw nonneg' zero',
    persistenceChange_countLaw nonneg'' zero''⟩

/-- Half a process is a limit that is cut to zero. -/
def halfBurst : Thresholds := { newProcesses := .double 0.5 }

theorem isFraction_half : (Value.double 0.5).IsFraction := ⟨.double 0.5, rfl, by decide, by decide⟩

theorem builtin_countLaw_half : ∃ rules, builtin halfBurst = .ok rules ∧ halfBurst.newProcesses.IsFraction ∧
    ∃ r ∈ rules, CountLaw "proc.burst" ["proc.new"] halfBurst.newProcesses r := by
  have ok : ∃ rules, builtin halfBurst = .ok rules := ⟨_, rfl⟩
  obtain ⟨rules, ok⟩ := ok
  obtain ⟨cpu, memory, processes, network, files, persistence, rfl, law, -, -⟩ := builtin_countLaw ok
  exact ⟨_, ok, isFraction_half, processes, by simp, law⟩

/-- A snapshot on which no new process was counted. -/
def noProcess : Snapshot := { metrics := [("proc.new", 0)] }

theorem noProcess_quiet : noProcess.IsQuiet := by
  intro name hname x hx
  simp only [countMetrics, List.mem_cons, List.not_mem_nil, or_false] at hname
  rcases hname with rfl | rfl | rfl | rfl | rfl
  · obtain rfl : (0 : Float) = x := Option.some.inj hx
    decide
  all_goals cases hx

/-- The count rules are not silent for all limits that are numbers. -/
theorem not_forall_silent : ¬ ∀ (t : Thresholds) (rules : List Rule),
    (∀ limit ∈ t.fields, ∃ n, limit.2 = .number n) → builtin t = .ok rules →
    ∀ r ∈ rules, ∀ id ∈ ["proc.burst", "file.events_burst", "persist.change"], r.id = .text id →
    ∀ s : Snapshot, s.IsQuiet → ∀ raised, r.findings s = .ok raised → raised = [] := by
  intro silent
  have numeric : ∀ limit ∈ halfBurst.fields, ∃ n, limit.2 = .number n := by
    intro limit hlimit
    simp only [Thresholds.fields, List.mem_cons, List.not_mem_nil, or_false] at hlimit
    rcases hlimit with rfl | rfl | rfl | rfl | rfl | rfl | rfl <;> exact ⟨_, rfl⟩
  have ok : builtin halfBurst = .ok [cpuHigh (.double 90), memoryPressure (.double 90) (.double 60),
      processBurst (.int 0), networkSpike (.int 1048576), fileEventBurst (.int 50),
      persistenceChange (.int 1)] := rfl
  obtain ⟨a, raised, -⟩ := (processBurst_countLaw (Int.le_refl 0)
    (iff_of_true rfl isFraction_half)).raises isFraction_half noProcess noProcess_quiet rfl
    ⟨"proc.new", by simp, rfl⟩
  have none := silent halfBurst _ numeric ok (processBurst (.int 0)) (by simp) "proc.burst" (by simp) rfl
    noProcess noProcess_quiet _ raised
  cases none

end Rule

end HostWatch
