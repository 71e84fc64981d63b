import HostWatch.Program
import HostWatch.Proofs.Detection.Filling
import HostWatch.Proofs.Detection.Typed
import HostWatch.Proofs.Json.Reading

/-!
# Files of rules and indicators that cannot be used

A file that holds no rules or no indicators is complained of by a fault of the program's own, which ends a run
in order. But the fields of a definition and the lists of indicators are put to use as they are: a list in the
place of an operator, a severity that is no text, a threshold that is no number, tags or indicators that are
no list, and a text nested too deep, are met by faults of other kinds. These are all that escape
(`Agent.loadingLaw`), and none of them is rare enough to leave out (`Agent.not_forall_own`).
-/

namespace HostWatch

theorem error_of_bind {α β : Type} {x : Except Fault α} {next : α → Except Fault β} {e : Fault} :
    x >>= next = .error e ↔ x = .error e ∨ ∃ a, x = .ok a ∧ next a = .error e := by
  cases x with
  | error f => simp [bind, Except.bind]
  | ok a => simp [bind, Except.bind]

/-- Where one item after the other is treated, the first that cannot be is the one that fails. -/
theorem mapM_error_iff {α β : Type} {f : α → Except Fault β} {xs : List α} {e : Fault} :
    xs.mapM f = .error e ↔
      ∃ before x after, xs = before ++ x :: after ∧ (∀ b ∈ before, ∃ y, f b = .ok y) ∧ f x = .error e := by
  induction xs with
  | nil => simp [pure, Except.pure]
  | cons x xs ih =>
    rw [List.mapM_cons, error_of_bind]
    constructor
    · rintro (h | ⟨y, hy, h⟩)
      · exact ⟨[], x, xs, rfl, by simp, h⟩
      · obtain h | ⟨ys, -, h⟩ := error_of_bind.1 h
        · obtain ⟨before, z, after, rfl, fine, hz⟩ := ih.1 h
          refine ⟨x :: before, z, after, rfl, ?_, hz⟩
          intro b hb
          rcases List.mem_cons.1 hb with rfl | hb
          · exact ⟨y, hy⟩
          · exact fine b hb
        · cases h
    · rintro ⟨before, z, after, hxs, fine, hz⟩
      cases before with
      | nil =>
        obtain ⟨rfl, rfl⟩ := List.cons.inj hxs
        exact .inl hz
      | cons b before =>
        obtain ⟨rfl, rfl⟩ := List.cons.inj hxs
        obtain ⟨y, hy⟩ := fine x (by simp)
        refine .inr ⟨y, hy, error_of_bind.2 (.inl (ih.2 ⟨before, z, after, rfl, ?_, hz⟩))⟩
        exact fun b hb => fine b (by simp [hb])

/-! ### Definitions of rules -/

namespace RuleDefinition
variable {d : RuleDefinition} {e : Fault} {f : Files} {path : String}

/-- A definition with an id, a measurement and an operator that there is. -/
structure IsBegun (d : RuleDefinition) : Prop where
  id : d.id.isEmpty = false
  metric : d.metric.isEmpty = false
  op : ∃ c, comparison d.id.display d.op = .ok c

/-- What a definition fails with when a field cannot be put to use; all that is looked at before is in
order. -/
inductive Escapes (d : RuleDefinition) : Fault → Prop
  | operator {e : Fault} (id : d.id.isEmpty = false) (metric : d.metric.isEmpty = false)
      (op : d.op.toKey = .error e) : Escapes d e
  | severity (begun : d.IsBegun) (given : d.severity.isEmpty = false) (other : ¬ d.severity.IsText) :
      Escapes d (.missingPart d.severity.kindName "lower")
  | threshold {e : Fault} (begun : d.IsBegun) (severity : ∃ s, severityName d.id.display d.severity = .ok s)
      (threshold : d.threshold.toDouble = .error e) : Escapes d e
  | tags (begun : d.IsBegun) (severity : ∃ s, severityName d.id.display d.severity = .ok s)
      (threshold : ∃ x, d.threshold.toDouble = .ok x) (tags : d.tags.elements? = none) :
      Escapes d (.wrongType (.notIterable d.tags.kindName))

/-- The rules that a file defines. -/
def loadRules (f : Files) (path : String) : Except Fault (List Rule) := do
  (← load f path).mapM compile

/-- What the rules of a file fail with when something in it cannot be put to use. -/
inductive FileEscapes (f : Files) (path : String) : Fault → Prop
  | nesting (read : f.readJson path = .error .nesting) : FileEscapes f path .tooDeep
  | definition {before after : List RuleDefinition} {d : RuleDefinition} {e : Fault}
      (read : load f path = .ok (before ++ d :: after)) (fine : ∀ b ∈ before, ∃ r, b.compile = .ok r)
      (escapes : d.Escapes e) : FileEscapes f path e

theorem toKey_error {v : Value} (h : v.toKey = .error e) : e.kind = .wrongType := by
  cases v <;> cases h <;> rfl

theorem toDouble_error {v : Value} (h : v.toDouble = .error e) :
    e.kind = .wrongType ∨ e.kind = .badValue ∨ e.kind = .outOfRange := by
  cases v with
  | number n =>
    rcases hn : n.toFloat? with _ | x
    · simp only [Value.toDouble, hn, Fault.ofOption, Except.error.injEq] at h
      exact h ▸ .inr (.inr rfl)
    · simp [Value.toDouble, hn, Fault.ofOption] at h
  | text s =>
    rcases hs : readFloat? s with _ | x
    · simp only [Value.toDouble, hs, Fault.ofOption, Except.error.injEq] at h
      exact h ▸ .inr (.inl rfl)
    · simp [Value.toDouble, hs, Fault.ofOption] at h
  | _ =>
    cases h
    exact .inl rfl

/-- An operator that things can be looked up by is complained of, if there is no such operator. -/
theorem comparison_error {id : String} {op : Value} (h : comparison id op = .error e) :
    op.toKey = .error e ∨ e.kind = .rule := by
  obtain h | ⟨k, -, h⟩ := error_of_bind.1 h
  · exact .inl h
  · right
    split at h
    · rename_i s
      rcases hs : Comparison.ofSymbol? s with _ | c
      · simp only [hs, Fault.ofOption, Except.error.injEq] at h
        exact h ▸ rfl
      · simp [hs, Fault.ofOption] at h
    · cases h
      rfl

theorem comparison_of_toKey_error {id : String} {op : Value} (h : op.toKey = .error e) :
    comparison id op = .error e := error_of_bind.2 (.inl h)

theorem severityName_error {id : String} {severity : Value} (h : severityName id severity = .error e) :
    e.kind = .rule ∨ severity.isEmpty = false ∧ ¬ severity.IsText ∧ e = .missingPart severity.kindName "lower" := by
  obtain h | ⟨s, -, h⟩ := error_of_bind.1 h
  · right
    by_cases empty : severity.isEmpty
    · rw [Value.orElse_of_isEmpty empty] at h
      cases h
    · rw [Value.orElse_of_not_isEmpty empty] at h
      refine ⟨by simpa using empty, ?_, ?_⟩
      · rintro ⟨s, rfl⟩
        cases h
      · cases severity <;> cases h <;> rfl
  · left
    by_cases known : Text.lower s ∈ Severity.names
    · simp only [if_pos known] at h
      cases h
    · simp only [if_neg known] at h
      cases h
      rfl

theorem severityName_of_not_text {id : String} {severity : Value} (given : severity.isEmpty = false)
    (other : ¬ severity.IsText) :
    severityName id severity = .error (.missingPart severity.kindName "lower") := by
  refine error_of_bind.2 (.inl ?_)
  rw [Value.orElse_of_not_isEmpty (by simpa using given)]
  cases severity <;> first | rfl | exact absurd ⟨_, rfl⟩ other

theorem compile_of_begun (id : d.id.isEmpty = false) (metric : d.metric.isEmpty = false) :
    d.compile = (do
      let c ← comparison d.id.display d.op
      let severity ← severityName d.id.display d.severity
      let threshold ← d.threshold.toDouble
      let tags ← d.tags.elements
      .ok {
        id := d.id
        title := d.title.orElse d.id
        severity := .text severity
        source := d.source
        tags
        description := d.metric.display ++ " " ++ c.symbol ++ " " ++ Binary64.displayGeneral threshold
        evaluate := some (evaluation d.id d.metric c threshold) }) := by
  unfold compile
  simp only [id, metric]
  rfl

theorem Escapes.isOwn (h : d.Escapes e) : e.isOwn = false := by
  have foreign {e : Fault} (h : e.kind = .wrongType ∨ e.kind = .badValue ∨ e.kind = .outOfRange) :
      e.isOwn = false := by
    unfold Fault.isOwn
    rcases h with h | h | h <;> rw [h]
  cases h with
  | operator _ _ op => exact foreign (.inl (toKey_error op))
  | severity => rfl
  | threshold _ _ threshold => exact foreign (toDouble_error threshold)
  | tags => rfl

theorem Escapes.compile (h : d.Escapes e) : d.compile = .error e := by
  cases h with
  | operator id metric op =>
    rw [compile_of_begun id metric]
    exact error_of_bind.2 (.inl (comparison_of_toKey_error op))
  | severity begun given other =>
    obtain ⟨c, op⟩ := begun.op
    rw [compile_of_begun begun.id begun.metric]
    exact error_of_bind.2 (.inr ⟨c, op, error_of_bind.2 (.inl (severityName_of_not_text given other))⟩)
  | threshold begun severity threshold =>
    obtain ⟨c, op⟩ := begun.op
    obtain ⟨s, severity⟩ := severity
    rw [compile_of_begun begun.id begun.metric]
    exact error_of_bind.2 (.inr ⟨c, op, error_of_bind.2 (.inr ⟨s, severity, error_of_bind.2 (.inl threshold)⟩)⟩)
  | tags begun severity threshold tags =>
    obtain ⟨c, op⟩ := begun.op
    obtain ⟨s, severity⟩ := severity
    obtain ⟨x, threshold⟩ := threshold
    have loop : d.tags.elements = .error (.wrongType (.notIterable d.tags.kindName)) := by
      rw [Value.elements, tags, Fault.ofOption]
    rw [compile_of_begun begun.id begun.metric]
    exact error_of_bind.2 (.inr ⟨c, op, error_of_bind.2 (.inr ⟨s, severity, error_of_bind.2 (.inr ⟨x, threshold,
      error_of_bind.2 (.inl loop)⟩)⟩)⟩)

theorem elements_error {v : Value} (h : v.elements = .error e) :
    v.elements? = none ∧ e = .wrongType (.notIterable v.kindName) := by
  unfold Value.elements at h
  rcases hv : v.elements? with _ | items
  · rw [hv] at h
    exact ⟨rfl, (Except.error.inj h).symm⟩
  · rw [hv] at h
    cases h

/-- Whatever a definition fails with is a complaint of the rule or escapes. -/
theorem compile_error (h : d.compile = .error e) : e.kind = .rule ∨ d.Escapes e := by
  by_cases id : d.id.isEmpty = false
  · by_cases metric : d.metric.isEmpty = false
    · rw [compile_of_begun id metric] at h
      obtain h | ⟨c, op, h⟩ := error_of_bind.1 h
      · exact (comparison_error h).symm.imp_right (.operator id metric)
      have begun : d.IsBegun := ⟨id, metric, c, op⟩
      obtain h | ⟨s, severity, h⟩ := error_of_bind.1 h
      · refine (severityName_error h).imp_right ?_
        rintro ⟨given, other, rfl⟩
        exact .severity begun given other
      obtain h | ⟨x, threshold, h⟩ := error_of_bind.1 h
      · exact .inr (.threshold begun ⟨s, severity⟩ h)
      obtain h | ⟨tags, -, h⟩ := error_of_bind.1 h
      · obtain ⟨none, rfl⟩ := elements_error h
        exact .inr (.tags begun ⟨s, severity⟩ ⟨x, threshold⟩ none)
      · cases h
    · unfold RuleDefinition.compile at h
      simp only [id, metric] at h
      cases h
      exact .inl rfl
  · unfold RuleDefinition.compile at h
    simp only [id] at h
    cases h
    exact .inl rfl

theorem ofEntries_error {index : Nat} {entries : List Value} (h : ofEntries path index entries = .error e) :
    e.kind = .rule := by
  induction entries generalizing index with
  | nil => cases h
  | cons v rest ih =>
    cases v with
    | object fields =>
      unfold ofEntries at h
      split at h
      · cases h
        rfl
      · obtain h | ⟨ds, -, h⟩ := error_of_bind.1 h
        · exact ih h
        · cases h
    | _ =>
      cases h
      rfl

theorem load_error (h : load f path = .error e) :
    e.kind = .rule ∨ f.readJson path = .error .nesting ∧ e = .tooDeep := by
  unfold load at h
  split at h
  · rename_i read
    exact .inr ⟨read, (Except.error.inj h).symm⟩
  · cases h
    exact .inl rfl
  · unfold ofValue at h
    split at h
    · exact .inl (ofEntries_error h)
    · cases h
      exact .inl rfl

theorem FileEscapes.isOwn (h : FileEscapes f path e) : e.isOwn = false := by
  cases h with
  | nesting => rfl
  | definition _ _ escapes => exact escapes.isOwn

theorem FileEscapes.loadRules (h : FileEscapes f path e) : loadRules f path = .error e := by
  cases h with
  | nesting read =>
    have deep : load f path = .error .tooDeep := by
      unfold load
      rw [read]
    exact error_of_bind.2 (.inl deep)
  | definition read fine escapes =>
    exact error_of_bind.2 (.inr ⟨_, read, mapM_error_iff.2 ⟨_, _, _, rfl, fine, escapes.compile⟩⟩)

theorem loadRules_error (h : loadRules f path = .error e) : e.kind = .rule ∨ FileEscapes f path e := by
  obtain h | ⟨ds, read, h⟩ := error_of_bind.1 h
  · refine (load_error h).imp_right ?_
    rintro ⟨read, rfl⟩
    exact .nesting read
  · obtain ⟨before, d, after, rfl, fine, h⟩ := mapM_error_iff.1 h
    exact (compile_error h).imp_right (.definition read fine)

/-- What a file of rules fails with without complaint of a rule. -/
theorem loadRules_error_iff : loadRules f path = .error e ∧ e.kind ≠ .rule ↔ FileEscapes f path e := by
  constructor
  · rintro ⟨h, other⟩
    exact (loadRules_error h).resolve_left other
  · intro h
    refine ⟨h.loadRules, ?_⟩
    intro own
    have foreign := h.isOwn
    rw [Fault.isOwn, own] at foreign
    cases foreign

end RuleDefinition

/-! ### Indicators -/

namespace Indicators
variable {e : Fault} {f : Files} {path : String} {v : Value}

/-- A value that a loop can go over, or that is empty. -/
def IsListing (v : Value) : Prop := v.isEmpty ∨ v.elements?.isSome

/-- What the indicators of a file fail with when the text is too deep or a list of them is none; the lists
before it are in order. -/
inductive FileEscapes (f : Files) (path : String) : Fault → Prop
  | nesting (named : path ≠ "") (read : f.readJson path = .error .nesting) : FileEscapes f path .tooDeep
  | list {given : List (String × Value)} {before after : List (String × Value)} {name : String} {v : Value}
      (named : path ≠ "") (read : f.readJson path = .ok (.object given))
      (lists : (IndicatorSource.ofFields given).fields = before ++ (name, v) :: after)
      (fine : ∀ b ∈ before, IsListing b.2) (other : ¬ IsListing v) :
      FileEscapes f path (.wrongType (.notIterable v.kindName))

theorem ofValue_of_isListing (h : IsListing v) : ∃ texts, Indicators.ofValue v = .ok texts := by
  unfold Indicators.ofValue Value.elementsIfAny
  by_cases empty : v.isEmpty
  · exact ⟨_, by rw [if_pos empty]; rfl⟩
  · obtain ⟨items, hitems⟩ := Option.isSome_iff_exists.1 (h.resolve_left empty)
    exact ⟨_, by rw [if_neg empty, Value.elements, hitems]; rfl⟩

theorem ofValue_of_not_isListing (h : ¬ IsListing v) :
    Indicators.ofValue v = .error (.wrongType (.notIterable v.kindName)) := by
  obtain ⟨empty, loop⟩ := not_or.1 h
  have none : v.elements? = none := by simpa using loop
  unfold Indicators.ofValue Value.elementsIfAny
  rw [if_neg empty, Value.elements, none]
  rfl

/-- One list after the other is brought into its normal form. -/
theorem normalized_error_iff {i : IndicatorSource} :
    i.normalized = .error e ↔ i.fields.mapM (fun x => Indicators.ofValue x.2) = .error e := by
  simp only [IndicatorSource.normalized, IndicatorSource.fields, List.mapM_cons, error_of_bind]
  simp [pure, Except.pure]

theorem load_of_value (named : path ≠ "") {v : Value} (read : f.readJson path = .ok v) :
    load f path = IndicatorSource.ofValue v := by
  unfold load
  rw [if_neg named, read]

theorem FileEscapes.isOwn (h : FileEscapes f path e) : e.isOwn = false := by
  cases h <;> rfl

theorem FileEscapes.load (h : FileEscapes f path e) : Indicators.load f path = .error e := by
  cases h with
  | nesting named read =>
    unfold Indicators.load
    rw [if_neg named, read]
  | list named read lists fine other =>
    rw [load_of_value named read]
    refine normalized_error_iff.2 (mapM_error_iff.2 ⟨_, _, _, lists, ?_, ofValue_of_not_isListing other⟩)
    exact fun b hb => ofValue_of_isListing (fine b hb)

theorem load_error (h : Indicators.load f path = .error e) : e.kind = .configuration ∨ FileEscapes f path e := by
  by_cases named : path = ""
  · unfold Indicators.load at h
    rw [if_pos named] at h
    cases h
    exact .inl rfl
  · rcases read : f.readJson path with cause | v
    · unfold Indicators.load at h
      rw [if_neg named, read] at h
      rcases cause with ⟨problem, name⟩ | _ | _ | _ | _
      case nesting =>
        cases h
        exact .inr (.nesting named read)
      case file => cases problem <;> cases h <;> exact .inl rfl
      all_goals
        cases h
        exact .inl rfl
    · rw [load_of_value named read] at h
      cases v with
      | object given =>
        obtain ⟨before, ⟨name, v⟩, after, lists, fine, h⟩ := mapM_error_iff.1 (normalized_error_iff.1 h)
        by_cases listing : IsListing v
        · obtain ⟨texts, ok⟩ := ofValue_of_isListing listing
          rw [ok] at h
          cases h
        · rw [ofValue_of_not_isListing listing] at h
          cases h
          refine .inr (.list named read lists ?_ listing)
          intro b hb
          by_contra other
          obtain ⟨texts, ok⟩ := fine b hb
          rw [ofValue_of_not_isListing other] at ok
          cases ok
      | _ =>
        cases h
        exact .inl rfl

/-- What a file of indicators fails with without complaint of the configuration. -/
theorem load_error_iff :
    Indicators.load f path = .error e ∧ e.kind ≠ .configuration ↔ FileEscapes f path e := by
  constructor
  · rintro ⟨h, other⟩
    exact (load_error h).resolve_left other
  · intro h
    refine ⟨h.load, ?_⟩
    intro own
    have foreign := h.isOwn
    rw [Fault.isOwn, own] at foreign
    cases foreign

end Indicators

/-! ### The agent -/

namespace Agent
variable {s : Settings} {f : Files} {nanoseconds : Int} {e : Fault} {path : String}

/-- Settings with which nothing but the two files can be in the way of detection. -/
structure IsPlain (s : Settings) : Prop where
  thresholds : ∃ rules, Rule.builtin s.thresholds = .ok rules
  indicatorPath : s.indicatorPath.isEmpty ∨ s.indicatorPath.IsText
  customRulesPath : s.customRulesPath.isEmpty ∨ s.customRulesPath.IsText
  deduper : ∃ d, deduper s = .ok d
  limiter : ∃ l, limiter s = .ok l

/-- What detection fails with when something in one of the files cannot be put to use. The indicators are read
before the rules. -/
inductive Escapes (s : Settings) (f : Files) (e : Fault) : Prop
  | indicators {path : String} (named : pathAt s.indicatorPath = .ok (some path))
      (escapes : Indicators.FileEscapes f path e)
  | rules {path : String} (named : pathAt s.customRulesPath = .ok (some path))
      (indicators : ∀ p, pathAt s.indicatorPath = .ok (some p) → ∃ i, Indicators.load f p = .ok i)
      (escapes : RuleDefinition.FileEscapes f path e)

theorem pathAt_ok {setting : Value} (h : setting.isEmpty ∨ setting.IsText) :
    ∃ path, pathAt setting = .ok path := by
  unfold pathAt
  by_cases empty : setting.isEmpty
  · exact ⟨none, if_pos empty⟩
  · obtain ⟨path, rfl⟩ := h.resolve_left empty
    exact ⟨some path, if_neg empty⟩

theorem isOwn_of_kind (h : e.kind = .rule ∨ e.kind = .configuration) : e.isOwn := by
  unfold Fault.isOwn
  rcases h with h | h <;> rw [h]

theorem Escapes.isOwn (h : Escapes s f e) : e.isOwn = false := by
  cases h with
  | indicators _ escapes => exact escapes.isOwn
  | rules _ _ escapes => exact escapes.isOwn

/-- The rules of settings that are plain: those of the user are read after the indicators. -/
theorem rules_eq {builtin : List Rule} {indicatorPath customPath : Option String}
    (hbuiltin : Rule.builtin s.thresholds = .ok builtin) (hindicators : pathAt s.indicatorPath = .ok indicatorPath)
    (hcustom : pathAt s.customRulesPath = .ok customPath) :
    rules s f = (do
      let indicators ← indicatorPath.elim (.ok []) fun p => do return [(← Indicators.load f p).rule]
      let custom ← customPath.elim (.ok []) (RuleDefinition.loadRules f)
      return builtin ++ indicators ++ custom) := by
  have joined (indicators : List Rule) (path : String) : (do
      let definitions ← RuleDefinition.load f path
      let custom ← definitions.mapM RuleDefinition.compile
      return builtin ++ indicators ++ custom) = (do
      let custom ← RuleDefinition.loadRules f path
      return builtin ++ indicators ++ custom) := (bind_assoc (m := Except Fault) ..).symm
  have read (p : String) :
      (Indicators.load f p).map (fun i => [i.rule]) = do return [(← Indicators.load f p).rule] := by
    cases Indicators.load f p <;> rfl
  unfold rules
  rw [hbuiltin, hindicators, hcustom]
  cases indicatorPath with
  | none =>
    cases customPath with
    | none => rfl
    | some path => exact joined [] path
  | some p =>
    dsimp only [Option.elim]
    rw [← read p]
    cases customPath with
    | none => rfl
    | some path => exact bind_congr fun indicators => joined indicators path

/-- What the rules fail with is the program's own or escapes from one of the files. -/
theorem rules_error_iff (plain : IsPlain s) : rules s f = .error e ∧ e.isOwn = false ↔ Escapes s f e := by
  obtain ⟨builtin, hbuiltin⟩ := plain.thresholds
  obtain ⟨indicatorPath, hindicators⟩ := pathAt_ok plain.indicatorPath
  obtain ⟨customPath, hcustom⟩ := pathAt_ok plain.customRulesPath
  rw [rules_eq hbuiltin hindicators hcustom]
  constructor
  · rintro ⟨h, foreign⟩
    obtain h | ⟨indicators, loaded, h⟩ := error_of_bind.1 h
    · cases indicatorPath with
      | none => cases h
      | some p =>
        obtain h | ⟨i, -, h⟩ := error_of_bind.1 h
        · refine .indicators hindicators (Indicators.load_error_iff.1 ⟨h, ?_⟩)
          exact fun own => by simp [isOwn_of_kind (.inr own)] at foreign
        · cases h
    · obtain h | ⟨custom, -, h⟩ := error_of_bind.1 h
      · cases customPath with
        | none => cases h
        | some path =>
          refine .rules hcustom ?_ (RuleDefinition.loadRules_error_iff.1 ⟨h, ?_⟩)
          · intro p named
            obtain rfl : indicatorPath = some p := Except.ok.inj (hindicators.symm.trans named)
            obtain ⟨i, loaded, -⟩ := ok_of_bind loaded
            exact ⟨i, loaded⟩
          · exact fun own => by simp [isOwn_of_kind (.inl own)] at foreign
      · cases h
  · intro escapes
    refine ⟨error_of_bind.2 ?_, escapes.isOwn⟩
    cases escapes with
    | @indicators p named escapes =>
      obtain rfl : indicatorPath = some p := Except.ok.inj (hindicators.symm.trans named)
      exact .inl (error_of_bind.2 (.inl escapes.load))
    | @rules path named indicators escapes =>
      obtain rfl : customPath = some path := Except.ok.inj (hcustom.symm.trans named)
      have failed (indicators : List Rule) : (do
          let custom ← RuleDefinition.loadRules f path
          return builtin ++ indicators ++ custom) = .error e := error_of_bind.2 (.inl escapes.loadRules)
      cases indicatorPath with
      | none => exact .inr ⟨[], rfl, failed []⟩
      | some p =>
        obtain ⟨i, loaded⟩ := indicators p hindicators
        refine .inr ⟨[i.rule], ?_, failed [i.rule]⟩
        dsimp only [Option.elim]
        rw [loaded]
        rfl

/-- Detection fails with what its rules fail with. -/
theorem detector_error_iff (plain : IsPlain s) : detector s f nanoseconds = .error e ↔ rules s f = .error e := by
  obtain ⟨deduper, hdeduper⟩ := plain.deduper
  obtain ⟨limiter, hlimiter⟩ := plain.limiter
  unfold detector
  rw [hdeduper, hlimiter, error_of_bind]
  constructor
  · rintro (h | ⟨rules, -, h⟩)
    · exact h
    · cases h
  · exact .inl

/-- What the files of rules and of indicators can be met with. -/
structure LoadingLaw (f : Files) : Prop where
  /-- The rules of a file can be used, are complained of, or escape. -/
  rules (path : String) (e : Fault) : RuleDefinition.loadRules f path = .error e ∧ e.kind ≠ .rule ↔
    RuleDefinition.FileEscapes f path e
  /-- Likewise the indicators. -/
  indicators (path : String) (e : Fault) : Indicators.load f path = .error e ∧ e.kind ≠ .configuration ↔
    Indicators.FileEscapes f path e
  /-- Detection fails with a fault that is not the program's own just where one of the files escapes. -/
  detector (s : Settings) (nanoseconds : Int) (e : Fault) (plain : IsPlain s) :
    Agent.detector s f nanoseconds = .error e ∧ e.isOwn = false ↔ Escapes s f e
  /-- A run for which no agent can be built ends with the code of a failure if the fault is the program's own,
  and gives it back if not. -/
  exit {a : Arguments} {places : Settings.Places} {folders : Except Fault (List String)}
    {order : List String → List Nat} {h : Host} {given s : Settings} {files : Files} {early : List Notice}
    {logger : Logger} {e : Fault} (loaded : Settings.load places a.config h.files = .ok (given, files, early))
    (asked : s = if a.verbose then { given with verbose := .bool true } else given)
    (logging : Logger.setUp ((Value.text (a.logLevel.getD "")).orElse s.logLevel) s.logFile {} files =
      .ok (logger, f))
    (failed : build s folders { h with files := f } = .error e) :
    Program.run a places folders order h =
      if e.isOwn then .ok ⟨Program.failure, { h with files := f }.note (.ended e), logger, early⟩ else .error e

theorem loadingLaw (f : Files) : LoadingLaw f where
  rules _ _ := RuleDefinition.loadRules_error_iff
  indicators _ _ := Indicators.load_error_iff
  detector _ _ _ plain := by rw [detector_error_iff plain, rules_error_iff plain]
  exit loaded asked logging failed := by
    subst asked
    unfold Program.run
    simp only [loaded, logging, failed, bind, Except.bind]
    rfl

/-- A directory with one file, which holds a value. -/
def holding (v : Value) : Files :=
  { entries := [(["work"], .directory), (["work", "c"], .file 0)]
    bodies := [(0, { content := .text (Json.textOf .plain v), modified := 0 })] }

theorem readJson_holding {v : Value} (json : Json.IsJson v) (within : Json.extent v ≤ ({} : Json.Limits)) :
    (holding v).readJson "c" = .ok v := by
  have read : (holding v).read (.parse "c") = .ok (.text (Json.textOf .plain v)) := rfl
  have parsed : Json.parse (Json.textOf .plain v) = .ok v := Json.parse_textOf .plain json within
  simp only [Files.readJson, read, Content.text?, parsed]

/-- A definition whose limit is null. -/
def unlimited : Value :=
  .list [.object [("id", .text "x"), ("metric", .text "m"), ("threshold", .null)]]

theorem unlimited_escapes :
    RuleDefinition.FileEscapes (holding unlimited) "c" (.wrongType (.notReal "NoneType")) := by
  have json : Json.IsJson unlimited := by
    refine .list fun v hv => ?_
    obtain rfl := List.mem_singleton.1 hv
    refine .object (by decide) fun e he => ?_
    simp only [List.mem_cons, List.not_mem_nil, or_false] at he
    rcases he with rfl | rfl | rfl
    · exact .text _
    · exact .text _
    · exact .null
  have read : RuleDefinition.load (holding unlimited) "c" =
      .ok ([] ++ [{ id := .text "x", metric := .text "m", threshold := .null }]) := by
    unfold RuleDefinition.load
    rw [readJson_holding json (by decide)]
    rfl
  exact .definition read (by simp) (.threshold ⟨rfl, rfl, .ge, rfl⟩ ⟨_, rfl⟩ rfl)

/-- Names of processes that are no list. -/
def unlisted : Value := .object [("process_names", .int 5)]

theorem unlisted_escapes : Indicators.FileEscapes (holding unlisted) "c" (.wrongType (.notIterable "int")) := by
  have json : Json.IsJson unlisted := by
    refine .object (by decide) fun e he => ?_
    obtain rfl := List.mem_singleton.1 he
    exact .int 5
  have lists : (IndicatorSource.ofFields [("process_names", .int 5)]).fields =
      [] ++ ("process_names", .int 5) :: (IndicatorSource.ofFields []).fields.tail := rfl
  refine .list (by decide) (readJson_holding json (by decide)) lists (by simp) ?_
  rintro (empty | loop)
  · cases empty
  · cases loop

/-- Settings that name a file of rules. -/
def withRules : Settings := { customRulesPath := .text "c" }

theorem withRules_isPlain : IsPlain withRules where
  thresholds := ⟨_, rfl⟩
  indicatorPath := .inl rfl
  customRulesPath := .inr ⟨_, rfl⟩
  deduper := ⟨_, rfl⟩
  limiter := ⟨_, rfl⟩

/-- Files of rules and of indicators fail otherwise than by complaints of the rules and of the configuration, and
so does detection that is built from them. -/
theorem not_forall_own :
    (¬ ∀ f path e, RuleDefinition.loadRules f path = .error e → e.kind = .rule) ∧
    (¬ ∀ f path e, Indicators.load f path = .error e → e.kind = .configuration) ∧
    ¬ ∀ (s : Settings) (f : Files) (nanoseconds : Int) (e : Fault), IsPlain s →
      detector s f nanoseconds = .error e → e.isOwn := by
  refine ⟨?_, ?_, ?_⟩
  · intro own
    cases own _ _ _ unlimited_escapes.loadRules
  · intro own
    cases own _ _ _ unlisted_escapes.load
  · intro own
    have escapes : Escapes withRules (holding unlimited) _ :=
      .rules rfl (by intro p named; cases named) unlimited_escapes
    have failed : detector withRules (holding unlimited) 0 = .error _ :=
      (detector_error_iff withRules_isPlain).2 ((rules_error_iff withRules_isPlain).2 escapes).1
    cases own _ _ _ _ withRules_isPlain failed

end Agent
end HostWatch
