import HostWatch.Correlation.Sweep
import HostWatch.Proofs.Comparison
import Mathlib.Algebra.Order.Floor.Ring
import Mathlib.Data.Rat.Floor
import Mathlib.Tactic.Linarith

/-!
# The sweep finds all pairs

On exact times `Correlation.correlate` adds to every alert the ids of exactly those alerts that
overlap one with its id (`Correlation.correlated_iff`). The sweep goes through the spans in the
order of their ends and stops as soon as a span ends more than `reach` after the one at hand. No
span is longer than `reach`, so whatever comes later starts too late (`Span.Reaches`).
-/

namespace HostWatch

/-- The instant that a timestamp names, in exact seconds since 1970-01-01. -/
def Timestamp.exactSeconds (t : Timestamp) : ℚ := t.micros / 1000000

instance : Clock ℚ where
  after t d := .ok (t + d)
  before t d := .ok (t - d)

instance : TimeScale ℚ where
  instant t := .ok t.exactSeconds
  floor t := .ok ⌊t⌋
  ceil t := .ok ⌈t⌉

namespace Correlation

/-- How alerts are linked if all intervals are known and exact. -/
def ofIntervals (intervals : OrderedMap Key ℚ) (defaultInterval : ℚ) (crossSourceOnly : Bool) :
    Correlation ℚ where
  intervals := intervals.map fun (k, d) => (k, .ok d)
  defaultInterval := .ok defaultInterval
  crossSourceOnly

/-- Whether an alert is active in a whole second, from the one in which its interval begins to the
one in which it is raised. -/
def ActiveIn (c : Correlation ℚ) (a : Alert) (second : ℤ) : Prop :=
  ∃ t d, a.raisedAt = some t ∧ c.intervalOf a.source = .ok d ∧
    ⌊t.exactSeconds - d⌋ ≤ second ∧ second ≤ ⌊t.exactSeconds⌋

/-- Two alerts that belong together. -/
structure Overlap (c : Correlation ℚ) (a b : Alert) : Prop where
  eligible : isEligible a ∧ isEligible b
  ids : a.id ≠ b.id
  sources : c.crossSourceOnly = true → a.source.sameContent b.source = false
  second : ∃ second, c.ActiveIn a second ∧ c.ActiveIn b second

/-- Some alerts with these ids overlap. -/
def IdsOverlap (c : Correlation ℚ) (alerts : List Alert) (p q : String) : Prop :=
  ∃ a ∈ alerts, ∃ b ∈ alerts, c.Overlap a b ∧ a.id = p ∧ b.id = q

/-! ### Intervals -/

section Intervals
variable {intervals : OrderedMap Key ℚ} {dflt : ℚ} {cross : Bool}

theorem get?_map_ok (intervals : OrderedMap Key ℚ) (k : Key) :
    OrderedMap.get? (intervals.map fun (k, d) => (k, (Except.ok d : Except Fault ℚ))) k =
      (OrderedMap.get? intervals k).map .ok := by
  induction intervals with
  | nil => rfl
  | cons e m ih =>
    simp only [List.map_cons, OrderedMap.get?, ih]
    split <;> rfl

theorem intervalOf_ofIntervals {source : Value} {k : Key} (hk : source.toKey = .ok k) :
    (ofIntervals intervals dflt cross).intervalOf source =
      .ok (if (OrderedMap.get? intervals k).getD 0 ≤ 0 then dflt
        else (OrderedMap.get? intervals k).getD 0) := by
  simp only [intervalOf, ofIntervals, hk, bind, Except.bind, get?_map_ok]
  cases OrderedMap.get? intervals k with
  | none => simp
  | some d =>
    simp only [Option.map_some, Option.getD_some, pure, Except.pure]
    split <;> rfl

theorem toKey_of_intervalOf {c : Correlation ℚ} {source : Value} {d : ℚ}
    (hd : c.intervalOf source = .ok d) : ∃ k, source.toKey = .ok k := by
  cases hk : source.toKey with
  | ok k => exact ⟨k, rfl⟩
  | error f => simp [intervalOf, hk, bind, Except.bind] at hd

theorem intervalOf_ok_iff {source : Value} :
    (∃ d, (ofIntervals intervals dflt cross).intervalOf source = .ok d) ↔
      ∃ k, source.toKey = .ok k :=
  ⟨fun ⟨_, hd⟩ => toKey_of_intervalOf hd, fun ⟨_, hk⟩ => ⟨_, intervalOf_ofIntervals hk⟩⟩

theorem intervalOf_nonneg (h : 0 ≤ dflt) {source : Value} {d : ℚ}
    (hd : (ofIntervals intervals dflt cross).intervalOf source = .ok d) : 0 ≤ d := by
  obtain ⟨k, hk⟩ := toKey_of_intervalOf hd
  rw [intervalOf_ofIntervals hk, Except.ok.injEq] at hd
  split at hd
  · exact hd ▸ h
  · rename_i hpos
    exact hd ▸ (not_le.1 hpos).le

end Intervals

/-! ### Overlaps -/

theorem ActiveIn.toKey {c : Correlation ℚ} {a : Alert} {second : ℤ} (h : c.ActiveIn a second) :
    ∃ k, a.source.toKey = .ok k :=
  let ⟨_, _, _, hd, _⟩ := h
  toKey_of_intervalOf hd

theorem Overlap.symm {c : Correlation ℚ} {a b : Alert} (h : c.Overlap a b) : c.Overlap b a := by
  obtain ⟨second, ha, hb⟩ := h.second
  obtain ⟨k, hk⟩ := ha.toKey
  obtain ⟨l, hl⟩ := hb.toKey
  exact ⟨h.eligible.symm, h.ids.symm, fun hc => Value.sameContent_comm hk hl ▸ h.sources hc,
    second, hb, ha⟩

theorem IdsOverlap.symm {c : Correlation ℚ} {alerts : List Alert} {p q : String}
    (h : c.IdsOverlap alerts p q) : c.IdsOverlap alerts q p :=
  let ⟨a, ha, b, hb, hab, hp, hq⟩ := h
  ⟨b, hb, a, ha, hab.symm, hq, hp⟩

/-! ### Spans -/

/-- The span of an alert that is active for `d` seconds. -/
structure SpanOf (c : Correlation ℚ) (a : Alert) (d : ℚ) (s : Span) : Prop where
  alert : s.alert = a
  eligible : isEligible a
  interval : c.intervalOf a.source = .ok d
  seconds : ∃ t, a.raisedAt = some t ∧ s.first = ⌊t.exactSeconds - d⌋ ∧ s.last = ⌊t.exactSeconds⌋

namespace SpanOf
variable {c : Correlation ℚ} {a b : Alert} {d e : ℚ} {s r : Span}

theorem activeIn_iff (h : c.SpanOf a d s) {second : ℤ} :
    c.ActiveIn a second ↔ s.first ≤ second ∧ second ≤ s.last := by
  obtain ⟨t, ht, hfirst, hlast⟩ := h.seconds
  rw [hfirst, hlast]
  constructor
  · rintro ⟨t', d', ht', hd', hle⟩
    obtain rfl : t = t' := Option.some.inj (ht ▸ ht')
    obtain rfl : d = d' := Except.ok.inj (h.interval ▸ hd')
    exact hle
  · exact fun hle => ⟨t, d, ht, h.interval, hle⟩

theorem first_le_last (h : c.SpanOf a d s) (hd : 0 ≤ d) : s.first ≤ s.last := by
  obtain ⟨t, -, hfirst, hlast⟩ := h.seconds
  rw [hfirst, hlast]
  exact Int.floor_le_floor (by linarith)

/-- Two spans share a second if each begins before the other ends. -/
theorem linked_iff (hs : c.SpanOf a d s) (hd : 0 ≤ d) (hr : c.SpanOf b e r) (he : 0 ≤ e) :
    linked c.crossSourceOnly s r ↔ c.Overlap a b := by
  have sources : (!(c.crossSourceOnly && s.alert.source.sameContent r.alert.source)) = true ↔
      (c.crossSourceOnly = true → a.source.sameContent b.source = false) := by
    rw [hs.alert, hr.alert]
    cases c.crossSourceOnly <;> simp
  have meets : s.meets r = true ↔ ∃ second, c.ActiveIn a second ∧ c.ActiveIn b second := by
    simp only [hs.activeIn_iff, hr.activeIn_iff, Span.meets, Bool.and_eq_true, decide_eq_true_eq]
    have := hs.first_le_last hd
    have := hr.first_le_last he
    constructor
    · exact fun _ => ⟨max s.first r.first, by omega⟩
    · rintro ⟨second, h⟩
      omega
  rw [linked, Bool.and_eq_true, Bool.and_eq_true, sources, meets, bne_iff_ne, hs.alert, hr.alert]
  constructor
  · exact fun ⟨⟨ids, sources⟩, second⟩ => ⟨⟨hs.eligible, hr.eligible⟩, ids, sources, second⟩
  · exact fun h => ⟨⟨h.ids, h.sources⟩, h.second⟩

/-- However the two ends are cut to seconds, a span is not longer than its interval cut upwards. -/
theorem last_le_first_add (h : c.SpanOf a d s) {longest : ℚ} (hd : d ≤ longest) :
    s.last ≤ s.first + ⌈longest⌉ := by
  obtain ⟨t, -, hfirst, hlast⟩ := h.seconds
  rw [hfirst, hlast, ← Int.floor_add_intCast]
  exact Int.floor_le_floor (by linarith [Int.le_ceil longest])

end SpanOf

section Spans
variable {c : Correlation ℚ} {a : Alert} {rest : List Alert} {longest d : ℚ}

theorem isEligible_iff : isEligible a ↔ a.id ≠ "" ∧ ∃ t, a.raisedAt = some t := by
  simp [isEligible, Option.isSome_iff_exists]

theorem spans_cons_of_not_eligible (h : ¬ isEligible a) :
    c.spans longest (a :: rest) = c.spans longest rest := by
  cases ht : a.raisedAt with
  | none => simp [spans, ht]
  | some t =>
    have hid : a.id = "" := by
      by_contra hid
      exact h (isEligible_iff.2 ⟨hid, t, ht⟩)
    simp [spans, ht, hid]

theorem spans_cons_of_eligible {t : Timestamp} (hid : a.id ≠ "") (ht : a.raisedAt = some t)
    (hd : c.intervalOf a.source = .ok d) :
    c.spans longest (a :: rest) = (c.spans (longer longest d) rest).map fun (more, m) =>
      (⟨⌊t.exactSeconds - d⌋, ⌊t.exactSeconds⌋, a⟩ :: more, m) := by
  simp only [spans, ht, hid, if_false, hd, bind, Except.bind, spanAt, TimeScale.instant, Clock.before,
    TimeScale.floor, pure, Except.pure]
  cases c.spans (longer longest d) rest <;> rfl

theorem spans_cons_of_error {f : Fault} (h : isEligible a) (hd : c.intervalOf a.source = .error f) :
    c.spans longest (a :: rest) = .error f := by
  obtain ⟨hid, t, ht⟩ := isEligible_iff.1 h
  simp [spans, ht, hid, hd, bind, Except.bind]

theorem le_longer_left (x y : ℚ) : x ≤ longer x y := by
  unfold longer
  split <;> linarith

theorem le_longer_right (x y : ℚ) : y ≤ longer x y := by
  unfold longer
  split <;> linarith

/-- There are spans unless the source of an alert that takes part cannot be looked up. -/
theorem spans_ok_iff (alerts : List Alert) (longest : ℚ) :
    (∃ r, c.spans longest alerts = .ok r) ↔
      ∀ a ∈ alerts, isEligible a → ∃ d, c.intervalOf a.source = .ok d := by
  induction alerts generalizing longest with
  | nil => simp [spans]
  | cons a rest ih =>
    rw [List.forall_mem_cons]
    by_cases h : isEligible a
    · obtain ⟨hid, t, ht⟩ := isEligible_iff.1 h
      cases hd : c.intervalOf a.source with
      | error f => simp [spans_cons_of_error h hd, h]
      | ok d =>
        rw [spans_cons_of_eligible hid ht hd, ← ih (longer longest d)]
        cases c.spans (longer longest d) rest <;> simp [Except.map]
    · rw [spans_cons_of_not_eligible h, ih]
      simp [h]

/-- The spans are those of the alerts that take part, and none of their intervals is longer than the
longest. -/
theorem spans_ok {alerts : List Alert} {l : List Span} {m : ℚ}
    (h : c.spans longest alerts = .ok (l, m)) :
    longest ≤ m ∧ (∀ s ∈ l, ∃ d ≤ m, c.SpanOf s.alert d s) ∧
      ∀ a, (∃ s ∈ l, s.alert = a) ↔ a ∈ alerts ∧ isEligible a := by
  induction alerts generalizing longest l with
  | nil =>
    obtain ⟨rfl, rfl⟩ := Prod.mk.inj (Except.ok.inj h)
    simp
  | cons a rest ih =>
    by_cases he : isEligible a
    · obtain ⟨hid, t, ht⟩ := isEligible_iff.1 he
      cases hd : c.intervalOf a.source with
      | error f => simp [spans_cons_of_error he hd] at h
      | ok d =>
        rw [spans_cons_of_eligible hid ht hd] at h
        cases hr : c.spans (longer longest d) rest with
        | error f => simp [hr, Except.map] at h
        | ok r =>
          obtain ⟨more, m'⟩ := r
          simp only [hr, Except.map, Except.ok.injEq, Prod.mk.injEq] at h
          obtain ⟨rfl, rfl⟩ := h
          obtain ⟨hm, hspan, hmem⟩ := ih hr
          refine ⟨(le_longer_left _ _).trans hm, ?_, fun b => ?_⟩
          · rw [List.forall_mem_cons]
            exact ⟨⟨d, (le_longer_right _ _).trans hm, rfl, he, hd, t, ht, rfl, rfl⟩, hspan⟩
          · simp only [List.mem_cons, exists_eq_or_imp, hmem]
            constructor
            · rintro (rfl | ⟨hb, hbe⟩)
              · exact ⟨.inl rfl, he⟩
              · exact ⟨.inr hb, hbe⟩
            · rintro ⟨rfl | hb, hbe⟩
              · exact .inl rfl
              · exact .inr ⟨hb, hbe⟩
    · rw [spans_cons_of_not_eligible he] at h
      obtain ⟨hm, hspan, hmem⟩ := ih h
      refine ⟨hm, hspan, fun b => ?_⟩
      rw [hmem, List.mem_cons]
      constructor
      · exact fun ⟨hb, hbe⟩ => ⟨.inr hb, hbe⟩
      · rintro ⟨rfl | hb, hbe⟩
        · exact absurd hbe he
        · exact ⟨hb, hbe⟩

end Spans

/-! ### The sweep -/

/-- The links found for an id. -/
def Links.of (links : Links) (id : String) : List String := (OrderedMap.get? links id).getD []

@[simp] theorem Links.of_nil (id : String) : Links.of [] id = [] := rfl

theorem Links.mem_of_add {links : Links} {source target p q : String} :
    q ∈ (links.add source target).of p ↔ q ∈ links.of p ∨ source = p ∧ target = q := by
  unfold Links.of Links.add
  rw [OrderedMap.get?_set]
  by_cases h : source = p
  · subst h
    simp [eq_comm]
  · simp [h]

/-- A span reaches back no further than `reach` seconds. -/
def Span.Reaches (reach : ℤ) (s : Span) : Prop := s.last ≤ s.first + reach

/-- What stops at the first miss keeps all hits, if what misses once is followed by misses only. -/
theorem filter_takeWhile {α : Type} {p q : α → Bool} {l : List α}
    (down : l.Pairwise fun x y => p y = true → p x = true) (hq : ∀ x ∈ l, q x = true → p x = true) :
    (l.takeWhile p).filter q = l.filter q := by
  induction l with
  | nil => rfl
  | cons x l ih =>
    obtain ⟨hx, down⟩ := List.pairwise_cons.1 down
    rw [List.forall_mem_cons] at hq
    by_cases h : p x = true
    · rw [List.takeWhile_cons_of_pos h, List.filter_cons, List.filter_cons, ih down hq.2]
    · rw [List.takeWhile_cons_of_neg h, List.filter_nil, eq_comm, List.filter_eq_nil_iff]
      intro y hy hqy
      rcases List.mem_cons.1 hy with rfl | hy
      · exact h (hq.1 hqy)
      · exact h (hx y hy (hq.2 y hy hqy))

section Sweep
variable {cross : Bool} {reach : ℤ} {a : Span} {later l : List Span} {links : Links} {p q : String}

/-- The early end of a scan misses no pair. -/
theorem near_filter_linked (sorted : later.Pairwise fun a b => a.last ≤ b.last)
    (hreach : ∀ b ∈ later, b.Reaches reach) :
    ((later.takeWhile fun b => decide (b.last ≤ a.last + reach)).filter (linked cross a)) =
      later.filter (linked cross a) := by
  refine filter_takeWhile (sorted.imp fun {x y} hxy hy => ?_) fun b hb hab => ?_
  · exact decide_eq_true (hxy.trans (of_decide_eq_true hy))
  · have meets : b.first ≤ a.last := by
      simp only [linked, Span.meets, Bool.and_eq_true, decide_eq_true_eq] at hab
      exact hab.2.1
    have := hreach b hb
    unfold Span.Reaches at this
    exact decide_eq_true (by omega)

theorem mem_foldl_add (near : List Span) :
    q ∈ (near.foldl (fun links b => (links.add a.alert.id b.alert.id).add b.alert.id a.alert.id)
      links).of p ↔
      q ∈ links.of p ∨ ∃ b ∈ near, a.alert.id = p ∧ b.alert.id = q ∨ b.alert.id = p ∧ a.alert.id = q := by
  induction near generalizing links with
  | nil => simp
  | cons b near ih =>
    rw [List.foldl_cons, ih, Links.mem_of_add, Links.mem_of_add]
    simp only [List.mem_cons, exists_eq_or_imp, or_assoc]

theorem mem_scan (sorted : later.Pairwise fun a b => a.last ≤ b.last)
    (hreach : ∀ b ∈ later, b.Reaches reach) :
    q ∈ (scan cross reach a later links).of p ↔ q ∈ links.of p ∨ ∃ b ∈ later, linked cross a b ∧
      (a.alert.id = p ∧ b.alert.id = q ∨ b.alert.id = p ∧ a.alert.id = q) := by
  simp only [scan, near_filter_linked sorted hreach, mem_foldl_add, List.mem_filter, and_assoc]

theorem linked_self_eq_false : linked cross a a = false := by simp [linked]

/-- The sweep finds every pair of linked spans, in both directions. -/
theorem mem_sweep (sorted : l.Pairwise fun a b => a.last ≤ b.last) (hreach : ∀ b ∈ l, b.Reaches reach)
    (symm : ∀ a ∈ l, ∀ b ∈ l, linked cross a b = linked cross b a) :
    q ∈ (sweep cross reach l links).of p ↔ q ∈ links.of p ∨
      ∃ a ∈ l, ∃ b ∈ l, linked cross a b ∧ a.alert.id = p ∧ b.alert.id = q := by
  induction l generalizing links with
  | nil => simp [sweep]
  | cons x l ih =>
    obtain ⟨-, sorted'⟩ := List.pairwise_cons.1 sorted
    rw [List.forall_mem_cons] at hreach
    have symm' : ∀ a ∈ l, ∀ b ∈ l, linked cross a b = linked cross b a :=
      fun a ha b hb => symm a (.tail _ ha) b (.tail _ hb)
    rw [sweep, ih sorted' hreach.2 symm', mem_scan sorted' hreach.2, or_assoc]
    refine or_congr_right ⟨?_, ?_⟩
    · rintro (⟨b, hb, hxb, ⟨rfl, rfl⟩ | ⟨rfl, rfl⟩⟩ | ⟨a, ha, b, hb, hab⟩)
      · exact ⟨x, .head _, b, .tail _ hb, hxb, rfl, rfl⟩
      · exact ⟨b, .tail _ hb, x, .head _, symm x (.head _) b (.tail _ hb) ▸ hxb, rfl, rfl⟩
      · exact ⟨a, .tail _ ha, b, .tail _ hb, hab⟩
    · rintro ⟨a, ha, b, hb, hab, hp, hq⟩
      rcases List.mem_cons.1 ha with rfl | ha' <;> rcases List.mem_cons.1 hb with rfl | hb'
      · rw [linked_self_eq_false] at hab
        cases hab
      · exact .inl ⟨b, hb', hab, .inl ⟨hp, hq⟩⟩
      · exact .inl ⟨a, ha', symm a ha b hb ▸ hab, .inr ⟨hp, hq⟩⟩
      · exact .inr ⟨a, ha', b, hb', hab, hp, hq⟩

theorem byLast_sorted (l : List Span) : (byLast l).Pairwise fun a b => a.last ≤ b.last := by
  refine (List.pairwise_mergeSort ?_ ?_ l).imp of_decide_eq_true
  · intro a b c hab hbc
    simp only [decide_eq_true_eq] at hab hbc ⊢
    omega
  · intro a b
    simp only [Bool.or_eq_true, decide_eq_true_eq]
    omega

theorem mem_byLast : a ∈ byLast l ↔ a ∈ l := List.mem_mergeSort

end Sweep

/-! ### Merging links -/

theorem mem_distinctAfter {seen l : List String} {id : String} :
    id ∈ distinctAfter seen l ↔ id ∈ l ∧ id ∉ seen := by
  induction l generalizing seen with
  | nil => simp [distinctAfter]
  | cons x l ih =>
    unfold distinctAfter
    by_cases hx : x ∈ seen
    · rw [if_pos hx, ih, List.mem_cons]
      constructor
      · exact fun ⟨h, hn⟩ => ⟨.inr h, hn⟩
      · rintro ⟨rfl | h, hn⟩
        · exact absurd hx hn
        · exact ⟨h, hn⟩
    · rw [if_neg hx, List.mem_cons, List.mem_cons, ih, List.mem_cons]
      by_cases h : id = x
      · simp [h, hx]
      · simp [h]

theorem mem_mergeIds {existing extra : List String} {id : String} :
    id ∈ mergeIds existing extra ↔ id ∈ existing ∨ id ∈ extra := by
  simp [mergeIds, mem_distinctAfter]

theorem mem_relink {links : Links} {a : Alert} {id : String} :
    id ∈ (relink links a).correlated ↔ id ∈ a.correlated ∨ isEligible a ∧ id ∈ links.of a.id := by
  unfold relink Links.of
  by_cases he : isEligible a
  · rw [if_pos he]
    cases OrderedMap.get? links a.id with
    | none => simp
    | some ids => simp [mem_mergeIds, he]
  · simp [he]

theorem relink_eq (links : Links) (a : Alert) :
    relink links a = { a with correlated := (relink links a).correlated } := by
  unfold relink
  split
  · split <;> rfl
  · rfl

/-! ### All pairs -/

section AllPairs
variable {c : Correlation ℚ} {alerts : List Alert} {l : List Span} {m : ℚ} {links : Links}

/-- The links found are those between ids that overlap. -/
theorem mem_sweep_spans (nonneg : ∀ source d, c.intervalOf source = .ok d → 0 ≤ d)
    (h : c.spans 0 alerts = .ok (l, m)) (p q : String) :
    q ∈ (sweep c.crossSourceOnly ⌈m⌉ (byLast l) []).of p ↔ c.IdsOverlap alerts p q := by
  obtain ⟨-, hspan, hmem⟩ := spans_ok h
  have linked_iff : ∀ a ∈ byLast l, ∀ b ∈ byLast l,
      (linked c.crossSourceOnly a b = true ↔ c.Overlap a.alert b.alert) := by
    intro a ha b hb
    obtain ⟨d, -, hd⟩ := hspan a (mem_byLast.1 ha)
    obtain ⟨e, -, he⟩ := hspan b (mem_byLast.1 hb)
    exact hd.linked_iff (nonneg _ _ hd.interval) he (nonneg _ _ he.interval)
  have reaches : ∀ b ∈ byLast l, b.Reaches ⌈m⌉ := by
    intro b hb
    obtain ⟨d, hdm, hd⟩ := hspan b (mem_byLast.1 hb)
    exact hd.last_le_first_add hdm
  have symm : ∀ a ∈ byLast l, ∀ b ∈ byLast l,
      linked c.crossSourceOnly a b = linked c.crossSourceOnly b a := fun a ha b hb => by
    rw [Bool.eq_iff_iff, linked_iff a ha b hb, linked_iff b hb a ha]
    exact ⟨Overlap.symm, Overlap.symm⟩
  rw [mem_sweep (byLast_sorted l) reaches symm, Links.of_nil]
  constructor
  · rintro (hq | ⟨a, ha, b, hb, hab, hp, hq⟩)
    · simp at hq
    · refine ⟨a.alert, ((hmem _).1 ⟨a, mem_byLast.1 ha, rfl⟩).1, b.alert,
        ((hmem _).1 ⟨b, mem_byLast.1 hb, rfl⟩).1, (linked_iff a ha b hb).1 hab, hp, hq⟩
  · rintro ⟨a, ha, b, hb, hab, hp, hq⟩
    obtain ⟨s, hs, rfl⟩ := (hmem a).2 ⟨ha, hab.eligible.1⟩
    obtain ⟨r, hr, rfl⟩ := (hmem b).2 ⟨hb, hab.eligible.2⟩
    have hs := mem_byLast.2 hs
    have hr := mem_byLast.2 hr
    exact .inr ⟨s, hs, r, hr, (linked_iff s hs r hr).2 hab, hp, hq⟩

theorem correlate_eq_map : c.correlate alerts = (c.spans 0 alerts).map fun (l, m) =>
    alerts.map (relink (sweep c.crossSourceOnly ⌈m⌉ (byLast l) [])) := by
  unfold correlate
  cases c.spans 0 alerts <;> rfl

end AllPairs

/-- On exact times every alert gains the ids of all those that overlap an alert with its id, and
nothing else changes. There is no result only if a source cannot be looked up. -/
theorem correlated_iff (intervals : OrderedMap Key ℚ) {dflt : ℚ} (h : 0 ≤ dflt) (cross : Bool)
    (alerts : List Alert) :
    let c := ofIntervals intervals dflt cross
    ((∃ out, c.correlate alerts = .ok out) ↔
      ∀ a ∈ alerts, isEligible a → ∃ k, a.source.toKey = .ok k) ∧
    (∀ out, c.correlate alerts = .ok out →
      List.Forall₂ (fun a a' => a' = { a with correlated := a'.correlated } ∧
        ∀ id, id ∈ a'.correlated ↔
          id ∈ a.correlated ∨ isEligible a ∧ c.IdsOverlap alerts a.id id) alerts out) ∧
    ∀ p q, c.IdsOverlap alerts p q ↔ c.IdsOverlap alerts q p := by
  intro c
  refine ⟨?_, fun out hout => ?_, fun p q => ⟨IdsOverlap.symm, IdsOverlap.symm⟩⟩
  · have ok : (∃ out, c.correlate alerts = .ok out) ↔ ∃ r, c.spans 0 alerts = .ok r := by
      rw [correlate_eq_map]
      cases c.spans 0 alerts <;> simp [Except.map]
    rw [ok, spans_ok_iff]
    exact forall₂_congr fun a _ => imp_congr_right fun _ => intervalOf_ok_iff
  · rw [correlate_eq_map] at hout
    cases hl : c.spans 0 alerts with
    | error f => simp [hl, Except.map] at hout
    | ok r =>
      obtain ⟨l, m⟩ := r
      simp only [hl, Except.map, Except.ok.injEq] at hout
      subst hout
      refine List.forall₂_map_right_iff.2 (List.forall₂_same.2 fun a _ => ⟨relink_eq _ a, fun id => ?_⟩)
      rw [mem_relink, mem_sweep_spans (fun _ _ => intervalOf_nonneg h) hl]

/-- An alert of a source, so many seconds and microseconds after 1970-01-01. -/
def alertAt (id source : String) (second micro : Nat) : Alert :=
  { id, source := .text source, raisedAt := some ⟨1970, 1, 1, 0, 0, second, micro, some 0⟩ }

/-- Two alerts whose intervals share the seconds nine and ten; the later one comes first in the list
and ends four seconds after the other. -/
theorem correlated_iff_pair : (0 : ℚ) ≤ 5 ∧ ∃ a b,
    (ofIntervals [(.ofText "cpu", 2)] 5 true).correlate
      [alertAt "late" "net" 14 250000, alertAt "early" "cpu" 10 500000] = .ok [a, b] ∧
    "early" ∈ a.correlated ∧ "late" ∈ b.correlated := by
  have h : (0 : ℚ) ≤ 5 := by norm_num
  obtain ⟨ok, links, symm⟩ := correlated_iff [(.ofText "cpu", 2)] h true
    [alertAt "late" "net" 14 250000, alertAt "early" "cpu" 10 500000]
  obtain ⟨out, hout⟩ := ok.2 (by simp [alertAt, Value.toKey])
  obtain ⟨a, as, ha, htail, rfl⟩ := List.forall₂_cons_left_iff.1 (links out hout)
  obtain ⟨b, bs, hb, hnil, rfl⟩ := List.forall₂_cons_left_iff.1 htail
  obtain rfl := List.forall₂_nil_left_iff.1 hnil
  have overlap : (ofIntervals [(.ofText "cpu", 2)] 5 true).Overlap (alertAt "late" "net" 14 250000)
      (alertAt "early" "cpu" 10 500000) :=
    ⟨⟨rfl, rfl⟩, by decide, fun _ => by decide, 9, ⟨_, 5, rfl, by decide +kernel, by decide +kernel⟩,
      ⟨_, 2, rfl, by decide +kernel, by decide +kernel⟩⟩
  have ids : (ofIntervals [(.ofText "cpu", 2)] 5 true).IdsOverlap
      [alertAt "late" "net" 14 250000, alertAt "early" "cpu" 10 500000] "late" "early" :=
    ⟨_, .head _, _, .tail _ (.head _), overlap, rfl, rfl⟩
  refine ⟨h, a, b, hout, (ha.2 _).2 (.inr ⟨rfl, ids⟩), (hb.2 _).2 (.inr ⟨rfl, ids.symm⟩)⟩

end Correlation

end HostWatch
