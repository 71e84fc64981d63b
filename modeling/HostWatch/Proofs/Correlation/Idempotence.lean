import HostWatch.Proofs.Correlation.Retention
import Mathlib

/-!
# Linking twice is linking once

A run of `Correlation.correlate` changes nothing but links, and a run on its own result changes nothing
at all (`Correlation.correlate_idempotent`). This holds on every time scale and for every choice of
intervals, negative ones included, for a reason that has nothing to do with overlaps: spans depend on
no link (`spans_map`), so the second sweep finds the same links in the same order, and merging them in
a second time adds none (`mergeIds_mergeIds`).
-/

namespace HostWatch

/-- No look-up and no rounding on a time scale fails. -/
structure TimeScale.IsTotal (τ : Type) [TimeScale τ] : Prop where
  instant : ∀ t : Timestamp, ∃ x : τ, TimeScale.instant t = .ok x
  before : ∀ t d : τ, ∃ x, Clock.before t d = .ok x
  floor : ∀ t : τ, ∃ n, TimeScale.floor t = .ok n
  ceil : ∀ t : τ, ∃ n, TimeScale.ceil t = .ok n

theorem TimeScale.isTotal_rat : IsTotal ℚ where
  instant _ := ⟨_, rfl⟩
  before _ _ := ⟨_, rfl⟩
  floor _ := ⟨_, rfl⟩
  ceil _ := ⟨_, rfl⟩

namespace Correlation

/-! ### First occurrences -/

theorem distinctAfter_eq (seen l : List String) :
    distinctAfter seen l = (l.filter fun id => !seen.contains id).eraseDups := by
  induction l generalizing seen with
  | nil => rfl
  | cons id l ih =>
    unfold distinctAfter
    by_cases h : id ∈ seen
    · rw [if_pos h, ih, List.filter_cons_of_neg (by simpa using h)]
    · rw [if_neg h, ih, List.filter_cons_of_pos (by simpa using h), List.eraseDups_cons, List.filter_filter]
      congr 3
      funext x
      simp [Bool.not_or, beq_eq_decide]

theorem mergeIds_eq (existing extra : List String) :
    mergeIds existing extra = existing.eraseDups ++ (extra.removeAll existing).eraseDups := by
  rw [mergeIds, distinctAfter_eq, ← List.eraseDups_append]
  simp

theorem nodup_distinctAfter (seen l : List String) : (distinctAfter seen l).Nodup := by
  induction l generalizing seen with
  | nil => exact .nil
  | cons id l ih =>
    unfold distinctAfter
    split
    · exact ih seen
    · refine List.nodup_cons.2 ⟨fun h => ?_, ih _⟩
      exact (mem_distinctAfter.1 h).2 (.head _)

theorem nodup_mergeIds (existing extra : List String) : (mergeIds existing extra).Nodup :=
  nodup_distinctAfter _ _

theorem distinctAfter_of_nodup {seen l : List String} (nodup : l.Nodup) (fresh : ∀ id ∈ l, id ∉ seen) :
    distinctAfter seen l = l := by
  induction l generalizing seen with
  | nil => rfl
  | cons id l ih =>
    obtain ⟨hid, nodup⟩ := List.nodup_cons.1 nodup
    obtain ⟨hseen, fresh⟩ := List.forall_mem_cons.1 fresh
    unfold distinctAfter
    rw [if_neg hseen, ih nodup fun x hx hmem => ?_]
    rcases List.mem_cons.1 hmem with rfl | hmem
    · exact hid hx
    · exact fresh x hx hmem

/-- Ids that were merged in before add nothing. -/
theorem mergeIds_mergeIds (existing extra : List String) :
    mergeIds (mergeIds existing extra) extra = mergeIds existing extra := by
  have nodup := nodup_mergeIds existing extra
  have once : (mergeIds existing extra).eraseDups = mergeIds existing extra := by
    have := distinctAfter_eq [] (mergeIds existing extra)
    rw [distinctAfter_of_nodup nodup (by simp)] at this
    simpa using this.symm
  have known : extra.removeAll (mergeIds existing extra) = [] := by
    refine List.filter_eq_nil_iff.2 fun id hid => ?_
    simp [mem_mergeIds.2 (.inr hid)]
  rw [mergeIds_eq (mergeIds existing extra), once, known, List.eraseDups_nil, List.append_nil]

/-! ### Spans and links -/

section Sweep
variable {cross : Bool} {reach : ℤ} {f : Alert → Alert} {links : Links}

/-- The same span of another alert. -/
def Span.mapAlert (f : Alert → Alert) (s : Span) : Span := { s with alert := f s.alert }

theorem linked_mapAlert (hf : ∀ a, Alike a (f a)) (a b : Span) :
    linked cross (a.mapAlert f) (b.mapAlert f) = linked cross a b := by
  simp only [linked, Span.mapAlert, Span.meets, (hf _).id_eq, (hf _).source_eq]
  rfl

theorem scan_mapAlert (hf : ∀ a, Alike a (f a)) (a : Span) (later : List Span) (links : Links) :
    scan cross reach (a.mapAlert f) (later.map (Span.mapAlert f)) links = scan cross reach a later links := by
  have near : (later.map (Span.mapAlert f)).takeWhile (fun b => decide (b.last ≤ (a.mapAlert f).last + reach)) =
      (later.takeWhile fun b => decide (b.last ≤ a.last + reach)).map (Span.mapAlert f) :=
    List.takeWhile_map
  simp only [scan, near, List.filter_map, List.foldl_map, Function.comp_def, linked_mapAlert hf]
  simp only [Span.mapAlert, (hf _).id_eq]

theorem sweep_mapAlert (hf : ∀ a, Alike a (f a)) (l : List Span) (links : Links) :
    sweep cross reach (l.map (Span.mapAlert f)) links = sweep cross reach l links := by
  induction l generalizing links with
  | nil => rfl
  | cons a later ih => rw [List.map_cons, sweep, scan_mapAlert hf, ih, sweep]

theorem byLast_mapAlert (f : Alert → Alert) (l : List Span) :
    byLast (l.map (Span.mapAlert f)) = (byLast l).map (Span.mapAlert f) := by
  unfold byLast
  rw [List.map_mergeSort]
  intros
  rfl

end Sweep

/-- No id has an empty list of links. -/
def Links.Filled (links : Links) : Prop := ∀ id ids, OrderedMap.get? links id = some ids → ids ≠ []

namespace Links.Filled
variable {links : Links} {cross : Bool} {reach : ℤ}

theorem nil : Links.Filled [] := by
  intro id ids h
  cases h

theorem add (h : links.Filled) (source target : String) : (links.add source target).Filled := by
  intro id ids hids
  rw [Links.add, OrderedMap.get?_set] at hids
  split at hids
  · rw [← Option.some.inj hids]
    simp
  · exact h id ids hids

theorem scan (h : links.Filled) (a : Span) (later : List Span) :
    (Correlation.scan cross reach a later links).Filled := by
  unfold Correlation.scan
  simp only
  generalize (later.takeWhile _).filter _ = near
  induction near generalizing links with
  | nil => exact h
  | cons b near ih => exact ih ((h.add _ _).add _ _)

theorem sweep (h : links.Filled) (l : List Span) : (Correlation.sweep cross reach l links).Filled := by
  induction l generalizing links with
  | nil => exact h
  | cons a later ih => exact ih (h.scan a later)

end Links.Filled

/-! ### Two runs -/

theorem spanAt_map {τ : Type} [TimeScale τ] (f : Alert → Alert) (a : Alert) (t : Timestamp) (d : τ) :
    spanAt (f a) t d = Span.mapAlert f <$> spanAt a t d := by
  simp only [spanAt, map_bind, map_pure, Span.mapAlert]

variable {τ : Type} [LT τ] [LE τ] [DecidableLT τ] [DecidableLE τ] [OfNat τ 0] [TimeScale τ]
  {c : Correlation τ} {f : Alert → Alert} {alerts : List Alert} {links : Links} {a b : Alert}

/-- Spans depend on no link. -/
theorem spans_map (c : Correlation τ) (hf : ∀ a, Alike a (f a)) (alerts : List Alert) (longest : τ) :
    c.spans longest (alerts.map f) =
      (fun x => (x.1.map (Span.mapAlert f), x.2)) <$> c.spans longest alerts := by
  induction alerts generalizing longest with
  | nil => rfl
  | cons a rest ih =>
    have raisedAt : (f a).raisedAt = a.raisedAt := by rw [(hf a).eq]
    simp only [List.map_cons, spans, raisedAt]
    cases a.raisedAt with
    | none => exact ih longest
    | some t =>
      have span (d : τ) : spanAt (f a) t d = Span.mapAlert f <$> spanAt a t d := spanAt_map f a t d
      simp only [(hf a).id_eq, (hf a).source_eq]
      split
      · exact ih longest
      · simp only [span, ih, map_bind, bind_map_left, map_pure, List.map_cons]

/-- The links that one sweep over the alerts finds for each id, in the order in which it finds them. -/
def linksAmong (c : Correlation τ) (alerts : List Alert) : Except Fault Links := do
  let (spans, longest) ← c.spans 0 alerts
  let reach ← TimeScale.ceil longest
  return sweep c.crossSourceOnly reach (byLast spans) []

theorem correlate_eq_linksAmong (c : Correlation τ) (alerts : List Alert) :
    c.correlate alerts = (fun links => alerts.map (relink links)) <$> c.linksAmong alerts := by
  simp only [correlate, linksAmong, map_bind, map_pure]

theorem linksAmong_filled (hlinks : c.linksAmong alerts = .ok links) : links.Filled := by
  obtain ⟨⟨spans, longest⟩, -, hlinks⟩ := ok_of_bind hlinks
  obtain ⟨reach, -, hlinks⟩ := ok_of_bind hlinks
  exact Except.ok.inj hlinks ▸ Links.Filled.nil.sweep _

/-- The sweep finds the same links whatever links there are already. -/
theorem linksAmong_map (c : Correlation τ) (hf : ∀ a, Alike a (f a)) (alerts : List Alert) :
    c.linksAmong (alerts.map f) = c.linksAmong alerts := by
  simp only [linksAmong, spans_map c hf, bind_map_left, byLast_mapAlert, sweep_mapAlert hf]

/-- The links that an alert receives. -/
def received (links : Links) (a : Alert) : List String := if isEligible a then links.of a.id else []

/-- An alert before and after it receives links. -/
structure Relinked (received : List String) (a a' : Alert) : Prop where
  alike : Alike a a'
  untouched : received = [] → a'.correlated = a.correlated
  /-- The old links stand first, in the order of their first occurrence. -/
  merged : received ≠ [] →
    a'.correlated = a.correlated.eraseDups ++ (received.removeAll a.correlated).eraseDups
  distinct : received ≠ [] → a'.correlated.Nodup

theorem alike_relink (links : Links) (a : Alert) : Alike a (relink links a) := ⟨relink_eq links a⟩

theorem received_eq (h : Alike a b) (links : Links) : received links b = received links a := by
  rw [received, received, h.isEligible_eq, h.id_eq]

theorem correlated_relink (filled : links.Filled) (a : Alert) :
    (relink links a).correlated =
      if received links a = [] then a.correlated else mergeIds a.correlated (received links a) := by
  unfold relink received Links.of
  by_cases he : isEligible a
  · rcases hids : OrderedMap.get? links a.id with _ | ids
    · simp
    · simp [he, filled _ _ hids]
  · simp [he]

theorem relinked_relink (filled : links.Filled) (a : Alert) :
    Relinked (received links a) a (relink links a) := by
  refine ⟨alike_relink links a, fun hnone => ?_, fun hsome => ?_, fun hsome => ?_⟩
  · rw [correlated_relink filled, if_pos hnone]
  · rw [correlated_relink filled, if_neg hsome, mergeIds_eq]
  · rw [correlated_relink filled, if_neg hsome]
    exact nodup_mergeIds _ _

/-- Links that an alert has received before change nothing. -/
theorem relink_relink (filled : links.Filled) (a : Alert) :
    relink links (relink links a) = relink links a := by
  have again : (relink links (relink links a)).correlated = (relink links a).correlated := by
    rw [correlated_relink filled (relink links a), received_eq (alike_relink links a), correlated_relink filled a]
    split
    · rfl
    · exact mergeIds_mergeIds _ _
  rw [relink_eq links (relink links a), again]

/-- There are spans where nothing is looked up in vain. -/
theorem exists_spans (total : TimeScale.IsTotal τ) (longest : τ)
    (known : ∀ a ∈ alerts, isEligible a → ∃ d, c.intervalOf a.source = .ok d) :
    ∃ r, c.spans longest alerts = .ok r := by
  induction alerts generalizing longest with
  | nil => exact ⟨_, rfl⟩
  | cons a rest ih =>
    obtain ⟨hknown, known⟩ := List.forall_mem_cons.1 known
    unfold spans
    split
    · exact ih longest known
    · rename_i t ht
      split
      · exact ih longest known
      · rename_i hid
        obtain ⟨d, hd⟩ := hknown (isEligible_iff.2 ⟨hid, t, ht⟩)
        obtain ⟨last, hlast⟩ := total.instant t
        obtain ⟨first, hfirst⟩ := total.before last d
        obtain ⟨m, hm⟩ := total.floor first
        obtain ⟨n, hn⟩ := total.floor last
        obtain ⟨⟨more, longest'⟩, hmore⟩ := ih (longer longest d) known
        refine ⟨(⟨m, n, a⟩ :: more, longest'), ?_⟩
        simp only [hd, spanAt, hlast, hfirst, hm, hn, hmore, bind, Except.bind, pure, Except.pure]

/-- One run gives every alert the links it receives and changes nothing else; a second run on the
result changes nothing. On a time scale without failures there is a result wherever the intervals are
known. -/
theorem correlate_idempotent (c : Correlation τ) (alerts : List Alert) :
    (TimeScale.IsTotal τ → (∀ a ∈ alerts, isEligible a → ∃ d, c.intervalOf a.source = .ok d) →
      ∃ out, c.correlate alerts = .ok out) ∧
    ∀ out, c.correlate alerts = .ok out → c.correlate out = .ok out ∧
      ∃ links, c.linksAmong alerts = .ok links ∧
        List.Forall₂ (fun a a' => Relinked (received links a) a a') alerts out := by
  refine ⟨fun total known => ?_, fun out hout => ?_⟩
  · obtain ⟨⟨l, m⟩, hl⟩ := exists_spans total 0 known
    obtain ⟨reach, hreach⟩ := total.ceil m
    refine ⟨alerts.map (relink (sweep c.crossSourceOnly reach (byLast l) [])), ?_⟩
    simp only [correlate, hl, hreach, bind, Except.bind, pure, Except.pure]
  · rw [correlate_eq_linksAmong] at hout
    rcases hlinks : c.linksAmong alerts with f | links
    · rw [hlinks] at hout
      cases hout
    · rw [hlinks] at hout
      obtain rfl : alerts.map (relink links) = out := Except.ok.inj hout
      have filled := linksAmong_filled hlinks
      refine ⟨?_, links, rfl, ?_⟩
      · have again : (alerts.map (relink links)).map (relink links) = alerts.map (relink links) := by
          rw [List.map_map]
          exact List.map_congr_left fun a _ => relink_relink filled a
        rw [correlate_eq_linksAmong, linksAmong_map c (alike_relink links), hlinks]
        exact congrArg Except.ok again
      · exact List.forall₂_map_right_iff.2 (List.forall₂_same.2 fun a _ => relinked_relink filled a)

/-- An alert that keeps its old link once and gains one, the one it is linked with, and one that gains
none and so keeps its repeated link. -/
theorem correlate_idempotent_repeated :
    let c := ofIntervals [(.ofText "cpu", 2)] 5 true
    let alerts := [{ alertAt "late" "net" 14 250000 with correlated := ["x", "x"] },
      alertAt "early" "cpu" 10 500000, { alertAt "alone" "cpu" 50 0 with correlated := ["y", "y"] }]
    (TimeScale.IsTotal ℚ ∧ ∀ a ∈ alerts, isEligible a → ∃ d, c.intervalOf a.source = .ok d) ∧
    ∃ out, c.correlate alerts = .ok out ∧ c.correlate out = .ok out ∧
      out.map Alert.correlated = [["x", "early"], ["late"], ["y", "y"]] := by
  intro c alerts
  have known : ∀ a ∈ alerts, isEligible a → ∃ d, c.intervalOf a.source = .ok d := by
    intro a ha _
    refine intervalOf_ok_iff.2 ?_
    simp only [alerts, List.mem_cons, List.not_mem_nil, or_false] at ha
    rcases ha with rfl | rfl | rfl <;> exact ⟨_, rfl⟩
  obtain ⟨returns, stable⟩ := correlate_idempotent c alerts
  obtain ⟨out, hout⟩ := returns TimeScale.isTotal_rat known
  obtain ⟨again, links, hlinks, relinked⟩ := stable out hout
  have found : c.linksAmong alerts = .ok [("early", ["late"]), ("late", ["early"])] := by cbv
  obtain rfl := Except.ok.inj (hlinks.symm.trans found)
  refine ⟨⟨TimeScale.isTotal_rat, known⟩, out, hout, again, ?_⟩
  obtain ⟨a, others, ha, hothers, rfl⟩ := List.forall₂_cons_left_iff.1 relinked
  obtain ⟨b, lone, hb, hlone, rfl⟩ := List.forall₂_cons_left_iff.1 hothers
  obtain ⟨d, rest, hd, hrest, rfl⟩ := List.forall₂_cons_left_iff.1 hlone
  obtain rfl := List.forall₂_nil_left_iff.1 hrest
  rw [List.map_cons, List.map_cons, List.map_cons, ha.merged (by decide), hb.merged (by decide),
    hd.untouched (by decide)]
  rfl

end Correlation

end HostWatch
