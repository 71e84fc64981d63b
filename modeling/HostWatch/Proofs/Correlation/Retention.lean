import HostWatch.Correlation.History
import HostWatch.Proofs.Correlation.Linking
import HostWatch.Proofs.Detection.Arrival
import HostWatch.Proofs.OrderedMap
import Mathlib.Data.List.Nodup

/-!
# A history over a whole run

A history is filled batch by batch, and from time to time the interval of a source is set. What it
keeps then are the latest alerts, and each is linked with all that it overlapped while both were kept
(`History.run_runLaw`). The invariant is `History.Upheld`: every kept alert `Shows` what was appended.
One operation upholds it because the sweep is run over all that is kept, so the new links are those of
`History.LinkedBy`, and because no alert that is new can have been linked before.
-/

namespace HostWatch

namespace Correlation

/-- All intervals are known and exact, and the one of other sources is not negative. -/
def IsExact (c : Correlation ℚ) : Prop :=
  ∃ intervals dflt cross, 0 ≤ dflt ∧ c = ofIntervals intervals dflt cross

variable {c : Correlation ℚ} {alerts kept : List Alert} {x y : Alert} {p q : String}

theorem IsExact.nonneg (h : c.IsExact) (source : Value) (d : ℚ) (hd : c.intervalOf source = .ok d) :
    0 ≤ d := by
  obtain ⟨intervals, dflt, cross, h0, rfl⟩ := h
  exact intervalOf_nonneg h0 hd

theorem IsExact.known (h : c.IsExact) {source : Value} (hs : ∃ k, source.toKey = .ok k) :
    ∃ d, c.intervalOf source = .ok d := by
  obtain ⟨intervals, dflt, cross, -, rfl⟩ := h
  exact intervalOf_ok_iff.2 hs

/-- Two alerts that differ in their links only. -/
structure Alike (x y : Alert) : Prop where
  eq : y = { x with correlated := y.correlated }

theorem Alike.overlap_iff {x' y' : Alert} (hx : Alike x x') (hy : Alike y y') :
    c.Overlap x' y' ↔ c.Overlap x y := by
  rw [hx.eq, hy.eq]
  exact ⟨fun h => ⟨h.eligible, h.ids, h.sources, h.second⟩,
    fun h => ⟨h.eligible, h.ids, h.sources, h.second⟩⟩

theorem Alike.id_eq (h : Alike x y) : y.id = x.id := by rw [h.eq]

theorem Alike.source_eq (h : Alike x y) : y.source = x.source := by rw [h.eq]

theorem Alike.isEligible_eq (h : Alike x y) : isEligible y = isEligible x := by
  rw [h.eq]
  rfl

theorem Alike.trans {z : Alert} (h : Alike x y) (h' : Alike y z) : Alike x z := by
  refine ⟨?_⟩
  rw [h'.eq, h.eq]

/-- Old links do not matter for new ones. -/
theorem idsOverlap_congr (h : List.Forall₂ Alike alerts kept) :
    c.IdsOverlap kept p q ↔ c.IdsOverlap alerts p q := by
  constructor
  · rintro ⟨a', ha', b', hb', hab, rfl, rfl⟩
    obtain ⟨a, ha, haa'⟩ := exists_left_of_forall₂ h ha'
    obtain ⟨b, hb, hbb'⟩ := exists_left_of_forall₂ h hb'
    exact ⟨a, ha, b, hb, (haa'.overlap_iff hbb').1 hab, haa'.id_eq.symm, hbb'.id_eq.symm⟩
  · rintro ⟨a, ha, b, hb, hab, rfl, rfl⟩
    obtain ⟨a', ha', haa'⟩ := exists_left_of_forall₂ h.flip ha
    obtain ⟨b', hb', hbb'⟩ := exists_left_of_forall₂ h.flip hb
    exact ⟨a', ha', b', hb', (haa'.overlap_iff hbb').2 hab, haa'.id_eq, hbb'.id_eq⟩

/-- Where no id stands twice, an id overlaps what its alert overlaps. -/
theorem idsOverlap_iff_of_nodup (ids : (alerts.map Alert.id).Nodup) (hx : x ∈ alerts) :
    c.IdsOverlap alerts x.id q ↔ ∃ y ∈ alerts, c.Overlap x y ∧ y.id = q := by
  constructor
  · rintro ⟨a, ha, b, hb, hab, hid, rfl⟩
    obtain rfl := List.inj_on_of_nodup_map ids ha hx hid
    exact ⟨b, hb, hab, rfl⟩
  · rintro ⟨y, hy, hxy, rfl⟩
    exact ⟨x, hx, y, hy, hxy, rfl, rfl⟩

/-- An alert before and after it is linked with those of a list. -/
structure Gains (c : Correlation ℚ) (alerts : List Alert) (a a' : Alert) : Prop where
  alike : Alike a a'
  links : ∀ id, id ∈ a'.correlated ↔ id ∈ a.correlated ∨ isEligible a ∧ c.IdsOverlap alerts a.id id

/-- With exact intervals and sources that can be looked up there is always a result. -/
theorem IsExact.correlate_gains (h : c.IsExact) (sources : ∀ a ∈ alerts, ∃ k, a.source.toKey = .ok k) :
    ∃ out, c.correlate alerts = .ok out ∧ List.Forall₂ (c.Gains alerts) alerts out := by
  obtain ⟨⟨l, m⟩, hl⟩ := (spans_ok_iff (c := c) alerts 0).2 fun a ha _ => h.known (sources a ha)
  refine ⟨_, by rw [correlate_eq_map, hl]; rfl, ?_⟩
  refine List.forall₂_map_right_iff.2 (List.forall₂_same.2 fun a _ => ⟨⟨relink_eq _ a⟩, fun id => ?_⟩)
  rw [mem_relink, mem_sweep_spans h.nonneg hl]

end Correlation

namespace History
open Correlation

/-! ### The last of a list -/

section LastOf
variable {α β : Type} {R : α → β → Prop} {n : Nat}

theorem lastOf_of_length_le {l : List α} (h : l.length ≤ n) : lastOf n l = l := by
  rw [lastOf, Nat.sub_eq_zero_of_le h, List.drop_zero]

theorem mem_of_mem_lastOf {l : List α} {a : α} (h : a ∈ lastOf n l) : a ∈ l := List.mem_of_mem_drop h

/-- What was left out before would be left out now. -/
theorem lastOf_lastOf_append (l more : List α) : lastOf n (lastOf n l ++ more) = lastOf n (l ++ more) := by
  have fewer : l.length - n ≤ l.length := Nat.sub_le _ _
  have whole : lastOf n l ++ more = (l ++ more).drop (l.length - n) :=
    (List.drop_append_of_le_length fewer).symm
  rw [whole]
  unfold lastOf
  rw [List.drop_drop, List.length_drop, List.length_append]
  congr 1
  omega

theorem forall₂_lastOf {l : List α} {m : List β} (h : List.Forall₂ R l m) :
    List.Forall₂ R (lastOf n l) (lastOf n m) := by
  unfold lastOf
  rw [h.length_eq]
  exact List.forall₂_drop _ h

end LastOf

/-! ### Runs -/

/-- What is done to a history. -/
inductive Operation where
  | extend (batch : List Alert)
  | setInterval (source : Key) (seconds : ℚ)

namespace Operation

/-- The alerts that an operation appends. -/
def batch : Operation → List Alert
  | extend batch => batch
  | setInterval _ _ => []

/-- The history after an operation; a fault reaches the caller. -/
def apply (h : History ℚ) : Operation → Except Fault (History ℚ)
  | extend batch =>
    match h.extend batch with
    | (h, none) => .ok h
    | (_, some f) => .error f
  | setInterval source seconds => .ok (h.setInterval source (.ok seconds))

/-- The intervals in force after an operation. -/
def tune (c : Correlation ℚ) : Operation → Correlation ℚ
  | extend _ => c
  | setInterval source seconds =>
    { c with intervals := OrderedMap.set c.intervals source (.ok seconds) }

end Operation

/-- The history after one operation after another. -/
def run (h : History ℚ) (ops : List Operation) : Except Fault (History ℚ) := ops.foldlM Operation.apply h

/-- All alerts ever appended. -/
def appended (ops : List Operation) : List Alert := ops.flatMap Operation.batch

/-- The intervals in force after some operations. -/
def inForce (h : History ℚ) (ops : List Operation) : Correlation ℚ := ops.foldl Operation.tune h.correlation

/-- The alerts that an empty history keeps after some operations, as they were appended. -/
def retained (h : History ℚ) (ops : List Operation) : List Alert := lastOf h.limit (appended ops)

/-- After an `extend` two alerts are kept, and they overlap under the intervals in force at it. -/
structure LinkedBy (h : History ℚ) (before : List Operation) (op : Operation) (x y : Alert) : Prop where
  added : op.batch ≠ []
  left : x ∈ h.retained (before ++ [op])
  right : y ∈ h.retained (before ++ [op])
  overlap : (h.inForce before).Overlap x y

/-- Some operation of a run links two alerts. -/
def LinkedDuring (h : History ℚ) (ops : List Operation) (x y : Alert) : Prop :=
  ∃ before op, before ++ [op] <+: ops ∧ h.LinkedBy before op x y

/-- An appended alert, and what a history holds of it after a run. -/
structure Shows (h : History ℚ) (ops : List Operation) (x x' : Alert) : Prop where
  alike : Alike x x'
  links : ∀ id, id ∈ x'.correlated ↔ id ∈ x.correlated ∨ ∃ y, h.LinkedDuring ops x y ∧ y.id = id

variable {h₀ h : History ℚ} {ops before : List Operation} {op : Operation} {x y x' : Alert}

theorem appended_concat : appended (ops ++ [op]) = appended ops ++ op.batch := by
  simp [appended]

theorem appended_sublist {ops₁ : List Operation} (hp : ops₁ <+: ops) :
    (appended ops₁).Sublist (appended ops) := by
  obtain ⟨more, rfl⟩ := hp
  rw [appended, appended, List.flatMap_append]
  exact List.sublist_append_left _ _

theorem mem_appended_of_mem_retained (hx : x ∈ h.retained ops) : x ∈ appended ops := mem_of_mem_lastOf hx

theorem inForce_concat : h.inForce (ops ++ [op]) = op.tune (h.inForce ops) := by
  simp [inForce]

theorem run_concat : run h₀ (ops ++ [op]) = (run h₀ ops).bind op.apply := by
  unfold run
  rw [List.foldlM_append]
  cases ops.foldlM Operation.apply h₀ with
  | error f => rfl
  | ok h =>
    show (op.apply h).bind _ = op.apply h
    cases op.apply h <;> rfl

theorem isExact_tune {c : Correlation ℚ} (hc : c.IsExact) (op : Operation) : (op.tune c).IsExact := by
  cases op with
  | extend batch => exact hc
  | setInterval source seconds =>
    obtain ⟨intervals, dflt, cross, h0, rfl⟩ := hc
    refine ⟨OrderedMap.set intervals source seconds, dflt, cross, h0, ?_⟩
    simp only [Operation.tune, ofIntervals, OrderedMap.set_map]

/-! ### Links -/

theorem linkedDuring_nil : ¬ h.LinkedDuring [] x y := by
  rintro ⟨before, op, hp, -⟩
  simpa using hp.length_le

theorem linkedDuring_concat :
    h.LinkedDuring (ops ++ [op]) x y ↔ h.LinkedDuring ops x y ∨ h.LinkedBy ops op x y := by
  constructor
  · rintro ⟨before, last, hp, hl⟩
    rcases List.prefix_concat_iff.1 hp with heq | hp
    · obtain ⟨rfl, rfl⟩ := List.append_singleton_inj.1 heq
      exact .inr hl
    · exact .inl ⟨before, last, hp, hl⟩
  · rintro (⟨before, last, hp, hl⟩ | hl)
    · exact ⟨before, last, hp.trans (List.prefix_append _ _), hl⟩
    · exact ⟨ops, op, List.prefix_rfl, hl⟩

theorem LinkedDuring.mono {ops₁ : List Operation} (hp : ops₁ <+: ops) (hl : h.LinkedDuring ops₁ x y) :
    h.LinkedDuring ops x y := by
  obtain ⟨before, op, hb, hl⟩ := hl
  exact ⟨before, op, hb.trans hp, hl⟩

theorem LinkedDuring.mem_appended (hl : h.LinkedDuring ops x y) : x ∈ appended ops ∧ y ∈ appended ops := by
  obtain ⟨before, op, hp, hl⟩ := hl
  have sub := (appended_sublist hp).subset
  exact ⟨sub (mem_appended_of_mem_retained hl.left), sub (mem_appended_of_mem_retained hl.right)⟩

/-! ### The invariant -/

/-- What holds of a history after a run from an empty one. -/
structure Upheld (h₀ : History ℚ) (ops : List Operation) (h : History ℚ) : Prop where
  limit : h.limit = h₀.limit
  correlation : h.correlation = h₀.inForce ops
  shows : List.Forall₂ (h₀.Shows ops) (h₀.retained ops) h.alerts

/-- Alerts as a history takes them: none has the id of another, each takes part in linking and its
source can be looked up. -/
structure Sound (alerts : List Alert) : Prop where
  ids : (alerts.map Alert.id).Nodup
  eligible : ∀ a ∈ alerts, isEligible a
  sources : ∀ a ∈ alerts, ∃ k, a.source.toKey = .ok k

theorem Sound.sublist {alerts some : List Alert} (hs : Sound alerts) (sub : some.Sublist alerts) :
    Sound some :=
  ⟨hs.ids.sublist (sub.map _), fun a ha => hs.eligible a (sub.subset ha),
    fun a ha => hs.sources a (sub.subset ha)⟩

theorem Sound.eq_of_id_eq {alerts : List Alert} (hs : Sound alerts) (hx : x ∈ alerts) (hy : y ∈ alerts)
    (hid : x.id = y.id) : x = y :=
  List.inj_on_of_nodup_map hs.ids hx hy hid

theorem isExact_inForce (hc : h₀.correlation.IsExact) (ops : List Operation) :
    (h₀.inForce ops).IsExact := by
  induction ops using List.reverseRecOn with
  | nil => exact hc
  | append_singleton ops op ih =>
    rw [inForce_concat]
    exact isExact_tune ih op

theorem retained_concat :
    h₀.retained (ops ++ [op]) = lastOf h₀.limit (h₀.retained ops ++ op.batch) := by
  rw [retained, appended_concat]
  exact (lastOf_lastOf_append _ _).symm

theorem Upheld.start (none : h₀.alerts = []) : h₀.Upheld [] h₀ := by
  refine ⟨rfl, rfl, ?_⟩
  rw [none, retained, lastOf_of_length_le (Nat.zero_le _)]
  exact .nil

/-- An alert that is appended only now has no links yet. -/
theorem Shows.fresh (hs : Sound (appended (ops ++ [op]))) (hx : x ∈ op.batch) : h₀.Shows ops x x := by
  refine ⟨⟨rfl⟩, fun id => ⟨.inl, ?_⟩⟩
  rintro (hid | ⟨y, hl, -⟩)
  · exact hid
  · have once := hs.ids.of_map
    rw [appended_concat] at once
    exact absurd hx (List.disjoint_of_nodup_append once hl.mem_appended.1)

theorem Shows.of_not_added (hb : op.batch = []) (hx : h₀.Shows ops x x') : h₀.Shows (ops ++ [op]) x x' := by
  refine ⟨hx.alike, fun id => ?_⟩
  have nothing (y : Alert) : ¬ h₀.LinkedBy ops op x y := fun hl => hl.added hb
  simp only [hx.links id, linkedDuring_concat, nothing, or_false]

/-- Linking all that is kept adds the links of the operation. -/
theorem Shows.gain {x'' : Alert} {kept : List Alert} (hs : Sound (appended (ops ++ [op])))
    (hb : op.batch ≠ []) (shown : List.Forall₂ (h₀.Shows ops) (h₀.retained (ops ++ [op])) kept)
    (hx : x ∈ h₀.retained (ops ++ [op])) (hx' : h₀.Shows ops x x')
    (hx'' : (h₀.inForce ops).Gains kept x' x'') : h₀.Shows (ops ++ [op]) x x'' := by
  have now : Sound (h₀.retained (ops ++ [op])) := hs.sublist (List.drop_sublist _ _)
  have eligible : isEligible x' = true := by
    rw [hx'.alike.isEligible_eq]
    exact now.eligible x hx
  have linkedBy_iff (y : Alert) : h₀.LinkedBy ops op x y ↔
      y ∈ h₀.retained (ops ++ [op]) ∧ (h₀.inForce ops).Overlap x y :=
    ⟨fun hl => ⟨hl.right, hl.overlap⟩, fun ⟨hy, hxy⟩ => ⟨hb, hx, hy, hxy⟩⟩
  have overlaps (id : String) : (h₀.inForce ops).IdsOverlap kept x'.id id ↔
      ∃ y, h₀.LinkedBy ops op x y ∧ y.id = id := by
    rw [idsOverlap_congr (shown.imp fun _ _ => Shows.alike), hx'.alike.id_eq,
      idsOverlap_iff_of_nodup now.ids hx]
    simp only [linkedBy_iff, and_assoc]
  refine ⟨hx'.alike.trans hx''.alike, fun id => ?_⟩
  rw [hx''.links, hx'.links, overlaps, or_assoc]
  simp only [eligible, true_and, linkedDuring_concat, or_and_right, exists_or]

theorem forall₂_trans {α β γ : Type} {R : α → β → Prop} {S : β → γ → Prop} {T : α → γ → Prop}
    {l : List α} {m : List β} {n : List γ} (step : ∀ a b c, R a b → S b c → T a c)
    (hlm : List.Forall₂ R l m) (hmn : List.Forall₂ S m n) : List.Forall₂ T l n := by
  induction hlm generalizing n with
  | nil =>
    obtain rfl := List.forall₂_nil_left_iff.1 hmn
    exact .nil
  | cons hab _ ih =>
    obtain ⟨c, n, hbc, hrest, rfl⟩ := List.forall₂_cons_left_iff.1 hmn
    exact .cons (step _ _ _ hab hbc) (ih hrest)

theorem forall₂_with_mem {α β : Type} {R : α → β → Prop} {l : List α} {m : List β}
    (h : List.Forall₂ R l m) : List.Forall₂ (fun a b => a ∈ l ∧ R a b) l m :=
  (List.forall₂_and_left _ _).2 ⟨fun _ ha => ha, h⟩

theorem Upheld.extend {batch : List Alert} (hu : h₀.Upheld ops h) (hc : h₀.correlation.IsExact)
    (hs : Sound (appended (ops ++ [.extend batch]))) :
    ∃ h', (Operation.extend batch).apply h = .ok h' ∧ h₀.Upheld (ops ++ [.extend batch]) h' := by
  by_cases hb : batch = []
  · subst hb
    refine ⟨h, rfl, hu.limit, ?_, ?_⟩
    · rw [inForce_concat]
      exact hu.correlation
    · have same : h₀.retained (ops ++ [.extend []]) = h₀.retained ops := by
        rw [retained, appended_concat, Operation.batch, List.append_nil, retained]
      rw [same]
      exact hu.shows.imp fun _ _ => Shows.of_not_added rfl
  · have fresh : List.Forall₂ (h₀.Shows ops) batch batch :=
      List.forall₂_same.2 fun x hx => Shows.fresh hs hx
    have shown : List.Forall₂ (h₀.Shows ops) (h₀.retained (ops ++ [.extend batch]))
        (lastOf h.limit (h.alerts ++ batch)) := by
      rw [retained_concat, hu.limit]
      exact forall₂_lastOf (List.rel_append hu.shows fresh)
    have sources : ∀ a ∈ lastOf h.limit (h.alerts ++ batch), ∃ k, a.source.toKey = .ok k := by
      intro a' ha'
      obtain ⟨a, ha, haa'⟩ := exists_left_of_forall₂ shown ha'
      rw [haa'.alike.source_eq]
      exact hs.sources a (mem_appended_of_mem_retained ha)
    obtain ⟨out, hout, gains⟩ := (isExact_inForce hc ops).correlate_gains sources
    refine ⟨{ h with alerts := out }, ?_, hu.limit, ?_, ?_⟩
    · rw [← hu.correlation] at hout
      have filled : batch.isEmpty = false := by simpa using hb
      simp only [Operation.apply, History.extend, filled, Bool.false_eq_true, if_false, hout]
    · rw [inForce_concat]
      exact hu.correlation
    · refine forall₂_trans ?_ (forall₂_with_mem shown) gains
      exact fun x x' x'' ⟨hx, hxx'⟩ hxx'' => hxx'.gain hs hb shown hx hxx''

theorem Upheld.setInterval {source : Key} {seconds : ℚ} (hu : h₀.Upheld ops h) :
    h₀.Upheld (ops ++ [.setInterval source seconds]) (h.setInterval source (.ok seconds)) := by
  refine ⟨hu.limit, ?_, ?_⟩
  · rw [inForce_concat, ← hu.correlation]
    rfl
  · have same : h₀.retained (ops ++ [.setInterval source seconds]) = h₀.retained ops := by
      rw [retained, appended_concat, Operation.batch, List.append_nil, retained]
    rw [same]
    exact hu.shows.imp fun _ _ => Shows.of_not_added rfl

/-- A run from an empty history never fails. -/
theorem run_upheld (none : h₀.alerts = []) (hc : h₀.correlation.IsExact) (hs : Sound (appended ops)) :
    ∃ h, run h₀ ops = .ok h ∧ h₀.Upheld ops h := by
  induction ops using List.reverseRecOn with
  | nil => exact ⟨h₀, rfl, .start none⟩
  | append_singleton ops op ih =>
    obtain ⟨h, hrun, hu⟩ := ih (hs.sublist (appended_sublist (List.prefix_append _ _)))
    rw [run_concat, hrun]
    cases op with
    | extend batch => exact hu.extend hc hs
    | setInterval source seconds => exact ⟨_, rfl, hu.setInterval⟩

/-! ### What a run leaves -/

theorem Upheld.exists_shown (hu : h₀.Upheld ops h) (hx' : x' ∈ h.alerts) :
    ∃ x ∈ appended ops, h₀.Shows ops x x' := by
  obtain ⟨x, hx, hxx'⟩ := exists_left_of_forall₂ hu.shows hx'
  exact ⟨x, mem_appended_of_mem_retained hx, hxx'⟩

/-- A later history still has the links of an earlier one. -/
theorem Upheld.links_subset {ops₁ : List Operation} {h₁ : History ℚ} {x₁ : Alert}
    (hs : Sound (appended ops)) (hp : ops₁ <+: ops) (hu₁ : h₀.Upheld ops₁ h₁) (hu : h₀.Upheld ops h)
    (hx₁ : x₁ ∈ h₁.alerts) (hx' : x' ∈ h.alerts) (hid : x₁.id = x'.id) :
    x₁.correlated ⊆ x'.correlated := by
  obtain ⟨a, ha, ha₁⟩ := hu₁.exists_shown hx₁
  obtain ⟨b, hb, hb'⟩ := hu.exists_shown hx'
  have same : a.id = b.id := by rw [← ha₁.alike.id_eq, ← hb'.alike.id_eq, hid]
  obtain rfl := hs.eq_of_id_eq ((appended_sublist hp).subset ha) hb same
  intro id h
  rw [ha₁.links] at h
  rw [hb'.links]
  rcases h with h | ⟨y, hl, hy⟩
  · exact .inl h
  · exact .inr ⟨y, hl.mono hp, hy⟩

/-- Whenever alerts are appended the same intervals are in force. -/
def Steady (h : History ℚ) (ops : List Operation) (c : Correlation ℚ) : Prop :=
  ∀ before op, before ++ [op] <+: ops → op.batch ≠ [] → h.inForce before = c

theorem Steady.of_prefix {c : Correlation ℚ} {ops₁ : List Operation} (hp : ops₁ <+: ops)
    (st : h₀.Steady ops c) : h₀.Steady ops₁ c :=
  fun before op hb => st before op (hb.trans hp)

theorem Steady.isExact {c : Correlation ℚ} (st : h₀.Steady ops c) (hc : h₀.correlation.IsExact)
    (some : appended ops ≠ []) : c.IsExact := by
  induction ops using List.reverseRecOn with
  | nil => exact absurd rfl some
  | append_singleton ops op ih =>
    by_cases hb : op.batch = []
    · rw [appended_concat, hb, List.append_nil] at some
      exact ih (st.of_prefix (List.prefix_append _ _)) some
    · rw [← st ops op List.prefix_rfl hb]
      exact isExact_inForce hc ops

/-- While nothing is left out and no interval changes, all pairs that overlap are linked sooner or
later: at the latest by the last batch. -/
theorem Steady.linkedDuring_iff {c : Correlation ℚ} (st : h₀.Steady ops c)
    (few : (appended ops).length ≤ h₀.limit) :
    h₀.LinkedDuring ops x y ↔ x ∈ appended ops ∧ y ∈ appended ops ∧ c.Overlap x y := by
  induction ops using List.reverseRecOn with
  | nil => simp [linkedDuring_nil, appended]
  | append_singleton ops op ih =>
    have fewer : (appended ops).length ≤ h₀.limit := by
      rw [appended_concat, List.length_append] at few
      omega
    have all : h₀.retained (ops ++ [op]) = appended (ops ++ [op]) := lastOf_of_length_le few
    rw [linkedDuring_concat, ih (st.of_prefix (List.prefix_append _ _)) fewer]
    constructor
    · rintro (⟨hx, hy, hxy⟩ | hl)
      · rw [appended_concat]
        exact ⟨List.mem_append_left _ hx, List.mem_append_left _ hy, hxy⟩
      · rw [← all, ← st ops op List.prefix_rfl hl.added]
        exact ⟨hl.left, hl.right, hl.overlap⟩
    · rintro ⟨hx, hy, hxy⟩
      by_cases hb : op.batch = []
      · rw [appended_concat, hb, List.append_nil] at hx hy
        exact .inl ⟨hx, hy, hxy⟩
      · rw [← all] at hx hy
        rw [← st ops op List.prefix_rfl hb] at hxy
        exact .inr ⟨hb, hx, hy, hxy⟩

/-- Two lists of the same alerts, with the same links up to order. -/
def Agree (alerts alerts' : List Alert) : Prop :=
  List.Forall₂ (fun x x' => Alike x x' ∧ ∀ id, id ∈ x.correlated ↔ id ∈ x'.correlated) alerts alerts'

theorem Upheld.agree {c : Correlation ℚ} (hu : h₀.Upheld ops h) (hc : h₀.correlation.IsExact)
    (hs : Sound (appended ops)) (st : h₀.Steady ops c) (few : (appended ops).length ≤ h₀.limit) :
    ∃ out, c.correlate (appended ops) = .ok out ∧ Agree h.alerts out := by
  have shows := hu.shows
  rw [retained, lastOf_of_length_le few] at shows
  by_cases some : appended ops = []
  · rw [some] at shows ⊢
    rw [List.forall₂_nil_left_iff.1 shows]
    exact ⟨[], rfl, .nil⟩
  · obtain ⟨out, hout, gains⟩ := (st.isExact hc some).correlate_gains hs.sources
    refine ⟨out, hout, forall₂_trans ?_ shows.flip (forall₂_with_mem gains)⟩
    intro x' x x'' hxx' ⟨hx, hxx''⟩
    have overlaps (id : String) : (∃ y, h₀.LinkedDuring ops x y ∧ y.id = id) ↔
        isEligible x ∧ c.IdsOverlap (appended ops) x.id id := by
      rw [idsOverlap_iff_of_nodup hs.ids hx]
      simp only [st.linkedDuring_iff few, hx, hs.eligible x hx, true_and, and_assoc]
    refine ⟨⟨?_⟩, fun id => ?_⟩
    · rw [hxx''.alike.eq, hxx'.alike.eq]
    · rw [hxx'.links, hxx''.links, overlaps]

theorem empty_eq {limit : ℤ} {c : Correlation ℚ} (h : empty (.number (.int limit)) c = .ok h₀) :
    (h₀.limit : ℤ) = max 1 limit ∧ h₀.correlation = c ∧ h₀.alerts = [] := by
  have one : (1 : Number) = .int 1 := rfl
  simp only [empty, limitOf, Value.comparable, bind, Except.bind, pure, Except.pure, one,
    Number.int_lt_int] at h
  by_cases many : 1 < limit
  · by_cases bound : limit < limitBound
    · simp only [many, bound, decide_true, Bool.not_true, Bool.false_eq_true, if_false, if_true,
        Except.ok.injEq] at h
      subst h
      exact ⟨by simp only [Int.toNat_of_nonneg (by omega : 0 ≤ limit)]; omega, rfl, rfl⟩
    · simp [many, bound, throw, throwThe, MonadExceptOf.throw] at h
  · simp only [many, decide_false, Bool.not_false, if_true, Except.ok.injEq] at h
    subst h
    exact ⟨by simp only [Nat.cast_one]; omega, rfl, rfl⟩

/-- What a history holds after a run from an empty one with a limit. -/
structure RunLaw (limit : ℤ) (h₀ : History ℚ) (ops : List Operation) (h : History ℚ) : Prop where
  limit : (h₀.limit : ℤ) = max 1 limit
  shows : List.Forall₂ (h₀.Shows ops) (h₀.retained ops) h.alerts
  links_kept : ∀ ops₁ h₁, ops₁ <+: ops → run h₀ ops₁ = .ok h₁ →
    ∀ x₁ ∈ h₁.alerts, ∀ x ∈ h.alerts, x₁.id = x.id → x₁.correlated ⊆ x.correlated
  agree : ∀ c, h₀.Steady ops c → (appended ops).length ≤ h₀.limit →
    ∃ out, c.correlate (appended ops) = .ok out ∧ Agree h.alerts out

/-- However alerts are appended and intervals are set, an empty history ends up with the latest
alerts, each linked with all that it overlapped while both were kept. Links are never taken back. As
long as nothing is left out it does not matter how the alerts are split into batches. -/
theorem run_runLaw {limit : ℤ} {intervals : OrderedMap Key ℚ} {dflt : ℚ} {cross : Bool}
    (nonneg : 0 ≤ dflt)
    (start : empty (.number (.int limit)) (ofIntervals intervals dflt cross) = .ok h₀)
    (sound : Sound (appended ops)) : ∃ h, run h₀ ops = .ok h ∧ RunLaw limit h₀ ops h := by
  obtain ⟨hlimit, hcorrelation, none⟩ := empty_eq start
  have hc : h₀.correlation.IsExact := ⟨intervals, dflt, cross, nonneg, hcorrelation⟩
  obtain ⟨h, hrun, hu⟩ := run_upheld none hc sound
  refine ⟨h, hrun, hlimit, hu.shows, ?_, fun c st few => hu.agree hc sound st few⟩
  intro ops₁ h₁ hp hrun₁ x₁ hx₁ x hx hid
  obtain ⟨h₁', hrun₁', hu₁⟩ := run_upheld none hc (sound.sublist (appended_sublist hp))
  obtain rfl := Except.ok.inj (hrun₁.symm.trans hrun₁')
  exact hu₁.links_subset sound hp hu hx₁ hx hid

/-- The third alert takes the place of the first, which stays a link of the second. By then the
interval of the third reaches back to the first as well, but they were never kept together. -/
theorem run_runLaw_evicted :
    let ops := [.extend [alertAt "first" "cpu" 10 0, alertAt "second" "net" 12 0],
      .setInterval (.ofText "disk") 90, .extend [alertAt "third" "disk" 50 0]]
    (0 : ℚ) ≤ 5 ∧ ∃ h₀, empty (.number (.int 2)) (ofIntervals [] 5 true) = .ok h₀ ∧
      Sound (appended ops) ∧ ∃ h second third, run h₀ ops = .ok h ∧ h.alerts = [second, third] ∧
      "first" ∈ second.correlated ∧ "third" ∈ second.correlated ∧ "first" ∉ third.correlated := by
  intro ops
  have nonneg : (0 : ℚ) ≤ 5 := by norm_num
  have start : empty (.number (.int 2)) (ofIntervals [] 5 true) =
      .ok { limit := 2, correlation := ofIntervals [] 5 true } := rfl
  have sound : Sound (appended ops) :=
    ⟨by decide, by decide, by simp [ops, appended, Operation.batch, alertAt, Value.toKey]⟩
  obtain ⟨h, hrun, law⟩ := run_runLaw nonneg start sound
  have shows : List.Forall₂ _ [alertAt "second" "net" 12 0, alertAt "third" "disk" 50 0] h.alerts :=
    law.shows
  obtain ⟨second, rest, hsecond, hrest, halerts⟩ := List.forall₂_cons_left_iff.1 shows
  obtain ⟨third, rest, hthird, hnil, rfl⟩ := List.forall₂_cons_left_iff.1 hrest
  obtain rfl := List.forall₂_nil_left_iff.1 hnil
  have early : LinkedBy { limit := 2, correlation := ofIntervals [] 5 true } [] ops[0]
      (alertAt "second" "net" 12 0) (alertAt "first" "cpu" 10 0) :=
    ⟨by decide, .tail _ (.head _), .head _, ⟨rfl, rfl⟩, by decide, fun _ => by decide, 9,
      ⟨_, 5, rfl, by decide +kernel, by decide +kernel⟩, ⟨_, 5, rfl, by decide +kernel, by decide +kernel⟩⟩
  have late : LinkedBy { limit := 2, correlation := ofIntervals [] 5 true } [ops[0], ops[1]] ops[2]
      (alertAt "second" "net" 12 0) (alertAt "third" "disk" 50 0) :=
    ⟨by decide, .head _, .tail _ (.head _), ⟨rfl, rfl⟩, by decide, fun _ => by decide, 9,
      ⟨_, 5, rfl, by decide +kernel, by decide +kernel⟩, ⟨_, 90, rfl, by decide +kernel, by decide +kernel⟩⟩
  refine ⟨nonneg, _, start, sound, h, second, third, hrun, halerts, ?_, ?_, ?_⟩
  · exact (hsecond.links _).2 (.inr ⟨_, ⟨_, _, ⟨[ops[1], ops[2]], rfl⟩, early⟩, rfl⟩)
  · exact (hsecond.links _).2 (.inr ⟨_, ⟨_, _, ⟨[], rfl⟩, late⟩, rfl⟩)
  · intro hid
    rcases (hthird.links _).1 hid with hid | ⟨y, hl, hy⟩
    · cases hid
    have parts : LinkedDuring _ ([ops[0], ops[1]] ++ [ops[2]]) _ y := hl
    rcases linkedDuring_concat.1 parts with hl | hl
    · have among := List.mem_map_of_mem (f := Alert.id) hl.mem_appended.1
      exact absurd among (by decide)
    · have among := List.mem_map_of_mem (f := Alert.id) hl.right
      rw [hy] at among
      exact absurd among (by decide)

end History

end HostWatch
