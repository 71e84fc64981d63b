import HostWatch.Proofs.Detection.Active
import HostWatch.Proofs.Text.Cut

/-!
# Ids are not used twice

An id that is made by default ends in its number, and a number has no dash. So the number can be read off the
id, whatever the rule is called and whatever the clock says (`Ids.default_apart`). Numbers are given out in
turn, also where an id is lost with the alert that it was for (`Ids.Draws`), so no id comes up twice, neither
among the ids that are asked for one by one nor among the alerts of any detectors that share them
(`Ids.default_unrepeated`).
-/

namespace HostWatch

namespace Ids

/-- The number can be told from the name. -/
def Apart (ids : Ids) : Prop := ∀ {m n : Nat} {r r' : String}, ids.name m r = ids.name n r' → m = n

/-- Ids for alerts of the given rules. -/
def issue (ids : Ids) : List String → List String × Ids
  | [] => ([], ids)
  | r :: rest =>
    let (id, ids) := ids.next r
    let (more, ids) := ids.issue rest
    (id :: more, ids)

/-- Ids are drawn one after the other. Some of them are lost. -/
inductive Draws : Ids → List String → Ids → Prop
  | nil {ids : Ids} : Draws ids [] ids
  | drawn {ids ids' : Ids} {ds : List String} (r : String) (later : Draws (ids.next r).2 ds ids') :
      Draws ids ((ids.next r).1 :: ds) ids'
  | lost {ids ids' : Ids} {ds : List String} (r : String) (later : Draws (ids.next r).2 ds ids') :
      Draws ids ds ids'

variable {ids ids' ids'' : Ids} {ds ds' : List String}

theorem default_apart (clock : Nat → Int) (issued : Nat) : Apart { Ids.default clock with issued } := by
  intro m n r r' same
  have chars : (r ++ "-" ++ toString (clock m)).toList ++ '-' :: Nat.toDigits 10 m =
      (r' ++ "-" ++ toString (clock n)).toList ++ '-' :: Nat.toDigits 10 n := by
    simpa [default] using congrArg String.toList same
  have noDash (k : Nat) : '-' ∉ Nat.toDigits 10 k := fun dash =>
    absurd (Nat.isDigit_of_mem_toDigits (by decide) (by decide) dash) (by decide)
  obtain ⟨-, digits⟩ := cut_last (noDash m) (noDash n) chars
  rw [← Nat.ofDigitChars_ten_toDigits (n := m), digits, Nat.ofDigitChars_ten_toDigits]

/-! ### Drawing -/

theorem Draws.append (h : Draws ids ds ids') (h' : Draws ids' ds' ids'') : Draws ids (ds ++ ds') ids'' := by
  induction h with
  | nil => exact h'
  | drawn r _ ih => exact .drawn r (ih h')
  | lost r _ ih => exact .lost r (ih h')

theorem Draws.lose (h : Draws ids ds ids') : Draws ids [] ids' := by
  induction h with
  | nil => exact .nil
  | drawn r _ ih => exact .lost r ih
  | lost r _ ih => exact .lost r ih

theorem Draws.numbered (h : Draws ids ds ids') : ∀ d ∈ ds, ∃ n r, ids.issued < n ∧ d = ids.name n r := by
  induction h with
  | nil => simp
  | drawn r _ ih =>
    rw [List.forall_mem_cons]
    refine ⟨⟨_, r, Nat.lt_succ_self _, rfl⟩, fun d hd => ?_⟩
    obtain ⟨n, r', later, rfl⟩ := ih d hd
    exact ⟨n, r', Nat.lt_of_succ_lt later, rfl⟩
  | lost r _ ih =>
    intro d hd
    obtain ⟨n, r', later, rfl⟩ := ih d hd
    exact ⟨n, r', Nat.lt_of_succ_lt later, rfl⟩

theorem Draws.nodup (h : Draws ids ds ids') (apart : ids.Apart) : ds.Nodup := by
  induction h with
  | nil => exact .nil
  | @drawn ids ids' ds r later ih =>
    refine List.nodup_cons.2 ⟨fun again => ?_, ih apart⟩
    obtain ⟨n, r', beyond, same⟩ := later.numbered _ again
    exact absurd (apart same) (Nat.ne_of_lt beyond)
  | lost r _ ih => exact ih apart

theorem draws_issue (ids : Ids) (rules : List String) : Draws ids (ids.issue rules).1 (ids.issue rules).2 := by
  induction rules generalizing ids with
  | nil => exact .nil
  | cons r rest ih => exact .drawn r (ih _)

end Ids

/-- A rule never names the alerts that it raises. -/
def Rule.LeavesIdsOpen (r : Rule) : Prop :=
  ∀ evaluate, r.evaluate = some evaluate → ∀ s raw, evaluate s = .ok raw → ∀ a ∈ raw, a.id = ""

namespace Detector

/-- The ids of the alerts that came without one, given with what enrichment made of them. -/
def newIds (found : List ((Rule × Alert) × Alert)) : List String :=
  ((found.filter fun e => e.1.2.id = "").map Prod.snd).map Alert.id

/-! ### One look -/

section Batch
variable {rule : Rule} {metadata : Metadata} {now : Timestamp} {ids ids' : Ids} {s : Snapshot} {a b : Alert}
  {raised : List (Rule × Alert)} {batch : List Alert}

theorem identify_draws (rule : Rule) (ids : Ids) (a : Alert) :
    ids.Draws (if a.id = "" then [(a.identify rule ids).1.id] else []) (a.identify rule ids).2 := by
  unfold Alert.identify
  by_cases nameless : a.id = ""
  · simp only [nameless, if_true]
    exact .drawn _ .nil
  · simp only [nameless, if_false]
    exact .nil

theorem enrich_draws (one : a.enrich rule (some metadata) now ids = (.ok b, ids')) :
    ids.Draws (if a.id = "" then [b.id] else []) ids' := by
  have draws := identify_draws rule ids a
  unfold Alert.enrich at one
  generalize a.identify rule ids = identity at one draws
  obtain ⟨named, ids₁⟩ := identity
  obtain ⟨completed, rfl⟩ := Prod.mk.inj one
  obtain ⟨t, -, completed⟩ := ok_of_bind completed
  obtain ⟨m, -, completed⟩ := ok_of_bind completed
  obtain rfl := Except.ok.inj completed
  exact draws

theorem Enriched.draws (h : Enriched metadata now ids raised batch ids') :
    ids.Draws (newIds (raised.zip batch)) ids' := by
  induction h with
  | nil => exact .nil
  | @cons ids _ _ rule a b raised batch one _ ih =>
    have split : newIds (((rule, a) :: raised).zip (b :: batch)) =
        (if a.id = "" then [b.id] else []) ++ newIds (raised.zip batch) := by
      by_cases nameless : a.id = "" <;> simp [newIds, nameless]
    rw [split]
    exact (enrich_draws one).append ih

theorem Enriched.length_eq (h : Enriched metadata now ids raised batch ids') : raised.length = batch.length := by
  induction h with
  | nil => rfl
  | cons _ _ ih => simpa using ih

theorem enrichAll_draws (rule : Rule) (metadata : Metadata) (now : Timestamp) (ids : Ids) (raw : List Alert) :
    ids.Draws [] (enrichAll rule metadata now ids raw).2 := by
  induction raw generalizing ids with
  | nil => exact .nil
  | cons a rest ih =>
    have first : ids.Draws [] (a.enrich rule (some metadata) now ids).2 := (identify_draws rule ids a).lose
    unfold enrichAll
    generalize a.enrich rule (some metadata) now ids = enriched at first
    rcases enriched with ⟨f | b, ids₁⟩
    · exact first
    · exact first.append (ih ids₁)

theorem consult_draws (f : Findings) (rule : Rule) : f.ids.Draws [] (consult s metadata now f rule).ids := by
  unfold consult
  split
  · exact .nil
  · exact .nil
  · split
    · exact .nil
    · exact .nil
    · split
      · exact .nil
      · rename_i raw _
        have draws := enrichAll_draws rule metadata now f.ids raw
        unfold Findings.add
        generalize enrichAll rule metadata now f.ids raw = enriched at draws
        rcases enriched with ⟨_ | _, _⟩ <;> exact draws

/-- Ids may be lost with a look that ends early, but they are not given back. -/
theorem gather_draws (rules : List Rule) (s : Snapshot) (metadata : Metadata) (now : Timestamp) (ids : Ids) :
    ids.Draws [] (gather rules s metadata now ids).ids := by
  have all (f : Findings) : f.ids.Draws [] (rules.foldl (consult s metadata now) f).ids := by
    induction rules generalizing f with
    | nil => exact .nil
    | cons rule rest ih => exact (consult_draws f rule).append (ih _)
  exact all { ids }

theorem raises_leavesIdsOpen {capturer : String} (leaves : rule.LeavesIdsOpen) :
    ∀ e ∈ rule.raises s capturer, e.2.id = "" := by
  intro e he
  obtain ⟨-, evaluate, raw, hev, hraw, ha⟩ := Rule.of_mem_raises he
  exact leaves evaluate hev s raw hraw e.2 ha

end Batch

section AnyClock
variable {τ : Type} [Clock τ] [LT τ] [LE τ] [DecidableLT τ] [DecidableLE τ] [OfNat τ 0]

/-- Detectors look one after the other, and what one leaves of the ids the next one has. -/
inductive Shares : Ids → List (Detector τ × Look τ) → Prop
  | nil {ids : Ids} : Shares ids []
  | cons {d : Detector τ} {l : Look τ} {rest : List (Detector τ × Look τ)} (later : Shares (d.look l).2.ids rest) :
      Shares d.ids ((d, l) :: rest)

/-- The alerts that the rules raise on a look, each with what enrichment makes of it. All that is returned is among
them. A look may also return nothing. -/
def Finds (e : Detector τ × Look τ) (found : List ((Rule × Alert) × Alert)) : Prop :=
  ∀ alerts, (e.1.look e.2).1 = .ok alerts →
    found.map Prod.fst = e.1.rules.flatMap (Rule.raises e.2.snapshot e.2.metadata.capturer) ∧
    (∃ ids, Enriched e.2.metadata e.2.now e.1.ids (found.map Prod.fst) (found.map Prod.snd) ids) ∧
    (alerts.map Alert.id).Sublist ((found.map Prod.snd).map Alert.id)

/-- What is returned by looks one after the other. -/
def returned (results : List (Except Fault (List Alert))) : List Alert :=
  results.flatMap fun result => result.toOption.getD []

variable (τ) in
/-- No id is given out twice. -/
structure Unrepeated (ids : Ids) : Prop where
  /-- If ids are asked for one by one. -/
  issued : ∀ rules, (ids.issue rules).1.Nodup
  /-- To alerts that come without an id, whichever detectors share the ids and whatever else they find. -/
  found : ∀ looks : List (Detector τ × Look τ), Shares ids looks →
    ∃ founds, List.Forall₂ Finds looks founds ∧ (founds.flatMap newIds).Nodup
  /-- If no rule names its alerts, in all that these detectors return. -/
  returned : ∀ looks : List (Detector τ × Look τ), Shares ids looks →
    (∀ e ∈ looks, ∀ r ∈ e.1.rules, r.LeavesIdsOpen) →
      ((returned (looks.map fun e => (e.1.look e.2).1)).map Alert.id).Nodup
  /-- And so in what a single detector returns over any number of looks. -/
  watched : ∀ d : Detector τ, d.ids = ids → (∀ r ∈ d.rules, r.LeavesIdsOpen) →
    ∀ looks, ((Detector.returned (d.watch looks).1).map Alert.id).Nodup

variable {d : Detector τ} {l : Look τ} {ids : Ids} {looks : List (Detector τ × Look τ)}
  {founds : List (List ((Rule × Alert) × Alert))}

theorem dedupe_ids (d : Detector τ) (clock : τ) (alerts : List Alert) : (d.dedupe clock alerts).2.ids = d.ids := by
  unfold dedupe
  split <;> rfl

omit [LT τ] [DecidableLT τ] in
theorem limit_ids (d : Detector τ) (clock : τ) (alerts : List Alert) : (d.limit clock alerts).2.ids = d.ids := by
  unfold limit
  split <;> rfl

theorem sieve_ids (d : Detector τ) (i : Intake τ) : (d.sieve i).2.ids = d.ids := by
  have deduped := dedupe_ids d i.dedupedAt i.alerts
  unfold sieve
  generalize d.dedupe i.dedupedAt i.alerts = result at deduped ⊢
  obtain ⟨_ | unique, d₁⟩ := result
  · exact deduped
  · exact (limit_ids d₁ i.limitedAt unique).trans deduped

omit [LT τ] [DecidableLT τ] [Clock τ] [LE τ] [DecidableLE τ] [OfNat τ 0] in
theorem metered_ids {unique : List Alert} {metered : List (Alert × Bool)} (h : List.Forall₂ Metered unique metered) :
    (metered.map Prod.fst).map Alert.id = unique.map Alert.id := by
  induction h with
  | nil => rfl
  | @cons a m _ _ one _ ih =>
    have same : m.1.id = a.id := by
      rw [one]
      split <;> rfl
    simp only [List.map_cons, same, ih]

theorem sieve_returned {i : Intake τ} {includeLimited : Bool} {alerts : List Alert}
    (ok : (d.sieve i).1.returned includeLimited = .ok alerts) :
    (alerts.map Alert.id).Sublist (i.alerts.map Alert.id) := by
  unfold sieve Sieved.returned at ok
  rcases deduped : d.dedupe i.dedupedAt i.alerts with ⟨f | unique, d₁⟩
  · simp [deduped, Except.map] at ok
  · rcases limited : (d₁.limit i.limitedAt unique).1 with f | metered
    · simp [deduped, limited, Except.map] at ok
    · simp only [deduped, limited, Except.map, Except.ok.injEq] at ok
      have kept := (dedupe_sublist (congrArg Prod.fst deduped)).map Alert.id
      rw [← metered_ids (limit_metered limited)] at kept
      refine .trans ?_ kept
      rw [← ok]
      split
      · exact .refl _
      · exact (List.filter_sublist.map _).map _

theorem look_finds (d : Detector τ) (l : Look τ) :
    ∃ found, Finds (d, l) found ∧ d.ids.Draws (newIds found) (d.look l).2.ids := by
  rcases fault : (gather d.rules l.snapshot l.metadata l.now d.ids).fault with _ | f
  · have enriched := gather_enriched fault
    have seen := look_of_no_fault fault
    generalize gather d.rules l.snapshot l.metadata l.now d.ids = found at enriched seen
    have first := List.map_fst_zip (Nat.le_of_eq enriched.length_eq)
    have second := List.map_snd_zip (Nat.le_of_eq enriched.length_eq.symm)
    refine ⟨(d.rules.flatMap (Rule.raises l.snapshot l.metadata.capturer)).zip found.alerts, fun alerts ok => ?_, ?_⟩
    · rw [first, second]
      have result := (congrArg Prod.fst seen).symm.trans ok
      exact ⟨rfl, ⟨_, enriched⟩, sieve_returned result⟩
    · rw [seen, sieve_ids]
      exact enriched.draws
  · have seen := look_of_fault fault
    refine ⟨[], fun alerts ok => ?_, ?_⟩
    · cases (congrArg Prod.fst seen).symm.trans ok
    · rw [seen]
      exact gather_draws _ _ _ _ _

/-! ### Many looks -/

theorem Shares.finds (h : Shares ids looks) :
    ∃ founds, List.Forall₂ Finds looks founds ∧ ∃ ids', ids.Draws (founds.flatMap newIds) ids' := by
  induction h with
  | nil => exact ⟨[], .nil, _, .nil⟩
  | @cons d l rest _ ih =>
    obtain ⟨found, finds, draws⟩ := look_finds d l
    obtain ⟨founds, all, ids', later⟩ := ih
    exact ⟨found :: founds, .cons finds all, ids', draws.append later⟩

theorem newIds_of_leavesIdsOpen {e : Detector τ × Look τ} {found : List ((Rule × Alert) × Alert)} {alerts : List Alert}
    (finds : Finds e found) (leaves : ∀ r ∈ e.1.rules, r.LeavesIdsOpen) (ok : (e.1.look e.2).1 = .ok alerts) :
    (alerts.map Alert.id).Sublist (newIds found) := by
  obtain ⟨raised, -, among⟩ := finds alerts ok
  have nameless : ∀ f ∈ found, f.1.2.id = "" := by
    intro f hf
    have raisedAll := List.mem_map_of_mem (f := Prod.fst) hf
    rw [raised] at raisedAll
    obtain ⟨r, hr, byRule⟩ := List.mem_flatMap.1 raisedAll
    exact raises_leavesIdsOpen (leaves r hr) f.1 byRule
  unfold newIds
  rwa [List.filter_eq_self.2 (by simpa using nameless)]

theorem returned_sublist (leaves : ∀ e ∈ looks, ∀ r ∈ e.1.rules, r.LeavesIdsOpen)
    (finds : List.Forall₂ Finds looks founds) :
    ((returned (looks.map fun e => (e.1.look e.2).1)).map Alert.id).Sublist (founds.flatMap newIds) := by
  induction finds with
  | nil => exact .refl _
  | @cons e found rest founds one _ ih =>
    obtain ⟨first, leaves⟩ := List.forall_mem_cons.1 leaves
    simp only [returned, List.map_cons, List.flatMap_cons, List.map_append]
    refine .append ?_ (ih leaves)
    rcases result : (e.1.look e.2).1 with f | alerts
    · exact List.nil_sublist _
    · exact newIds_of_leavesIdsOpen one first result

/-- A detector shares its ids with itself. -/
theorem exists_shares_watch (d : Detector τ) (looks : List (Look τ)) :
    ∃ along : List (Detector τ × Look τ), Shares d.ids along ∧ (∀ e ∈ along, e.1.rules = d.rules) ∧
      along.map (fun e => (e.1.look e.2).1) = (d.watch looks).1 := by
  induction looks generalizing d with
  | nil => exact ⟨[], .nil, by simp, rfl⟩
  | cons l rest ih =>
    obtain ⟨along, shares, rules, results⟩ := ih (d.look l).2
    refine ⟨(d, l) :: along, .cons shares, List.forall_mem_cons.2 ⟨rfl, ?_⟩, ?_⟩
    · rwa [rules_look] at rules
    · rw [List.map_cons, results, watch_cons]

theorem unrepeated_of_apart (apart : ids.Apart) : Unrepeated τ ids := by
  have shared (looks : List (Detector τ × Look τ)) (h : Shares ids looks) :
      ∃ founds, List.Forall₂ Finds looks founds ∧ (founds.flatMap newIds).Nodup := by
    obtain ⟨founds, finds, ids', draws⟩ := h.finds
    exact ⟨founds, finds, draws.nodup apart⟩
  have together (looks : List (Detector τ × Look τ)) (h : Shares ids looks)
      (leaves : ∀ e ∈ looks, ∀ r ∈ e.1.rules, r.LeavesIdsOpen) :
      ((returned (looks.map fun e => (e.1.look e.2).1)).map Alert.id).Nodup := by
    obtain ⟨founds, finds, nodup⟩ := shared looks h
    exact nodup.sublist (returned_sublist leaves finds)
  refine ⟨fun rules => (ids.draws_issue rules).nodup apart, shared, together, fun d own leaves looks => ?_⟩
  obtain ⟨along, shares, rules, results⟩ := exists_shares_watch d looks
  rw [own] at shares
  rw [← results]
  exact together along shares fun e he => by rwa [rules e he]

end AnyClock
end Detector

namespace Ids
variable {τ : Type} [Clock τ] [LT τ] [LE τ] [DecidableLT τ] [DecidableLE τ] [OfNat τ 0]

/-- Ids that are made by default are not given out twice, whatever the clock says when they are made. -/
theorem default_unrepeated (clock : Nat → Int) (issued : Nat) :
    Detector.Unrepeated τ { Ids.default clock with issued } :=
  Detector.unrepeated_of_apart (default_apart clock issued)

end Ids

namespace Detector

/-- A clock that stands still, and rules that are called like ids of others. -/
theorem default_unrepeated_lookalikes :
    let rule (id : String) : Rule := { id := .text id, evaluate := some fun _ => .ok [{}] }
    let d : Detector Int := { rules := [rule "r", rule "r-7-1", rule ""], ids := .default fun _ => 7 }
    let look : Look Int := ⟨0, .ofMicros 0, {}, {}, true⟩
    let ids := (returned (d.watch [look, look]).1).map Alert.id
    (∀ r ∈ d.rules, r.LeavesIdsOpen) ∧ ids.Nodup ∧
      ids = ["r-7-1", "r-7-1-7-2", "unknown_rule-7-3", "r-7-4", "r-7-1-7-5", "unknown_rule-7-6"] := by
  intro rule d look ids
  have open' (id : String) : (rule id).LeavesIdsOpen := by
    intro evaluate hev s raw he
    obtain rfl := Option.some.inj hev
    obtain rfl := Except.ok.inj he
    simp
  have leaves : ∀ r ∈ d.rules, r.LeavesIdsOpen := by
    simp only [d, List.forall_mem_cons]
    exact ⟨open' _, open' _, open' _, by simp⟩
  exact ⟨leaves, (Ids.default_unrepeated (fun _ => 7) 0).watched d rfl leaves _, by decide⟩

end Detector
end HostWatch
