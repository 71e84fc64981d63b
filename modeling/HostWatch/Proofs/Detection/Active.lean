import HostWatch.Proofs.Detection.Duplicates
import HostWatch.Proofs.Detection.Filling
import HostWatch.Proofs.Detection.Typed

/-!
# Only active rules count

On a snapshot a rule is active if it has an evaluation that does not fail there and is concerned with the
source. Every other rule leaves no more than a notice (`Detector.consult_of_not_active`): it finds nothing,
uses up no id and reaches neither deduper nor limiter. So detection by the active rules alone, chosen anew at
each snapshot, is detection by all rules, over any number of snapshots (`Detector.watch_active`).
-/

namespace HostWatch

namespace Rule

/-- A rule is concerned with one source, whose name may be written in any case, or with all if it names none.
A source without a name concerns all rules. -/
def concerns (r : Rule) (capturer : String) : Bool :=
  r.source.isEmpty || capturer == "" || Text.lower r.source.toText == Text.lower capturer

def succeeds (r : Rule) (s : Snapshot) : Bool :=
  match r.evaluate with
  | some evaluate => (evaluate s).isOk
  | none => false

def isActive (s : Snapshot) (capturer : String) (r : Rule) : Bool := r.concerns capturer && r.succeeds s

/-- A source is a name, or there is none. -/
def IsSourced (r : Rule) : Prop := r.source.isEmpty ∨ r.source.IsText

/-- All alerts that a rule raises come with metadata, however much of it is open. -/
def RaisesDescribed (r : Rule) : Prop :=
  ∀ evaluate, r.evaluate = some evaluate → ∀ s raw, evaluate s = .ok raw → ∀ a ∈ raw, a.metadata.isSome

/-- What the evaluation of a rule gives on the snapshot, whatever the source. -/
def outputs (s : Snapshot) (r : Rule) : List (Rule × Alert) :=
  match r.evaluate with
  | none => []
  | some evaluate => ((evaluate s).toOption.getD []).map (r, ·)

variable {r : Rule} {s : Snapshot} {capturer : String}

theorem appliesTo_of_isSourced (h : r.IsSourced) (capturer : String) :
    r.appliesTo capturer = .ok (r.concerns capturer) := by
  unfold appliesTo concerns
  rcases hopen : r.source.isEmpty || capturer == "" with _ | _
  · obtain ⟨source, hsource⟩ : r.source.IsText := h.resolve_left (by simp_all)
    rw [hsource]
    rfl
  · rfl

theorem isActive_iff : r.isActive s capturer ↔
    r.concerns capturer ∧ ∃ evaluate raw, r.evaluate = some evaluate ∧ evaluate s = .ok raw := by
  unfold isActive succeeds
  rw [Bool.and_eq_true]
  refine and_congr_right fun _ => ?_
  rcases r.evaluate with _ | evaluate
  · simp
  · rcases he : evaluate s with _ | raw
    · simp [he, Except.isOk, Except.toBool]
    · simp [he, Except.isOk, Except.toBool]

theorem fails_of_not_isActive {evaluate : Evaluation} (hev : r.evaluate = some evaluate)
    (hc : r.concerns capturer) (hr : ¬ r.isActive s capturer) : ∃ f, evaluate s = .error f := by
  rcases he : evaluate s with f | raw
  · exact ⟨f, rfl⟩
  · exact absurd (isActive_iff.2 ⟨hc, evaluate, raw, hev, he⟩) hr

theorem raises_eq (h : r.IsSourced) : r.raises s capturer = if r.isActive s capturer then r.outputs s else [] := by
  unfold raises outputs
  rw [appliesTo_of_isSourced h]
  by_cases hr : r.isActive s capturer
  · obtain ⟨hc, evaluate, raw, hev, he⟩ := isActive_iff.1 hr
    rw [if_pos hr, hev, hc]
    simp only [he]
    rfl
  · rw [if_neg hr]
    rcases hev : r.evaluate with _ | evaluate
    · rfl
    · rcases hc : r.concerns capturer with _ | _
      · rfl
      · obtain ⟨f, he⟩ := fails_of_not_isActive hev hc hr
        simp only [he]

end Rule

namespace Detector

structure Look (τ : Type) where
  clock : τ
  now : Timestamp
  snapshot : Snapshot
  metadata : Metadata
  includeLimited : Bool

def activeAt {τ : Type} (rules : List Rule) (l : Look τ) : List Rule :=
  rules.filter (Rule.isActive l.snapshot l.metadata.capturer)

/-- Two looks have found the same. They may differ in the rules that failed. -/
structure Findings.Same (f g : Findings) : Prop where
  alerts : f.alerts = g.alerts
  ids : f.ids = g.ids
  fault : f.fault = g.fault

section Rules
variable {τ : Type}

def withRules (d : Detector τ) (rules : List Rule) : Detector τ := { d with rules }

theorem withRules_rules (d : Detector τ) (rules : List Rule) : (d.withRules rules).rules = rules := rfl

theorem withRules_ids (d : Detector τ) (rules : List Rule) : (d.withRules rules).ids = d.ids := rfl

theorem withRules_withRules (d : Detector τ) (rules rules' : List Rule) :
    (d.withRules rules).withRules rules' = d.withRules rules' := rfl

end Rules

/-! ### One snapshot -/

section Gather
variable {s : Snapshot} {metadata : Metadata} {now : Timestamp} {f g : Findings} {rule : Rule} {rules : List Rule}

theorem Findings.Same.refl (f : Findings) : f.Same f := ⟨rfl, rfl, rfl⟩

theorem Findings.Same.symm (h : f.Same g) : g.Same f := ⟨h.alerts.symm, h.ids.symm, h.fault.symm⟩

theorem Findings.Same.trans {k : Findings} (h : f.Same g) (h' : g.Same k) : f.Same k :=
  ⟨h.alerts.trans h'.alerts, h.ids.trans h'.ids, h.fault.trans h'.fault⟩

theorem Findings.Same.add (h : f.Same g) (rule : Rule) (raw : List Alert) :
    (f.add rule metadata now raw).Same (g.add rule metadata now raw) := by
  unfold Findings.add
  rw [h.ids, h.alerts]
  split
  · exact ⟨rfl, rfl, rfl⟩
  · exact ⟨rfl, rfl, h.fault⟩

theorem Findings.Same.consult (h : f.Same g) (rule : Rule) :
    (consult s metadata now f rule).Same (consult s metadata now g rule) := by
  have fault := h.fault
  unfold Detector.consult
  rw [fault]
  split
  · exact h
  · exact h
  · split
    · exact ⟨h.alerts, h.ids, rfl⟩
    · exact h
    · split
      · exact ⟨h.alerts, h.ids, rfl⟩
      · exact h.add _ _

/-- A rule that is not active leaves no more than a notice. -/
theorem consult_of_not_active (h : rule.IsSourced) (hr : ¬ rule.isActive s metadata.capturer) (f : Findings) :
    (consult s metadata now f rule).Same f := by
  unfold consult
  rw [Rule.appliesTo_of_isSourced h]
  split
  · exact .refl f
  · exact .refl f
  · rename_i evaluate _ hev
    rcases hc : rule.concerns metadata.capturer with _ | _
    · exact .refl f
    · obtain ⟨fault, he⟩ := Rule.fails_of_not_isActive hev hc hr
      simp only [he]
      exact ⟨rfl, rfl, rfl⟩

theorem consult_of_active (h : rule.IsSourced) (hf : f.fault = none) {evaluate : Evaluation} {raw : List Alert}
    (hc : rule.concerns metadata.capturer) (hev : rule.evaluate = some evaluate) (he : evaluate s = .ok raw) :
    consult s metadata now f rule = f.add rule metadata now raw := by
  unfold consult
  rw [hf, Rule.appliesTo_of_isSourced h, hev, hc]
  simp only [he]

theorem foldl_consult_active (sources : ∀ r ∈ rules, r.IsSourced) (h : f.Same g) :
    ((rules.filter (Rule.isActive s metadata.capturer)).foldl (consult s metadata now) f).Same
      (rules.foldl (consult s metadata now) g) := by
  induction rules generalizing f g with
  | nil => exact h
  | cons rule rest ih =>
    obtain ⟨source, sources⟩ := List.forall_mem_cons.1 sources
    rw [List.filter_cons, List.foldl_cons]
    split
    · exact ih sources (h.consult rule)
    · rename_i hr
      exact ih sources (h.trans (consult_of_not_active source hr g).symm)

theorem gather_active (sources : ∀ r ∈ rules, r.IsSourced) (s : Snapshot) (metadata : Metadata) (now : Timestamp)
    (ids : Ids) :
    (gather (rules.filter (Rule.isActive s metadata.capturer)) s metadata now ids).Same
      (gather rules s metadata now ids) :=
  foldl_consult_active sources (.refl _)

theorem flatMap_raises (sources : ∀ r ∈ rules, r.IsSourced) (capturer : String) :
    rules.flatMap (Rule.raises s capturer) = (rules.filter (Rule.isActive s capturer)).flatMap (Rule.outputs s) := by
  induction rules with
  | nil => rfl
  | cons rule rest ih =>
    obtain ⟨source, sources⟩ := List.forall_mem_cons.1 sources
    rw [List.flatMap_cons, List.filter_cons, ih sources, Rule.raises_eq source]
    split
    · rw [List.flatMap_cons]
    · rw [List.nil_append]

/-! ### Looks that do not end early -/

theorem enrichAll_described {raw : List Alert} (h : ∀ a ∈ raw, a.metadata.isSome) (rule : Rule)
    (metadata : Metadata) (now : Timestamp) (ids : Ids) :
    ∃ batch, (enrichAll rule metadata now ids raw).1 = .ok batch := by
  induction raw generalizing ids with
  | nil => exact ⟨[], rfl⟩
  | cons a rest ih =>
    obtain ⟨one, h⟩ := List.forall_mem_cons.1 h
    obtain ⟨b, hb⟩ := Alert.exists_enrich one (show (some metadata).isSome from rfl) rule now ids
    unfold enrichAll
    split
    · rename_i heq
      rw [heq] at hb
      cases hb
    · rename_i ids' heq
      obtain ⟨batch, hbatch⟩ := ih h ids'
      simp only [hbatch]
      exact ⟨_, rfl⟩

theorem add_described {raw : List Alert} (h : ∀ a ∈ raw, a.metadata.isSome) (hf : f.fault = none) :
    (f.add rule metadata now raw).fault = none := by
  obtain ⟨batch, hbatch⟩ := enrichAll_described h rule metadata now f.ids
  unfold Findings.add
  split
  · rename_i heq
    rw [heq] at hbatch
    cases hbatch
  · exact hf

theorem consult_described (h : rule.IsSourced) (described : rule.RaisesDescribed) (hf : f.fault = none) :
    (consult s metadata now f rule).fault = none := by
  by_cases hr : rule.isActive s metadata.capturer
  · obtain ⟨hc, evaluate, raw, hev, he⟩ := Rule.isActive_iff.1 hr
    rw [consult_of_active h hf hc hev he]
    exact add_described (described evaluate hev s raw he) hf
  · rw [(consult_of_not_active h hr f).fault, hf]

theorem gather_described (sources : ∀ r ∈ rules, r.IsSourced) (described : ∀ r ∈ rules, r.RaisesDescribed)
    (s : Snapshot) (metadata : Metadata) (now : Timestamp) (ids : Ids) :
    (gather rules s metadata now ids).fault = none := by
  have all (f : Findings) (hf : f.fault = none) : (rules.foldl (consult s metadata now) f).fault = none := by
    induction rules generalizing f with
    | nil => exact hf
    | cons rule rest ih =>
      obtain ⟨source, sources⟩ := List.forall_mem_cons.1 sources
      obtain ⟨one, described⟩ := List.forall_mem_cons.1 described
      exact ih sources described _ (consult_described source one hf)
  exact all _ rfl

end Gather

section AnyClock
variable {τ : Type} [Clock τ] [LT τ] [LE τ] [DecidableLT τ] [DecidableLE τ] [OfNat τ 0]

def look (d : Detector τ) (l : Look τ) : Except Fault (List Alert) × Detector τ :=
  ((d.evaluate l.clock l.now l.snapshot l.metadata l.includeLimited).alerts,
    (d.evaluate l.clock l.now l.snapshot l.metadata l.includeLimited).detector)

/-- What comes of what the rules find on a look. -/
def settle (d : Detector τ) (l : Look τ) (found : Findings) : Except Fault (List Alert) × Detector τ :=
  match found.fault with
  | some f => (.error f, { d with ids := found.ids })
  | none =>
    let sieved := { d with ids := found.ids }.sieve ⟨l.clock, l.clock, found.alerts⟩
    (sieved.1.returned l.includeLimited, sieved.2)

/-- One look after the other, at any snapshots. A look that ends early does not end the watch. -/
def watch (d : Detector τ) : List (Look τ) → List (Except Fault (List Alert)) × Detector τ
  | [] => ([], d)
  | l :: rest =>
    let (one, d) := d.look l
    let (more, d) := d.watch rest
    (one :: more, d)

/-- The same, where each look is by the active rules only. -/
def watchActive (d : Detector τ) : List (Look τ) → List (Except Fault (List Alert)) × Detector τ
  | [] => ([], d)
  | l :: rest =>
    let (one, seen) := (d.withRules (activeAt d.rules l)).look l
    let (more, after) := (seen.withRules d.rules).watchActive rest
    (one :: more, after)

/-- A look sends a batch through deduper and limiter: what the evaluations of the rules give on the snapshot,
enriched one after the other. -/
def Batched (d : Detector τ) (l : Look τ) (rules : List Rule) : Prop :=
  ∃ batch ids, Enriched l.metadata l.now d.ids (rules.flatMap (Rule.outputs l.snapshot)) batch ids ∧
    let sieved := { d with ids }.sieve ⟨l.clock, l.clock, batch⟩
    d.look l = (sieved.1.returned l.includeLimited, sieved.2)

/-- A look ends before there is a batch. No more than ids are used up. -/
def EndsEarly (d : Detector τ) (l : Look τ) : Prop := ∃ f ids, d.look l = (.error f, { d with ids })

variable {d : Detector τ} {l : Look τ} {rules : List Rule} {looks : List (Look τ)}

/-! ### One look -/

theorem dedupe_withRules (d : Detector τ) (rules : List Rule) (clock : τ) (alerts : List Alert) :
    (d.withRules rules).dedupe clock alerts =
      ((d.dedupe clock alerts).1, (d.dedupe clock alerts).2.withRules rules) := by
  unfold dedupe withRules
  rcases hd : d.deduper with _ | deduper
  · simp only [hd]
  · simp only

omit [LT τ] [DecidableLT τ] in
theorem limit_withRules (d : Detector τ) (rules : List Rule) (clock : τ) (alerts : List Alert) :
    (d.withRules rules).limit clock alerts =
      ((d.limit clock alerts).1, (d.limit clock alerts).2.withRules rules) := by
  unfold limit withRules
  rcases hl : d.limiter with _ | limiter
  · simp only [hl]
  · simp only

/-- Deduper and limiter do not see the rules. -/
theorem sieve_withRules (d : Detector τ) (rules : List Rule) (i : Intake τ) :
    (d.withRules rules).sieve i = ((d.sieve i).1, (d.sieve i).2.withRules rules) := by
  unfold sieve
  rw [dedupe_withRules]
  rcases d.dedupe i.dedupedAt i.alerts with ⟨_ | unique, d'⟩
  · rfl
  · simp only [limit_withRules]
    rfl

theorem look_eq (d : Detector τ) (l : Look τ) :
    d.look l = d.settle l (gather d.rules l.snapshot l.metadata l.now d.ids) := by
  unfold look settle
  rcases hf : (gather d.rules l.snapshot l.metadata l.now d.ids).fault with _ | f
  · exact Prod.ext (evaluate_of_gather rfl hf l.includeLimited).1 (evaluate_of_gather rfl hf l.includeLimited).2
  · simp only [evaluate, hf]

theorem look_of_fault {f : Fault} (fault : (gather d.rules l.snapshot l.metadata l.now d.ids).fault = some f) :
    d.look l = (.error f, { d with ids := (gather d.rules l.snapshot l.metadata l.now d.ids).ids }) := by
  rw [look_eq]
  unfold settle
  rw [fault]

theorem look_of_no_fault (ok : (gather d.rules l.snapshot l.metadata l.now d.ids).fault = none) :
    let found := gather d.rules l.snapshot l.metadata l.now d.ids
    let sieved := { d with ids := found.ids }.sieve ⟨l.clock, l.clock, found.alerts⟩
    d.look l = (sieved.1.returned l.includeLimited, sieved.2) := by
  rw [look_eq]
  unfold settle
  rw [ok]

theorem settle_same {f g : Findings} (same : f.Same g) (d : Detector τ) (l : Look τ) :
    d.settle l f = d.settle l g := by
  unfold settle
  rw [same.fault, same.ids, same.alerts]

theorem settle_withRules (d : Detector τ) (rules : List Rule) (l : Look τ) (found : Findings) :
    (d.withRules rules).settle l found = ((d.settle l found).1, (d.settle l found).2.withRules rules) := by
  unfold settle
  split
  · rfl
  · have sieved := sieve_withRules { d with ids := found.ids } rules ⟨l.clock, l.clock, found.alerts⟩
    exact congrArg (fun sieved : Sieved × Detector τ => (sieved.1.returned l.includeLimited, sieved.2)) sieved

theorem look_withRules
    (same : (gather rules l.snapshot l.metadata l.now d.ids).Same
      (gather d.rules l.snapshot l.metadata l.now d.ids)) :
    (d.withRules rules).look l = ((d.look l).1, (d.look l).2.withRules rules) := by
  rw [look_eq, look_eq, settle_withRules, withRules_ids, withRules_rules, settle_same same]

theorem rules_look (d : Detector τ) (l : Look τ) : (d.look l).2.rules = d.rules :=
  -- to give a detector its own rules changes nothing
  congrArg (fun seen => seen.2.rules) (show (d.withRules d.rules).look l = _ from look_withRules (.refl _))

theorem batched_of_gather (sources : ∀ r ∈ d.rules, r.IsSourced)
    (ok : (gather d.rules l.snapshot l.metadata l.now d.ids).fault = none) : d.Batched l (activeAt d.rules l) := by
  have enriched := gather_enriched ok
  rw [flatMap_raises sources] at enriched
  exact ⟨_, _, enriched, look_of_no_fault ok⟩

theorem batched_or_endsEarly (sources : ∀ r ∈ d.rules, r.IsSourced) (l : Look τ) :
    d.Batched l (activeAt d.rules l) ∨ d.EndsEarly l := by
  rcases hf : (gather d.rules l.snapshot l.metadata l.now d.ids).fault with _ | f
  · exact .inl (batched_of_gather sources hf)
  · exact .inr ⟨f, _, look_of_fault hf⟩

/-! ### Many looks -/

theorem watch_cons (d : Detector τ) (l : Look τ) (rest : List (Look τ)) : d.watch (l :: rest) =
    ((d.look l).1 :: ((d.look l).2.watch rest).1, ((d.look l).2.watch rest).2) := rfl

theorem watchActive_cons (d : Detector τ) (l : Look τ) (rest : List (Look τ)) : d.watchActive (l :: rest) =
    let seen := (d.withRules (activeAt d.rules l)).look l
    (seen.1 :: ((seen.2.withRules d.rules).watchActive rest).1,
      ((seen.2.withRules d.rules).watchActive rest).2) := rfl

theorem watch_withRules
    (same : ∀ l ∈ looks, ∀ ids, (gather rules l.snapshot l.metadata l.now ids).Same
      (gather d.rules l.snapshot l.metadata l.now ids)) :
    (d.withRules rules).watch looks = ((d.watch looks).1, (d.watch looks).2.withRules rules) := by
  induction looks generalizing d with
  | nil => rfl
  | cons l rest ih =>
    obtain ⟨one, same⟩ := List.forall_mem_cons.1 same
    have later := ih (d := (d.look l).2) (by rwa [rules_look])
    rw [watch_cons, watch_cons, look_withRules (one d.ids), later]

theorem rules_watch (d : Detector τ) (looks : List (Look τ)) : (d.watch looks).2.rules = d.rules :=
  congrArg (fun seen => seen.2.rules)
    (show (d.withRules d.rules).watch looks = _ from watch_withRules fun _ _ _ => .refl _)

theorem watchActive_eq (sources : ∀ r ∈ d.rules, r.IsSourced) (looks : List (Look τ)) :
    d.watchActive looks = d.watch looks := by
  induction looks generalizing d with
  | nil => rfl
  | cons l rest ih =>
    have one := look_withRules (d := d) (l := l) (gather_active sources _ _ _ d.ids)
    have kept : (d.look l).2.withRules d.rules = (d.look l).2 := by
      rw [← rules_look d l]
      rfl
    have later := ih (d := (d.look l).2) (by rwa [rules_look])
    rw [watchActive_cons, watch_cons, ← later]
    unfold activeAt
    simp only [one, withRules_withRules, kept]

/-- Over any snapshots, the active rules of each one alone do what all rules do: the same alerts, ids and flags
come out, and deduper, limiter and ids end up the same. So any other rules do the same of which the same ones are
active. At each look the batch for the deduper is what the active rules give, in their order and enriched, if there
is one, and there is one if all alerts come with metadata. -/
theorem watch_active (d : Detector τ) (sources : ∀ r ∈ d.rules, r.IsSourced) (looks : List (Look τ)) :
    d.watchActive looks = d.watch looks ∧
    (∀ rules : List Rule, (∀ r ∈ rules, r.IsSourced) → (∀ l ∈ looks, activeAt rules l = activeAt d.rules l) →
      (d.withRules rules).watch looks = ((d.watch looks).1, (d.watch looks).2.withRules rules)) ∧
    (∀ l, (d.watch looks).2.Batched l (activeAt d.rules l) ∨ (d.watch looks).2.EndsEarly l) ∧
    ((∀ r ∈ d.rules, r.RaisesDescribed) → ∀ l, (d.watch looks).2.Batched l (activeAt d.rules l)) := by
  refine ⟨watchActive_eq sources looks, fun rules others same => ?_, fun l => ?_, fun described l => ?_⟩
  · refine watch_withRules fun l hl ids => ?_
    have active := gather_active others l.snapshot l.metadata l.now ids
    rw [show rules.filter _ = d.rules.filter _ from same l hl] at active
    exact active.symm.trans (gather_active sources _ _ _ ids)
  · rw [← rules_watch d looks] at sources ⊢
    exact batched_or_endsEarly sources l
  · rw [← rules_watch d looks] at sources described ⊢
    exact batched_of_gather sources (gather_described sources described _ _ _ _)

end AnyClock

/-- A rule that fails on the first snapshot only, before a rule of another source, one that never fails and one
without evaluation. -/
theorem watch_active_flaky :
    let flaky : Rule := {
      id := .text "flaky", source := .text "Disk"
      evaluate := some (fun s => if s.summary = "" then .error .integerTooLarge else .ok [{}]) }
    let foreign : Rule := { id := .text "foreign", source := .text "net", evaluate := some (fun _ => .ok [{}]) }
    let steady : Rule := { id := .text "steady", evaluate := some (fun _ => .ok [{}]) }
    let idle : Rule := { id := .text "idle" }
    let d : Detector Int := { strict with rules := [flaky, foreign, steady, idle] }
    let disk : Metadata := { capturer := "disk" }
    let looks : List (Look Int) :=
      [⟨0, .ofMicros 0, {}, disk, true⟩, ⟨1, .ofMicros 1, { summary := "full" }, disk, true⟩]
    looks.map (fun l => d.rules.map (Rule.isActive l.snapshot l.metadata.capturer)) =
        [[false, false, true, false], [true, false, true, false]] ∧
      d.watchActive looks = d.watch looks ∧
      (d.withRules [flaky, steady]).watch looks =
        ((d.watch looks).1, (d.watch looks).2.withRules [flaky, steady]) ∧
      ∀ l, (d.watch looks).2.Batched l (activeAt d.rules l) := by
  intro flaky foreign steady idle d disk looks
  have sourced : ∀ r ∈ [flaky, foreign, steady, idle], r.IsSourced := by
    simp only [List.forall_mem_cons]
    exact ⟨.inr ⟨_, rfl⟩, .inr ⟨_, rfl⟩, .inr ⟨_, rfl⟩, .inr ⟨_, rfl⟩, by simp⟩
  have described : ∀ r ∈ [flaky, foreign, steady, idle], r.RaisesDescribed := by
    intro r hr evaluate hev s raw he
    have raised : raw = [{}] := by
      simp only [List.mem_cons, List.not_mem_nil, or_false] at hr
      rcases hr with rfl | rfl | rfl | rfl
      · obtain rfl := Option.some.inj hev
        by_cases hs : s.summary = ""
        · simp [hs] at he
        · simpa [hs, eq_comm] using he
      · obtain rfl := Option.some.inj hev
        exact (Except.ok.inj he).symm
      · obtain rfl := Option.some.inj hev
        exact (Except.ok.inj he).symm
      · cases hev
    simp [raised]
  obtain ⟨active, others, -, batched⟩ := watch_active d sourced looks
  have silent : ∀ l ∈ looks, foreign.isActive l.snapshot l.metadata.capturer = false ∧
      idle.isActive l.snapshot l.metadata.capturer = false := by
    decide
  refine ⟨by decide, active, others _ (fun r hr => sourced r ?_) fun l hl => ?_, batched described⟩
  · simp only [List.mem_cons] at hr ⊢
    tauto
  · obtain ⟨hforeign, hidle⟩ := silent l hl
    simp [activeAt, d, List.filter_cons, hforeign, hidle]

end Detector

end HostWatch
