import HostWatch.Proofs.Detection.Apart
import HostWatch.Proofs.Detection.Duplicates
import HostWatch.Proofs.Detection.Filling
import HostWatch.Proofs.Detection.Typed
import HostWatch.Proofs.Text.Cut

/-!
# Default keys

Where neither an alert nor its rule names a key, the key is the rule, the source and the session with bars
between them. A rule may have bars in its name. If source and session have none, the three can be told from
the key by cutting it at its last two bars (`Alert.defaultKey_eq_iff`).

A deduper holds nothing for a key but what an alert of the key has left when it passed, so whatever it
suppresses comes soon after such an alert (`Deduper.Recalls`). If both keys are defaults the two alerts are of
one rule, one source and one session (`Alert.defaultKey_separationLaw`).
-/

namespace HostWatch

namespace Alert

def session (a : Alert) : String := (a.metadata.map Metadata.session).getD ""

/-- An alert that has been enriched and for which neither it nor its rule named a key. -/
def IsKeyedByDefault (b : Alert) : Prop :=
  ∃ (rule : Rule) (metadata : Option Metadata) (now : Timestamp) (ids : Ids) (a : Alert),
    a.dedupKey = "" ∧ rule.dedupKey = "" ∧ (a.enrich rule metadata now ids).1 = .ok b

/-- Source and session are without bars. -/
structure IsUnbarred (a : Alert) : Prop where
  source : '|' ∉ a.source.display.toList
  session : '|' ∉ a.session.toList

/-- Rule and source are of the declared type. -/
structure IsNamed (a : Alert) : Prop where
  ruleId : a.ruleId.IsText
  source : a.source.IsText

/-- Two alerts are of one rule, one source and one session, as far as can be seen where rules and sources are of any
shape. -/
structure SameOrigin (a b : Alert) : Prop where
  ruleId : a.ruleId.display = b.ruleId.display
  source : a.source.display = b.source.display
  session : a.session = b.session

end Alert

namespace Deduper
variable {τ : Type} [Clock τ] [LT τ] [LE τ] [DecidableLT τ] [DecidableLE τ] [OfNat τ 0]

/-- What a deduper decides on batches that come one after the other, each at its time. -/
def judgedAll (d : Deduper τ) : List (τ × List Alert) → List (τ × Alert × Decision)
  | [] => []
  | (now, alerts) :: rest => (d.judged now alerts).map (now, ·) ++ (d.filter now alerts).2.judgedAll rest

/-- What passes at one time is still suppressed at another. -/
def Holds (window since now : τ) : Prop := ∃ t, Clock.after since window = .ok t ∧ now < t

/-- Before it an alert with the same key has passed, which is still suppressed. -/
def Preceded (window : τ) (before : List (τ × Alert × Decision)) (now : τ) (b : Alert) : Prop :=
  ∃ since a, (since, a, .passes) ∈ before ∧ a.SameKey b ∧ Holds window since now

/-- Whatever is held has been left by an alert that passed, and whatever has been suppressed has been preceded. -/
structure Recalls (window : τ) (m : OrderedMap Key τ) (history : List (τ × Alert × Decision)) : Prop where
  distinct : OrderedMap.Distinct m
  left : ∀ k t, OrderedMap.get? m k = some t →
    ∃ since a, (since, a, .passes) ∈ history ∧ a.hasKey k ∧ Clock.after since window = .ok t
  preceded : ∀ before now b after, history = before ++ (now, b, .suppressed) :: after → Preceded window before now b

end Deduper

/-- What default keys tell apart, and what this means to dedupers over clocks of any kind. -/
structure SeparationLaw (τ : Type) [Clock τ] [LT τ] [LE τ] [DecidableLT τ] [DecidableLE τ] [OfNat τ 0] : Prop where
  keys : ∀ a b : Alert, a.IsKeyedByDefault → b.IsKeyedByDefault → a.IsUnbarred → b.IsUnbarred →
    (a.dedupKey = b.dedupKey ↔ a.SameOrigin b)
  origins : ∀ a b : Alert, a.IsNamed → b.IsNamed →
    (a.SameOrigin b ↔ a.ruleId = b.ruleId ∧ a.source = b.source ∧ a.session = b.session)
  /-- There is a decision on each alert of a batch, and what passes by them is what the deduper returns. -/
  decided : ∀ (d : Deduper τ) (now : τ) (alerts : List Alert), (d.judged now alerts).map Prod.fst = alerts ∧
    ∀ unique, (d.filter now alerts).1 = .ok unique → Decision.Tells (d.judged now alerts) unique
  /-- What is suppressed comes soon after another alert of the same rule, source and session has passed, if not
  after one whose key is no default. -/
  suppressed : ∀ (window : τ) (batches : List (τ × List Alert)) (before after : List (τ × Alert × Decision))
    (now : τ) (b : Alert), Deduper.judgedAll { window } batches = before ++ (now, b, .suppressed) :: after →
      b.IsKeyedByDefault → b.IsUnbarred → ∃ since a, (since, a, .passes) ∈ before ∧ Deduper.Holds window since now ∧
        a.key = b.key ∧ (a.IsKeyedByDefault → a.IsUnbarred → a.SameOrigin b)

/-! ### Keys -/

theorem Value.IsText.eq_of_display {v w : Value} (hv : v.IsText) (hw : w.IsText) (h : v.display = w.display) :
    v = w := by
  obtain ⟨s, rfl⟩ := hv
  obtain ⟨t, rfl⟩ := hw
  exact congrArg Value.text h

namespace Alert
variable {a b : Alert} {r r' s s' t t' : String}

theorem defaultKey_eq_iff (hs : '|' ∉ s.toList) (hs' : '|' ∉ s'.toList) (ht : '|' ∉ t.toList)
    (ht' : '|' ∉ t'.toList) : defaultKey r s t = defaultKey r' s' t' ↔ r = r' ∧ s = s' ∧ t = t' := by
  constructor
  · intro same
    have chars : (r.toList ++ '|' :: s.toList) ++ '|' :: t.toList =
        (r'.toList ++ '|' :: s'.toList) ++ '|' :: t'.toList := by
      simpa [defaultKey] using congrArg String.toList same
    obtain ⟨front, sessions⟩ := cut_last ht ht' chars
    obtain ⟨rules, sources⟩ := cut_last hs hs' front
    exact ⟨String.toList_injective rules, String.toList_injective sources, String.toList_injective sessions⟩
  · rintro ⟨rfl, rfl, rfl⟩
    rfl

theorem IsKeyedByDefault.dedupKey (h : b.IsKeyedByDefault) :
    b.dedupKey = defaultKey b.ruleId.display b.source.display b.session := by
  obtain ⟨rule, metadata, now, ids, a, own, byRule, enriched⟩ := h
  obtain ⟨id, t, m, -, -, -, rfl⟩ := of_enrich enriched
  show firstText a.dedupKey (firstText rule.dedupKey _) = _
  rw [own, byRule]
  rfl

theorem IsKeyedByDefault.key (h : b.IsKeyedByDefault) : b.key = .text b.dedupKey := by
  have some : ¬ (Value.text b.dedupKey).isEmpty := by
    rw [h.dedupKey]
    exact Value.not_isEmpty_text (defaultKey_ne _ _ _)
  exact Value.orElse_of_not_isEmpty some

theorem dedupKey_eq_iff_sameOrigin (ha : a.IsKeyedByDefault) (hb : b.IsKeyedByDefault) (barsA : a.IsUnbarred)
    (barsB : b.IsUnbarred) : a.dedupKey = b.dedupKey ↔ a.SameOrigin b := by
  rw [ha.dedupKey, hb.dedupKey, defaultKey_eq_iff barsA.source barsB.source barsA.session barsB.session]
  exact ⟨fun ⟨rules, sources, sessions⟩ => ⟨rules, sources, sessions⟩, fun h => ⟨h.ruleId, h.source, h.session⟩⟩

theorem sameOrigin_iff (ha : a.IsNamed) (hb : b.IsNamed) :
    a.SameOrigin b ↔ a.ruleId = b.ruleId ∧ a.source = b.source ∧ a.session = b.session := by
  constructor
  · rintro ⟨rules, sources, sessions⟩
    exact ⟨ha.ruleId.eq_of_display hb.ruleId rules, ha.source.eq_of_display hb.source sources, sessions⟩
  · rintro ⟨rules, sources, sessions⟩
    exact ⟨congrArg Value.display rules, congrArg Value.display sources, sessions⟩

end Alert

theorem Value.eq_text_of_toKey {v : Value} {key : Key} {s : String} (h : v.toKey = .ok key)
    (same : key == Key.ofText s) : v = .text s := by
  have identity : key.identity? = some (.text s) := (Key.beq_iff.1 same).2
  cases v with
  | text s' =>
    obtain rfl := Except.ok.inj h
    simpa [Key.identity?] using identity
  | null =>
    obtain rfl := Except.ok.inj h
    cases identity
  | moment t =>
    obtain rfl := Except.ok.inj h
    cases identity
  | number n =>
    obtain rfl := Except.ok.inj h
    simp only [Key.identity?, Number.identity?] at identity
    split at identity
    · cases identity
    · cases identity
    · split at identity <;> cases identity
  | list | object | record => cases h

theorem Alert.key_of_sameKey {a b : Alert} {s : String} (h : a.SameKey b) (text : b.key = .text s) :
    a.key = .text s := by
  obtain ⟨k, hk, same⟩ := h
  rw [text] at hk
  obtain rfl := Except.ok.inj hk
  unfold hasKey at same
  split at same
  · rename_i key hkey
    exact Value.eq_text_of_toKey hkey same
  · cases same

/-! ### Suppression -/

namespace Deduper
variable {τ : Type} [Clock τ] [LT τ] {window now : τ} {m m' : OrderedMap Key τ}
  {history : List (τ × Alert × Decision)} {a : Alert}

namespace Recalls

theorem empty (window : τ) : Recalls window ([] : OrderedMap Key τ) [] where
  distinct := OrderedMap.distinct_nil
  left k t h := by cases h
  preceded before now b after h := by simp at h

theorem concat {x : τ × Alert × Decision} (h : Recalls window m history) (distinct : OrderedMap.Distinct m')
    (left : ∀ k t, OrderedMap.get? m' k = some t →
      OrderedMap.get? m k = some t ∨ x.2.2 = .passes ∧ x.2.1.hasKey k ∧ Clock.after x.1 window = .ok t)
    (preceded : x.2.2 = .suppressed → Preceded window history x.1 x.2.1) :
    Recalls window m' (history ++ [x]) where
  distinct := distinct
  left k t ht := by
    rcases left k t ht with old | ⟨passes, key, until'⟩
    · obtain ⟨since, a, mem, key, until'⟩ := h.left k t old
      exact ⟨since, a, List.mem_append_left _ mem, key, until'⟩
    · exact ⟨x.1, x.2.1, by simp [← passes], key, until'⟩
  preceded before now b after heq := by
    rcases concat_eq_append_cons heq with ⟨rfl, rfl⟩ | ⟨after, earlier⟩
    · exact preceded rfl
    · exact h.preceded before now b after earlier

theorem append {added : List (τ × Alert × Decision)} (h : Recalls window m history)
    (none : ∀ x ∈ added, x.2.2 ≠ .suppressed) : Recalls window m (history ++ added) := by
  induction added generalizing history with
  | nil => rwa [List.append_nil]
  | cons x rest ih =>
    obtain ⟨first, none⟩ := List.forall_mem_cons.1 none
    have one := h.concat (x := x) h.distinct (fun _ _ => .inl) fun suppressed => absurd suppressed first
    simpa using ih one none

theorem forget (h : Recalls window m history) (p : τ → Bool) : Recalls window (m.filter fun e => p e.2) history where
  distinct := h.distinct.filter _
  left k t ht := by
    rw [OrderedMap.get?_filter h.distinct p k, Option.filter_eq_some_iff] at ht
    exact h.left k t ht.1
  preceded := h.preceded

variable [DecidableLT τ]

theorem suppress (h : Recalls window m history) (held : Deduper.pass window now m a = .ok none) :
    Recalls window m (history ++ [(now, a, .suppressed)]) := by
  refine h.concat h.distinct (fun _ _ => .inl) fun _ => ?_
  obtain ⟨k, hk, ⟨suppresses, -⟩ | ⟨-, _, -, passed⟩⟩ := of_pass held
  · unfold Deduper.suppresses at suppresses
    split at suppresses
    · rename_i t ht
      obtain ⟨since, b, mem, key, until'⟩ := h.left k t ht
      exact ⟨since, b, mem, ⟨k, hk, key⟩, t, until', of_decide_eq_true suppresses⟩
    · cases suppresses
  · cases passed

theorem pass (h : Recalls window m history) (passed : Deduper.pass window now m a = .ok (some m')) :
    Recalls window m' (history ++ [(now, a, .passes)]) := by
  obtain ⟨k, hk, ⟨-, none⟩ | ⟨-, t, until', set⟩⟩ := of_pass passed
  · cases none
  · obtain rfl := Option.some.inj set
    refine h.concat (h.distinct.set k t) (fun l u hu => ?_) nofun
    rw [OrderedMap.get?_set] at hu
    split at hu
    · rename_i same
      obtain rfl := Option.some.inj hu
      exact .inr ⟨rfl, (Alert.hasKey_eq hk).trans same, until'⟩
    · exact .inl hu

theorem sift (h : Recalls window m history) (now : τ) (alerts : List Alert) :
    Recalls window (Deduper.sift window now m alerts).suppressed
      (history ++ (decisions window now m alerts).map (now, ·)) := by
  induction alerts generalizing m history with
  | nil => simpa [Deduper.sift, decisions] using h
  | cons a rest ih =>
    rcases judged : Deduper.pass window now m a with f | _ | after
    · rw [decisions_of_fault judged, Deduper.sift, judged]
      exact h.append (by simp)
    · obtain ⟨hdecisions, hsift⟩ := decisions_of_suppressed judged rest
      rw [hdecisions, hsift, List.map_cons, List.append_cons]
      exact ih (h.suppress judged)
    · obtain ⟨hdecisions, hsift⟩ := decisions_of_passes judged rest
      rw [hdecisions, hsift, List.map_cons, List.append_cons]
      exact ih (h.pass judged)

variable [LE τ] [DecidableLE τ] [OfNat τ 0]

theorem filter {d : Deduper τ} (h : Recalls d.window d.suppressed history) (now : τ) (alerts : List Alert) :
    (d.filter now alerts).2.window = d.window ∧
      Recalls d.window (d.filter now alerts).2.suppressed (history ++ (d.judged now alerts).map (now, ·)) := by
  unfold Deduper.filter judged
  split
  · exact ⟨rfl, h.append (by simp)⟩
  · have sifted := h.sift now alerts
    simp only
    split
    · exact ⟨rfl, sifted⟩
    · exact ⟨rfl, sifted.forget fun t => !decide (t ≤ now)⟩

theorem judgedAll {d : Deduper τ} (h : Recalls d.window d.suppressed history) (batches : List (τ × List Alert)) :
    ∃ m, Recalls d.window m (history ++ d.judgedAll batches) := by
  induction batches generalizing d history with
  | nil => exact ⟨d.suppressed, by simpa [Deduper.judgedAll] using h⟩
  | cons b rest ih =>
    obtain ⟨same, one⟩ := h.filter b.1 b.2
    rw [← same] at one
    obtain ⟨m, later⟩ := ih one
    rw [same, List.append_assoc] at later
    exact ⟨m, later⟩

end Recalls
end Deduper

/-- Default keys keep rules, sources and sessions apart. -/
theorem Alert.defaultKey_separationLaw {τ : Type} [Clock τ] [LT τ] [LE τ] [DecidableLT τ] [DecidableLE τ]
    [OfNat τ 0] : SeparationLaw τ where
  keys _ _ := dedupKey_eq_iff_sameOrigin
  origins _ _ := sameOrigin_iff
  decided d now alerts := ⟨d.map_fst_judged now alerts, fun _ => Deduper.judged_tells⟩
  suppressed window batches before after now b heq hb barsB := by
    obtain ⟨m, recalls⟩ := (Deduper.Recalls.empty window).judgedAll (d := { window }) batches
    obtain ⟨since, a, mem, same, holds⟩ := recalls.preceded before now b after heq
    have key := key_of_sameKey same hb.key
    refine ⟨since, a, mem, holds, key.trans hb.key.symm, fun ha barsA => ?_⟩
    have keys : a.dedupKey = b.dedupKey := Value.text.inj (ha.key.symm.trans key)
    exact (dedupKey_eq_iff_sameOrigin ha hb barsA barsB).1 keys

/-- Of two rules one is called like the key of the other up to the session. The deduper lets both through, and then
suppresses the first one again. -/
theorem Alert.defaultKey_separationLaw_barred :
    let found (id message : String) : Alert :=
      match (enrich { id := .text id } (some { capturer := "disk", session := "s" }) (.ofMicros 0)
        (.default fun _ => 7) { message }).1 with
      | .ok b => b
      | .error _ => {}
    let batches : List (Int × List Alert) := [(0, [found "r" "", found "r|disk" ""]), (3, [found "r" "again"])]
    ((found "r" "").dedupKey = "r|disk|s" ∧ (found "r|disk" "").dedupKey = "r|disk|disk|s") ∧
      (∀ id message, (found id message).IsKeyedByDefault ∧ (found id message).IsUnbarred) ∧
      Deduper.judgedAll { window := (10 : Int) } batches =
        [(0, found "r" "", .passes), (0, found "r|disk" "", .passes), (3, found "r" "again", .suppressed)] ∧
      ∃ since a, (since, a, .passes) ∈ [(0, found "r" "", Decision.passes), (0, found "r|disk" "", .passes)] ∧
        Deduper.Holds (10 : Int) since 3 ∧ a.SameOrigin (found "r" "again") := by
  intro found batches
  have keyed (id message : String) : (found id message).IsKeyedByDefault :=
    ⟨{ id := .text id }, some { capturer := "disk", session := "s" }, .ofMicros 0, .default fun _ => 7, { message },
      rfl, rfl, rfl⟩
  have unbarred (id message : String) : (found id message).IsUnbarred :=
    ⟨show '|' ∉ "disk".toList by decide, show '|' ∉ "s".toList by decide⟩
  refine ⟨⟨by decide, by decide⟩, fun id message => ⟨keyed id message, unbarred id message⟩, rfl, ?_⟩
  have law : SeparationLaw Int := defaultKey_separationLaw
  obtain ⟨since, a, mem, holds, -, same⟩ := law.suppressed 10 batches
    [(0, found "r" "", .passes), (0, found "r|disk" "", .passes)] [] 3 (found "r" "again") rfl (keyed _ _)
    (unbarred _ _)
  refine ⟨since, a, mem, holds, ?_⟩
  simp only [List.mem_cons, Prod.mk.injEq, List.not_mem_nil, or_false, and_true] at mem
  rcases mem with ⟨-, rfl⟩ | ⟨-, rfl⟩
  · exact same (keyed _ _) (unbarred _ _)
  · exact same (keyed _ _) (unbarred _ _)

end HostWatch
