import HostWatch.Detection.Enrichment

/-!
# Enrichment fills gaps

Enrichment changes nothing that an alert says already (`Alert.Keeps`) and leaves nothing empty that alerts
are named, counted or shown by (`Alert.IsFilled`). A filled alert has no gaps but in its metadata and its
evidence, so to enrich it again, by whatever rule, can only fill these and asks for no id; by the same rule
and on the same snapshot it changes nothing (`Alert.enrich_settled`).
-/

namespace HostWatch

/-! ### Defaults -/

namespace Value
variable {v w : Value}

theorem orElse_of_isEmpty (h : v.isEmpty) : v.orElse w = w := if_pos h

theorem orElse_of_not_isEmpty (h : ¬ v.isEmpty) : v.orElse w = v := if_neg h

theorem not_isEmpty_orElse (hw : ¬ w.isEmpty) : ¬ (v.orElse w).isEmpty := by
  by_cases hv : v.isEmpty
  · rwa [orElse_of_isEmpty hv]
  · rwa [orElse_of_not_isEmpty hv]

theorem orElse_orElse (v w : Value) : (v.orElse w).orElse w = v.orElse w := by
  by_cases hv : v.isEmpty
  · rw [orElse_of_isEmpty hv]
    unfold orElse
    split <;> rfl
  · rw [orElse_of_not_isEmpty hv, orElse_of_not_isEmpty hv]

theorem not_isEmpty_text {s : String} (h : s ≠ "") : ¬ (text s).isEmpty := by
  rw [isEmpty, String.isEmpty_iff]
  exact h

end Value

section FirstText
variable {s t : String}

theorem firstText_of_ne (h : s ≠ "") : firstText s t = s := if_neg h

theorem firstText_ne (ht : t ≠ "") : firstText s t ≠ "" := by
  unfold firstText
  split
  · exact ht
  · assumption

theorem firstText_firstText (s t : String) : firstText (firstText s t) t = firstText s t := by
  unfold firstText
  split <;> simp_all

end FirstText

namespace Metadata

/-- What a record says stands in the other one too. -/
structure Keeps (own m : Metadata) : Prop where
  host : own.host ≠ "" → m.host = own.host
  agentVersion : own.agentVersion ≠ "" → m.agentVersion = own.agentVersion
  agentBuild : own.agentBuild ≠ "" → m.agentBuild = own.agentBuild
  session : own.session ≠ "" → m.session = own.session
  timezone : own.timezone ≠ "" → m.timezone = own.timezone
  capturedAt : own.capturedAt ≠ none → m.capturedAt = own.capturedAt
  os : own.os ≠ "" → m.os = own.os
  arch : own.arch ≠ "" → m.arch = own.arch
  capturer : own.capturer ≠ "" → m.capturer = own.capturer
  interval : ¬ own.interval.isEmpty → m.interval = own.interval
  maxFiles : ¬ own.maxFiles.isEmpty → m.maxFiles = own.maxFiles

theorem Keeps.refl (m : Metadata) : m.Keeps m := by
  constructor <;> intro _ <;> rfl

theorem keeps_merge (own base : Metadata) : own.Keeps (own.merge base) where
  host := firstText_of_ne
  agentVersion := firstText_of_ne
  agentBuild := firstText_of_ne
  session := firstText_of_ne
  timezone := firstText_of_ne
  capturedAt h := by
    obtain ⟨t, ht⟩ := Option.ne_none_iff_exists'.1 h
    simp [merge, ht]
  os := firstText_of_ne
  arch := firstText_of_ne
  capturer := firstText_of_ne
  interval := Value.orElse_of_not_isEmpty
  maxFiles := Value.orElse_of_not_isEmpty

theorem merge_merge (own base : Metadata) : (own.merge base).merge base = own.merge base := by
  have capturedAt : ((own.capturedAt <|> base.capturedAt) <|> base.capturedAt) =
      (own.capturedAt <|> base.capturedAt) := by
    cases own.capturedAt <;> cases base.capturedAt <;> rfl
  simp only [merge, firstText_firstText, Value.orElse_orElse, capturedAt]

end Metadata

def Ids.AreNames (ids : Ids) : Prop := ∀ n ruleId, ids.name n ruleId ≠ ""

theorem Alert.defaultKey_ne (ruleId source session : String) : Alert.defaultKey ruleId source session ≠ "" := by
  intro h
  have chars := congrArg String.toList h
  simp [defaultKey] at chars

theorem Ids.default_areNames (clock : Nat → Int) : (Ids.default clock).AreNames := by
  intro n ruleId h
  have chars := congrArg String.toList h
  simp [default] at chars

namespace Alert

/-- What an alert says stands in the other one too. What no rule leaves open is the same in any case. -/
structure Keeps (a b : Alert) : Prop where
  id : a.id ≠ "" → b.id = a.id
  ruleId : ¬ a.ruleId.isEmpty → b.ruleId = a.ruleId
  title : ¬ a.title.isEmpty → b.title = a.title
  severity : ¬ a.severity.isEmpty → b.severity = a.severity
  message : b.message = a.message
  source : ¬ a.source.isEmpty → b.source = a.source
  raisedAt : a.raisedAt ≠ none → b.raisedAt = a.raisedAt
  metadata : ∀ own, a.metadata = some own → ∃ m, b.metadata = some m ∧ own.Keeps m
  evidence : a.evidence ≠ [] → b.evidence = a.evidence
  correlated : b.correlated = a.correlated
  dedupKey : a.dedupKey ≠ "" → b.dedupKey = a.dedupKey
  rateLimited : b.rateLimited = a.rateLimited

/-- Nothing is empty that an alert is named, counted or shown by. -/
structure IsFilled (a : Alert) : Prop where
  id : a.id ≠ ""
  ruleId : ¬ a.ruleId.isEmpty
  raisedAt : a.raisedAt ≠ none
  source : ¬ a.source.isEmpty
  severity : ¬ a.severity.isEmpty
  title : ¬ a.title.isEmpty
  dedupKey : a.dedupKey ≠ ""

/-- An alert is another one with more metadata and with evidence, as far as that has none. -/
structure Supplements (b c : Alert) : Prop where
  keeps : b.Keeps c
  same : c = { b with metadata := c.metadata, evidence := c.evidence }

/-- What enrichment makes of the alert `a`, and what enriching it again does. -/
structure Settled (rule : Rule) (metadata : Option Metadata) (a b : Alert) : Prop where
  keeps : a.Keeps b
  filled : b.IsFilled
  /-- Whatever the rule and the snapshot are, no id is asked for and only gaps are filled. -/
  again : ∀ rule' metadata' now ids, (b.enrich rule' metadata' now ids).2 = ids ∧
    ∀ c, (b.enrich rule' metadata' now ids).1 = .ok c → b.Supplements c
  /-- Every snapshot with metadata will do. -/
  returns : ∀ rule' m now ids, ∃ c, (b.enrich rule' (some m) now ids).1 = .ok c
  stable : ∀ now ids, b.enrich rule metadata now ids = (.ok b, ids)

/-! ### One enrichment -/

/-- The alert that is completed: `a` under an id and with a rule. -/
def identified (rule : Rule) (id : String) (a : Alert) : Alert :=
  { a with id, ruleId := a.ruleId.orElse (rule.id.orElse (.text "unknown_rule")) }

section Enrich
variable {rule rule' : Rule} {metadata metadata' : Option Metadata} {now t : Timestamp} {ids ids' : Ids}
  {a b c : Alert} {own m : Metadata} {id : String}

theorem identify_eq (rule : Rule) (ids : Ids) (a : Alert) : ∃ id, (a.identify rule ids).1 = a.identified rule id ∧
    (a.id ≠ "" → id = a.id) ∧ (ids.AreNames → id ≠ "") := by
  unfold identify identified
  by_cases hid : a.id = ""
  · simp only [hid, if_true]
    exact ⟨_, rfl, fun h => (h rfl).elim, fun named => named _ _⟩
  · simp only [hid, if_false]
    exact ⟨a.id, rfl, fun _ => rfl, fun _ => hid⟩

theorem identify_of_filled (h : b.IsFilled) (rule : Rule) (ids : Ids) : b.identify rule ids = (b, ids) := by
  simp only [identify, Value.orElse_of_not_isEmpty h.ruleId, if_neg h.id]

/-- All that enrichment can do. -/
theorem of_enrich (h : (a.enrich rule metadata now ids).1 = .ok b) : ∃ id t m,
    ((a.id ≠ "" → id = a.id) ∧ (ids.AreNames → id ≠ "")) ∧ a.raisedAt? metadata now = .ok t ∧
      a.mergedMetadata metadata = .ok m ∧ b = (a.identified rule id).completeWith rule t m := by
  obtain ⟨id, hidentified, hid⟩ := identify_eq rule ids a
  have completed : (a.identified rule id).complete rule metadata now = .ok b := hidentified ▸ h
  obtain ⟨t, ht, completed⟩ := ok_of_bind completed
  obtain ⟨m, hm, completed⟩ := ok_of_bind completed
  exact ⟨id, t, m, hid, ht, hm, (Except.ok.inj completed).symm⟩

theorem raisedAt?_of_some (h : a.raisedAt = some t) (metadata : Option Metadata) (now : Timestamp) :
    a.raisedAt? metadata now = .ok t := by
  unfold raisedAt?
  rw [h]

theorem complete_of_parts (ht : a.raisedAt? metadata now = .ok t) (hm : a.mergedMetadata metadata = .ok m)
    (rule : Rule) : a.complete rule metadata now = .ok (a.completeWith rule t m) := by
  unfold complete
  rw [ht, hm]
  rfl

theorem exists_enrich (ha : a.metadata.isSome) (hm : metadata.isSome) (rule : Rule) (now : Timestamp) (ids : Ids) :
    ∃ b, (a.enrich rule metadata now ids).1 = .ok b := by
  obtain ⟨own, hown⟩ := Option.isSome_iff_exists.1 ha
  obtain ⟨base, rfl⟩ := Option.isSome_iff_exists.1 hm
  obtain ⟨id, hidentified, -⟩ := identify_eq rule ids a
  have time : ∃ t, a.raisedAt? (some base) now = .ok t := by
    unfold raisedAt?
    rcases a.raisedAt with _ | t
    · exact ⟨_, rfl⟩
    · exact ⟨t, rfl⟩
  obtain ⟨t, ht⟩ := time
  have merged : a.mergedMetadata (some base) = .ok (own.merge base) := by
    unfold mergedMetadata
    rw [hown]
  have completed := complete_of_parts (a := a.identified rule id) ht merged rule
  rw [← hidentified] at completed
  exact ⟨_, completed⟩

theorem of_mergedMetadata (h : a.mergedMetadata metadata = .ok m) :
    ∃ own, a.metadata = some own ∧ own.Keeps m := by
  unfold mergedMetadata at h
  split at h
  · cases h
  · rename_i own base hown
    obtain rfl := Except.ok.inj h
    exact ⟨own, hown, own.keeps_merge base⟩
  · rename_i own hown
    split at h
    · cases h
    · obtain rfl := Except.ok.inj h
      exact ⟨own, hown, .refl own⟩

/-- What has been merged once is not changed by the same metadata again. -/
theorem mergedMetadata_of_merged (h : a.mergedMetadata metadata = .ok m) (hb : b.metadata = some m) :
    b.mergedMetadata metadata = .ok m := by
  unfold mergedMetadata at h ⊢
  rw [hb]
  split at h
  · cases h
  · rename_i own base hown
    obtain rfl := Except.ok.inj h
    exact congrArg Except.ok (own.merge_merge base)
  · rename_i own hown
    split at h
    · cases h
    · rename_i complete
      obtain rfl := Except.ok.inj h
      simp only [complete]

/-- The evidence that a rule gives to alerts without any. -/
def evidenceBy (rule : Rule) (a : Alert) : List (String × Value) :=
  if a.evidence.isEmpty && !rule.tags.isEmpty then [("tags", .list rule.tags)] else a.evidence

theorem evidenceBy_of_ne (h : a.evidence ≠ []) : a.evidenceBy rule = a.evidence := by
  simp [evidenceBy, h]

theorem evidenceBy_of_evidenceBy (h : b.evidence = a.evidenceBy rule) : b.evidenceBy rule = b.evidence := by
  unfold evidenceBy at *
  split at h <;> simp_all

theorem keeps_completeWith (hid : a.id ≠ "" → id = a.id) (ht : a.raisedAt? metadata now = .ok t)
    (hm : a.mergedMetadata metadata = .ok m) : a.Keeps ((a.identified rule id).completeWith rule t m) where
  id := hid
  ruleId := Value.orElse_of_not_isEmpty
  title := Value.orElse_of_not_isEmpty
  severity := Value.orElse_of_not_isEmpty
  message := rfl
  source := Value.orElse_of_not_isEmpty
  raisedAt h := by
    obtain ⟨t', ht'⟩ := Option.ne_none_iff_exists'.1 h
    rw [raisedAt?_of_some ht'] at ht
    rw [ht', ← Except.ok.inj ht]
    rfl
  metadata own hown := by
    obtain ⟨own', hown', kept⟩ := of_mergedMetadata hm
    obtain rfl := Option.some.inj (hown.symm.trans hown')
    exact ⟨m, rfl, kept⟩
  evidence := evidenceBy_of_ne
  correlated := rfl
  dedupKey := firstText_of_ne
  rateLimited := rfl

theorem filled_completeWith (hid : id ≠ "") (rule : Rule) (t : Timestamp) (m : Metadata) (a : Alert) :
    ((a.identified rule id).completeWith rule t m).IsFilled := by
  have ruleId : ¬ (a.identified rule id).ruleId.isEmpty :=
    Value.not_isEmpty_orElse (Value.not_isEmpty_orElse (Value.not_isEmpty_text (by decide)))
  exact {
    id := hid
    ruleId := ruleId
    raisedAt := Option.some_ne_none t
    source := Value.not_isEmpty_orElse (Value.not_isEmpty_orElse
      (Value.not_isEmpty_orElse (Value.not_isEmpty_text (by decide))))
    severity := Value.not_isEmpty_orElse (Value.not_isEmpty_orElse (Value.not_isEmpty_text (by decide)))
    title := Value.not_isEmpty_orElse (Value.not_isEmpty_orElse ruleId)
    dedupKey := firstText_ne (firstText_ne (defaultKey_ne _ _ _)) }

/-! ### Once more -/

/-- A filled alert has no other gaps than metadata and evidence. -/
theorem completeWith_of_filled (h : b.IsFilled) (ht : b.raisedAt = some t) (rule : Rule) (m : Metadata) :
    b.completeWith rule t m = { b with metadata := some m, evidence := b.evidenceBy rule } := by
  unfold completeWith
  simp only [Value.orElse_of_not_isEmpty h.source, Value.orElse_of_not_isEmpty h.severity,
    Value.orElse_of_not_isEmpty h.title, firstText_of_ne h.dedupKey, ht, evidenceBy]

theorem enrich_of_filled (h : b.IsFilled) (hm : b.mergedMetadata metadata = .ok m) (rule : Rule)
    (now : Timestamp) (ids : Ids) : b.enrich rule metadata now ids =
      (.ok { b with metadata := some m, evidence := b.evidenceBy rule }, ids) := by
  obtain ⟨t, ht⟩ := Option.ne_none_iff_exists'.1 h.raisedAt
  unfold enrich
  rw [identify_of_filled h, ← completeWith_of_filled h ht,
    ← complete_of_parts (raisedAt?_of_some ht metadata now) hm]

theorem IsFilled.supplements (h : b.IsFilled) (hc : (b.enrich rule metadata now ids).1 = .ok c) :
    b.Supplements c := by
  obtain ⟨id, t, m, ⟨hid, -⟩, ht, hm, rfl⟩ := of_enrich hc
  refine ⟨keeps_completeWith hid ht hm, ?_⟩
  rw [enrich_of_filled h hm] at hc
  rw [← Except.ok.inj hc]

theorem IsFilled.enrich_snd (h : b.IsFilled) (rule : Rule) (metadata : Option Metadata) (now : Timestamp)
    (ids : Ids) : (b.enrich rule metadata now ids).2 = ids := by
  unfold enrich
  rw [identify_of_filled h]

theorem settled_completeWith (hid : a.id ≠ "" → id = a.id) (hne : id ≠ "")
    (ht : a.raisedAt? metadata now = .ok t) (hm : a.mergedMetadata metadata = .ok m) :
    Settled rule metadata a ((a.identified rule id).completeWith rule t m) := by
  have filled := filled_completeWith hne rule t m a
  refine ⟨keeps_completeWith hid ht hm, filled, fun rule' metadata' now ids => ?_, fun rule' base now ids => ?_,
    fun now ids => ?_⟩
  · exact ⟨filled.enrich_snd rule' metadata' now ids, fun c hc => filled.supplements hc⟩
  · exact exists_enrich rfl rfl rule' now ids
  · have again : ((a.identified rule id).completeWith rule t m).mergedMetadata metadata = .ok m :=
      mergedMetadata_of_merged hm rfl
    have evidence : ((a.identified rule id).completeWith rule t m).evidenceBy rule =
        ((a.identified rule id).completeWith rule t m).evidence :=
      evidenceBy_of_evidenceBy (a := a) rfl
    rw [enrich_of_filled filled again, evidence]
    rfl

end Enrich

/-- Enrichment with ids that are never empty fills an alert for good. It succeeds on every alert and every
snapshot that come with metadata, as all do that are made of the declared types. -/
theorem enrich_settled {ids : Ids} (named : ids.AreNames) (rule : Rule) (metadata : Option Metadata)
    (now : Timestamp) (a : Alert) :
    (∀ b, (a.enrich rule metadata now ids).1 = .ok b → Settled rule metadata a b) ∧
      (a.metadata.isSome → metadata.isSome → ∃ b, (a.enrich rule metadata now ids).1 = .ok b) := by
  refine ⟨fun b hb => ?_, fun ha hm => exists_enrich ha hm rule now ids⟩
  obtain ⟨id, t, m, ⟨hid, hne⟩, ht, hm, rfl⟩ := of_enrich hb
  exact settled_completeWith hid (hne named) ht hm

/-- A rule that leaves everything open on a snapshot that names its source only: all defaults are used, and
one after the other is built from what stands by then. -/
theorem enrich_settled_bare :
    let rule : Rule := { id := .text "", tags := [.text "t"] }
    let ids := Ids.default fun _ => 7
    ids.AreNames ∧ ∃ b, (enrich rule (some { capturer := "disk" }) (.ofMicros 0) ids {}).1 = .ok b ∧
      (b.id = "unknown_rule-7-1" ∧ b.dedupKey = "unknown_rule|disk|") ∧
      Settled rule (some { capturer := "disk" }) {} b := by
  intro rule ids
  have named : ids.AreNames := Ids.default_areNames _
  obtain ⟨settled, returns⟩ := enrich_settled named rule (some { capturer := "disk" }) (.ofMicros 0) {}
  obtain ⟨b, hb⟩ := returns rfl rfl
  refine ⟨named, b, hb, ?_, settled b hb⟩
  rw [← Except.ok.inj hb]
  exact ⟨by decide, by decide⟩

end Alert

end HostWatch
