import HostWatch.Proofs.Indicator.Literal
import HostWatch.Proofs.Loading
import HostWatch.Proofs.Text.Lower

/-!
# The normal form of indicators

A text that has been trimmed and lowered stays as it is when it is trimmed and lowered again
(`Text.lower_lower`, `Text.trim_lower_trim`). So lists in normal form are their own normal form, and it makes no
difference to the rule whether it is built from lists as they were given or from what has been loaded, which is in
normal form already (`Indicators.canonicalLaw`).
-/

namespace HostWatch

/-! ### Texts -/

namespace Text
variable {p : Char → Bool} {inWord final : Bool} {cs : List Char} {c d : Char}

theorem of_mem_lowerAt (h : d ∈ lowerAt final c) : IsLowered d ∧ (isBlank d → isBlank c) := by
  unfold lowerAt at h
  split at h
  · split at h
    all_goals
      obtain rfl := List.mem_singleton.1 h
      exact ⟨isLowered_of_all (by decide) (by decide +kernel), fun blank => absurd blank (by decide)⟩
  · exact of_mem_lowerChar h

theorem solid_of_mem_lowerAt (h : d ∈ lowerAt final c) (solid : isBlank c = false) : isBlank d = false :=
  Bool.eq_false_iff.2 fun blank => Bool.eq_false_iff.1 solid ((of_mem_lowerAt h).2 blank)

theorem isLowered_of_mem_lowerAfter (h : d ∈ lowerAfter inWord cs) : IsLowered d := by
  rw [lowerAfter_eq_lowerBefore] at h
  induction cs generalizing inWord with
  | nil => cases h
  | cons c rest ih =>
    rcases List.mem_append.1 h with here | later
    · exact (of_mem_lowerAt here).1
    · exact ih later

theorem lowerAfter_of_isLowered (h : ∀ c ∈ cs, IsLowered c) : lowerAfter inWord cs = cs := by
  induction cs generalizing inWord with
  | nil => rfl
  | cons c rest ih =>
    obtain ⟨one, h⟩ := List.forall_mem_cons.1 h
    rw [lowerAfter, if_neg one.ne_sigma, one.lowerChar, ih h]
    rfl

theorem lower_lower (s : String) : lower (lower s) = lower s := by
  unfold lower
  rw [String.toList_ofList, lowerAfter_of_isLowered fun _ => isLowered_of_mem_lowerAfter]

/-- The text neither begins nor ends with a character to be trimmed. -/
structure IsTrimmed (p : Char → Bool) (cs : List Char) : Prop where
  first : ∀ c ∈ cs.head?, p c = false
  last : ∀ c ∈ cs.getLast?, p c = false

theorem dropWhile_of_head? (h : ∀ c ∈ cs.head?, p c = false) : cs.dropWhile p = cs := by
  cases cs with
  | nil => rfl
  | cons c rest => rw [List.dropWhile_cons, if_neg (by simp [h c rfl])]

theorem head?_dropWhile (cs : List Char) : ∀ c ∈ (cs.dropWhile p).head?, p c = false := by
  intro c hc
  have first := List.head?_dropWhile_not p cs
  rw [hc] at first
  exact first

theorem IsTrimmed.trimBoth (h : IsTrimmed p cs) : trimBoth p cs = cs := by
  have reversed : ∀ c ∈ cs.reverse.head?, p c = false := by
    rw [List.head?_reverse]
    exact h.last
  rw [Text.trimBoth, dropWhile_of_head? h.first, dropWhile_of_head? reversed, List.reverse_reverse]

theorem isTrimmed_trimBoth (cs : List Char) : IsTrimmed p (trimBoth p cs) where
  first c hc := by
    rw [trimBoth, List.head?_reverse] at hc
    obtain ⟨dropped, whole⟩ := List.dropWhile_suffix (l := (cs.dropWhile p).reverse) p
    have last : c ∈ (cs.dropWhile p).reverse.getLast? := by
      rw [← whole, List.getLast?_append, hc]
      rfl
    rw [List.getLast?_reverse] at last
    exact head?_dropWhile cs c last
  last c hc := by
    rw [trimBoth, List.getLast?_reverse] at hc
    exact head?_dropWhile _ c hc

/-- Lower case does not turn the ends of a text into blanks. -/
theorem isTrimmed_lowerAfter (h : IsTrimmed isBlank cs) : IsTrimmed isBlank (lowerAfter inWord cs) where
  first d hd := by
    cases cs with
    | nil => cases hd
    | cons c rest =>
      have here : d ∈ lowerAt (inWord && !startsCased (rest ++ [])) c := by
        rw [lowerAfter_eq_lowerBefore, lowerBefore, List.head?_append_of_ne_nil _ lowerAt_ne_nil] at hd
        exact List.mem_of_mem_head? hd
      exact solid_of_mem_lowerAt here (h.first c rfl)
  last d hd := by
    rcases List.eq_nil_or_concat cs with rfl | ⟨front, c, rfl⟩
    · cases hd
    · rw [List.concat_eq_append] at h hd
      have here : d ∈ lowerAt (wordAfter inWord front && !startsCased ([] ++ [])) c := by
        rw [lowerAfter_append, lowerAfter_eq_lowerBefore, lowerBefore, lowerBefore, List.append_nil,
          List.getLast?_append_of_ne_nil _ lowerAt_ne_nil] at hd
        exact List.mem_of_mem_getLast? hd
      exact solid_of_mem_lowerAt here (h.last c (by simp))

theorem trim_lower_trim (s : String) : trim (lower (trim s)) = lower (trim s) := by
  unfold trim lower
  simp only [String.toList_ofList]
  rw [(isTrimmed_lowerAfter (isTrimmed_trimBoth _)).trimBoth]

end Text

/-- The rule that looks for the indicators of a source. -/
def IndicatorSource.rule (g : IndicatorSource) : Except Fault Rule := g.normalized.map Indicators.rule

namespace Indicators

/-- What is kept of texts of which each has a normal form. -/
structure CanonicalLaw (values : List Value) : Prop where
  nodup : (normalize values).Nodup
  members : ∀ s, s ∈ normalize values ↔ s ≠ "" ∧ ∃ v ∈ values, canonical v = s
  /-- In the order in which they come up first. -/
  inOrder : (normalize values).Pairwise fun s t =>
    (values.map canonical).idxOf s < (values.map canonical).idxOf t
  again : normalize ((normalize values).map .text) = normalize values

variable {values : List Value} {seen texts : List String} {v : Value} {i : Indicators}

/-! ### Lists -/

theorem canonical_canonical (v : Value) : canonical (.text (canonical v)) = canonical v := by
  show Text.lower (Text.trim (Text.lower (Text.trim v.display))) = _
  rw [Text.trim_lower_trim, Text.lower_lower]
  rfl

theorem canonical_eq_empty_iff : canonical v = "" ↔ Text.trim v.display = "" := by
  refine ⟨not_imp_not.1 Text.lower_ne_empty, fun blank => ?_⟩
  rw [canonical, blank]
  rfl

theorem nodup_distinctAfter (seen texts : List String) : (distinctAfter seen texts).Nodup := by
  induction texts generalizing seen with
  | nil => exact .nil
  | cons t rest ih =>
    unfold distinctAfter
    split
    · exact ih seen
    · refine List.nodup_cons.2 ⟨fun again => ?_, ih _⟩
      exact (mem_distinctAfter.1 again).2.2 List.mem_cons_self

theorem distinctAfter_inOrder (seen texts : List String) :
    (distinctAfter seen texts).Pairwise fun s t => texts.idxOf s < texts.idxOf t := by
  induction texts generalizing seen with
  | nil => exact .nil
  | cons t rest ih =>
    have later {seen' : List String} (other : ∀ s ∈ distinctAfter seen' rest, s ≠ t) :
        (distinctAfter seen' rest).Pairwise fun s s' => (t :: rest).idxOf s < (t :: rest).idxOf s' := by
      refine (ih seen').imp_of_mem fun hs hs' before => ?_
      rw [List.idxOf_cons_ne _ (other _ hs).symm, List.idxOf_cons_ne _ (other _ hs').symm]
      exact Nat.succ_lt_succ before
    unfold distinctAfter
    split
    · rename_i dropped
      refine later fun s hs => ?_
      rintro rfl
      obtain ⟨-, some, new⟩ := mem_distinctAfter.1 hs
      exact dropped.elim some new
    · have other : ∀ s ∈ distinctAfter (t :: seen) rest, s ≠ t := by
        rintro s hs rfl
        exact (mem_distinctAfter.1 hs).2.2 List.mem_cons_self
      refine List.pairwise_cons.2 ⟨fun s hs => ?_, later other⟩
      rw [List.idxOf_cons_self, List.idxOf_cons_ne _ (other s hs).symm]
      exact Nat.succ_pos _

theorem distinctAfter_eq_self (nodup : texts.Nodup) (new : ∀ s ∈ texts, s ≠ "" ∧ s ∉ seen) :
    distinctAfter seen texts = texts := by
  induction texts generalizing seen with
  | nil => rfl
  | cons t rest ih =>
    obtain ⟨first, nodup⟩ := List.nodup_cons.1 nodup
    obtain ⟨⟨some, unseen⟩, new⟩ := List.forall_mem_cons.1 new
    rw [distinctAfter, if_neg (by simp [some, unseen]), ih nodup fun s hs => ⟨(new s hs).1, ?_⟩]
    rw [List.mem_cons, not_or]
    exact ⟨fun same => first (same ▸ hs), (new s hs).2⟩

theorem mem_normalize {s : String} : s ∈ normalize values ↔ s ≠ "" ∧ ∃ v ∈ values, canonical v = s := by
  unfold normalize distinct
  rw [mem_distinctAfter, List.mem_map]
  simp [and_comm]

theorem normalize_normalize (values : List Value) :
    normalize ((normalize values).map .text) = normalize values := by
  have fixed : ((normalize values).map Value.text).map canonical = normalize values := by
    rw [List.map_map]
    refine (List.map_congr_left fun s hs => ?_).trans (List.map_id _)
    obtain ⟨-, v, -, rfl⟩ := mem_normalize.1 hs
    exact canonical_canonical v
  show distinctAfter [] _ = _
  rw [fixed]
  exact distinctAfter_eq_self (nodup_distinctAfter _ _) fun s hs => ⟨(mem_normalize.1 hs).1, List.not_mem_nil⟩

theorem normalize_canonicalLaw (values : List Value) : CanonicalLaw values where
  nodup := nodup_distinctAfter _ _
  members _ := mem_normalize
  inOrder := distinctAfter_inOrder _ _
  again := normalize_normalize values

/-! ### Sources -/

theorem ofValue_of_normal {given : Value} (h : ofValue given = .ok texts) :
    ofValue (.list (texts.map .text)) = .ok texts := by
  unfold ofValue at h
  rcases hgiven : given.elementsIfAny with f | values
  · rw [hgiven] at h
    cases h
  · rw [hgiven] at h
    obtain rfl := Except.ok.inj h
    rw [ofValue_list]
    exact congrArg Except.ok (normalize_normalize values)

theorem normalized_toSource {g : IndicatorSource} (h : g.normalized = .ok i) : i.toSource.normalized = .ok i := by
  obtain ⟨names, paths, commands, files, addresses⟩ := IndicatorSource.normalized_ok_iff.1 h
  exact IndicatorSource.normalized_ok_iff.2 ⟨ofValue_of_normal names, ofValue_of_normal paths,
    ofValue_of_normal commands, ofValue_of_normal files, ofValue_of_normal addresses⟩

theorem rule_toSource {g : IndicatorSource} (h : g.normalized = .ok i) :
    i.toSource.rule = g.rule ∧ g.rule = .ok i.rule := by
  unfold IndicatorSource.rule
  rw [normalized_toSource h, h]
  exact ⟨rfl, rfl⟩

/-- Indicators are loaded from an object, which is brought into the normal form. -/
theorem of_load {f : Files} {path : String} (h : load f path = .ok i) :
    ∃ given, f.readJson path = .ok (.object given) ∧ (IndicatorSource.ofFields given).normalized = .ok i := by
  unfold load at h
  split at h
  · cases h
  · split at h
    case h_5 v read =>
      cases v with
      | object given => exact ⟨given, read, h⟩
      | _ => cases h
    all_goals cases h

/-- Normal forms are canonical, and the rule on indicators in normal form, such as those that have been loaded, is the
rule on the lists that they come from. -/
theorem canonicalLaw :
    (∀ v, canonical (.text (canonical v)) = canonical v ∧ (canonical v = "" ↔ Text.trim v.display = "")) ∧
    (∀ values, CanonicalLaw values) ∧
    (∀ (g : IndicatorSource) (i : Indicators), g.normalized = .ok i →
      i.toSource.rule = g.rule ∧ g.rule = .ok i.rule) ∧
    ∀ (f : Files) (path : String) (i : Indicators), load f path = .ok i →
      ∃ given, f.readJson path = .ok (.object given) ∧
        i.toSource.rule = (IndicatorSource.ofFields given).rule ∧
        (IndicatorSource.ofFields given).rule = .ok i.rule := by
  refine ⟨fun v => ⟨canonical_canonical v, canonical_eq_empty_iff⟩, normalize_canonicalLaw,
    fun g i => rule_toSource, fun f path i loaded => ?_⟩
  obtain ⟨given, read, normal⟩ := of_load loaded
  exact ⟨given, read, rule_toSource normal⟩

/-- A name twice, once with the final form of sigma, a blank and a dotted capital, which becomes two characters. -/
def repeated : Value := .object [("file_paths", .list [.text " ΚΑΚΟΣ ", .text "İ", .text " ", .text "κακος"])]

theorem canonicalLaw_repeated : ∃ given i, repeated = .object given ∧ load (Agent.holding repeated) "c" = .ok i ∧
    i.filePaths = ["κακος", "i̇"] ∧ i.toSource.rule = (IndicatorSource.ofFields given).rule := by
  have json : Json.IsJson repeated := by
    refine .object (by decide) fun e he => ?_
    obtain rfl := List.mem_singleton.1 he
    refine .list fun v hv => ?_
    simp only [List.mem_cons, List.not_mem_nil, or_false] at hv
    rcases hv with rfl | rfl | rfl | rfl <;> exact .text _
  have normal : load (Agent.holding repeated) "c" = .ok { filePaths := ["κακος", "i̇"] } := by
    rw [load_of_value (by decide) (Agent.readJson_holding json (by decide))]
    decide +kernel
  obtain ⟨given, read, same, -⟩ := canonicalLaw.2.2.2 _ _ _ normal
  have whole : Except.ok repeated = Except.ok (.object given) :=
    (Agent.readJson_holding json (by decide)).symm.trans read
  exact ⟨given, _, Except.ok.inj whole, normal, rfl, same⟩

end Indicators
end HostWatch
