import HostWatch.Proofs.Indicator.Matching

/-!
# Indicators that stand in a text as they were given

Indicators and the texts they are looked for in are lowered apart from each other, and the lower case of a
capital sigma depends on what stands around it. So an indicator that stands in a text need not be found
there: `Text.lower_piece` compares the lower case of a piece of a text with that of the piece alone, and
`Indicators.literalLaw` says when the indicator is found.
-/

namespace HostWatch

namespace Text
variable {inWord inWord' final final' : Bool} {before part after after' cs : List Char} {c : Char}

/-- Whether a text, or else what is before it, ends in a letter with case. -/
def wordAfter (inWord : Bool) (cs : List Char) : Bool :=
  cs.foldl (fun inWord c => if isCaseIgnorable c then inWord else isCased c) inWord

/-- Lower case of a character, which only for a capital sigma depends on its place. -/
def lowerAt (final : Bool) (c : Char) : List Char :=
  if c = 'Σ' then (if final then ['ς'] else ['σ']) else lowerChar c

/-- Lower case of a text that stands before another one. -/
def lowerBefore (after : List Char) : Bool → List Char → List Char
  | _, [] => []
  | inWord, c :: rest =>
    lowerAt (inWord && !startsCased (rest ++ after)) c ++ lowerBefore after (wordAfter inWord [c]) rest

/-- Whether a capital sigma between the two texts is at the end of a word. -/
def isFinal (before after : List Char) : Bool := wordAfter false before && !startsCased after

/-- Each capital sigma of the middle text is at the end of a word exactly if it is so in that text alone. -/
def KeepsSigmas (before part after : List Char) : Prop :=
  ∀ p q, part = p ++ 'Σ' :: q → isFinal (before ++ p) (q ++ after) = isFinal p q

/-- One form for both small sigmas. -/
def unfinal (c : Char) : Char := if c = 'ς' then 'σ' else c

theorem lowerAt_ne_nil : lowerAt final c ≠ [] := by
  unfold lowerAt lowerChar
  split_ifs <;> simp

theorem length_lowerAt (final final' : Bool) (c : Char) : (lowerAt final c).length = (lowerAt final' c).length := by
  unfold lowerAt
  split_ifs <;> rfl

theorem map_unfinal_lowerAt (final final' : Bool) (c : Char) :
    (lowerAt final c).map unfinal = (lowerAt final' c).map unfinal := by
  unfold lowerAt
  split_ifs <;> rfl

theorem lowerAt_eq_iff : lowerAt final c = lowerAt final' c ↔ (c = 'Σ' → final = final') := by
  by_cases sigma : c = 'Σ'
  · subst sigma
    cases final <;> cases final' <;> decide
  · simp [lowerAt, sigma]

theorem wordAfter_append (cs ds : List Char) :
    wordAfter inWord (cs ++ ds) = wordAfter (wordAfter inWord cs) ds := List.foldl_append

theorem lowerAfter_append (cs after : List Char) :
    lowerAfter inWord (cs ++ after) = lowerBefore after inWord cs ++ lowerAfter (wordAfter inWord cs) after := by
  induction cs generalizing inWord with
  | nil => rfl
  | cons c rest ih =>
    rw [List.cons_append, lowerAfter, lowerBefore, ih, List.append_assoc]
    rfl

theorem lowerAfter_eq_lowerBefore (cs : List Char) : lowerAfter inWord cs = lowerBefore [] inWord cs := by
  have whole := @lowerAfter_append inWord cs []
  rwa [List.append_nil, lowerAfter, List.append_nil] at whole

theorem map_unfinal_lowerBefore :
    (lowerBefore after inWord cs).map unfinal = (lowerBefore after' inWord' cs).map unfinal := by
  induction cs generalizing inWord inWord' with
  | nil => rfl
  | cons c rest ih =>
    rw [lowerBefore, lowerBefore, List.map_append, List.map_append, ih]
    rw [map_unfinal_lowerAt]

/-- Only the places of capital sigmas matter for lower case. -/
theorem lowerBefore_eq_iff : lowerBefore after inWord cs = lowerBefore after' inWord' cs ↔
    ∀ p q, cs = p ++ 'Σ' :: q → (wordAfter inWord p && !startsCased (q ++ after)) =
      (wordAfter inWord' p && !startsCased (q ++ after')) := by
  induction cs generalizing inWord inWord' with
  | nil => simp [lowerBefore]
  | cons c rest ih =>
    have pieces : lowerBefore after inWord (c :: rest) = lowerBefore after' inWord' (c :: rest) ↔
        lowerAt (inWord && !startsCased (rest ++ after)) c = lowerAt (inWord' && !startsCased (rest ++ after')) c ∧
          lowerBefore after (wordAfter inWord [c]) rest = lowerBefore after' (wordAfter inWord' [c]) rest := by
      constructor
      · intro same
        exact List.append_inj same (length_lowerAt _ _ c)
      · rintro ⟨here, later⟩
        rw [lowerBefore, lowerBefore, here, later]
    rw [pieces, lowerAt_eq_iff, ih]
    constructor
    · rintro ⟨here, later⟩ p q split
      rcases p with _ | ⟨d, p⟩
      · obtain ⟨rfl, rfl⟩ := List.cons.inj split
        exact here rfl
      · obtain ⟨rfl, tail⟩ := List.cons.inj split
        exact later p q tail
    · intro all
      constructor
      · rintro rfl
        exact all [] rest rfl
      · rintro p q rfl
        exact all (c :: p) q rfl

/-- The lower case of a piece of a text is the lower case of the piece alone, but for the forms of sigma. -/
theorem lower_piece (before part after : List Char) : ∃ first piece last,
    lowerAfter false (before ++ part ++ after) = first ++ piece ++ last ∧
      (piece = lowerAfter false part ↔ KeepsSigmas before part after) ∧
      piece.map unfinal = (lowerAfter false part).map unfinal := by
  refine ⟨lowerBefore (part ++ after) false before, lowerBefore after (wordAfter false before) part,
    lowerAfter (wordAfter (wordAfter false before) part) after, ?_, ?_, ?_⟩
  · rw [List.append_assoc, lowerAfter_append, lowerAfter_append, ← List.append_assoc]
  · rw [lowerAfter_eq_lowerBefore, lowerBefore_eq_iff]
    simp only [KeepsSigmas, isFinal, wordAfter_append, List.append_nil]
  · rw [lowerAfter_eq_lowerBefore, map_unfinal_lowerBefore]

theorem keepsSigmas_of_not_mem (none : 'Σ' ∉ part) : KeepsSigmas before part after := by
  rintro p q rfl
  exact absurd (List.mem_append_right p List.mem_cons_self) none

theorem lower_ne_empty {s : String} (h : s ≠ "") : lower s ≠ "" := by
  intro empty
  have none : lowerAfter false s.toList = [] := by simpa [lower] using congrArg String.toList empty
  rcases letters : s.toList with _ | ⟨c, rest⟩
  · exact h (String.toList_eq_nil_iff.1 letters)
  · rw [letters, lowerAfter_eq_lowerBefore, lowerBefore, List.append_eq_nil_iff] at none
    exact lowerAt_ne_nil none.1

theorem startsCased_append (caseless : startsCased after = false) (cs : List Char) :
    startsCased (cs ++ after) = startsCased cs := by
  unfold startsCased at caseless ⊢
  rw [List.dropWhile_append]
  rcases cs.dropWhile isCaseIgnorable with _ | ⟨c, rest⟩
  · exact caseless
  · rfl

/-- A text with no letter next to it keeps its sigmas. -/
theorem keepsSigmas_of_apart (left : wordAfter false before = false) (right : startsCased after = false) :
    KeepsSigmas before part after := by
  intro p q _
  rw [isFinal, isFinal, wordAfter_append, left, startsCased_append right]

/-- How the lower case of a piece of a text differs from that of the piece alone, and when it does not. -/
structure PieceLaw : Prop where
  piece : ∀ before part after, ∃ first piece last,
    lowerAfter false (before ++ part ++ after) = first ++ piece ++ last ∧
      (piece = lowerAfter false part ↔ KeepsSigmas before part after) ∧
      piece.map unfinal = (lowerAfter false part).map unfinal
  plain : ∀ before part after, 'Σ' ∉ part → KeepsSigmas before part after
  apart : ∀ before part after, wordAfter false before = false → startsCased after = false →
    KeepsSigmas before part after

theorem pieceLaw : PieceLaw :=
  ⟨lower_piece, fun _ _ _ => keepsSigmas_of_not_mem, fun _ _ _ => keepsSigmas_of_apart⟩

end Text

namespace Indicators
variable {g : IndicatorSource} {i : Indicators} {texts : List String} {list : Value} {text : String}

/-- One of the listed indicators that are not blank stands in the text, just as it is without the blanks around
it, and keeps its sigmas there. -/
def Stands (list : Value) (text : String) : Prop :=
  ∃ values, list.elementsIfAny = .ok values ∧ ∃ v ∈ values, Text.trim v.display ≠ "" ∧ ∃ before after,
    text.toList = before ++ (Text.trim v.display).toList ++ after ∧
      Text.KeepsSigmas before (Text.trim v.display).toList after

theorem Stands.firstWithin? (stands : Stands list text) (normal : ofValue list = .ok texts) :
    (firstWithin? texts (Text.lower text)).isSome := by
  obtain ⟨values, given, v, hv, nonblank, before, after, occurs, keeps⟩ := stands
  have listed : texts = normalize values := by
    rw [ofValue, given] at normal
    exact (Except.ok.inj normal).symm
  have kept : canonical v ∈ texts := by
    rw [listed]
    exact mem_distinctAfter.2 ⟨List.mem_map_of_mem hv, Text.lower_ne_empty nonblank, List.not_mem_nil⟩
  have within : (canonical v).toList <:+: (Text.lower text).toList := by
    obtain ⟨first, piece, last, whole, same, -⟩ := Text.lower_piece before (Text.trim v.display).toList after
    rw [same.2 keeps] at whole
    refine ⟨first, last, ?_⟩
    simp only [canonical, Text.lower, String.toList_ofList, occurs, whole]
  rw [Indicators.firstWithin?, List.find?_isSome]
  exact ⟨canonical v, kept, Text.occurs_iff.2 within⟩

/-- Where indicators are found that stand in a text as they were given. -/
structure LiteralLaw (g : IndicatorSource) (i : Indicators) : Prop where
  file : ∀ path, Stands g.filePaths path → (i.matchFile? path).isSome
  process : ∀ record, Stands g.processNames (partText record "name") ∨ Stands g.processPaths (partText record "exe") ∨
    Stands g.processCommands (partText record "cmdline") → (i.matchProcess? record).isSome

/-- Indicators are found wherever they keep their sigmas; pieces of a text without capital sigmas do, and so do
those with no letter next to them. -/
theorem literalLaw (normal : g.normalized = .ok i) : LiteralLaw g i ∧ Text.PieceLaw := by
  obtain ⟨names, hnames, normal⟩ := ok_of_bind normal
  obtain ⟨paths, hpaths, normal⟩ := ok_of_bind normal
  obtain ⟨commands, hcommands, normal⟩ := ok_of_bind normal
  obtain ⟨files, hfiles, normal⟩ := ok_of_bind normal
  obtain ⟨addresses, -, normal⟩ := ok_of_bind normal
  obtain rfl := Except.ok.inj normal
  refine ⟨⟨fun path stands => stands.firstWithin? hfiles, fun record stands => ?_⟩, Text.pieceLaw⟩
  refine List.findSome?_isSome_iff.2 ?_
  rcases stands with name | path | command
  · exact ⟨_, List.mem_cons_self, Option.isSome_map.trans (name.firstWithin? hnames)⟩
  · exact ⟨_, List.mem_cons_of_mem _ List.mem_cons_self, Option.isSome_map.trans (path.firstWithin? hpaths)⟩
  · exact ⟨_, List.mem_cons_of_mem _ (List.mem_cons_of_mem _ List.mem_cons_self),
      Option.isSome_map.trans (command.firstWithin? hcommands)⟩

/-- A file name in capitals. -/
def inCapitals : IndicatorSource := { filePaths := .list [.text " ΚΑΚΟΣ "] }

theorem stands_inCapitals : Stands inCapitals.filePaths "/tmp/ΚΑΚΟΣ/a" := by
  refine ⟨[.text " ΚΑΚΟΣ "], rfl, _, List.mem_singleton_self _, by decide, "/tmp/".toList, "/a".toList, by decide,
    Text.keepsSigmas_of_apart (by decide +kernel) (by decide +kernel)⟩

theorem literalLaw_inCapitals : ∃ i, inCapitals.normalized = .ok i ∧ LiteralLaw inCapitals i ∧
    (i.matchFile? "/tmp/ΚΑΚΟΣ/a").isSome := by
  have normal : inCapitals.normalized = .ok { filePaths := ["κακος"] } := by decide +kernel
  obtain ⟨law, -⟩ := literalLaw normal
  exact ⟨_, normal, law, law.file _ stands_inCapitals⟩

/-- A file name is not found before its extension, since the point is no end of a word. -/
theorem not_forall_literal : ¬ ∀ (g : IndicatorSource) (i : Indicators), g.normalized = .ok i →
    ∀ values, g.filePaths.elementsIfAny = .ok values → ∀ v ∈ values, Text.trim v.display ≠ "" →
    ∀ path : String, (Text.trim v.display).toList <:+: path.toList → (i.matchFile? path).isSome := by
  intro found
  have normal : inCapitals.normalized = .ok { filePaths := ["κακος"] } := by decide +kernel
  have missed : matchFile? { filePaths := ["κακος"] } "/tmp/ΚΑΚΟΣ.txt" = none := by decide +kernel
  have hit := found inCapitals _ normal _ rfl _ (List.mem_singleton_self _) (by decide) "/tmp/ΚΑΚΟΣ.txt"
    ⟨"/tmp/".toList, ".txt".toList, by decide⟩
  rw [missed] at hit
  cases hit

end Indicators

end HostWatch
