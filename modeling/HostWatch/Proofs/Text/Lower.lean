import HostWatch.Text.Blank
import HostWatch.Text.Case

/-!
# Lower-case characters

What lower case makes of a character is lower case already, and it is blank only if the character is
(`of_mem_lowerChar`). Both are facts about the table of runs: the code points that a run leads to lie between
those of any other one, and away from the blanks (`lowerRuns_leadPast`).
-/

namespace HostWatch.Text

/-- Whether a run of a table is about a code point. -/
def holds (run : Nat × Nat × Nat × Int) (n : Nat) : Bool :=
  decide (run.1 ≤ n) && decide (n ≤ run.2.1) && (n - run.1) % run.2.2.1 == 0

/-- The code points that a run leads to all lie before the other run or behind it, or between its code points. -/
def leadsPast (run other : Nat × Nat × Nat × Int) : Bool :=
  (run.2.1 + run.2.2.2).toNat.blt other.1 || other.2.1.blt (run.1 + run.2.2.2).toNat ||
    (decide (0 ≤ run.1 + run.2.2.2) && (run.2.2.1 == 2 || run.1 == run.2.1) && other.2.2.1 == 2 &&
      (run.1 + run.2.2.2 - other.1) % 2 == 1)

/-- The blanks in the form of a table. -/
def blankRuns : List (Nat × Nat × Nat × Int) := [
  (0x9, 0xd, 1, 0), (0x1c, 0x20, 1, 0), (0x85, 0x85, 1, 0), (0xa0, 0xa0, 1, 0), (0x1680, 0x1680, 1, 0),
  (0x2000, 0x200a, 1, 0), (0x2028, 0x2029, 1, 0), (0x202f, 0x202f, 1, 0), (0x205f, 0x205f, 1, 0),
  (0x3000, 0x3000, 1, 0)]

/-- Lower case has nothing to say on the character. -/
def IsLowered (c : Char) : Prop := c ≠ 'İ' ∧ ∀ run ∈ lowerRuns, holds run c.toNat = false

variable {run other : Nat × Nat × Nat × Int} {n : Nat} {c d : Char}

theorem holds_of_leadsPast (past : leadsPast run other) (h : holds run n) :
    holds other (n + run.2.2.2).toNat = false := by
  obtain ⟨first, last, step, offset⟩ := run
  obtain ⟨first', last', step', offset'⟩ := other
  simp only [leadsPast, Bool.or_eq_true, Bool.and_eq_true, decide_eq_true_eq, beq_iff_eq, Nat.blt_eq] at past
  simp only [holds, Bool.and_eq_true, decide_eq_true_eq, beq_iff_eq] at h
  rw [← Bool.not_eq_true]
  simp only [holds, Bool.and_eq_true, decide_eq_true_eq, beq_iff_eq]
  rintro ⟨⟨behind, before⟩, among⟩
  rcases past with (past | past) | ⟨⟨⟨positive, rfl | rfl⟩, rfl⟩, odd⟩
  · omega
  · omega
  · omega
  · omega

theorem lowerRuns_leadPast : ∀ run ∈ lowerRuns,
    ∀ other ∈ (0x130, 0x130, 1, 0) :: (blankRuns ++ lowerRuns), leadsPast run other := by
  have all : (lowerRuns.all fun run =>
      ((0x130, 0x130, 1, 0) :: (blankRuns ++ lowerRuns)).all (leadsPast run)) := by decide +kernel
  intro run hrun other hother
  exact List.all_eq_true.1 (List.all_eq_true.1 all run hrun) other hother

/-! ### Characters -/

theorem mapByRuns_cases (runs : List (Nat × Nat × Nat × Int)) (c : Char) :
    (∃ run ∈ runs, holds run c.toNat ∧ mapByRuns runs c = Char.ofNat (c.toNat + run.2.2.2).toNat) ∨
      (∀ run ∈ runs, holds run c.toNat = false) ∧ mapByRuns runs c = c := by
  unfold mapByRuns
  split
  · rename_i first last step offset found
    have held := List.find?_some found
    exact .inl ⟨_, List.mem_of_find?_eq_some found, held, rfl⟩
  · rename_i none
    refine .inr ⟨fun run hrun => ?_, rfl⟩
    have free := List.find?_eq_none.1 none run hrun
    exact Bool.eq_false_iff.2 free

/-- What is no character is written as the first one. -/
theorem toNat_ofNat (n : Nat) : (Char.ofNat n).toNat = n ∨ (Char.ofNat n).toNat = 0 := by
  by_cases valid : n.isValidChar
  · exact .inl (by rw [Char.ofNat, dif_pos valid]; rfl)
  · exact .inr (by rw [Char.ofNat, dif_neg valid]; rfl)

theorem isBlank_eq (c : Char) : isBlank c = blankRuns.any fun run => holds run c.toNat := by
  rw [Bool.eq_iff_iff]
  simp [isBlank, blankRuns, holds, Nat.mod_one]
  omega

/-- The table agrees with what is said of the first characters apart from it. -/
theorem mapByRuns_of_ascii (ascii : c.toNat < 128) : mapByRuns lowerRuns c = c.toLower := by
  have letters : ∀ n : Fin 128, (Char.ofNat n).toLower =
      if holds (0x41, 0x5a, 1, 32) n then Char.ofNat (n + 32) else Char.ofNat n := by decide +kernel
  have beyond : lowerRuns.tail.all fun run => Nat.ble 128 run.1 := by decide +kernel
  have letter := letters ⟨c.toNat, ascii⟩
  rw [Char.ofNat_toNat] at letter
  rw [letter]
  rcases mapByRuns_cases lowerRuns c with ⟨run, hrun, held, leads⟩ | ⟨free, same⟩
  · rcases List.mem_cons.1 (show run ∈ (0x41, 0x5a, 1, 32) :: lowerRuns.tail from hrun) with rfl | later
    · rw [if_pos held, leads]
      rfl
    · have behind := Nat.le_of_ble_eq_true (List.all_eq_true.1 beyond run later)
      simp only [holds, Bool.and_eq_true, decide_eq_true_eq] at held
      omega
  · rw [if_neg (by simp [free (0x41, 0x5a, 1, 32) List.mem_cons_self]), same]

theorem lowerChar_eq (c : Char) : lowerChar c = if c = 'İ' then ['i', '\u0307'] else [mapByRuns lowerRuns c] := by
  unfold lowerChar
  split
  · rename_i ascii
    have undotted : c ≠ 'İ' := by
      rintro rfl
      exact absurd ascii (by decide)
    rw [if_neg undotted, mapByRuns_of_ascii ascii]
  · rfl

theorem isLowered_of_all (undotted : c ≠ 'İ') (free : lowerRuns.all fun run => !holds run c.toNat) : IsLowered c := by
  refine ⟨undotted, fun run hrun => ?_⟩
  simpa using List.all_eq_true.1 free run hrun

theorem IsLowered.lowerChar (h : IsLowered c) : lowerChar c = [c] := by
  rw [lowerChar_eq, if_neg h.1]
  rcases mapByRuns_cases lowerRuns c with ⟨run, hrun, held, -⟩ | ⟨-, same⟩
  · rw [h.2 run hrun] at held
    cases held
  · rw [same]

theorem IsLowered.ne_sigma (h : IsLowered c) : c ≠ 'Σ' := by
  rintro rfl
  exact absurd (h.2 (0x3a3, 0x3ab, 1, 32) (by decide)) (by decide)

/-- The code points that a run leads to, on which lower case has nothing to say, and no blanks. -/
theorem lowerRuns_image {run : Nat × Nat × Nat × Int} (hrun : run ∈ lowerRuns) (held : holds run c.toNat) :
    IsLowered (Char.ofNat (c.toNat + run.2.2.2).toNat) ∧
      isBlank (Char.ofNat (c.toNat + run.2.2.2).toNat) = false := by
  have past (other) (hother : other ∈ (0x130, 0x130, 1, 0) :: (blankRuns ++ lowerRuns)) :
      holds other (Char.ofNat (c.toNat + run.2.2.2).toNat).toNat = false := by
    rcases toNat_ofNat (c.toNat + run.2.2.2).toNat with same | zero
    · rw [same]
      exact holds_of_leadsPast (lowerRuns_leadPast run hrun other hother) held
    · have free : ((0x130, 0x130, 1, 0) :: (blankRuns ++ lowerRuns)).all fun other => !holds other 0 := by
        decide +kernel
      rw [zero]
      simpa using List.all_eq_true.1 free other hother
  refine ⟨⟨fun dotted => ?_, fun other hother => past other ?_⟩, ?_⟩
  · have beside := past (0x130, 0x130, 1, 0) (by simp)
    rw [dotted] at beside
    exact absurd beside (by decide)
  · simp [hother]
  · rw [isBlank_eq, List.any_eq_false]
    exact fun other hother => by simp [past other (by simp [hother])]

/-- What lower case makes of a character. -/
theorem of_mem_lowerChar (h : d ∈ lowerChar c) : IsLowered d ∧ (isBlank d → isBlank c) := by
  rw [lowerChar_eq] at h
  split at h
  · simp only [List.mem_cons, List.not_mem_nil, or_false] at h
    rcases h with rfl | rfl
    · exact ⟨isLowered_of_all (by decide) (by decide +kernel), fun blank => absurd blank (by decide)⟩
    · exact ⟨isLowered_of_all (by decide) (by decide +kernel), fun blank => absurd blank (by decide)⟩
  · rename_i undotted
    rw [List.mem_singleton.1 h]
    rcases mapByRuns_cases lowerRuns c with ⟨run, hrun, held, leads⟩ | ⟨free, same⟩
    · obtain ⟨lowered, solid⟩ := lowerRuns_image hrun held
      rw [leads]
      exact ⟨lowered, by simp [solid]⟩
    · rw [same]
      exact ⟨⟨undotted, free⟩, id⟩

end HostWatch.Text
