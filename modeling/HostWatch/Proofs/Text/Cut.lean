/-!
# Where a text is cut

A text may be cut at a separator in several ways. Only one of them leaves no separator behind it
(`cut_last`).
-/

namespace HostWatch

variable {α : Type} {x : α} {l l' r r' : List α}

/-- Two ways to cut a text at a separator: at the same one, or one ends the first part before the other. -/
theorem cut_cases (h : l ++ x :: r = l' ++ x :: r') :
    (l = l' ∧ r = r') ∨ (∃ m, l' = l ++ x :: m ∧ r = m ++ x :: r') ∨
      ∃ m, l = l' ++ x :: m ∧ r' = m ++ x :: r := by
  rcases List.append_eq_append_iff.1 h with ⟨m, hl, hr⟩ | ⟨m, hl, hr⟩
  all_goals
    cases m with
    | nil => simp_all
    | cons c m =>
      simp only [List.cons_append, List.cons.injEq] at hr
      obtain ⟨rfl, hr⟩ := hr
      simp [hl, hr]

/-- The last separator of a text is in one place. -/
theorem cut_last (hr : x ∉ r) (hr' : x ∉ r') (h : l ++ x :: r = l' ++ x :: r') : l = l' ∧ r = r' := by
  rcases cut_cases h with same | ⟨m, -, rfl⟩ | ⟨m, -, rfl⟩
  · exact same
  · simp at hr
  · simp at hr'

end HostWatch
